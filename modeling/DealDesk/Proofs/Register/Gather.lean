import DealDesk.Table
import Mathlib.Data.List.Induction
import Mathlib.Data.List.Nodup
import Mathlib.Data.List.Perm.Basic

/-!
# Tables that gather lists

* `Table.gather` — the values of a list under their keys, each key with its values in order.
* `Table.getD_gather`, `mem_keys_gather`, `flatten_gather` — which values it holds under a key,
  which keys it has, and that it holds every value once.
* `Table.get?_map_iff` — a table of values that name their own keys.
-/

namespace DealDesk

namespace Table

variable {κ ν α : Type} [DecidableEq κ]

/-! ## Keys -/

theorem get?_eq_none {t : Table κ ν} {k : κ} (h : k ∉ t.keys) : t.get? k = none := by
  induction t with
  | nil => rfl
  | cons e rest ih =>
    have hk : e.1 ≠ k := fun he => h (he ▸ List.mem_cons_self)
    rw [get?, if_neg hk]
    exact ih fun hm => h (List.mem_cons_of_mem _ hm)

theorem put_of_not_mem {t : Table κ ν} {k : κ} (v : ν) (h : k ∉ t.keys) :
    t.put k v = t ++ [(k, v)] := by
  induction t with
  | nil => rfl
  | cons e rest ih =>
    have hk : e.1 ≠ k := fun he => h (he ▸ List.mem_cons_self)
    rw [put, if_neg hk, ih fun hm => h (List.mem_cons_of_mem _ hm), List.cons_append]

theorem mem_of_get? {t : Table κ ν} {k : κ} {v : ν} (h : t.get? k = some v) : (k, v) ∈ t := by
  induction t with
  | nil => cases h
  | cons e rest ih =>
    rw [get?] at h
    split at h
    · next hk =>
      cases h
      rw [← hk]
      exact List.mem_cons_self
    · exact List.mem_cons_of_mem _ (ih h)

theorem mem_put {t : Table κ ν} {k : κ} {v : ν} {e : κ × ν} (h : e ∈ t.put k v) :
    e ∈ t ∨ e = (k, v) := by
  induction t with
  | nil => exact .inr (List.mem_singleton.mp h)
  | cons e' rest ih =>
    rw [put] at h
    split at h
    · exact (List.mem_cons.mp h).symm.imp_left (List.mem_cons_of_mem _)
    · rcases List.mem_cons.mp h with rfl | h
      · exact .inl List.mem_cons_self
      · exact (ih h).imp_left (List.mem_cons_of_mem _)

/-- A key that is present keeps its place. -/
theorem keys_put (t : Table κ ν) (k : κ) (v : ν) :
    (t.put k v).keys = if k ∈ t.keys then t.keys else t.keys ++ [k] := by
  induction t with
  | nil => rfl
  | cons e rest ih =>
    by_cases hk : e.1 = k
    · simp [put, keys, hk]
    · have hk' : k ≠ e.1 := fun h => hk h.symm
      have hm : k ∈ keys (e :: rest) ↔ k ∈ keys rest := by simp [keys, hk']
      rw [put, if_neg hk]
      show e.1 :: (put rest k v).keys = _
      rw [ih]
      by_cases hr : k ∈ keys rest
      · rw [if_pos hr, if_pos (hm.2 hr)]
        rfl
      · rw [if_neg hr, if_neg (mt hm.1 hr)]
        rfl

theorem mem_keys_put {t : Table κ ν} {k k' : κ} {v : ν} :
    k' ∈ (t.put k v).keys ↔ k' ∈ t.keys ∨ k' = k := by
  rw [keys_put]
  split
  · rename_i hk
    exact ⟨.inl, fun h => h.elim id fun he => he ▸ hk⟩
  · rw [List.mem_append, List.mem_singleton]

/-- No key is entered twice. -/
theorem nodup_keys_put {t : Table κ ν} (h : t.keys.Nodup) (k : κ) (v : ν) :
    (t.put k v).keys.Nodup := by
  rw [keys_put]
  split
  · exact h
  · rename_i hk
    exact h.append (List.nodup_singleton k) (List.disjoint_singleton.2 hk)

/-- A table holds what is found in it, if no key is entered twice. -/
theorem mem_iff_get? {t : Table κ ν} (h : t.keys.Nodup) {k : κ} {v : ν} :
    (k, v) ∈ t ↔ t.get? k = some v := by
  induction t with
  | nil => simp [get?]
  | cons e rest ih =>
    obtain ⟨k', v'⟩ := e
    obtain ⟨hnew, hrest⟩ := List.nodup_cons.1 h
    rw [List.mem_cons, ih hrest, get?]
    by_cases hk : k' = k
    · subst hk
      have hnone : get? rest k' = none := get?_eq_none hnew
      rw [if_pos rfl, hnone]
      simp [eq_comm]
    · rw [if_neg hk]
      have hne : (k, v) ≠ (k', v') := fun he => hk (congrArg Prod.fst he).symm
      exact or_iff_right hne

/-- What is found in a table does not depend on the order of its rows. -/
theorem get?_perm {t t' : Table κ ν} (h : t.Perm t') (hn : t.keys.Nodup) (k : κ) :
    t.get? k = t'.get? k := by
  have hn' : t'.keys.Nodup := (h.map Prod.fst).nodup_iff.1 hn
  refine Option.ext fun v => ?_
  rw [← mem_iff_get? hn, ← mem_iff_get? hn', h.mem_iff]

/-- A table of values under the keys that they name. -/
theorem get?_map (key : ν → κ) (l : List ν) (k : κ) :
    get? (l.map fun v => (key v, v)) k = l.find? fun v => key v = k := by
  induction l with
  | nil => rfl
  | cons v l ih =>
    by_cases hk : key v = k
    · rw [List.map_cons, get?, if_pos hk, List.find?_cons_of_pos (by simpa using hk)]
    · rw [List.map_cons, get?, if_neg hk, List.find?_cons_of_neg (by simpa using hk), ih]

/-- **A value that names its own key is found under it.** -/
theorem get?_map_iff {key : ν → κ} {l : List ν} (hn : (l.map key).Nodup) {k : κ} {v : ν} :
    get? (l.map fun v => (key v, v)) k = some v ↔ v ∈ l ∧ key v = k := by
  rw [get?_map]
  constructor
  · intro h
    exact ⟨List.mem_of_find?_eq_some h, by simpa using List.find?_some h⟩
  · rintro ⟨hv, rfl⟩
    cases hfind : l.find? fun v' => key v' = key v with
    | none => exact absurd (List.find?_eq_none.1 hfind v hv) (by simp)
    | some v' =>
      have hk : key v' = key v := by simpa using List.find?_some hfind
      rw [List.inj_on_of_nodup_map hn (List.mem_of_find?_eq_some hfind) hv hk]

/-! ## Gathering -/

/-- The values of a list under their keys. -/
def gather (key : α → κ) (value : α → ν) (l : List α) : Table κ (List ν) :=
  l.foldl (fun t a => t.update (key a) [] (· ++ [value a])) []

variable {key : α → κ} {value : α → ν}

theorem gather_concat (l : List α) (a : α) :
    gather key value (l ++ [a]) = (gather key value l).update (key a) [] (· ++ [value a]) := by
  rw [gather, List.foldl_append]
  rfl

/-- **The values of a key, in the order of the list.** -/
theorem getD_gather (l : List α) (k : κ) :
    ((gather key value l).get? k).getD [] = (l.filter fun a => key a = k).map value := by
  induction l using List.reverseRecOn with
  | nil => rfl
  | append_singleton l a ih =>
    rw [gather_concat, update, List.filter_append, List.map_append]
    by_cases hk : key a = k
    · subst hk
      rw [get?_put_self, Option.getD_some, ih, List.filter_cons_of_pos (by simp)]
      rfl
    · rw [get?_put_of_ne _ _ hk, ih, List.filter_cons_of_neg (by simpa using hk)]
      exact (List.append_nil _).symm

theorem mem_keys_gather {l : List α} {k : κ} :
    k ∈ (gather key value l).keys ↔ ∃ a ∈ l, key a = k := by
  induction l using List.reverseRecOn with
  | nil => simp [gather, keys]
  | append_singleton l a ih =>
    rw [gather_concat, update, mem_keys_put, ih]
    simp [or_and_right, exists_or, eq_comm]

theorem flatten_put (t : Table κ (List ν)) (k : κ) (v : ν) :
    (t.update k [] (· ++ [v])).values.flatten.Perm (t.values.flatten ++ [v]) := by
  induction t with
  | nil => exact List.Perm.refl _
  | cons e rest ih =>
    by_cases hk : e.1 = k
    · have hr : update (e :: rest) k [] (· ++ [v]) = (k, e.2 ++ [v]) :: rest := by
        simp [update, put, get?, hk]
      rw [hr]
      show (e.2 ++ [v] ++ (values rest).flatten).Perm (e.2 ++ (values rest).flatten ++ [v])
      rw [List.append_assoc, List.append_assoc]
      exact List.Perm.append_left _ List.perm_append_comm
    · have hr : update (e :: rest) k [] (· ++ [v]) = e :: update rest k [] (· ++ [v]) := by
        simp [update, put, get?, hk]
      rw [hr]
      show (e.2 ++ (values (update rest k [] (· ++ [v]))).flatten).Perm
        (e.2 ++ (values rest).flatten ++ [v])
      rw [List.append_assoc]
      exact List.Perm.append_left _ ih

/-- **Every value is held once.** -/
theorem flatten_gather (l : List α) : (gather key value l).values.flatten.Perm (l.map value) := by
  induction l using List.reverseRecOn with
  | nil => exact List.Perm.refl _
  | append_singleton l a ih =>
    rw [gather_concat, List.map_append]
    exact (flatten_put _ _ _).trans (List.Perm.append_right _ ih)

end Table

end DealDesk
