import DealDesk.Register.Stats
import Mathlib.Data.List.Induction
import Mathlib.Logic.Function.Basic

/-!
# What the counts by status say

* `Stats.tally` — the statuses of a list that have a count, each with its count.
* `bump_tally` — one more of a status.
* `ofStatuses_eq` — the counts of a list depend on how often each status occurs and on nothing else.
-/

namespace DealDesk

namespace Stats

/-! ## Tallies -/

/-- The statuses in `order` that `n` counts, with their counts. -/
def tally (order : List Status) (n : Status → Nat) : List (Status × Nat) :=
  order.filterMap fun s => if n s = 0 then none else some (s, n s)

theorem tally_cons_zero {order : List Status} {n : Status → Nat} {s : Status} (h : n s = 0) :
    tally (s :: order) n = tally order n := by
  rw [tally, List.filterMap_cons_none (by simp [h])]
  rfl

theorem tally_cons_pos {order : List Status} {n : Status → Nat} {s : Status} (h : n s ≠ 0) :
    tally (s :: order) n = (s, n s) :: tally order n := by
  rw [tally, List.filterMap_cons, if_neg h]
  rfl

theorem tally_congr {order : List Status} {n n' : Status → Nat} (h : ∀ s ∈ order, n s = n' s) :
    tally order n = tally order n' := by
  induction order with
  | nil => rfl
  | cons t order ih =>
    have ht := h t List.mem_cons_self
    have ih := ih fun s hs => h s (List.mem_cons_of_mem _ hs)
    by_cases hn : n t = 0
    · rw [tally_cons_zero hn, tally_cons_zero (ht ▸ hn), ih]
    · rw [tally_cons_pos hn, tally_cons_pos (ht ▸ hn), ih, ht]

/-- A status that comes before all those counted is put in front. -/
theorem bump_first {order : List Status} {n : Status → Nat} {s : Status}
    (h : ∀ t ∈ order, s.rank < t.rank) : bump s (tally order n) = (s, 1) :: tally order n := by
  cases htally : tally order n with
  | nil => rfl
  | cons e rest =>
    have he : e ∈ tally order n := by
      rw [htally]
      exact List.mem_cons_self
    obtain ⟨t, ht, hsome⟩ := List.mem_filterMap.1 he
    split at hsome
    · cases hsome
    · cases hsome
      have hlt := h t ht
      have hne : t ≠ s := fun hts => absurd hlt (by rw [hts]; omega)
      rw [bump, if_neg hne, if_pos hlt]

/-- **One more of a status raises its count alone.** -/
theorem bump_tally {order : List Status} (ho : order.Pairwise fun a b => a.rank < b.rank)
    {s : Status} (hs : s ∈ order) (n : Status → Nat) :
    bump s (tally order n) = tally order (Function.update n s (n s + 1)) := by
  induction order with
  | nil => cases hs
  | cons t order ih =>
    obtain ⟨hlt, ho⟩ := List.pairwise_cons.1 ho
    rcases List.mem_cons.1 hs with rfl | hs'
    · -- the count of the status itself; the rest has other statuses
      have hrest : tally order (Function.update n s (n s + 1)) = tally order n := by
        apply tally_congr
        intro t ht
        refine Function.update_of_ne (fun hts => ?_) _ _
        exact absurd (hlt t ht) (by rw [hts]; omega)
      rw [tally_cons_pos (n := Function.update n s (n s + 1)) (by simp), hrest,
        Function.update_self]
      by_cases hn : n s = 0
      · rw [tally_cons_zero hn, bump_first hlt, hn]
      · rw [tally_cons_pos hn, bump, if_pos rfl]
    · have hts := hlt s hs'
      have hne : t ≠ s := fun h => absurd hts (by rw [h]; omega)
      have hsame : Function.update n s (n s + 1) t = n t := Function.update_of_ne hne _ _
      by_cases hn : n t = 0
      · rw [tally_cons_zero hn, tally_cons_zero (hsame.trans hn), ih ho hs']
      · rw [tally_cons_pos hn, tally_cons_pos (by rw [hsame]; exact hn), bump, if_neg hne,
          if_neg (by omega), ih ho hs', hsame]

/-! ## Counts of a list -/

theorem mem_all (s : Status) : s ∈ Status.all := by
  cases s <;> decide

theorem all_sorted : Status.all.Pairwise fun a b => a.rank < b.rank := by
  decide

/-- **The counts of a list.** -/
theorem ofStatuses_eq (l : List Status) :
    ofStatuses l = { total := l.length, byStatus := tally Status.all l.count } := by
  induction l using List.reverseRecOn with
  | nil => rfl
  | append_singleton l s ih =>
    have hcount : Function.update l.count s (l.count s + 1) = (l ++ [s]).count := by
      funext t
      by_cases hts : t = s
      · subst hts
        rw [Function.update_self, List.count_append, List.count_singleton_self]
      · rw [Function.update_of_ne hts, List.count_append, List.count_singleton,
          if_neg (by simpa using fun h => hts h.symm), Nat.add_zero]
    rw [ofStatuses, List.foldl_append, ← ofStatuses, ih, List.foldl_cons, List.foldl_nil, add,
      bump_tally all_sorted (mem_all s), hcount, List.length_append]
    rfl

/-- The order of a list plays no part. -/
theorem ofStatuses_perm {l l' : List Status} (h : l.Perm l') : ofStatuses l = ofStatuses l' := by
  have hcount : l.count = l'.count := funext fun s => h.count_eq s
  rw [ofStatuses_eq, ofStatuses_eq, h.length_eq, hcount]

theorem get?_tally_zero {order : List Status} {n : Status → Nat} {s : Status} (h : n s = 0) :
    Table.get? (tally order n) s = none := by
  induction order with
  | nil => rfl
  | cons t order ih =>
    by_cases hn : n t = 0
    · rw [tally_cons_zero hn, ih]
    · have hts : t ≠ s := fun hts => hn (hts ▸ h)
      rw [tally_cons_pos hn, Table.get?, if_neg hts, ih]

theorem get?_tally {order : List Status} {n : Status → Nat} {s : Status} (hs : s ∈ order) :
    (Table.get? (tally order n) s).getD 0 = n s := by
  by_cases hzero : n s = 0
  · rw [get?_tally_zero hzero, hzero]
    rfl
  · induction order with
    | nil => cases hs
    | cons t order ih =>
      by_cases hts : t = s
      · rw [hts, tally_cons_pos hzero, Table.get?, if_pos rfl]
        rfl
      · have hs : s ∈ order := (List.mem_cons.1 hs).resolve_left fun h => hts h.symm
        by_cases hn : n t = 0
        · rw [tally_cons_zero hn, ih hs]
        · rw [tally_cons_pos hn, Table.get?, if_neg hts, ih hs]

/-- **The count of a status.** -/
theorem count_ofStatuses (l : List Status) (s : Status) : (ofStatuses l).count s = l.count s := by
  rw [ofStatuses_eq]
  exact get?_tally (mem_all s)

end Stats

end DealDesk
