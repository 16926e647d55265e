import DealDesk.Desk.Floor
import DealDesk.Proofs.Desk.Calls
import DealDesk.Proofs.Desk.Shared

/-!
# Floors

* `FloorTrace` — what the desks of a floor did, in order; `ofDesk` is the part of one desk, `together`
  tells it without the desks.
* `pairwise_pick` — what holds between the doings of one desk, and between those of any two, holds
  between all.
* `Floor.follow_invariant` — what a turn of any desk keeps, a run of the floor keeps.
* `Floor.overDesks` — a quantity summed over the desks.

`Floor.follow_desks` is the main result: what a desk keeps in its own steps, while others use the same
register and broker, holds of each desk of a floor. So each runs with the others about
(`Floor.follow_sharedRun`).
-/

namespace DealDesk

/-- What the desks of a floor did, in order. -/
abbrev FloorTrace := List (Nat × Thread × Event)

namespace FloorTrace

variable {α : Type} {log : FloorTrace} {f : Event → Option α} {m n : Nat} {t : Thread}
  {events : List Event}

/-- What desk `n` did. -/
def ofDesk (log : FloorTrace) (n : Nat) : Trace := (log.filter fun e => e.1 = n).map Prod.snd

/-- What was done, whichever desk did it. -/
def together (log : FloorTrace) : Trace := log.map Prod.snd

/-- What one step of a thread of desk `n` adds. -/
def ofStep (n : Nat) (t : Thread) (events : List Event) : FloorTrace :=
  events.map fun e => (n, t, e)

theorem together_step (log : FloorTrace) (n : Nat) (t : Thread) (events : List Event) :
    together (log ++ ofStep n t events) = log.together ++ Trace.ofStep t events := by
  rw [together, List.map_append, ofStep, List.map_map]
  rfl

theorem ofDesk_cons_self (n : Nat) (e : Thread × Event) (log : FloorTrace) :
    ofDesk ((n, e) :: log) n = e :: log.ofDesk n := by
  rw [ofDesk, List.filter_cons_of_pos (by simp)]
  rfl

theorem ofDesk_step_self (log : FloorTrace) (n : Nat) (t : Thread) (events : List Event) :
    ofDesk (log ++ ofStep n t events) n = log.ofDesk n ++ Trace.ofStep t events := by
  have hall : (ofStep n t events).filter (fun e => e.1 = n) = ofStep n t events := by
    simp [ofStep]
  rw [ofDesk, List.filter_append, hall, List.map_append, ofStep, List.map_map]
  rfl

theorem ofDesk_step_of_ne (h : m ≠ n) (log : FloorTrace) (t : Thread) (events : List Event) :
    ofDesk (log ++ ofStep m t events) n = log.ofDesk n := by
  have hnone : (ofStep m t events).filter (fun e => e.1 = n) = [] := by
    simp [ofStep, h]
  rw [ofDesk, List.filter_append, hnone, List.append_nil, ofDesk]

theorem mem_ofDesk_pick {a : α} :
    a ∈ (log.ofDesk n).pick f ↔ ∃ e ∈ log, e.1 = n ∧ f e.2.2 = some a := by
  constructor
  · intro h
    obtain ⟨e, he, hf⟩ := List.mem_filterMap.1 h
    obtain ⟨e, hm, rfl⟩ := List.mem_map.1 he
    obtain ⟨hlog, hn⟩ := List.mem_filter.1 hm
    exact ⟨e, hlog, by simpa using hn, hf⟩
  · rintro ⟨e, hlog, rfl, hf⟩
    refine List.mem_filterMap.2 ⟨e.2, List.mem_map.2 ⟨e, ?_, rfl⟩, hf⟩
    exact List.mem_filter.2 ⟨hlog, by simp⟩

/-- Whatever is done is done by some desk. -/
theorem exists_ofDesk {a : α} (h : a ∈ log.together.pick f) : ∃ n, a ∈ (log.ofDesk n).pick f := by
  obtain ⟨e, he, hf⟩ := List.mem_filterMap.1 h
  obtain ⟨e, hlog, rfl⟩ := List.mem_map.1 he
  exact ⟨e.1, mem_ofDesk_pick.2 ⟨e, hlog, rfl, hf⟩⟩

/-- What a desk did is part of what was done. -/
theorem ofDesk_sublist (log : FloorTrace) (n : Nat) :
    ((log.ofDesk n).pick f).Sublist (log.together.pick f) :=
  (List.filter_sublist.map _).filterMap _

/-- **What holds between the doings of one desk, and between those of any two, holds between all.** -/
theorem pairwise_pick {R : α → α → Prop} (hown : ∀ n, ((log.ofDesk n).pick f).Pairwise R)
    (hapart : ∀ m n, m ≠ n →
      ∀ a ∈ (log.ofDesk m).pick f, ∀ b ∈ (log.ofDesk n).pick f, R a b) :
    (log.together.pick f).Pairwise R := by
  induction log with
  | nil => exact List.Pairwise.nil
  | cons e log ih =>
    obtain ⟨k, t, event⟩ := e
    have hsub : ∀ n, ((ofDesk log n).pick f).Sublist ((ofDesk ((k, t, event) :: log) n).pick f) :=
      fun n => (((List.sublist_cons_self _ log).filter _).map _).filterMap _
    have hrest := ih (fun n => (hown n).sublist (hsub n)) fun m n hne a ha b hb =>
      hapart m n hne a ((hsub m).subset ha) b ((hsub n).subset hb)
    have hpick : (together ((k, t, event) :: log)).pick f =
        (f event).toList ++ (together log).pick f := Trace.pick_cons f (t, event) _
    have hself : (ofDesk ((k, t, event) :: log) k).pick f =
        (f event).toList ++ (ofDesk log k).pick f := by
      rw [ofDesk_cons_self, Trace.pick_cons]
    have hk := hown k
    rw [hself, List.pairwise_append] at hk
    rw [hpick]
    refine List.pairwise_append.2 ⟨hk.1, hrest, fun a ha b hb => ?_⟩
    obtain ⟨n, hb⟩ := exists_ofDesk hb
    by_cases hkn : k = n
    · subst hkn
      exact hk.2.2 a ha b hb
    · refine hapart k n hkn a ?_ b ((hsub n).subset hb)
      rw [hself]
      exact List.mem_append_left _ ha

end FloorTrace

namespace Floor

variable {β : Type} {b : Nat → Broker β} {f f' f'' : Floor β} {m n : Nat} {d d' e : Desk β}
  {log : FloorTrace} {events : List Event} {schedule : List (Nat × Turn)}

theorem desk?_broker (h : f.desk? n = some d) : d.broker = f.broker := by
  obtain ⟨e, -, rfl⟩ := Option.map_eq_some_iff.1 h
  rfl

/-- After a desk is put back it is there with what the floor holds in its register, and another desk
finds the broker in its new state and nothing of its own changed. -/
theorem desk?_setDesk (hm : f.desk? m = some e) (h : (f.setDesk m d').desk? n = some d) :
    (m = n ∧ ∃ register, d = { d' with register := register }) ∨
    (m ≠ n ∧ ∃ d₁ register, f.desk? n = some d₁ ∧
      d = { d₁ with broker := d'.broker, register := register }) := by
  obtain ⟨⟨r, e⟩, he, rfl⟩ := Option.map_eq_some_iff.1 hm
  obtain ⟨⟨r', e'⟩, he', rfl⟩ := Option.map_eq_some_iff.1 h
  simp only [setDesk, he] at he' ⊢
  by_cases hmn : m = n
  · subst hmn
    rw [List.getElem?_set_self (List.getElem?_eq_some_iff.1 he).1] at he'
    cases he'
    exact .inl ⟨rfl, _, rfl⟩
  · rw [List.getElem?_set_ne hmn] at he'
    exact .inr ⟨hmn, _, _, Option.map_eq_some_iff.2 ⟨_, he', rfl⟩, rfl⟩

/-! ## Runs -/

/-- A turn is a step of one desk, which is put back. -/
theorem step_cases {turn : Turn} (h : f.step b m turn = some (f', events)) :
    ∃ d d', f.desk? m = some d ∧ d.tick (b m) turn = some (d', events) ∧ f' = f.setDesk m d' := by
  rw [Floor.step] at h
  cases hd : f.desk? m with
  | none => rw [hd] at h; cases h
  | some d =>
    rw [hd] at h
    obtain ⟨⟨d', events'⟩, ht, he⟩ := Option.map_eq_some_iff.1 h
    cases he
    exact ⟨d, d', rfl, ht, rfl⟩

theorem follow_cons {turn : Turn} (h : f.follow b ((m, turn) :: schedule) = some (f'', log)) :
    ∃ f' events later, f.step b m turn = some (f', events) ∧
      f'.follow b schedule = some (f'', later) ∧
      log = FloorTrace.ofStep m turn.thread events ++ later := by
  rw [Floor.follow] at h
  cases hs : f.step b m turn with
  | none => rw [hs] at h; cases h
  | some next =>
    obtain ⟨f', events⟩ := next
    rw [hs] at h
    obtain ⟨⟨f'', later⟩, hf, he⟩ := Option.map_eq_some_iff.1 h
    cases he
    exact ⟨f', events, later, rfl, hf, rfl⟩

/-- **What a turn of any desk keeps, a run of the floor keeps.** -/
theorem follow_invariant {P : Floor β → FloorTrace → Prop}
    (hstep : ∀ {f log n d d' turn events}, P f log → f.desk? n = some d →
      d.tick (b n) turn = some (d', events) →
      P (f.setDesk n d') (log ++ FloorTrace.ofStep n turn.thread events)) :
    ∀ {schedule : List (Nat × Turn)} {f f' : Floor β} {log : FloorTrace} (log₀ : FloorTrace),
      P f log₀ → f.follow b schedule = some (f', log) → P f' (log₀ ++ log)
  | [], f, f', log, log₀, h, hrun => by
    cases hrun
    rwa [List.append_nil]
  | (m, turn) :: rest, f, f', log, log₀, h, hrun => by
    obtain ⟨f₁, events, later, hs, hf, rfl⟩ := follow_cons hrun
    obtain ⟨d, d', hd, ht, rfl⟩ := step_cases hs
    have hnext := follow_invariant hstep _ (hstep h hd ht) hf
    rwa [List.append_assoc] at hnext

/-- What the next step of a thread of desk `m` adds to the history of desk `n`. -/
def begun (f : Floor β) (n m : Nat) (t : Thread) : History :=
  if m = n then ((f.desk? n).map (·.begun t)).getD [] else []

/-- The calls made to desk `n` in a run. -/
def calls (b : Nat → Broker β) (n : Nat) : List (Nat × Turn) → Floor β → History
  | [], _ => []
  | (m, turn) :: rest, f =>
    match f.step b m turn with
    | none => []
    | some (f', _) => f.begun n m turn.thread ++ calls b n rest f'

/-- **What a desk keeps in its steps, and while others use its register and its broker, holds of each
desk of a floor**, with the calls made to it and what it did. -/
theorem follow_desks {P : Nat → History → Desk β → Trace → Prop}
    (hstep : ∀ {n h d d' tr turn events}, P n h d tr → d.tick (b n) turn = some (d', events) →
      P n (h ++ d.begun turn.thread) d' (tr ++ Trace.ofStep turn.thread events))
    (hothers : ∀ {n m h d tr s} register, P n h d tr → (b m).Reaches d.broker s →
      P n h { d with broker := s, register := register } tr) :
    ∀ {schedule : List (Nat × Turn)} {f f' : Floor β} {log : FloorTrace} (h₀ : Nat → History)
      (tr₀ : Nat → Trace), (∀ n d, f.desk? n = some d → P n (h₀ n) d (tr₀ n)) →
      f.follow b schedule = some (f', log) → ∀ n d, f'.desk? n = some d →
        P n (h₀ n ++ f.calls b n schedule) d (tr₀ n ++ log.ofDesk n)
  | [], f, f', log, h₀, tr₀, h, hrun => by
    cases hrun
    intro n d hd
    have hn := h n d hd
    rw [Floor.calls, List.append_nil]
    exact (List.append_nil (tr₀ n)).symm ▸ hn
  | (m, turn) :: rest, f, f', log, h₀, tr₀, h, hrun => by
    obtain ⟨f₁, events, later, hs, hf, rfl⟩ := follow_cons hrun
    obtain ⟨e, d', he, ht, rfl⟩ := step_cases hs
    have hnext : ∀ n d, (f.setDesk m d').desk? n = some d →
        P n (h₀ n ++ f.begun n m turn.thread) d
          (tr₀ n ++ (FloorTrace.ofStep m turn.thread events).ofDesk n) := by
      intro n d hd
      rcases desk?_setDesk he hd with ⟨rfl, register, rfl⟩ | ⟨hmn, d₁, register, hd₁, rfl⟩
      · have hown := hothers (m := m) register (hstep (h m e he) ht) .refl
        rw [begun, if_pos rfl, he]
        have htrace := FloorTrace.ofDesk_step_self [] m turn.thread events
        rw [List.nil_append] at htrace
        rw [htrace]
        exact hown
      · have hreach : (b m).Reaches d₁.broker d'.broker := by
          rw [desk?_broker hd₁, ← desk?_broker he]
          exact (Desk.step_cases ht).reaches
        have hother := hothers register (h n d₁ hd₁) hreach
        have htrace := FloorTrace.ofDesk_step_of_ne hmn [] turn.thread events
        rw [List.nil_append] at htrace
        rw [begun, if_neg hmn, List.append_nil, htrace]
        exact (List.append_nil (tr₀ n)).symm ▸ hother
    intro n d hd
    have hlast := follow_desks (P := P) hstep hothers (fun n => h₀ n ++ f.begun n m turn.thread)
      (fun n => tr₀ n ++ (FloorTrace.ofStep m turn.thread events).ofDesk n) hnext hf n d hd
    rw [Floor.calls, hs]
    rw [List.append_assoc, List.append_assoc] at hlast
    have htrace : (FloorTrace.ofStep m turn.thread events ++ later : FloorTrace).ofDesk n =
        (FloorTrace.ofStep m turn.thread events).ofDesk n ++ FloorTrace.ofDesk later n := by
      rw [FloorTrace.ofDesk, List.filter_append, List.map_append]
      rfl
    rw [htrace]
    exact hlast

/-- **Each desk of a floor runs with the others about.** -/
theorem follow_sharedRun {b : Broker β} (hrun : f.follow (fun _ => b) schedule = some (f', log))
    (hd' : f'.desk? n = some d') :
    ∃ d, f.desk? n = some d ∧ Desk.SharedRun b d d' (log.ofDesk n) := by
  have h := follow_desks (P := fun n _ d' tr => ∃ d, f.desk? n = some d ∧ Desk.SharedRun b d d' tr)
    (fun ⟨d, hd, hshared⟩ ht => ⟨d, hd, .turn _ hshared ht⟩)
    (fun register ⟨d, hd, hshared⟩ hreach => ⟨d, hd, .others register hshared hreach⟩)
    (fun _ => []) (fun _ => []) (fun _ d hd => ⟨d, hd, .start⟩) hrun n d' hd'
  exact h

/-! ## Quantities over the desks -/

section Sums

variable {M : Type} [AddCommMonoid M] {g : Desk β → M}

/-- A quantity summed over the desks. -/
def overDesks (g : Desk β → M) (f : Floor β) : M := (f.desks.map fun e => g e.2).sum

/-- Only the desk that is put back counts differently, if what desks share does not count. -/
theorem overDesks_rest
    (hg : ∀ (d : Desk β) s register, g { d with broker := s, register := register } = g d)
    (hd : f.desk? n = some d) :
    ∃ rest, overDesks g f = rest + g d ∧ ∀ d', overDesks g (f.setDesk n d') = rest + g d' := by
  obtain ⟨⟨r, e⟩, he, rfl⟩ := Option.map_eq_some_iff.1 hd
  rw [hg]
  obtain ⟨rest, hsum, hset⟩ := Desk.exists_sum_rest (fun e : Nat × Desk β => g e.2) he
  refine ⟨rest, hsum, fun d' => ?_⟩
  simp only [overDesks, setDesk, he]
  exact hset (r, d')

theorem overDesks_eq_zero
    (hg : ∀ (d : Desk β) s register, g { d with broker := s, register := register } = g d)
    (h : ∀ n d, f.desk? n = some d → g d = 0) : overDesks g f = 0 := by
  refine List.sum_eq_zero fun x hx => ?_
  obtain ⟨e, he, rfl⟩ := List.mem_map.1 hx
  obtain ⟨n, hn⟩ := List.mem_iff_getElem?.1 he
  have hzero := h n _ (Option.map_eq_some_iff.2 ⟨e, hn, rfl⟩)
  rwa [hg] at hzero

end Sums

end Floor

end DealDesk
