import DealDesk.Proofs.Desk.Submissions

/-!
# The numbers that a counter hands out

* `Desk.inFlight` — the numbers drawn for items that are not yet enqueued.
* `Moves.inFlight_cases` — a step takes over numbers in flight, or draws the next one.
* `Issued` — the numbers of accepted items and those in flight are different numbers of the counter.

`follow_issued` is the main result: it holds of what a desk does from any state on. `Issued.step` has it
of a desk that others share the counter with.
-/

namespace DealDesk

namespace Desk

variable {β : Type} {b : Broker β} {t : Thread} {d d' d₀ : Desk β} {events : List Event} {tr : Trace}

/-- The numbers of the items about to be enqueued. -/
def inFlight (d : Desk β) : Multiset UInt64 := overThreads (fun p => ↑(Pending.drawn p)) d

/-- **A step takes over numbers in flight or draws the next one.** -/
theorem Moves.inFlight_cases (hz : d.Asleep) (h : Moves b t d d' events) :
    (↑((events.filterMap Event.accepted?).map (·.sequence)) + d'.inFlight ≤ d.inFlight ∧
      d'.register.nextSequence = d.register.nextSequence ∧
      d'.undrawn = d.undrawn + (events.filterMap Event.received?).length) ∨
    (events.filterMap Event.accepted? = [] ∧ events.filterMap Event.received? = [] ∧
      d'.inFlight = {d.register.nextSequence} + d.inFlight ∧
      d'.register.nextSequence = d.register.nextSequence + 1 ∧ d.undrawn = d'.undrawn + 1) := by
  have hundrawn := h.undrawn_add hz
  have hflight := h.overThreads_add (f := fun p => (↑(Pending.drawn p) : Multiset UInt64)) rfl hz
  rcases h.drawn_cases hz with ⟨hsub, hsame, hdraws⟩ |
    ⟨hnone, hnone', hdrawn', hsucc, hdraws, hdraws', hdrawn⟩
  · refine .inl ⟨?_, hsame, by omega⟩
    have hle := Multiset.coe_le.2 hsub.subperm
    rw [← Multiset.coe_add] at hle
    refine (add_le_add_iff_right (↑(Pending.drawn (d.pending? t)) : Multiset UInt64)).1 ?_
    calc _ = _ + (d'.inFlight + ↑(Pending.drawn (d.pending? t))) := add_assoc _ _ _
      _ = d.inFlight + (↑((events.filterMap Event.accepted?).map (·.sequence)) +
          ↑(Pending.drawn (d'.pending? t))) := by rw [inFlight, hflight, inFlight]; ac_rfl
      _ ≤ _ := add_le_add_right hle _
  · refine .inr ⟨hnone, hnone', ?_, hsucc, by omega⟩
    rw [hdrawn, hdrawn'] at hflight
    rw [inFlight, inFlight, add_comm]
    exact (add_zero _).symm.trans hflight

/-- From a time on the counter has handed out so many numbers from `first` on, one for each order taken
up that is not still to be numbered; and the numbers of the items accepted since then and those in
flight are among these and the ones in flight before, none twice. -/
def Issued (before : Multiset UInt64) (first : UInt64) (unnumbered : Nat) (next : UInt64)
    (undrawn : Nat) (inFlight : Multiset UInt64) (tr : Trace) : Prop :=
  ∃ drawn, next = first + UInt64.ofNat drawn ∧ drawn + undrawn = unnumbered + tr.received.length ∧
    ↑(tr.accepted.map (·.sequence)) + inFlight ≤ before + ↑(counted first drawn)

/-- **A step hands out the next number, or none**; `more` and `others` are what other desks have to
draw and have in flight. -/
theorem Issued.step {before others : Multiset UInt64} {first : UInt64} {unnumbered more : Nat}
    (hi : Issued before first unnumbered d.register.nextSequence (more + d.undrawn)
      (others + d.inFlight) tr) (hz : d.Asleep) (h : Moves b t d d' events) :
    Issued before first unnumbered d'.register.nextSequence (more + d'.undrawn)
      (others + d'.inFlight) (tr ++ Trace.ofStep t events) := by
  obtain ⟨drawn, hnext, hcount, hnumbers⟩ := hi
  rw [Issued, Trace.received, Trace.pick_step, ← Trace.received, List.length_append,
    Trace.accepted_step, List.map_append, ← Multiset.coe_add]
  rcases h.inFlight_cases hz with ⟨hle, hsame, hdraws⟩ | ⟨hnone, hnone', hdrew, hsucc, hdraws⟩
  · refine ⟨drawn, hsame.trans hnext, by omega, le_trans ?_ hnumbers⟩
    calc ↑(tr.accepted.map (·.sequence)) + ↑((events.filterMap Event.accepted?).map (·.sequence)) +
          (others + d'.inFlight)
        = ↑(tr.accepted.map (·.sequence)) + others +
            (↑((events.filterMap Event.accepted?).map (·.sequence)) + d'.inFlight) := by ac_rfl
      _ ≤ ↑(tr.accepted.map (·.sequence)) + others + d.inFlight := add_le_add_right hle _
      _ = _ := add_assoc _ _ _
  · refine ⟨drawn + 1, ?_, ?_, ?_⟩
    · rw [hsucc, hnext, UInt64.ofNat_add, add_assoc]
      rfl
    · rw [hnone', List.length_nil]
      omega
    · rw [hnone, hdrew, counted_concat, ← hnext, ← Multiset.coe_add, List.map_nil, Multiset.coe_nil,
        add_zero]
      calc ↑(tr.accepted.map (·.sequence)) + (others + ({d.register.nextSequence} + d.inFlight))
          = ↑(tr.accepted.map (·.sequence)) + (others + d.inFlight) + {d.register.nextSequence} := by
            ac_rfl
        _ ≤ before + ↑(counted first drawn) + {d.register.nextSequence} :=
          add_le_add_left hnumbers _
        _ = _ := add_assoc _ _ _

theorem Issued.start (before : Multiset UInt64) (first : UInt64) (unnumbered : Nat) :
    Issued before first unnumbered first unnumbered before [] :=
  ⟨0, (add_zero _).symm, zero_add _, le_of_eq (add_comm _ _)⟩

/-- No two items that a counter numbered have the same number. -/
theorem Issued.accepted_nodup {first next : UInt64} {undrawn : Nat} {inFlight : Multiset UInt64}
    (h : Issued 0 first 0 next undrawn inFlight tr) (hbound : tr.received.length ≤ UInt64.size) :
    (tr.accepted.map (·.sequence)).Nodup := by
  obtain ⟨drawn, -, hcount, hnumbers⟩ := h
  rw [zero_add] at hcount hnumbers
  exact Multiset.coe_nodup.1 (Multiset.nodup_of_le ((Multiset.le_add_right _ _).trans hnumbers)
    (Multiset.coe_nodup.2 (counted_nodup first (by omega))))

/-- **The numbers that a desk issues from a state on.** -/
theorem follow_issued {schedule : List Turn} (hz : d₀.Asleep)
    (hrun : d₀.follow b schedule = some (d, tr)) :
    Issued d₀.inFlight d₀.register.nextSequence d₀.undrawn d.register.nextSequence d.undrawn
      d.inFlight tr := by
  have hstart := Issued.start d₀.inFlight d₀.register.nextSequence d₀.undrawn
  have h := follow_invariant (b := b) (P := fun d tr => d.Asleep ∧
      Issued d₀.inFlight d₀.register.nextSequence d₀.undrawn d.register.nextSequence (0 + d.undrawn)
        (0 + d.inFlight) tr)
    (fun _ h => h) (fun h hm => ⟨hm.asleep h.1, h.2.step h.1 hm⟩)
    ⟨hz, by rwa [zero_add, zero_add]⟩ hrun
  have hissued := h.2
  rwa [zero_add, zero_add] at hissued

end Desk

end DealDesk
