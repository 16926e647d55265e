import DealDesk.Proofs.Desk.Calls
import DealDesk.Proofs.Desk.Line
import DealDesk.Proofs.Desk.Numbers
import DealDesk.Proofs.Register.Arrival

/-!
# Numbers and the line

A thread draws the number of an order in one step and puts it into the line in a later one. So the
line is in the order of the second steps and the register lists by the first.

* `follow_waiting` — what waits was accepted last, and stands in the order in which it was.
* `Issued.before` — an item accepted later has the greater number, unless its number was in flight.

`numbers_follow_draws` is the main result. That a thread is overtaken between its two steps does occur
(`overtaken_between_draw_and_line`).
-/

namespace DealDesk

namespace Desk

variable {β : Type} {b : Broker β} {t : Thread} {d d' d₀ d₁ d₂ : Desk β} {events : List Event}
  {tr tr₁ tr₂ : Trace} {schedule schedule₁ schedule₂ : List Turn}

/-! ## The line -/

/-- A step takes from the front of the line and puts at its end. -/
theorem Moves.waiting_suffix (hz : d.Asleep) (h : Moves b t d d' events) :
    d'.backlog.items <:+ d.backlog.items ++ events.filterMap Event.accepted? := by
  rcases h.call_cases hz with ⟨q, q', d₁, -, -, -, hperforms, hsame⟩ | ⟨-, -, -, hidle⟩
  · rw [hsame.backlog, hperforms.frame.items]
  · rw [hidle.accepted, List.append_nil]
    exact hidle.waiting

/-- **What waits was accepted last.** -/
theorem follow_waiting {settings : Settings} {s : β} {register : Register}
    {programs : List (List Call)} (hopen : open? settings s register = .ok d₀)
    (hrun : (d₀.withCallers programs).follow b schedule = some (d, tr)) :
    d.backlog.items <:+ tr.accepted := by
  obtain ⟨rfl, -⟩ := open?_eq hopen
  have hstart : ((closed settings s register).withCallers programs).backlog.items <:+
      Trace.accepted [] := List.suffix_rfl
  have h := follow_invariant (b := b)
    (P := fun d tr => d.Asleep ∧ d.backlog.items <:+ Trace.accepted tr) (fun _ h => h)
    (fun {d d' tr t events} h hm => ⟨hm.asleep h.1, ?_⟩) ⟨fun _ => rfl, hstart⟩ hrun
  · exact h.2
  · obtain ⟨gone, hgone⟩ := h.2
    rw [Trace.accepted_step, ← hgone, List.append_assoc]
    exact (hm.waiting_suffix h.1).trans (List.suffix_append _ _)

/-! ## Numbers in the order of draws -/

/-- **Only what is in flight can be overtaken.** -/
theorem Issued.before {first next next' : UInt64} {undrawn undrawn' : Nat}
    {inFlight inFlight' : Multiset UInt64}
    (h₁ : Issued 0 first 0 next undrawn inFlight tr₁)
    (h₂ : Issued inFlight next undrawn next' undrawn' inFlight' tr₂)
    (hbound : first.toNat + (tr₁ ++ tr₂).received.length ≤ UInt64.size) :
    ∀ i ∈ tr₁.accepted, ∀ j ∈ tr₂.accepted, i.sequence < j.sequence ∨ j.sequence ∈ inFlight := by
  obtain ⟨m, rfl, hcount₁, hnumbers₁⟩ := h₁
  obtain ⟨n, -, hcount₂, hnumbers₂⟩ := h₂
  have hreceived : (tr₁ ++ tr₂).received.length = tr₁.received.length + tr₂.received.length := by
    rw [Trace.received, Trace.pick_append, List.length_append, Trace.received, Trace.received]
  intro i hi j hj
  have hi : i.sequence ∈ counted first m := by
    have hmem := Multiset.mem_of_le ((Multiset.le_add_right _ _).trans hnumbers₁)
      (Multiset.mem_coe.2 (List.mem_map_of_mem hi))
    rwa [zero_add] at hmem
  have hj := Multiset.mem_of_le ((Multiset.le_add_right _ _).trans hnumbers₂)
    (Multiset.mem_coe.2 (List.mem_map_of_mem hj))
  rcases Multiset.mem_add.1 hj with hj | hj
  · exact .inr hj
  · -- both numbers were drawn in one round of the counter, that of `j` later
    have hgrow := counted_increasing first (n := m + n) (by omega)
    rw [counted_append, List.pairwise_append] at hgrow
    exact .inl (hgrow.2.2 _ hi _ hj)

/-- **Numbers follow the draws, the line follows the acceptances.** What waits stands in the order of
acceptance, and one worker records in this order. As long as the counter does not come to its end,
each item has a number of its own, and those of one thread grow; an item that is accepted later has
the greater number, unless this had been drawn when the earlier one was accepted. A register of the
desk's own lists by these numbers. -/
theorem numbers_follow_draws {settings : Settings} {s : β} {register : Register}
    {programs : List (List Call)} (hopen : open? settings s register = .ok d₀)
    (hrun₁ : (d₀.withCallers programs).follow b schedule₁ = some (d₁, tr₁))
    (hrun₂ : d₁.follow b schedule₂ = some (d₂, tr₂)) :
    d₂.backlog.items <:+ (tr₁ ++ tr₂).accepted ∧
    (settings.workers = 1 → (tr₁ ++ tr₂).recorded.map Prod.fst <+: (tr₁ ++ tr₂).accepted) ∧
    (register.nextSequence.toNat + (tr₁ ++ tr₂).received.length ≤ UInt64.size →
      ((tr₁ ++ tr₂).accepted.map (·.sequence)).Nodup ∧
      (∀ t, (((tr₁ ++ tr₂).ofThread t).accepted.map (·.sequence)).Pairwise (· < ·)) ∧
      (∀ i ∈ tr₁.accepted, ∀ j ∈ tr₂.accepted,
        i.sequence < j.sequence ∨ j.sequence ∈ d₁.inFlight) ∧
      (register = Register.empty →
        (d₂.register.all.Pairwise fun a b => a.sequence < b.sequence) ∧
        ∀ c, (d₂.register.ofClient c).Pairwise fun a b => a.sequence < b.sequence)) := by
  have hrun := follow_append hrun₁ hrun₂
  have hwaiting := follow_waiting hopen hrun
  have hdrawn := follow_submissions hopen hrun
  have htended := follow_tended hopen hrun
  have hasleep : d₁.Asleep := (follow_tended hopen hrun₁).asleep
  refine ⟨hwaiting, fun hone => Alone.recorded_prefix (follow_alone hopen hone hrun),
    fun hbound => ?_⟩
  have hcustody : register = Register.empty → Custody d₂ (tr₁ ++ tr₂) := by
    rintro rfl
    exact follow_custody hopen hrun
  obtain ⟨rfl, -⟩ := open?_eq hopen
  have hz : ((closed settings s register).withCallers programs).Asleep := fun _ => rfl
  have hundrawn : ((closed settings s register).withCallers programs).undrawn = 0 :=
    overThreads_start rfl settings s register programs
  have hflight : ((closed settings s register).withCallers programs).inFlight = 0 :=
    overThreads_start rfl settings s register programs
  have hissued₁ := follow_issued hz hrun₁
  have hissued := follow_issued hz hrun
  rw [hundrawn, hflight] at hissued hissued₁
  have hnodup := hissued.accepted_nodup (by omega)
  obtain ⟨drawn, hcount, hthreads⟩ := hdrawn.sequences
  refine ⟨hnodup, fun t => ?_, hissued₁.before (follow_issued hasleep hrun₂) hbound, fun hown => ?_⟩
  · exact (counted_increasing register.nextSequence (by omega)).sublist (hthreads t)
  · have hseq := Settles.sequences_nodup htended.settles htended.recorded_subperm hnodup
    obtain ⟨hall, hclients⟩ := Register.lists_strictly_sorted hseq
    rw [(hcustody hown).register]
    exact ⟨hall, hclients⟩

/-- One thread has drawn a number, and another one has its order in the line with the next. -/
def drawnAndOvertaken : Option (Desk Scripted × Trace) :=
  ((closed oneWorker lossy Register.empty).withCallers
    [[.start, .submit (plainOrder "r-1") none, .submit (plainOrder "r-3") none],
      [.submit (plainOrder "r-2") none]]).follow Scripted.broker
    (turns (.caller 0) 3 ++ turns (.caller 1) 3)

/-- The first thread puts its orders into the line, and the worker settles all three. -/
def settledAfterwards (d : Desk Scripted) : Option (Desk Scripted × Trace) :=
  d.follow Scripted.broker (turns (.caller 0) 4 ++ turns (.worker 0) 21)

theorem numbers_follow_draws_overtaken : ∃ d₁, ∃ tr₁ : Trace, ∃ d₂, ∃ tr₂ : Trace,
    drawnAndOvertaken = some (d₁, tr₁) ∧ settledAfterwards d₁ = some (d₂, tr₂) ∧
    tr₁.accepted.map (·.sequence) = [1] ∧ tr₂.accepted.map (·.sequence) = [0, 2] ∧
    (∀ i ∈ tr₁.accepted, ∀ j ∈ tr₂.accepted, i.sequence < j.sequence ∨ j.sequence ∈ d₁.inFlight) ∧
    (tr₁ ++ tr₂).recorded.map Prod.fst <+: (tr₁ ++ tr₂).accepted ∧
    d₂.register.all.Pairwise fun a b => a.sequence < b.sequence := by
  have hrun : drawnAndOvertaken.bind (fun r₁ => (settledAfterwards r₁.1).map fun r₂ =>
      ((Trace.accepted r₁.2).map (·.sequence), (Trace.accepted r₂.2).map (·.sequence),
        (Trace.received (r₁.2 ++ r₂.2)).length)) = some ([1], [0, 2], 3) := by
    decide +kernel
  obtain ⟨⟨d₁, tr₁⟩, hrun₁, hrun⟩ := Option.bind_eq_some_iff.1 hrun
  obtain ⟨⟨d₂, tr₂⟩, hrun₂, hvalues⟩ := Option.map_eq_some_iff.1 hrun
  simp only [Prod.mk.injEq] at hvalues
  obtain ⟨haccepted₁, haccepted₂, hreceived⟩ := hvalues
  have hopen : open? oneWorker lossy Register.empty =
    .ok (closed oneWorker lossy Register.empty) := rfl
  obtain ⟨-, hline, hnumbers⟩ := numbers_follow_draws hopen hrun₁ hrun₂
  obtain ⟨-, -, hlater, hlists⟩ := hnumbers (by rw [hreceived]; decide)
  exact ⟨d₁, tr₁, d₂, tr₂, hrun₁, hrun₂, haccepted₁, haccepted₂, hlater, hline rfl, (hlists rfl).1⟩

/-- **The line is not in the order of the numbers.** The greater number stands in front of the smaller
one, the only worker records in this order, and the register lists in the other. -/
theorem overtaken_between_draw_and_line :
    ∃ d₁, ∃ tr₁ : Trace, ∃ d₂, ∃ tr₂ : Trace, ∃ d₃, ∃ tr₃ : Trace,
      drawnAndOvertaken = some (d₁, tr₁) ∧
      d₁.follow Scripted.broker (turns (.caller 0) 1) = some (d₂, tr₂) ∧
      d₂.backlog.items.map (·.sequence) = [1, 0] ∧
      settledAfterwards d₁ = some (d₃, tr₃) ∧
      (tr₁ ++ tr₃).recorded.map (fun e => e.2.sequence) = [1, 0, 2] ∧
      d₃.register.all.map (·.sequence) = [0, 1, 2] := by
  have hqueued : drawnAndOvertaken.bind (fun r₁ =>
      (r₁.1.follow Scripted.broker (turns (.caller 0) 1)).map fun r₂ =>
        r₂.1.backlog.items.map (·.sequence)) = some [1, 0] := by
    decide +kernel
  have hsettled : drawnAndOvertaken.bind (fun r₁ => (settledAfterwards r₁.1).map fun r₃ =>
      ((Trace.recorded (r₁.2 ++ r₃.2)).map fun e => e.2.sequence,
        r₃.1.register.entries.map (·.sequence))) = some ([1, 0, 2], [1, 0, 2]) := by
    decide +kernel
  obtain ⟨⟨d₁, tr₁⟩, hrun₁, hqueued⟩ := Option.bind_eq_some_iff.1 hqueued
  obtain ⟨⟨d₂, tr₂⟩, hrun₂, hqueued⟩ := Option.map_eq_some_iff.1 hqueued
  rw [hrun₁] at hsettled
  obtain ⟨⟨d₃, tr₃⟩, hrun₃, hsettled⟩ := Option.map_eq_some_iff.1 hsettled
  obtain ⟨hrecorded, hentries⟩ := Prod.mk.inj hsettled
  have hlisted : d₃.register.all.map (·.sequence) = [0, 1, 2] := by
    have hsorted : (d₃.register.all.map (·.sequence)).Pairwise (· < ·) :=
      List.pairwise_map.2 (Register.all_strictly_sorted (by rw [hentries]; decide))
    have hperm : (d₃.register.all.map (·.sequence)).Perm [1, 0, 2] :=
      hentries ▸ (List.mergeSort_perm _ _).map _
    exact List.Perm.eq_of_pairwise (fun a b _ _ hab hba => absurd hab (UInt64.lt_asymm hba))
      hsorted (by decide) (hperm.trans (by decide))
  exact ⟨d₁, tr₁, d₂, tr₂, d₃, tr₃, hrun₁, hrun₂, hqueued, hrun₃, hrecorded, hlisted⟩

end Desk

end DealDesk
