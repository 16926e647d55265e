import DealDesk.Proofs.Desk.Floors
import DealDesk.Proofs.Desk.Lifetime
import DealDesk.Proofs.Desk.Line
import DealDesk.Proofs.Desk.Numbers
import DealDesk.Proofs.Register.Arrival

/-!
# Desks that share a register

* `Joint` — over all desks of a floor: each accepted item waits, is in hand or is recorded; the numbers
  of the accepted items and of those about to be enqueued are different numbers of the one counter; and
  the register holds what was recorded, in the order in which it was.
* `NamesApart` — no two desks accepted items of one name.

`one_register_keeps_all` is the main result. Without `NamesApart` a desk can replace what another one
recorded, and then the order in which they record shows (`completion_order_shows`).
-/

namespace DealDesk

open Desk

namespace Desk

variable {β : Type}

/-- The items that wait or are in a worker's hands. -/
def onHand (d : Desk β) : Multiset Item := ↑d.backlog.items + overWorkers Position.unrecorded d

end Desk

namespace Floor

variable {β : Type} {b : Nat → Broker β} {s : β} {desks : List (Settings × List (List Call))}
  {f f' : Floor β} {n : Nat} {d d' : Desk β} {log : FloorTrace} {events : List Event}
  {schedule : List (Nat × Turn)}

/-- The register of a floor that has but one. -/
def register (f : Floor β) : Register := f.registers.getD 0 Register.empty

/-- What the desks make of the register that they share. -/
structure Joint (f : Floor β) (log : FloorTrace) : Prop where
  one : f.registers.length = 1
  shared : ∀ e ∈ f.desks, e.1 = 0 ∧ e.2.Asleep
  done : ∀ e ∈ log, e.1 < f.desks.length
  items : (↑log.together.accepted : Multiset Item) =
    overDesks onHand f + ↑(log.together.recorded.map Prod.fst)
  register : f.register =
    { Register.ofHistory log.together.settlements with nextSequence := f.register.nextSequence }
  counter : Issued 0 0 0 f.register.nextSequence (overDesks undrawn f) (overDesks inFlight f)
    log.together

/-- A quantity that desks before their start have none of. -/
theorem overDesks_sharing {M : Type} [AddCommMonoid M] {g : Desk β → M}
    (hg : ∀ settings programs, g ((closed settings s Register.empty).withCallers programs) = 0) :
    overDesks g (sharing s desks) = 0 := by
  refine List.sum_eq_zero fun x hx => ?_
  obtain ⟨e, he, rfl⟩ := List.mem_map.1 hx
  obtain ⟨⟨settings, programs⟩, -, rfl⟩ := List.mem_map.1 he
  exact hg settings programs

namespace Joint

theorem start (s : β) (desks : List (Settings × List (List Call))) : Joint (sharing s desks) [] where
  one := rfl
  shared e he := by
    obtain ⟨x, -, rfl⟩ := List.mem_map.1 he
    exact ⟨rfl, fun _ => rfl⟩
  done _ he := by cases he
  items := by
    rw [overDesks_sharing fun _ _ => rfl]
    rfl
  register := rfl
  counter := by
    rw [overDesks_sharing (g := undrawn) fun _ programs => overThreads_start rfl _ s _ programs,
      overDesks_sharing (g := inFlight) fun _ programs => overThreads_start rfl _ s _ programs]
    exact .start 0 0 0

/-- A desk finds the one register in its place. -/
theorem register_of_desk? (hj : Joint f log) (hd : f.desk? n = some d) :
    d.register = f.register ∧ d.Asleep := by
  obtain ⟨⟨r, e⟩, he, rfl⟩ := Option.map_eq_some_iff.1 hd
  obtain ⟨hr, hasleep⟩ := hj.shared _ (List.mem_of_getElem? he)
  have hr : r = 0 := hr
  subst hr
  exact ⟨rfl, hasleep⟩

/-- The register of a desk that is put back becomes that of the floor. -/
theorem register_setDesk (hj : Joint f log) (hd : f.desk? n = some d) (d' : Desk β) :
    (f.setDesk n d').registers.length = 1 ∧ (f.setDesk n d').register = d'.register := by
  obtain ⟨⟨r, e⟩, he, rfl⟩ := Option.map_eq_some_iff.1 hd
  have hr : r = 0 := (hj.shared _ (List.mem_of_getElem? he)).1
  subst hr
  have hlen := hj.one
  simp [setDesk, Floor.register, he, hlen]

/-- **What a desk does to the counter and to the records it does to those of all.** -/
theorem step {turn : Turn} (hj : Joint f log) (hd : f.desk? n = some d)
    (ht : d.tick (b n) turn = some (d', events)) :
    Joint (f.setDesk n d') (log ++ FloorTrace.ofStep n turn.thread events) := by
  have hm := Desk.step_cases ht
  obtain ⟨hregister, hz⟩ := hj.register_of_desk? hd
  have hz : ({ d with now := turn.now } : Desk β).Asleep := hz
  obtain ⟨hone, hregister'⟩ := hj.register_setDesk hd d'
  refine ⟨hone, fun e he => ?_, fun e he => ?_, ?_, ?_, ?_⟩
  · obtain ⟨⟨r, e'⟩, he', rfl⟩ := Option.map_eq_some_iff.1 hd
    simp only [setDesk, he'] at he
    rcases List.mem_or_eq_of_mem_set he with he | rfl
    · exact hj.shared e he
    · exact ⟨(hj.shared _ (List.mem_of_getElem? he')).1, hm.asleep hz⟩
  · obtain ⟨e', he', -⟩ := Option.map_eq_some_iff.1 hd
    have hlen : (f.setDesk n d').desks.length = f.desks.length := by simp [setDesk, he']
    rw [hlen]
    rcases List.mem_append.1 he with he | he
    · exact hj.done e he
    · obtain ⟨event, -, rfl⟩ := List.mem_map.1 he
      exact (List.getElem?_eq_some_iff.1 he').1
  · -- the other desks keep what they have on hand
    obtain ⟨rest, hsum, hset⟩ := overDesks_rest (g := onHand) (fun _ _ _ => rfl) hd
    have hstep : onHand d + ↑(events.filterMap Event.accepted?) =
        onHand d' + (↑((events.filterMap Event.recorded?).map Prod.fst) : Multiset Item) :=
      Moves.unrecorded_add (d := { d with now := turn.now }) hz hm
    rw [FloorTrace.together_step, Trace.accepted_step, Trace.recorded, Trace.pick_step,
      ← Trace.recorded, List.map_append, ← Multiset.coe_add, ← Multiset.coe_add, hj.items, hset, hsum]
    calc rest + onHand d + ↑(log.together.recorded.map Prod.fst) +
          ↑(events.filterMap Event.accepted?)
        = rest + (onHand d + ↑(events.filterMap Event.accepted?)) +
            ↑(log.together.recorded.map Prod.fst) := by ac_rfl
      _ = _ := by rw [hstep]; ac_rfl
  · have hr := hm.register_eq
    rw [hregister', FloorTrace.together_step, Trace.settlements_step, Register.ofHistory_append, hr]
    have hbefore : ({ d with now := turn.now } : Desk β).register = f.register := hregister
    rw [hbefore, hj.register, Register.foldl_record_withNext]
  · obtain ⟨more, hundrawn, hundrawn'⟩ := overDesks_rest (g := undrawn) (fun _ _ _ => rfl) hd
    obtain ⟨others, hflight, hflight'⟩ := overDesks_rest (g := inFlight) (fun _ _ _ => rfl) hd
    have hcounter := hj.counter
    rw [hundrawn, hflight, ← hregister] at hcounter
    rw [FloorTrace.together_step, hundrawn', hflight', hregister']
    exact Issued.step (d := { d with now := turn.now }) hcounter hz hm

theorem follow_joint (hrun : (sharing s desks).follow b schedule = some (f, log)) : Joint f log := by
  have h := follow_invariant (P := Joint) (fun hj hd ht => hj.step hd ht) [] (Joint.start s desks) hrun
  exact h

/-- What is recorded was accepted, each item as often. -/
theorem recorded_subperm (hj : Joint f log) :
    (log.together.recorded.map Prod.fst).Subperm log.together.accepted := by
  rw [← Multiset.coe_le, hj.items]
  exact Multiset.le_add_left _ _

/-- Only desks of the floor have done anything. -/
theorem exists_desk? (hj : Joint f log) {α : Type} {pick : Event → Option α} {a : α}
    (ha : a ∈ (log.ofDesk n).pick pick) : ∃ d, f.desk? n = some d := by
  obtain ⟨e, he, rfl, -⟩ := FloorTrace.mem_ofDesk_pick.1 ha
  exact ⟨_, Option.map_eq_some_iff.2 ⟨_, List.getElem?_eq_getElem (hj.done e he), rfl⟩⟩

end Joint

/-! ## Each desk -/

/-- What holds of each desk by itself. -/
structure ByItself (h : History) (d : Desk β) (tr : Trace) : Prop where
  tended : Tended d tr
  naming : Naming d tr
  ends : Ends h d tr

theorem follow_byItself (hgood : ∀ e ∈ desks, e.1.check = .ok ())
    (hrun : (sharing s desks).follow b schedule = some (f, log)) (hd : f.desk? n = some d) :
    ByItself ((sharing s desks).calls b n schedule) d (log.ofDesk n) := by
  have h := follow_desks (P := fun _ => ByItself) (fun {n h d d' tr turn events} ha ht => ?_)
    (fun {n m h d tr s} register ha _ => ?_) (fun _ => []) (fun _ => []) (fun n d hd => ?_) hrun n d hd
  · exact h
  · have hm := Desk.step_cases ht
    exact ⟨(ha.tended.clock turn.now).step hm, (ha.naming.clock turn.now).step hm,
      (ha.ends.clock turn.now).step hm⟩
  · obtain ⟨ht, hn, he⟩ := ha
    exact ⟨⟨ht.asleep, ht.items, ht.sound, ht.onRecord, ht.settles⟩,
      ⟨hn.asleep, hn.seen, hn.nodup, hn.vetted, hn.recorded, hn.asked, hn.brokered⟩,
      he.elsewhere s register d.now⟩
  · obtain ⟨⟨r, e⟩, he, rfl⟩ := Option.map_eq_some_iff.1 hd
    obtain ⟨⟨settings, programs⟩, hmem, hdesk⟩ := List.mem_map.1 (List.mem_of_getElem? he)
    cases hdesk
    have hopen : open? settings s Register.empty = .ok (closed settings s Register.empty) := by
      rw [open?, hgood _ hmem]
    exact ⟨.start settings s Register.empty programs, .start settings s Register.empty programs,
      .start s Register.empty programs (open?_eq hopen).2⟩

/-! ## The records of all desks -/

/-- No two desks accepted items of one name. -/
def NamesApart (log : FloorTrace) : Prop :=
  ∀ e ∈ log, ∀ e' ∈ log, e.1 ≠ e'.1 → ∀ i ∈ e.2.2.accepted?, ∀ j ∈ e'.2.2.accepted?,
    i.order.id ≠ j.order.id

instance (log : FloorTrace) : Decidable (NamesApart log) :=
  inferInstanceAs (Decidable (∀ e ∈ log, ∀ e' ∈ log, e.1 ≠ e'.1 → ∀ i ∈ e.2.2.accepted?,
    ∀ j ∈ e'.2.2.accepted?, i.order.id ≠ j.order.id))

section Records

variable (hj : Joint f log) (heach : ∀ n d, f.desk? n = some d → ∃ h, ByItself h d (log.ofDesk n))

include hj heach

theorem settles_recorded : ∀ e ∈ log.together.recorded, Settles e.1 e.2 := by
  intro e he
  obtain ⟨n, he⟩ := FloorTrace.exists_ofDesk he
  obtain ⟨d, hd⟩ := hj.exists_desk? he
  obtain ⟨h, hown⟩ := heach n d hd
  exact hown.tended.settles e he

/-- **Desks that share no names replace no record.** -/
theorem fresh_recorded (hapart : NamesApart log) : Register.Fresh log.together.settlements := by
  rw [Register.Fresh, originalNames_eq (settles_recorded hj heach), originalNames]
  refine List.pairwise_map.2 (List.pairwise_filter.2 (FloorTrace.pairwise_pick ?_ ?_))
  · intro n
    cases hd : f.desk? n with
    | some d =>
      obtain ⟨h, hown⟩ := heach n d hd
      exact List.pairwise_filter.1 (List.pairwise_map.1 hown.naming.originals_nodup)
    | none =>
      have hnil : (log.ofDesk n).pick Event.recorded? = [] := by
        refine List.eq_nil_iff_forall_not_mem.2 fun e he => ?_
        obtain ⟨d, hd'⟩ := hj.exists_desk? he
        rw [hd] at hd'
        cases hd'
      rw [hnil]
      exact List.Pairwise.nil
  · -- what two desks record they accepted
    have haccepted : ∀ n, ∀ e ∈ (log.ofDesk n).pick Event.recorded?,
        ∃ a ∈ log, a.1 = n ∧ a.2.2.accepted? = some e.1 := by
      intro n e he
      obtain ⟨d, hd⟩ := hj.exists_desk? he
      obtain ⟨h, hown⟩ := heach n d hd
      exact FloorTrace.mem_ofDesk_pick.1
        (hown.tended.recorded_subperm.subset (List.mem_map_of_mem he))
    intro m n hmn e he e' he' _ _
    obtain ⟨a, ha, rfl, hi⟩ := haccepted m e he
    obtain ⟨a', ha', rfl, hi'⟩ := haccepted n e' he'
    exact hapart a ha a' ha' hmn _ hi _ hi'

end Records

/-- **Desks that share a register keep every record.** The records of all desks have different numbers,
so that all of them and those of a client are listed strictly by number. If no two desks accept items
of one name, no answer depends on the order in which they record, the original of each item is found
under its name, and once each desk was stopped the register holds one record for each accepted item. -/
theorem one_register_keeps_all (hgood : ∀ e ∈ desks, e.1.check = .ok ())
    (hrun : (sharing s desks).follow b schedule = some (f, log))
    (hbound : log.together.received.length ≤ UInt64.size) :
    (log.together.settlements.map (·.sequence)).Nodup ∧
    (f.register.all.Pairwise fun a b => a.sequence < b.sequence) ∧
    (∀ c, (f.register.ofClient c).Pairwise fun a b => a.sequence < b.sequence) ∧
    (NamesApart log →
      (∀ l, log.together.settlements.Perm l →
        Register.AgreeBut id f.register (Register.ofHistory l)) ∧
      (∀ n, ∀ e ∈ (log.ofDesk n).recorded, e.2.status ≠ .duplicate →
        f.register.find? e.1.order.id = some e.2) ∧
      ((∀ n d, f.desk? n = some d → Returned ((sharing s desks).calls b n schedule) d) →
        f.register.size = log.together.accepted.length ∧
        (log.together.recorded.map Prod.fst).Perm log.together.accepted)) := by
  have hj := Joint.follow_joint hrun
  have heach : ∀ n d, f.desk? n = some d → ∃ h, ByItself h d (log.ofDesk n) :=
    fun n d hd => ⟨_, follow_byItself hgood hrun hd⟩
  have hsettles := settles_recorded hj heach
  have hseq : (log.together.settlements.map (·.sequence)).Nodup :=
    Settles.sequences_nodup hsettles hj.recorded_subperm (hj.counter.accepted_nodup hbound)
  obtain ⟨hall, hclients⟩ := Register.lists_strictly_sorted hseq
  have hregister := hj.register
  refine ⟨hseq, ?_, fun c => ?_, fun hapart => ?_⟩
  · rw [hregister]
    exact hall
  · rw [hregister]
    exact hclients c
  have hfresh := fresh_recorded hj heach hapart
  refine ⟨fun l hl => ?_, fun n e he hs => ?_, fun hstopped => ?_⟩
  · rw [hregister]
    exact (Register.agreeBut_withNext id _ _).trans
      (Register.agreeBut_of_perm Settlement.id_faithful hfresh hseq (hl.map id))
  · have he : e ∈ log.together.recorded := (FloorTrace.ofDesk_sublist log n).subset he
    rw [hregister]
    refine (Register.find?_fresh_iff hfresh).2 ⟨List.mem_filter.2 ⟨?_, ?_⟩, (hsettles e he).orderId⟩
    · exact List.mem_map_of_mem he
    · exact Settlement.isOriginal_iff.2 hs
  · have hnone : overDesks onHand f = 0 := by
      refine overDesks_eq_zero (fun _ _ _ => rfl) fun n d hd => ?_
      obtain ⟨hrest, hitems⟩ := (follow_byItself hgood hrun hd).ends.atRest (hstopped n d hd)
      rw [onHand, hitems, overWorkers_stopped rfl hrest.workers]
      rfl
    have hperm : (log.together.recorded.map Prod.fst).Perm log.together.accepted := by
      apply Multiset.coe_eq_coe.1
      rw [hj.items, hnone, zero_add]
    refine ⟨?_, hperm⟩
    rw [hregister]
    refine (Register.size_fresh hfresh).trans ?_
    rw [← hperm.length_eq, Trace.settlements, List.length_map, List.length_map]

/-! ## Runs of two desks -/

/-- So many turns of a thread of desk `n`, all at the same time of day. -/
def turnsAt (n : Nat) (t : Thread) (k : Nat) : List (Nat × Turn) :=
  (turns t k).map fun turn => (n, turn)

/-- Each desk has an order of its own; that of the second one is submitted twice. -/
def twoDesks : List (Settings × List (List Call)) :=
  [(oneWorker, [[.start, .submit (plainOrder "r-1") none, .stop]]),
   (oneWorker, [[.start, .submit (plainOrder "r-2") none, .submit (plainOrder "r-2") none, .stop]])]

/-- The orders come in before any is settled; the second desk settles its orders first. -/
def twoDesksTurns : List (Nat × Turn) :=
  turnsAt 1 (.caller 0) 4 ++ turnsAt 0 (.caller 0) 4 ++ turnsAt 1 (.caller 0) 5 ++
    turnsAt 1 (.worker 0) 9 ++ turnsAt 1 (.caller 0) 2 ++ turnsAt 0 (.caller 0) 2 ++
    turnsAt 0 (.worker 0) 6 ++ turnsAt 0 (.caller 0) 2

def bothStopped : Option (Floor Scripted × FloorTrace) :=
  (sharing Scripted.empty twoDesks).follow (fun _ => Scripted.broker) twoDesksTurns

theorem one_register_keeps_all_bothStopped : ∃ f, ∃ log : FloorTrace, bothStopped = some (f, log) ∧
    (log.together.settlements.map (·.sequence)).Nodup ∧
    (f.register.all.Pairwise fun a b => a.sequence < b.sequence) ∧ f.register.size = 3 := by
  have hends : bothStopped.map (fun r =>
      (r.1.desks.length, r.1.desks.all fun e => e.2.callers.all Program.finished,
        (FloorTrace.together r.2).received.length, (FloorTrace.together r.2).accepted.length,
        decide (NamesApart r.2))) = some (2, true, 3, 3, true) := by
    decide +kernel
  obtain ⟨⟨f, log⟩, hrun, hends⟩ := Option.map_eq_some_iff.1 hends
  simp only [Prod.mk.injEq, decide_eq_true_eq, List.all_eq_true] at hends
  obtain ⟨hlen, hdone, hreceived, haccepted, hapart⟩ := hends
  have hbound : log.together.received.length ≤ UInt64.size := by rw [hreceived]; decide
  have hfirst : ∀ n < 2, ((sharing Scripted.empty twoDesks).calls (fun _ => Scripted.broker) n
      twoDesksTurns).firstStop = some (.caller 0) := by
    decide +kernel
  obtain ⟨hseq, hall, -, hkept⟩ := one_register_keeps_all (by decide) hrun hbound
  obtain ⟨-, -, hstopped⟩ := hkept hapart
  refine ⟨f, log, hrun, hseq, hall, ?_⟩
  rw [← haccepted]
  refine (hstopped fun n d hd => ?_).1
  obtain ⟨e, he, rfl⟩ := Option.map_eq_some_iff.1 hd
  have hn : n < 2 := hlen ▸ (List.getElem?_eq_some_iff.1 he).1
  exact .of_finished (hfirst n hn) (hdone e (List.mem_of_getElem? he))

/-- Both desks are asked to settle an order of the same name. -/
def sameName : List (Settings × List (List Call)) :=
  List.replicate 2 (oneWorker, [[.start, .submit (plainOrder "r-1") none]])

/-- Both have it in their backlogs, and then one desk settles it and after it the other one. -/
def settledBy (first second : Nat) : Option (Floor Scripted × FloorTrace) :=
  (sharing Scripted.empty sameName).follow (fun _ => Scripted.broker)
    (turnsAt 0 (.caller 0) 4 ++ turnsAt 1 (.caller 0) 4 ++ turnsAt first (.worker 0) 5 ++
      turnsAt second (.worker 0) 5)

/-- **A name that two desks accept shows which of them was the last to settle it**: the register lists
the later record only. -/
theorem completion_order_shows : (∀ e ∈ sameName, e.1.check = .ok ()) ∧
    ∃ f₁ f₂, ∃ log₁ log₂ : FloorTrace,
      settledBy 0 1 = some (f₁, log₁) ∧ settledBy 1 0 = some (f₂, log₂) ∧
      log₁.together.received.length = 2 ∧ log₂.together.received.length = 2 ∧
      log₁.together.settlements.Perm log₂.together.settlements ∧
      f₁.register.all ≠ f₂.register.all := by
  refine ⟨by decide, ?_⟩
  have hends : ((settledBy 0 1).bind fun r₁ => (settledBy 1 0).map fun r₂ =>
      ((FloorTrace.together r₁.2).received.length, (FloorTrace.together r₂.2).received.length,
        decide ((FloorTrace.together r₁.2).settlements.Perm (FloorTrace.together r₂.2).settlements),
        decide (r₁.1.register.all ≠ r₂.1.register.all))) = some (2, 2, true, true) := by
    decide +kernel
  obtain ⟨⟨f₁, log₁⟩, hrun₁, hends⟩ := Option.bind_eq_some_iff.1 hends
  obtain ⟨⟨f₂, log₂⟩, hrun₂, hends⟩ := Option.map_eq_some_iff.1 hends
  simp only [Prod.mk.injEq, decide_eq_true_eq] at hends
  exact ⟨f₁, f₂, log₁, log₂, hrun₁, hrun₂, hends⟩

end Floor

end DealDesk
