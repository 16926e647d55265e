import DealDesk.Proofs.Backlog.Histories
import DealDesk.Proofs.Desk.Callbacks
import DealDesk.Proofs.Desk.Kept
import DealDesk.Proofs.Desk.Submissions

/-!
# One worker serves in line

* `Trace.settledFor` — the results of what one thread had accepted, if results come in the order of
  acceptance.
* `Alone` — at a desk with one worker, what is recorded, then what is in hand, then what waits, is
  what was accepted, in order.
* `Served` — what this says of results, of callbacks, and of the orders of each thread.

`served_in_line` is the main result: every history of a backlog is orderly, and a desk with one
worker hands its orderliness on to results and callbacks.
-/

namespace DealDesk

namespace Trace

/-- Who had which item accepted. -/
def acceptances (tr : Trace) : List (Thread × Item) :=
  tr.filterMap fun e => (Event.accepted? e.2).map fun i => (e.1, i)

/-- The results of what a thread had accepted; result number `k` is of acceptance number `k`. -/
def settledFor (tr : Trace) (t : Thread) : List (Item × Settlement) :=
  ((tr.acceptances.zip tr.recorded).filter fun e => e.1.1 = t).map Prod.snd

theorem acceptances_items (tr : Trace) : tr.acceptances.map Prod.snd = tr.accepted := by
  rw [acceptances, List.map_filterMap, accepted, pick]
  refine List.filterMap_congr fun e _ => ?_
  cases Event.accepted? e.2 <;> rfl

theorem acceptances_of (tr : Trace) (t : Thread) :
    (tr.acceptances.filter fun e => e.1 = t).map Prod.snd = (tr.ofThread t).accepted := by
  induction tr with
  | nil => rfl
  | cons e tr ih =>
    obtain ⟨u, event⟩ := e
    have hfirst : acceptances ((u, event) :: tr) =
        ((Event.accepted? event).map fun i => (u, i)).toList ++ acceptances tr := by
      cases h : Event.accepted? event <;> simp [acceptances, h]
    rw [hfirst, List.filter_append, List.map_append, ih]
    by_cases hu : u = t <;> cases h : Event.accepted? event <;>
      simp [ofThread, accepted, pick, hu, h]

end Trace

/-- The entries of one key keep their order, and fall behind only at the end. -/
theorem zip_filter_prefix {κ ι σ : Type} [DecidableEq κ] (k : κ) (taken : List (κ × ι))
    (done : List (ι × σ)) (h : done.map Prod.fst <+: taken.map Prod.snd) :
    ((taken.zip done).filter fun e => e.1.1 = k).map (fun e => e.2.1) <+:
      (taken.filter fun e => e.1 = k).map Prod.snd := by
  induction taken generalizing done with
  | nil => simp
  | cons first taken ih =>
    cases done with
    | nil => simp
    | cons e done =>
      obtain ⟨he, h⟩ := List.cons_prefix_cons.1 h
      by_cases hk : first.1 = k
      · simp only [List.zip_cons_cons, hk, decide_true, List.filter_cons_of_pos, List.map_cons]
        exact List.cons_prefix_cons.2 ⟨he, ih done h⟩
      · simpa [hk] using ih done h

namespace Desk

variable {β : Type} {b : Broker β} {n : Nat} {t : Thread} {d d' : Desk β} {p p' : Position}
  {q q' : Program} {events : List Event} {tr : Trace} {first : UInt64}

/-! ## One worker -/

/-- At a desk with one worker the line is: recorded, in hand, waiting. -/
structure Alone (d : Desk β) (tr : Trace) : Prop where
  asleep : d.Asleep
  settings : d.settings.workers = 1
  single : d.workers.length ≤ 1
  line : tr.accepted =
    tr.recorded.map Prod.fst ++ (d.workers.flatMap Position.inHand ++ d.backlog.items)
  sound : ∀ p ∈ d.workers, p.Sound
  settles : ∀ e ∈ tr.recorded, Settles e.1 e.2

namespace Alone

theorem start {settings : Settings} (hone : settings.workers = 1) (s : β) (register : Register)
    (programs : List (List Call)) :
    Alone ((closed settings s register).withCallers programs) [] where
  asleep _ := rfl
  settings := hone
  single := Nat.zero_le 1
  line := rfl
  sound _ h := by cases h
  settles _ h := by cases h

theorem clock (now : Int64) (ha : Alone d tr) : Alone { d with now := now } tr :=
  ⟨ha.asleep, ha.settings, ha.single, ha.line, ha.sound, ha.settles⟩

/-- A caller moves no worker; those that a start brings in have nothing in hand. -/
theorem caller (ha : Alone d tr) (h : Performs t d q d' q' events) :
    d'.workers.length ≤ 1 ∧
      d'.workers.flatMap Position.inHand = d.workers.flatMap Position.inHand := by
  rcases h.frame.workers with hw | ⟨hl, hw⟩
  · rw [hw]
    exact ⟨ha.single, rfl⟩
  · rw [hw, ha.settings, ha.asleep hl]
    exact ⟨Nat.le_refl 1, rfl⟩

theorem step (ha : Alone d tr) (h : Moves b t d d' events) :
    Alone d' (tr ++ Trace.ofStep t events) where
  asleep := h.asleep ha.asleep
  settings := by rw [h.settings_eq]; exact ha.settings
  single := by
    cases h with
    | caller hat h => exact (ha.caller h).1
    | worker hat h =>
      rw [List.length_set, h.workers_eq ha.asleep hat]
      exact ha.single
  line := by
    have hline := ha.line
    rw [Trace.accepted_step, Trace.recorded, Trace.pick_step, ← Trace.recorded, hline]
    cases h with
    | @caller n d d' q q' events hat h =>
      rw [h.frame.recorded, List.append_nil]
      show _ = _ ++ (d'.workers.flatMap Position.inHand ++ d'.backlog.items)
      rw [(ha.caller h).2, h.frame.items, List.append_assoc, List.append_assoc]
    | @worker n d d' p p' events hat h =>
      -- the worker that steps is the only one
      obtain ⟨rfl, hone⟩ : n = 0 ∧ d.workers = [p] := by
        have hsingle := ha.single
        cases hw : d.workers with
        | nil => rw [hw] at hat; cases hat
        | cons p₀ rest =>
          rw [hw, List.length_cons] at hsingle
          obtain rfl : rest = [] := List.length_eq_zero_iff.1 (by omega)
          rw [hw] at hat
          cases n with
          | zero => cases hat; exact ⟨rfl, rfl⟩
          | succ n => cases hat
      rw [h.told.recorded]
      show _ = _ ++ ((d'.workers.set 0 p').flatMap Position.inHand ++ d'.backlog.items)
      rw [h.workers_eq ha.asleep hat, hone]
      show _ ++ ((p.inHand ++ []) ++ _) ++ _ = _ ++ ((p'.inHand ++ []) ++ _)
      rw [List.append_nil, List.append_nil, List.map_append, List.append_assoc, List.append_assoc,
        List.append_assoc, h.line]
  sound := h.sound ha.asleep ha.sound
  settles := by
    intro e he
    rw [Trace.recorded, Trace.pick_step, List.mem_append] at he
    rcases he with he | he
    · exact ha.settles e he
    · exact h.settles ha.sound e he

end Alone

/-! ## What one worker serves -/

/-- What holds of the results at a desk with one worker, after every run. -/
structure Served (first : UInt64) (d : Desk β) (tr : Trace) : Prop where
  /-- Results are recorded in the order in which items enter the line, and none is left out. -/
  recorded : tr.recorded.map Prod.fst ++ (d.workers.flatMap Position.inHand ++ d.backlog.items) =
    tr.accepted
  /-- Each result is that of its item. -/
  settles : ∀ e ∈ tr.recorded, Settles e.1 e.2
  /-- Callbacks are invoked with the results, in the same order. -/
  notified : tr.notified = tr.recorded.filter fun e => e.1.callback.isSome
  callbacks : tr.notified.map Prod.fst <+: tr.accepted.filter fun i => i.callback.isSome
  /-- The orders of one thread are settled in the order in which it had them accepted, and that is
  the order in which it submitted them. -/
  inTurn : ∀ t, (tr.settledFor t).map Prod.fst <+: (tr.ofThread t).accepted
  submitted : ∀ t, ((tr.settledFor t).map fun e => e.1.order).Sublist (tr.ofThread t).submitted
  /-- Their results have numbers that the counter handed out one after the other. -/
  numbered : ∃ drawn ≤ tr.received.length, ∀ t,
    ((tr.settledFor t).map fun e => e.2.sequence).Sublist (counted first drawn)
  /-- So the numbers grow, unless more orders were taken up than the counter can number. -/
  increasing : first.toNat + tr.received.length ≤ UInt64.size → ∀ t,
    ((tr.settledFor t).map fun e => e.2.sequence).Pairwise (· < ·)

theorem Alone.recorded_prefix (ha : Alone d tr) : tr.recorded.map Prod.fst <+: tr.accepted := by
  rw [ha.line]
  exact List.prefix_append _ _

theorem Alone.settledFor_prefix (ha : Alone d tr) (t : Thread) :
    (tr.settledFor t).map Prod.fst <+: (tr.ofThread t).accepted := by
  have hprefix := ha.recorded_prefix
  rw [← Trace.acceptances_items] at hprefix
  rw [← Trace.acceptances_of, Trace.settledFor, List.map_map]
  exact zip_filter_prefix t tr.acceptances tr.recorded hprefix

theorem mem_recorded_of_settledFor {e : Item × Settlement} (h : e ∈ tr.settledFor t) :
    e ∈ tr.recorded := by
  obtain ⟨pair, hp, rfl⟩ := List.mem_map.1 h
  exact (List.of_mem_zip (List.mem_filter.1 hp).1).2

/-- The results of a thread bear the numbers of its items. -/
theorem Alone.sequences (ha : Alone d tr) (t : Thread) :
    (tr.settledFor t).map (fun e => e.2.sequence) =
      ((tr.settledFor t).map Prod.fst).map (·.sequence) := by
  rw [← Settles.sequences_eq fun e he => ha.settles e (mem_recorded_of_settledFor he), List.map_map]
  rfl

theorem Alone.served (ha : Alone d tr) (hd : Deliveries d tr) (hs : Submissions first d tr) :
    Served first d tr := by
  obtain ⟨drawn, hdrawn, hnumbers⟩ := hs.sequences
  have numbers : ∀ t, ((tr.settledFor t).map fun e => e.2.sequence).Sublist
      (counted first drawn) := by
    intro t
    rw [ha.sequences t]
    exact ((ha.settledFor_prefix t).sublist.map _).trans (hnumbers t)
  refine ⟨ha.line.symm, ha.settles, hd.notified, ?_, ha.settledFor_prefix, fun t => ?_,
    ⟨drawn, hdrawn, numbers⟩, fun hfits t => ?_⟩
  · have hfilter := ha.recorded_prefix.filter fun i => i.callback.isSome
    rw [List.filter_map] at hfilter
    rw [hd.notified]
    exact hfilter
  · have horders := ((ha.settledFor_prefix t).sublist.map (·.order)).trans (hs.orders t)
    rwa [List.map_map] at horders
  · exact (counted_increasing first (by omega)).sublist (numbers t)

theorem follow_alone {settings : Settings} {s : β} {register : Register}
    {programs : List (List Call)} {schedule : List Turn} {d₀ : Desk β}
    (hopen : open? settings s register = .ok d₀) (hone : settings.workers = 1)
    (hrun : (d₀.withCallers programs).follow b schedule = some (d, tr)) : Alone d tr := by
  obtain ⟨rfl, -⟩ := open?_eq hopen
  exact follow_invariant (P := Alone) Alone.clock Alone.step
    (Alone.start hone s register programs) hrun

/-! ## The line -/

/-- **A backlog keeps its line, and one worker serves it in order.** Every history of operations on
a backlog is orderly. Hence a desk with one worker records results and invokes callbacks in the
order in which items enter the line, and those of one thread in its order of submission, with
numbers that grow. -/
theorem served_in_line :
    (∀ {α : Type} (history : List (Backlog.Operation α)), Backlog.Orderly history) ∧
    ∀ {β : Type} {b : Broker β} {settings : Settings} {s : β} {register : Register}
      {programs : List (List Call)} {schedule : List Turn} {d₀ d : Desk β} {tr : Trace},
      open? settings s register = .ok d₀ → settings.workers = 1 →
      (d₀.withCallers programs).follow b schedule = some (d, tr) →
      Served register.nextSequence d tr := by
  refine ⟨fun history => Backlog.history_orderly history, ?_⟩
  intro β b settings s register programs schedule d₀ d tr hopen hone hrun
  exact (follow_alone hopen hone hrun).served (follow_deliveries hopen hrun)
    (follow_submissions hopen hrun)

def oneWorker : Settings := { Settings.standard with workers := 1 }

/-- The first caller draws the first number, and the second caller is the first in the line. -/
def overtakenInLine : Option (Desk Scripted × Trace) :=
  ((closed oneWorker lossy Register.empty).withCallers
    [[.start, .submit (plainOrder "r-1") (some [.deliver 7]), .submit (plainOrder "r-3") none],
      [.submit (plainOrder "r-2") none]]).follow Scripted.broker
    (turns (.caller 0) 3 ++ turns (.caller 1) 3 ++ turns (.caller 0) 4 ++ turns (.worker 0) 23)

theorem served_in_line_overtaken : ∃ d, ∃ tr : Trace, overtakenInLine = some (d, tr) ∧
    tr.recorded.map (fun e => e.2.sequence) = [1, 0, 2] ∧
    tr.recorded.map Prod.fst <+: tr.accepted ∧
    ((tr.settledFor (.caller 0)).map fun e => e.2.sequence).Pairwise (· < ·) := by
  have hrun : overtakenInLine.map (fun r =>
      (Trace.recorded r.2 |>.map fun e => e.2.sequence, (Trace.received r.2).length)) =
      some ([1, 0, 2], 3) := by
    decide +kernel
  obtain ⟨⟨d, tr⟩, hrun, hvalues⟩ := Option.map_eq_some_iff.1 hrun
  obtain ⟨hsequences, hreceived⟩ := Prod.mk.inj hvalues
  have hopen : open? oneWorker lossy Register.empty =
    .ok (closed oneWorker lossy Register.empty) := rfl
  have h := served_in_line.2 hopen rfl hrun
  refine ⟨d, tr, hrun, hsequences, ?_, h.increasing ?_ (.caller 0)⟩
  · rw [← h.recorded]
    exact List.prefix_append _ _
  · rw [hreceived]
    decide

end Desk

end DealDesk
