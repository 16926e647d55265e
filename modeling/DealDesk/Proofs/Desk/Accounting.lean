import DealDesk.Proofs.Desk.Spending

/-!
# The execution calls of a desk over a scripted broker

* `Moves.played` — the broker plays its script to the answered calls of all workers together.
* `Accounted` — what this comes to once every accepted item is recorded: the calls balance with the
  retries of the results, each failure of the script meets one call, and the fills have the tickets
  from `1` on.

`executions_accounted` is the main result. Which order meets which failure is left to the schedule.
-/

namespace DealDesk

/-- The tickets from `1` on. -/
def firstTickets (n : Nat) : List String := (List.range n).map fun k => toString (k + 1)

/-- The counter's tickets are the numbers from `1` on, unless it goes round. -/
theorem map_ticketText_counted {n : Nat} (hn : n < UInt64.size) :
    (counted 1 n).map ticketText = firstTickets n := by
  rw [counted, List.map_map, firstTickets]
  refine List.map_congr_left fun k hk => ?_
  rw [List.mem_range] at hk
  have hone : (1 : UInt64).toNat = 1 := rfl
  show toString ((1 : UInt64) + UInt64.ofNat k).toNat = toString (k + 1)
  rw [UInt64.toNat_add, UInt64.toNat_ofNat_of_lt' (by omega), hone,
    Nat.mod_eq_of_lt (show 1 + k < UInt64.size by omega), Nat.add_comm]

namespace Trace

/-- The outcomes of the answered calls, in order. -/
def outcomes (tr : Trace) : List Outcome := tr.answered.map Prod.snd

/-- Is a settlement the result of an order that the gate cleared? -/
def isOfCleared (tr : Trace) (s : Settlement) : Bool :=
  s.isOriginal && decide (s.orderId ∈ tr.clearedNames)

end Trace

theorem Scripted.answers : Scripted.broker.Answers := nofun

namespace Desk

variable {n : Nat} {t : Thread} {d d' : Desk Scripted} {p p' : Position} {events : List Event}
  {tr : Trace} {s : Scripted} {outcomes : List Outcome}

/-! ## The script -/

theorem Works.played (hs : s.Played outcomes d.broker)
    (h : Works Scripted.broker d n p d' p' events) :
    s.Played (outcomes ++ (events.filterMap Event.answered?).map Prod.snd) d'.broker := by
  have quoted : ∀ {item : Item} {reply : Reply (Option Instrument)} {s' : Scripted},
      Scripted.broker.quote d.broker item.order.symbol = (reply, s') → s.Played outcomes s' := by
    intro item reply s' h
    cases h
    exact hs.quote item.order.symbol
  have quiet : events.filterMap Event.answered? = [] → s.Played outcomes d'.broker →
      s.Played (outcomes ++ (events.filterMap Event.answered?).map Prod.snd) d'.broker := by
    intro hnone hplayed
    rwa [hnone, List.map_nil, List.append_nil]
  cases h with
  | quoteBroke item s' h => exact quiet rfl (quoted h)
  | clash item i s' why h hc => exact quiet rfl (quoted h)
  | clear item i s' h hc => exact quiet rfl (quoted h)
  | call item attempt number hnumber => exact quiet (filterMap_call rfl ..) hs
  | executeBroke item attempt h => cases h
  | again item attempt outcome failure h hn =>
    cases h
    rw [filterMap_answer fun _ => rfl]
    exact hs.execute d.now item.order
  | settle item attempt outcome s' h hn =>
    cases h
    rw [filterMap_settled (fun _ => rfl) (fun _ => rfl) fun _ => rfl]
    exact hs.execute d.now item.order
  | act item s' q d' q' events h hd hf =>
    rw [h.clears_nothing.2, h.frame.broker]
    simpa using hs
  | _ => exact quiet rfl hs

/-- **The calls of all workers play one script.** -/
theorem Moves.played (hs : s.Played outcomes d.broker)
    (h : Moves Scripted.broker t d d' events) :
    s.Played (outcomes ++ (events.filterMap Event.answered?).map Prod.snd) d'.broker := by
  cases h with
  | @caller n d d' q q' events hat h =>
    have hbroker : d'.broker = d.broker := h.frame.broker
    rw [h.clears_nothing.2, List.map_nil, List.append_nil]
    show s.Played outcomes d'.broker
    rwa [hbroker]
  | worker hat h =>
    have hplayed := h.played hs
    exact hplayed

theorem follow_played {settings : Settings} {register : Register} {programs : List (List Call)}
    {schedule : List Turn} {d₀ : Desk Scripted} (hopen : open? settings s register = .ok d₀)
    (hrun : (d₀.withCallers programs).follow Scripted.broker schedule = some (d, tr)) :
    s.Played tr.outcomes d.broker := by
  obtain ⟨rfl, -⟩ := open?_eq hopen
  have h₀ : s.Played (Trace.outcomes []) ((closed settings s register).withCallers programs).broker :=
    .start s
  refine follow_invariant (P := fun d tr => s.Played (Trace.outcomes tr) d.broker)
    (fun _ h => h) (fun {d d' tr t events} hs h => ?_) h₀ hrun
  have hplayed := h.played hs
  rwa [Trace.outcomes, Trace.answered, Trace.pick_step, List.map_append]

/-! ## The accounts -/

/-- What the accounts of a run over scripted broker `s` come to, once all that was accepted is
recorded. -/
structure Accounted (maxRetries : UInt32) (s : Scripted) (d : Desk Scripted) (tr : Trace) : Prop where
  /-- Every cleared order has one result. -/
  cleared : ((d.register.all.filter tr.isOfCleared).map (·.orderId)).Perm tr.clearedNames
  /-- Each of these results stands for its retries and the call before them, and no call was made
  for anything else; but a result of an order whose calls ran out of numbers stands for all of them. -/
  balance : d.broker.executions =
    ((d.register.all.filter tr.isOfCleared).map fun s => s.retries.toNat + 1).sum +
      tr.overruns.length * (RetryRule.mostCalls - 1)
  /-- The calls do not run out of numbers unless the most retries are allowed. -/
  numbered : maxRetries ≠ 0xFFFFFFFF → tr.overruns = []
  /-- One outcome for each call. -/
  calls : tr.outcomes.length = d.broker.executions
  /-- The calls take the failures of the script from the front, each call one. -/
  script : d.broker.script = s.script.drop d.broker.executions
  consumed : s.script.length - d.broker.script.length = min s.script.length d.broker.executions
  scripted : tr.outcomes.take s.script.length = (s.script.take d.broker.executions).map .failed
  /-- Calls beyond the script fail with the fallback, or are filled if there is none. -/
  beyond : ∀ outcome ∈ tr.outcomes.drop s.script.length, outcome.failure? = s.fallback
  fills : tr.filled.length = if s.fallback.isSome then 0
    else d.broker.executions - min s.script.length d.broker.executions
  /-- The broker has booked these fills under the tickets from `1` on. The size of a register is a
  64-bit number, and the tickets last that long. -/
  tickets : d.register.size < UInt64.size → d.broker.fills.values = tr.filled ∧
    d.broker.fills.values.map (·.ticket) = firstTickets tr.filled.length
  retries : ∀ s ∈ d.register.all, s.retries ≤ maxRetries

/-- The results of cleared orders are those in the register. -/
theorem Custody.ofCleared_perm (hc : Custody d tr) (hn : Naming d tr) :
    ((ofCleared tr.clearedNames tr.recorded).map Prod.snd).Perm
      (d.register.all.filter tr.isOfCleared) := by
  have hsame : (ofCleared tr.clearedNames tr.recorded).map Prod.snd =
      tr.settlements.filter tr.isOfCleared := by
    rw [Trace.settlements, List.filter_map, ofCleared]
    refine congrArg (List.map Prod.snd) (List.filter_congr fun e he => ?_)
    show _ = (e.2.isOriginal && decide (e.2.orderId ∈ tr.clearedNames))
    rw [(hc.settles e he).orderId]
  rw [hsame]
  exact ((hc.all_perm hn).filter _).symm

/-- No item is charged for once nothing is in a worker's hands. -/
theorem charge_eq_zero {names : List OrderId} (h : overWorkers Position.unrecorded d = 0) :
    overWorkers (Position.charge names) d = 0 := by
  refine overWorkers_eq_zero fun p hp => ?_
  have hnone : ∀ item, item ∉ p.unrecorded := by
    intro item hi
    have hmem := mem_overWorkers.2 ⟨p, hp, hi⟩
    rw [h] at hmem
    exact Multiset.notMem_zero _ hmem
  cases p with
  | calling item attempt => exact absurd (Multiset.mem_singleton_self item) (hnone item)
  | awaiting item attempt => exact absurd (Multiset.mem_singleton_self item) (hnone item)
  | recording item s => exact absurd (Multiset.mem_singleton_self item) (hnone item)
  | _ => rfl

/-- **Execution calls and retries balance.** Once every item that a desk over a scripted broker
accepted is recorded, the broker has been called as often as the results of the cleared orders say,
or more often only if the most retries are allowed and an order's calls ran out of numbers; it has
played its script to these calls, one failure to each in order, and then its fallback; what it
filled has the tickets from `1` on; and no result counts more retries than are allowed. -/
theorem executions_accounted {settings : Settings} {programs : List (List Call)}
    {schedule : List Turn} {d₀ : Desk Scripted} (hnew : s.Unused)
    (hopen : open? settings s Register.empty = .ok d₀)
    (hrun : (d₀.withCallers programs).follow Scripted.broker schedule = some (d, tr))
    (hall : tr.recorded.length = tr.accepted.length) :
    Accounted settings.maxRetries s d tr := by
  have hc := follow_custody hopen hrun
  have hn := follow_naming hopen hrun
  have hl := follow_ledger scripted_keepsBooks hnew.fills hopen hrun
  have hp := follow_played hopen hrun
  have hcharges := follow_charges Scripted.answers hopen hrun
  have hbalance := hcharges.balance
  rw [charge_eq_zero (hc.unrecorded_eq_zero hall), zero_add] at hbalance
  obtain ⟨hcleared, hanswered⟩ := Prod.mk.inj hbalance
  have hcleared : (↑tr.cleared : Multiset Item) = (charged tr.clearedNames tr.recorded).1 :=
    hcleared.trans (add_zero _)
  have hperm := hc.ofCleared_perm hn
  have hexecutions : d.broker.executions = tr.outcomes.length := by
    rw [hp.executions, hnew.executions, Nat.zero_add]
  refine ⟨?_, ?_, hcharges.numbered, hexecutions.symm, hexecutions ▸ hp.script, hexecutions ▸ hp.consumed_eq,
    hexecutions ▸ hp.scripted, hp.beyond, ?_, fun hsize => ?_, ?_⟩
  · have hnames : (ofCleared tr.clearedNames tr.recorded).map (fun e => e.1.order.id) =
        ((ofCleared tr.clearedNames tr.recorded).map Prod.snd).map (·.orderId) := by
      rw [List.map_map]
      refine List.map_congr_left fun e he => ?_
      exact (hc.settles e (List.mem_of_mem_filter he)).orderId.symm
    have hcleared := (Multiset.coe_eq_coe.1 hcleared).map fun i => i.order.id
    rw [List.map_map] at hcleared
    exact ((hperm.map (·.orderId)).symm.trans (List.Perm.of_eq hnames.symm)).trans hcleared.symm
  · rw [hexecutions, Trace.outcomes, List.length_map, hanswered,
      ← (hperm.map fun s => s.retries.toNat + 1).sum_eq, List.map_map]
    rfl
  · rw [Trace.filled_eq, hexecutions]
    exact hp.length_fills
  · have hfilled : tr.filled.length < UInt64.size := by
      rw [hc.size_eq hn] at hsize
      exact (hl.length_filled_le (hc.unrecorded_eq_zero hall)).trans_lt hsize
    have hvalues : d.broker.fills.values = tr.filled := by
      rw [hl.booked hfilled.le, Table.values, List.map_map]
      exact List.map_id _
    rw [hvalues, hl.tickets, hnew.nextTicket]
    exact ⟨rfl, map_ticketText_counted hfilled⟩
  · intro s hs
    obtain ⟨e, he, rfl⟩ := List.mem_map.1 ((hc.all_perm hn).mem_iff.1 hs)
    exact hcharges.retries e he

/-- A broker that loses its connection twice. -/
def twiceLossy : Scripted := lossy.withScript [timeout]

/-- The two workers share the failures out: each loses its first call. The first order is submitted
again and is not cleared a second time. -/
def failuresShared : Option (Desk Scripted × Trace) :=
  ((closed twoWorkers twiceLossy Register.empty).withCallers
    [[.start, .submit (plainOrder "r-1") none, .submit (plainOrder "r-2") none,
      .submit (plainOrder "r-1") none]]).follow Scripted.broker
    (turns (.caller 0) 10 ++ turns (.worker 0) 5 ++ turns (.worker 1) 6 ++ turns (.worker 0) 4 ++
      turns (.worker 1) 3 ++ turns (.worker 0) 3)

theorem executions_accounted_failuresShared : ∃ d, ∃ tr : Trace,
    failuresShared = some (d, tr) ∧ d.broker.executions = 4 ∧
    tr.recorded.map (fun e => (e.1.order.id.text, e.2.retries)) = [("r-1", 1), ("r-2", 1), ("r-1", 0)] ∧
    ((d.register.all.filter tr.isOfCleared).map fun s => s.retries.toNat + 1).sum = 4 ∧
    d.broker.fills.values.map (·.ticket) = firstTickets 2 := by
  have hends : failuresShared.map (fun r => (r.1.broker.executions,
      (Trace.recorded r.2).map fun e => (e.1.order.id.text, e.2.retries), (Trace.filled r.2).length,
      (Trace.accepted r.2).length, r.1.register.size)) =
        some (4, [("r-1", 1), ("r-2", 1), ("r-1", 0)], 2, 3, 3) := by
    decide +kernel
  obtain ⟨⟨d, tr⟩, hrun, hends⟩ := Option.map_eq_some_iff.1 hends
  obtain ⟨hexecutions, hends⟩ := Prod.mk.inj hends
  obtain ⟨hrecorded, hends⟩ := Prod.mk.inj hends
  obtain ⟨hfilled, hends⟩ := Prod.mk.inj hends
  obtain ⟨haccepted, hsize⟩ := Prod.mk.inj hends
  have hopen : open? twoWorkers twiceLossy Register.empty =
    .ok (closed twoWorkers twiceLossy Register.empty) := rfl
  have hall : tr.recorded.length = tr.accepted.length := by
    have hlength := congrArg List.length hrecorded
    rw [List.length_map] at hlength
    exact hlength.trans haccepted.symm
  have h := executions_accounted ⟨rfl, rfl, rfl⟩ hopen hrun hall
  have hlt : d.register.size < UInt64.size := by rw [hsize]; decide
  have hbalance := h.balance
  rw [h.numbered (by decide), List.length_nil, Nat.zero_mul, Nat.add_zero] at hbalance
  refine ⟨d, tr, hrun, hexecutions, hrecorded, hbalance.symm.trans hexecutions, ?_⟩
  rw [(h.tickets hlt).2, hfilled]

end Desk

end DealDesk
