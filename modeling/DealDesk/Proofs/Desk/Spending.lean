import DealDesk.Proofs.Broker.Script
import DealDesk.Proofs.Desk.Ledger
import DealDesk.Proofs.Retry

/-!
# What execution calls are spent on

* `Trace.cleared`, `Trace.answered` — the items that the gate cleared for execution, and the answers to
  execution calls.
* `Trace.overruns` — the items whose next call has no number.
* `ofCleared` — the results of cleared items among some records.
* `Position.charge` — the cleared item in a worker's hands, with the calls made for it so far.
* `Charges` — every cleared item is in hand or has its result, and every call was made for one of them;
  a result counts the calls after the first, unless the calls ran out of numbers. It is kept where no
  execution call breaks off.
-/

namespace DealDesk

/-! ## Kinds of events -/

namespace Event

/-- The gate lets an item through to execution. -/
def cleared? : Event → Option Item
  | .cleared item => some item
  | _ => none

/-- The broker answers an execution call. -/
def answered? : Event → Option (Item × Outcome)
  | .answered item outcome _ => some (item, outcome)
  | _ => none

/-- The next call for an item has no number. -/
def overrun? : Event → Option Item
  | .overrun item => some item
  | _ => none

end Event

namespace Trace

def cleared (tr : Trace) : List Item := tr.pick Event.cleared?

def answered (tr : Trace) : List (Item × Outcome) := tr.pick Event.answered?

def overruns (tr : Trace) : List Item := tr.pick Event.overrun?

/-- The names of the items that the gate cleared. -/
def clearedNames (tr : Trace) : List OrderId := tr.cleared.map fun i => i.order.id

/-- The fills are those among the answers. -/
theorem filled_eq (tr : Trace) : tr.filled = (tr.answered.map Prod.snd).filterMap Outcome.fill? := by
  rw [answered, pick, List.map_filterMap, List.filterMap_filterMap, filled, pick]
  refine List.filterMap_congr fun e _ => ?_
  cases e.2 with
  | answered item outcome delay => cases outcome <;> rfl
  | _ => rfl

end Trace

/-! ## Charges -/

/-- The results of cleared items among some records. A repetition of a cleared name is not cleared
itself. -/
def ofCleared (names : List OrderId) (records : List (Item × Settlement)) :
    List (Item × Settlement) :=
  records.filter fun e => e.2.isOriginal && decide (e.1.order.id ∈ names)

/-- The cleared items among some records, and the calls that their results count. -/
def charged (names : List OrderId) (records : List (Item × Settlement)) : Multiset Item × Nat :=
  (↑((ofCleared names records).map Prod.fst),
    ((ofCleared names records).map fun e => e.2.retries.toNat + 1).sum)

/-- What the events of a step add. -/
def chargesOf (events : List Event) : Multiset Item × Nat :=
  (↑(events.filterMap Event.cleared?), (events.filterMap Event.answered?).length)

/-- The calls that the results of items which ran out of numbers do not count. -/
def uncounted (overruns : List Item) : Multiset Item × Nat :=
  (0, overruns.length * (RetryRule.mostCalls - 1))

section Charged

variable {names ids : List OrderId} {records : List (Item × Settlement)} {item : Item}
  {s : Settlement}

theorem charged_append (names : List OrderId) (l l' : List (Item × Settlement)) :
    charged names (l ++ l') = charged names l + charged names l' := by
  simp only [charged, ofCleared, List.filter_append, List.map_append, List.sum_append,
    Prod.mk_add_mk, Multiset.coe_add]

theorem charged_of_cleared (ho : s.isOriginal = true) (hid : item.order.id ∈ names) :
    charged names [(item, s)] = ({item}, s.retries.toNat + 1) := by
  simp [charged, ofCleared, ho, hid]

theorem charged_of_not_original (ho : s.isOriginal = false) : charged names [(item, s)] = 0 := by
  simp [charged, ofCleared, ho]

theorem charged_of_not_mem (hid : item.order.id ∉ names) : charged names [(item, s)] = 0 := by
  simp [charged, ofCleared, hid]

theorem uncounted_nil : uncounted [] = 0 := by
  rw [uncounted, List.length_nil, Nat.zero_mul]
  rfl

theorem uncounted_append (l l' : List Item) :
    uncounted (l ++ l') = uncounted l + uncounted l' := by
  rw [uncounted, List.length_append, Nat.add_mul]
  rfl

/-- All calls but one are uncounted where the result of an item has no retries. -/
theorem uncounted_add_one (item : Item) :
    uncounted [item] + ({item}, 1) = ({item}, RetryRule.mostCalls) := by
  have hone := RetryRule.one_lt_mostCalls
  rw [uncounted, List.length_singleton, Nat.one_mul, Prod.mk_add_mk, zero_add,
    Nat.sub_add_cancel hone.le]

/-- The result of an item takes over the calls made for it, the last one included. -/
theorem charged_of_settle {r : RetryRule} {now : Int64} {attempt : UInt32} {outcome : Outcome}
    (hn : r.next now item.order attempt outcome = .settle s) (hid : item.order.id ∈ names) :
    charged names [(item, s.withSequence item.sequence)] = (0, 1) + ({item}, attempt.toNat) := by
  have hs : (s.withSequence item.sequence).status ≠ .duplicate :=
    (RetryRule.status_ne_duplicate hn : s.status ≠ .duplicate)
  have hretries : (s.withSequence item.sequence).retries = attempt :=
    (RetryRule.retries_of_settle hn : s.retries = attempt)
  rw [charged_of_cleared (Settlement.isOriginal_iff.2 hs) hid, hretries, Prod.mk_add_mk, zero_add,
    add_comm 1]

/-- So does the result of an item that ran out of numbers, together with the calls it does not count. -/
theorem charged_of_overrun {attempt : UInt32} (hnumber : RetryRule.ordinal? attempt = none)
    (ho : s.isOriginal = true) (hs : s.retries = 0) (hid : item.order.id ∈ names) :
    uncounted [item] + charged names [(item, s)] = ({item}, attempt.toNat) := by
  rw [charged_of_cleared ho hid, hs, RetryRule.ordinal?_eq_none_iff.1 hnumber]
  exact uncounted_add_one item

/-- Names that no original has change nothing. -/
theorem charged_congr (h : ∀ id ∈ ids, id ∉ originalNames records) :
    charged (names ++ ids) records = charged names records := by
  have hsame : ofCleared (names ++ ids) records = ofCleared names records := by
    refine List.filter_congr fun e he => ?_
    cases ho : e.2.isOriginal with
    | false => rfl
    | true =>
      have hnot : e.1.order.id ∉ ids := fun hid =>
        h _ hid (List.mem_map.2 ⟨e, List.mem_filter.2 ⟨he, ho⟩, rfl⟩)
      simp [hnot]
  rw [charged, hsame, charged]

end Charged

/-- An answer is one call. -/
theorem chargesOf_answer (item : Item) (outcome : Outcome) (delay : Nat) (texts : List String)
    {rest : List Event} (hcleared : rest.filterMap Event.cleared? = [])
    (hanswered : rest.filterMap Event.answered? = []) :
    chargesOf (.answered item outcome delay :: texts.map Event.noted ++ rest) = (0, 1) := by
  rw [chargesOf, Desk.filterMap_answer fun _ => rfl, Desk.filterMap_answer fun _ => rfl, hcleared,
    hanswered]
  rfl

namespace Position

/-- The cleared item in hand, and the calls made for it so far. -/
def charge (names : List OrderId) : Position → Multiset Item × Nat
  | .calling item attempt | .awaiting item attempt => ({item}, attempt.toNat)
  | .recording item s => charged names [(item, s)]
  | .starting | .dequeuing | .validating _ | .quoting _ | .notifying _ _ _ | .stopped => 0

/-- An item under execution is cleared, and the retries do not exceed their number. -/
def Within (maxRetries : UInt32) (names : List OrderId) : Position → Prop
  | .calling item attempt | .awaiting item attempt =>
    item.order.id ∈ names ∧ attempt ≤ maxRetries
  | .recording _ s => s.retries ≤ maxRetries
  | _ => True

theorem Within.mono {maxRetries : UInt32} {names names' : List OrderId} (hs : names ⊆ names')
    {p : Position} (h : p.Within maxRetries names) : p.Within maxRetries names' := by
  cases p with
  | calling item attempt => exact ⟨hs h.1, h.2⟩
  | awaiting item attempt => exact ⟨hs h.1, h.2⟩
  | recording item s => exact h
  | _ => trivial

end Position

/-- No execution call breaks off. -/
def Broker.Answers {β : Type} (b : Broker β) : Prop :=
  ∀ s now o, (b.execute s now o).reply ≠ .broke

namespace Desk

variable {β : Type} {b : Broker β} {n : Nat} {t : Thread} {d d' : Desk β} {p p' : Position}
  {events : List Event} {tr : Trace} {names : List OrderId} {rule : RetryRule}

/-! ## Steps -/

theorem Performs.clears_nothing {q q' : Program} (h : Performs t d q d' q' events) :
    events.filterMap Event.cleared? = [] ∧ events.filterMap Event.answered? = [] := by
  cases h <;> exact ⟨rfl, rfl⟩

theorem Performs.overruns_nothing {q q' : Program} (h : Performs t d q d' q' events) :
    events.filterMap Event.overrun? = [] := by
  cases h <;> rfl

/-- What is cleared the broker was just asked for. -/
theorem Works.cleared_subset (h : Works b d n p d' p' events) :
    events.filterMap Event.cleared? ⊆ p.asks := by
  cases h with
  | clear item i s h hc => exact List.Subset.refl [item]
  | call item attempt number hnumber =>
    rw [filterMap_call rfl]
    exact List.nil_subset _
  | again item attempt outcome failure h hn =>
    rw [filterMap_answer fun _ => rfl]
    exact List.nil_subset _
  | settle item attempt outcome s h hn =>
    rw [filterMap_settled (fun _ => rfl) (fun _ => rfl) fun _ => rfl]
    exact List.nil_subset _
  | act item s q d' q' events h hd hf =>
    rw [h.clears_nothing.1]
    exact List.nil_subset _
  | _ => exact List.nil_subset _

/-- Only under a rule that allows for the most retries does a call have no number. -/
theorem Works.numbered (hw : p.Within d.settings.maxRetries names)
    (hmax : d.settings.maxRetries ≠ 0xFFFFFFFF) (h : Works b d n p d' p' events) :
    events.filterMap Event.overrun? = [] := by
  cases h with
  | overrun item attempt hnumber =>
    exact absurd (d.settings.retryRule.maxRetries_of_unnumbered hnumber hw.2) hmax
  | call item attempt number hnumber => exact filterMap_call rfl ..
  | again item attempt outcome failure h hn =>
    rw [filterMap_answer fun _ => rfl]
    rfl
  | settle item attempt outcome s h hn =>
    rw [filterMap_settled (fun _ => rfl) (fun _ => rfl) fun _ => rfl]
    rfl
  | act item s q d' q' events h hd hf => exact h.overruns_nothing
  | _ => rfl

/-- **A call is charged to the item in hand, and the result takes the charge over.** An item that is
turned down by the gate is charged with nothing. -/
theorem Works.charge_add (hb : b.Answers) (hn : Naming d tr)
    (hsub : names ⊆ tr.asked.map fun i => i.order.id) (hp : p ∈ d.workers)
    (hw : p.Within d.settings.maxRetries names) (h : Works b d n p d' p' events)
    (names' : List OrderId)
    (hnames : names' = names ++ (events.filterMap Event.cleared?).map fun i => i.order.id) :
    chargesOf events + p.charge names' + 0 =
      uncounted (events.filterMap Event.overrun?) + p'.charge names' + charged names' p.records := by
  -- a step that clears nothing, answers nothing and does not break off
  have quiet : chargesOf events = 0 → events.filterMap Event.cleared? = [] →
      events.filterMap Event.overrun? = [] →
      p.charge names = p'.charge names + charged names p.records →
      chargesOf events + p.charge names' + 0 =
        uncounted (events.filterMap Event.overrun?) + p'.charge names' +
          charged names' p.records := by
    intro hnone hcleared hoverrun hcharge
    rw [hcleared, List.map_nil, List.append_nil] at hnames
    rw [hnone, hnames, hcharge, hoverrun, uncounted_nil]
    simp
  have seen : ∀ id ∈ names, id ∈ d.gate.seen := by
    intro id hid
    obtain ⟨i, hi, rfl⟩ := List.mem_map.1 (hsub hid)
    exact hn.mem_seen i hi
  have unasked : ∀ {item : Item}, p = .quoting item → item.order.id ∉ names := by
    rintro item rfl hid
    exact hn.not_asked hp (Multiset.mem_singleton_self _) (hsub hid)
  have turned : ∀ {item : Item} {s : Settlement}, charged names [(item, s)] = 0 →
      (0 : Multiset Item × Nat) = charged names [(item, s)] + charged names [] := by
    intro item s hzero
    rw [hzero]
    rfl
  cases h with
  | duplicate item h => exact quiet rfl rfl rfl (turned (charged_of_not_original rfl))
  | flawed item why h hf =>
    exact quiet rfl rfl rfl (turned (charged_of_not_mem fun hid => h (seen _ hid)))
  | quoteBroke item s h => exact quiet rfl rfl rfl (turned (charged_of_not_mem (unasked rfl)))
  | clash item i s why h hc => exact quiet rfl rfl rfl (turned (charged_of_not_mem (unasked rfl)))
  | clear item i s h hc =>
    show (({item}, 0) + 0 + 0 : Multiset Item × Nat) = uncounted [] + ({item}, 0) + 0
    rw [uncounted_nil]
    rfl
  | call item attempt number hnumber =>
    refine quiet ?_ (filterMap_call rfl ..) (filterMap_call rfl ..) (add_zero _).symm
    rw [chargesOf, filterMap_call rfl, filterMap_call rfl]
    rfl
  | overrun item attempt hnumber =>
    have hsame : names' = names := hnames.trans (List.append_nil _)
    rw [hsame]
    show (0 + ({item}, attempt.toNat) + 0 : Multiset Item × Nat) =
      uncounted [item] + charged names [(item, (d.lost item).withSequence item.sequence)] + 0
    rw [charged_of_overrun hnumber rfl rfl hw.1, zero_add]
  | executeBroke item attempt h => exact absurd h (hb _ _ _)
  | again item attempt outcome failure h hn =>
    rw [chargesOf_answer item outcome _ _ rfl rfl, filterMap_answer fun _ => rfl]
    show ((0, 1) + ({item}, attempt.toNat) + 0 : Multiset Item × Nat) =
      uncounted [] + ({item}, (attempt + 1).toNat) + 0
    rw [RetryRule.toNat_add_one (RetryRule.lt_of_again hn), uncounted_nil]
    simp [add_comm]
  | settle item attempt outcome s h hn =>
    have hsame : names' = names := by
      rw [hnames, filterMap_settled (fun _ => rfl) (fun _ => rfl) fun _ => rfl]
      exact List.append_nil _
    rw [filterMap_settled (fun _ => rfl) (fun _ => rfl) fun _ => rfl, List.append_assoc,
      chargesOf_answer item outcome _ _ (by split <;> rfl) (by split <;> rfl), hsame]
    show ((0, 1) + ({item}, attempt.toNat) + 0 : Multiset Item × Nat) =
      uncounted [] + charged names [(item, s.withSequence item.sequence)] + 0
    rw [uncounted_nil, zero_add, charged_of_settle hn hw.1]
  | record item s h => exact quiet rfl rfl rfl (zero_add _).symm
  | recordAndNotify item s calls h => exact quiet rfl rfl rfl (zero_add _).symm
  | act item s q d' q' events h hd hf =>
    refine quiet ?_ h.clears_nothing.1 h.overruns_nothing rfl
    rw [chargesOf, h.clears_nothing.1, h.clears_nothing.2]
    rfl
  | _ => exact quiet rfl rfl rfl rfl

/-- The retries that a worker counts stay within their number. -/
theorem Works.within (hw : p.Within d.settings.maxRetries names) (h : Works b d n p d' p' events) :
    p'.Within d.settings.maxRetries
      (names ++ (events.filterMap Event.cleared?).map fun i => i.order.id) := by
  cases h with
  | clear item i s h hc =>
    exact ⟨List.mem_append_right _ (List.mem_singleton.2 rfl), UInt32.zero_le⟩
  | call item attempt number hnumber => exact ⟨List.mem_append_left _ hw.1, hw.2⟩
  | again item attempt outcome failure h hn =>
    have hlt : attempt < d.settings.maxRetries := RetryRule.lt_of_again hn
    have hnext : (attempt + 1).toNat = attempt.toNat + 1 :=
      RetryRule.toNat_add_one (RetryRule.lt_of_again hn)
    refine ⟨List.mem_append_left _ hw.1, UInt32.le_iff_toNat_le.2 ?_⟩
    rw [hnext]
    exact UInt32.lt_iff_toNat_lt.1 hlt
  | settle item attempt outcome s h hn =>
    show s.retries ≤ _
    rw [RetryRule.retries_of_settle hn]
    exact hw.2
  | duplicate item h => exact UInt32.zero_le
  | flawed item why h hf => exact UInt32.zero_le
  | quoteBroke item s h => exact UInt32.zero_le
  | clash item i s why h hc => exact UInt32.zero_le
  | overrun item attempt hnumber => exact UInt32.zero_le
  | executeBroke item attempt h => exact UInt32.zero_le
  | _ => trivial

/-- Clearing an item concerns no other item that is settled or about to be. -/
theorem Naming.charges_congr (hn : Naming d tr) (hat : d.workers[n]? = some p) {ids : List OrderId}
    (hids : ids ⊆ p.asks.map fun i => i.order.id) :
    charged (names ++ ids) tr.recorded = charged names tr.recorded ∧
      overWorkers (Position.charge (names ++ ids)) d = overWorkers (Position.charge names) d := by
  have hadmitted : ∀ id ∈ ids, id ∈ p.admitted := by
    intro id hid
    obtain ⟨i, hi, rfl⟩ := List.mem_map.1 (hids hid)
    cases p with
    | quoting item => rw [List.mem_singleton.1 hi]; exact Multiset.mem_singleton_self _
    | _ => cases hi
  refine ⟨charged_congr fun id hid => hn.not_original (List.mem_of_getElem? hat) (hadmitted id hid),
    congrArg List.sum (List.map_congr_left fun q hq => ?_)⟩
  obtain ⟨m, hm⟩ := List.mem_iff_getElem?.1 hq
  cases q with
  | recording item s =>
    refine charged_congr fun id hid ho => ?_
    have hne : m ≠ n := by
      rintro rfl
      cases hat.symm.trans hm
      cases hids hid
    refine hn.apart hat hm hne (hadmitted id hid) ?_
    cases hs : s.isOriginal with
    | false => simp [originalNames, hs] at ho
    | true => simpa [originalNames, Position.admitted, hs] using ho
  | _ => rfl

/-- The names that a step adds to those cleared. -/
def clearedBy (events : List Event) : List OrderId :=
  (events.filterMap Event.cleared?).map fun i => i.order.id

theorem Moves.charge_add (names : List OrderId) (hb : b.Answers) (hn : Naming d tr)
    (hsub : names ⊆ tr.asked.map fun i => i.order.id)
    (hw : ∀ p ∈ d.workers, p.Within d.settings.maxRetries names) (h : Moves b t d d' events) :
    chargesOf events + overWorkers (Position.charge (names ++ clearedBy events)) d + 0 =
      uncounted (events.filterMap Event.overrun?) +
        overWorkers (Position.charge (names ++ clearedBy events)) d' +
        charged (names ++ clearedBy events) (events.filterMap Event.recorded?) := by
  cases h with
  | @caller n d d' q q' events hat h =>
    have hworkers : ∀ names, overWorkers (Position.charge names) d' =
        overWorkers (Position.charge names) d := fun names => h.overWorkers_eq rfl hn.asleep
    rw [chargesOf, h.clears_nothing.1, h.clears_nothing.2, h.frame.recorded, h.overruns_nothing,
      uncounted_nil]
    show 0 + _ + 0 = 0 + overWorkers _ d' + 0
    rw [hworkers]
  | worker hat h =>
    have hp := List.mem_of_getElem? hat
    rw [h.told.recorded]
    exact balance_over_workers (h.charge_add hb hn hsub hp (hw _ hp) _ rfl)
      (h.overWorkers_add hn.asleep hat)

theorem Moves.charges_congr (names : List OrderId) (hn : Naming d tr) (h : Moves b t d d' events) :
    charged (names ++ clearedBy events) tr.recorded = charged names tr.recorded ∧
      overWorkers (Position.charge (names ++ clearedBy events)) d =
        overWorkers (Position.charge names) d := by
  cases h with
  | caller hat h =>
    rw [clearedBy, h.clears_nothing.1, List.map_nil, List.append_nil]
    exact ⟨rfl, rfl⟩
  | worker hat h => exact hn.charges_congr hat (List.map_subset _ h.cleared_subset)

theorem Moves.within {limit : UInt32} (hz : d.Asleep) (hl : d.settings.maxRetries = limit)
    (hw : ∀ p ∈ d.workers, p.Within limit names) (h : Moves b t d d' events) :
    ∀ p ∈ d'.workers, p.Within limit (names ++ clearedBy events) := by
  subst hl
  have hw' : ∀ p ∈ d.workers, p.Within d.settings.maxRetries (names ++ clearedBy events) :=
    fun p hp => (hw p hp).mono (List.subset_append_left _ _)
  cases h with
  | caller hat h =>
    have hall := h.forall_workers (P := Position.Within _ _) trivial hw'
    exact hall
  | worker hat h =>
    exact h.forall_workers hz hat hw' (h.within (hw _ (List.mem_of_getElem? hat)))

/-- A step clears only what the broker was asked for. -/
theorem Moves.cleared_subset (h : Moves b t d d' events) :
    events.filterMap Event.cleared? ⊆ events.filterMap Event.asked? := by
  cases h with
  | caller hat h => rw [h.clears_nothing.1]; exact List.nil_subset _
  | worker hat h => rw [h.told.asked]; exact h.cleared_subset

/-- The retries of a result are those that the worker counted. -/
theorem Moves.retries {limit : UInt32} (hw : ∀ p ∈ d.workers, p.Within limit names)
    (h : Moves b t d d' events) :
    ∀ e ∈ events.filterMap Event.recorded?, e.2.retries ≤ limit := by
  intro e he
  cases h with
  | caller hat h => rw [h.frame.recorded] at he; cases he
  | @worker n d d' p p' events hat h =>
    rw [h.told.recorded] at he
    have hp := hw p (List.mem_of_getElem? hat)
    cases p with
    | recording item s => rw [List.mem_singleton.1 he]; exact hp
    | _ => cases he

theorem Moves.numbered (hw : ∀ p ∈ d.workers, p.Within d.settings.maxRetries names)
    (hmax : d.settings.maxRetries ≠ 0xFFFFFFFF) (h : Moves b t d d' events) :
    events.filterMap Event.overrun? = [] := by
  cases h with
  | caller hat h => exact h.overruns_nothing
  | worker hat h => exact h.numbered (hw _ (List.mem_of_getElem? hat)) hmax

/-! ## The invariant -/

/-- Every cleared item is in hand or has its result, every answered call was made for one of them, and
the result of an item counts the calls after the first, unless they ran out of numbers. -/
structure Charges (limit : UInt32) (d : Desk β) (tr : Trace) : Prop where
  naming : Naming d tr
  maxRetries : d.settings.maxRetries = limit
  asked : tr.cleared ⊆ tr.asked
  within : ∀ p ∈ d.workers, p.Within limit tr.clearedNames
  retries : ∀ e ∈ tr.recorded, e.2.retries ≤ limit
  balance : ((↑tr.cleared, tr.answered.length) : Multiset Item × Nat) =
    overWorkers (Position.charge tr.clearedNames) d + charged tr.clearedNames tr.recorded +
      uncounted tr.overruns
  numbered : limit ≠ 0xFFFFFFFF → tr.overruns = []

namespace Charges

variable {limit : UInt32}

theorem start (settings : Settings) (s : β) (register : Register) (programs : List (List Call)) :
    Charges settings.maxRetries ((closed settings s register).withCallers programs) [] where
  naming := Naming.start settings s register programs
  maxRetries := rfl
  asked := List.Subset.refl _
  within _ h := by cases h
  retries _ h := by cases h
  balance := by
    show (0 : Multiset Item × Nat) = 0 + 0 + uncounted []
    rw [uncounted_nil]
    rfl
  numbered _ := rfl

theorem clock (now : Int64) (hc : Charges limit d tr) : Charges limit { d with now := now } tr :=
  ⟨hc.naming.clock now, hc.maxRetries, hc.asked, hc.within, hc.retries, hc.balance, hc.numbered⟩

theorem step (hb : b.Answers) (hc : Charges limit d tr) (h : Moves b t d d' events) :
    Charges limit d' (tr ++ Trace.ofStep t events) := by
  have hz := hc.naming.asleep
  have hcleared : (tr ++ Trace.ofStep t events).cleared =
      tr.cleared ++ events.filterMap Event.cleared? := Trace.pick_step ..
  have hanswered : (tr ++ Trace.ofStep t events).answered =
      tr.answered ++ events.filterMap Event.answered? := Trace.pick_step ..
  have hrecorded : (tr ++ Trace.ofStep t events).recorded =
      tr.recorded ++ events.filterMap Event.recorded? := Trace.pick_step ..
  have hoverruns : (tr ++ Trace.ofStep t events).overruns =
      tr.overruns ++ events.filterMap Event.overrun? := Trace.pick_step ..
  have hnames : (tr ++ Trace.ofStep t events).clearedNames =
      tr.clearedNames ++ clearedBy events := by
    rw [Trace.clearedNames, hcleared, List.map_append]
    rfl
  have hw : ∀ p ∈ d.workers, p.Within d.settings.maxRetries tr.clearedNames := by
    rw [hc.maxRetries]
    exact hc.within
  refine ⟨hc.naming.step h, h.settings_eq ▸ hc.maxRetries, ?_, ?_, ?_, ?_, fun hmax => ?_⟩
  · have hasked : (tr ++ Trace.ofStep t events).asked =
        tr.asked ++ events.filterMap Event.asked? := Trace.pick_step ..
    rw [hcleared, hasked]
    exact List.append_subset.2 ⟨List.subset_append_of_subset_left _ hc.asked,
      List.subset_append_of_subset_right _ h.cleared_subset⟩
  · rw [hnames]
    exact h.within hz hc.maxRetries hc.within
  · intro e he
    rw [hrecorded] at he
    exact (List.mem_append.1 he).elim (hc.retries e) (h.retries hc.within e)
  · have hbalance := hc.balance
    have hadd := h.charge_add tr.clearedNames hb hc.naming (List.map_subset _ hc.asked) hw
    obtain ⟨hsettled, hinHand⟩ := h.charges_congr tr.clearedNames hc.naming
    rw [hcleared, hanswered, hrecorded, hnames, charged_append, hsettled, hoverruns,
      uncounted_append]
    rw [hinHand, add_zero] at hadd
    calc ((↑(tr.cleared ++ events.filterMap Event.cleared?),
          (tr.answered ++ events.filterMap Event.answered?).length) : Multiset Item × Nat)
        = (↑tr.cleared, tr.answered.length) + chargesOf events := by
          rw [List.length_append, ← Multiset.coe_add]
          rfl
      _ = charged tr.clearedNames tr.recorded + uncounted tr.overruns + (chargesOf events +
          overWorkers (Position.charge tr.clearedNames) d) := by
          rw [hbalance]
          ac_rfl
      _ = _ := by
          rw [hadd]
          ac_rfl
  · rw [hoverruns, hc.numbered hmax, h.numbered hw (hc.maxRetries ▸ hmax), List.append_nil]

end Charges

theorem follow_charges {settings : Settings} {s : β} {register : Register}
    {programs : List (List Call)} {schedule : List Turn} {d₀ : Desk β} (hb : b.Answers)
    (hopen : open? settings s register = .ok d₀)
    (hrun : (d₀.withCallers programs).follow b schedule = some (d, tr)) :
    Charges settings.maxRetries d tr := by
  obtain ⟨rfl, -⟩ := open?_eq hopen
  exact follow_invariant (P := Charges settings.maxRetries) Charges.clock (Charges.step hb)
    (Charges.start settings s register programs) hrun

end Desk

end DealDesk
