import DealDesk.Proofs.Broker.Checks
import DealDesk.Proofs.Desk.Kept
import DealDesk.Proofs.Desk.Shared
import DealDesk.Proofs.Retry

/-!
# What results blame

* `Fair` — a result blames the connection only if the calls for its order can run out of numbers; one
  that blames the order says so before any execution call; one that gives up names the loss of the
  call.
* `Settled` — a result that is recorded, or about to be.
* `Vouched` — at a desk over a broker that screens orders, calls are made only for orders that the
  broker does not blame, and every result is fair.

`checks_agree` is the main result: the gate and the paper broker turn down the same orders, so the
results of a desk are fair, whoever else uses the broker.
-/

namespace DealDesk

/-! ## Results -/

/-- An execution call is made for an item. -/
def Event.called? : Event → Option Item
  | .called item => some item
  | _ => none

def Trace.called (tr : Trace) : List Item := tr.pick Event.called?

theorem Event.brokered?_of_called? {e : Event} {i : Item} (h : e.called? = some i) :
    e.brokered? = some i := by
  cases e with
  | called item => exact h
  | _ => cases h

theorem Trace.called_subset (tr : Trace) : tr.called ⊆ tr.brokered := by
  intro i hi
  obtain ⟨e, he, hcalled⟩ := List.mem_filterMap.1 hi
  exact List.mem_filterMap.2 ⟨e, he, Event.brokered?_of_called? hcalled⟩

/-- The error text of an order that is given up after failure `last`. -/
def RetryRule.exhaustedText (r : RetryRule) (last : Failure) : String :=
  "All " ++ toString r.maxAttempts.toNat ++ " attempts failed. Last error: " ++ last.reason

/-- A result that blames neither the connection, nor the order once a call was made for it. -/
structure Fair (r : RetryRule) (lost : Failure) (called : List Item) (e : Item × Settlement) :
    Prop where
  /-- Only the call after `2 ^ 32 - 1` others, which has no number, breaks off. -/
  connected : e.2.status = .connectionError →
    r.maxRetries = 0xFFFFFFFF ∧ e.2.retries = 0 ∧ e.2.error = some Desk.breakText
  refused : e.2.status = .rejected ∨ e.2.status = .invalidParams →
    e.2.retries = 0 ∧ ∀ i ∈ called, i.order.id ≠ e.1.order.id
  exhausted : e.2.status = .retryExhausted → e.2.error = some (r.exhaustedText lost)

namespace Fair

variable {r : RetryRule} {lost : Failure} {called : List Item} {item : Item}

/-- An objection is raised before any call. -/
theorem ofObjection (now : Int64) (why : Objection)
    (hnew : ∀ i ∈ called, i.order.id ≠ item.order.id) :
    Fair r lost called (item, (why.settlement now item.order).withSequence item.sequence) := by
  have hwhy : why.status ≠ .connectionError ∧ why.status ≠ .retryExhausted := by
    cases why <;> exact ⟨nofun, nofun⟩
  exact ⟨fun h => absurd h hwhy.1, fun _ => ⟨rfl, hnew⟩, fun h => absurd h hwhy.2⟩

/-- A result that blames neither the order nor the connection. -/
theorem ofNeutral {e : Item × Settlement}
    (h : e.2.status = .success ∨ e.2.status = .marginError ∨ e.2.status = .duplicate) :
    Fair r lost called e := by
  refine ⟨fun hs => ?_, fun hs => ?_, fun hs => ?_⟩
  · rw [hs] at h
    simp at h
  · rcases hs with hs | hs <;> · rw [hs] at h; simp at h
  · rw [hs] at h
    simp at h

theorem ofExhausted {e : Item × Settlement} (h : e.2.status = .retryExhausted)
    (he : e.2.error = some (r.exhaustedText lost)) : Fair r lost called e := by
  refine ⟨fun hs => ?_, fun hs => ?_, fun _ => he⟩
  · rw [hs] at h
    cases h
  · rw [h] at hs
    rcases hs with hs | hs <;> cases hs

/-- A rule that lets calls run out of numbers has a result blame the connection. -/
theorem ofOverrun (now : Int64) (hr : r.maxRetries = 0xFFFFFFFF) : Fair r lost called
    (item, (Settlement.refused now item.order .connectionError Desk.breakText).withSequence
      item.sequence) := by
  refine ⟨fun _ => ⟨hr, rfl, rfl⟩, fun hs => ?_, fun hs => ?_⟩
  · rcases hs with hs | hs <;> cases hs
  · cases hs

/-- An outcome that does not blame the order is not settled as if it did. -/
theorem ofNext {now : Int64} {attempt : UInt32} {outcome : Outcome} {s : Settlement}
    (hlost : lost.disposition = .transient) (ho : outcome.PastChecks lost)
    (h : r.next now item.order attempt outcome = .settle s) :
    Fair r lost called (item, s.withSequence item.sequence) := by
  cases outcome with
  | filled fill =>
    cases h
    exact ofNeutral (.inl rfl)
  | failed failure =>
    rcases ho with rfl | ⟨hkind, hdisposition⟩
    · -- a lost call is tried again until the calls run out
      have hretries : r.retries failure = true := by
        simp [RetryRule.retries, Failure.isTransient, hlost]
      simp only [RetryRule.next, hretries, Bool.not_true, Bool.false_eq_true, if_false] at h
      split at h
      · cases h
        exact ofExhausted rfl rfl
      · cases h
    · have hretries : r.retries failure = false := by
        simp [RetryRule.retries, Failure.isTransient, hkind, hdisposition]
      simp only [RetryRule.next, hretries, Bool.not_false, if_true] at h
      cases h
      refine ofNeutral (.inr (.inl ?_))
      show failure.kind.status = .marginError
      rw [hkind]
      rfl

/-- Calls for other orders change nothing. -/
theorem append {more : List Item} {e : Item × Settlement} (hf : Fair r lost called e)
    (hmore : e.2.isOriginal = true → ∀ i ∈ more, i.order.id ≠ e.1.order.id) :
    Fair r lost (called ++ more) e := by
  refine ⟨hf.connected, fun h => ?_, hf.exhausted⟩
  obtain ⟨hretries, hnew⟩ := hf.refused h
  have horiginal : e.2.isOriginal = true := by
    refine Settlement.isOriginal_iff.2 ?_
    rcases h with h | h <;> rw [h] <;> nofun
  refine ⟨hretries, fun i hi => ?_⟩
  rcases List.mem_append.1 hi with hi | hi
  · exact hnew i hi
  · exact hmore horiginal i hi

end Fair

/-- The answer of a call that did not break off. -/
def Reply.answer? {α : Type} : Reply α → Option α
  | .answer a => some a
  | .broke => none

theorem Reply.answer?_eq_some {α : Type} {r : Reply α} {a : α} :
    r.answer? = some a ↔ r = .answer a := by
  cases r <;> simp [answer?]

namespace Position

/-- The item for which a call is made next. -/
def calls : Position → List Item
  | .calling item attempt =>
    match RetryRule.ordinal? attempt with
    | some _ => [item]
    | none => []
  | _ => []

theorem eq_of_mem_calls {item i : Item} {attempt : UInt32}
    (h : i ∈ (Position.calling item attempt).calls) : i = item := by
  cases hnumber : RetryRule.ordinal? attempt with
  | none =>
    simp only [calls, hnumber] at h
    cases h
  | some number =>
    simp only [calls, hnumber] at h
    exact List.mem_singleton.1 h

theorem eq_of_mem_records {p : Position} {e : Item × Settlement} (h : e ∈ p.records) :
    p = .recording e.1 e.2 := by
  cases p with
  | recording item s => rw [List.mem_singleton.1 h]
  | _ => cases h

/-- An execution call is made only for an order that is found sound, and only while there are retries
left. -/
def Held (r : RetryRule) (sound : Order → Prop) : Position → Prop
  | .calling item attempt | .awaiting item attempt => sound item.order ∧ attempt ≤ r.maxRetries
  | _ => True

theorem Held.mono {r : RetryRule} {sound sound' : Order → Prop} (hs : ∀ o, sound o → sound' o)
    {p : Position} (h : p.Held r sound) : p.Held r sound' := by
  cases p with
  | calling item attempt => exact h.imp_left (hs _)
  | awaiting item attempt => exact h.imp_left (hs _)
  | _ => trivial

end Position

namespace Desk

variable {β : Type} {b : Broker β} {sound : β → Order → Prop} {lost : Failure} {n : Nat}
  {t : Thread} {d d' : Desk β} {p p' : Position} {events : List Event} {tr : Trace}

/-! ## Steps -/

theorem Performs.called {q q' : Program} (h : Performs t d q d' q' events) :
    events.filterMap Event.called? = [] := by
  refine List.filterMap_eq_nil_iff.2 fun e he => ?_
  cases hc : e.called? with
  | none => rfl
  | some i =>
    have hmem := List.mem_filterMap.2 ⟨e, he, Event.brokered?_of_called? hc⟩
    rw [h.frame.brokered] at hmem
    cases hmem

theorem Works.called (h : Works b d n p d' p' events) :
    events.filterMap Event.called? = p.calls := by
  cases h with
  | call item attempt number hnumber =>
    rw [Position.calls, hnumber, filterMap_call rfl]
    rfl
  | overrun item attempt h =>
    rw [Position.calls, h]
    rfl
  | again item attempt outcome failure h hn => rw [filterMap_answer fun _ => rfl]; rfl
  | settle item attempt outcome s h hn =>
    exact filterMap_settled (fun _ => rfl) (fun _ => rfl) (fun _ => rfl) ..
  | act item s q d' q' events h hd hf => exact h.called
  | _ => rfl

/-- An order for which a call is to be made was found sound, by its quote or before. -/
theorem Works.held (hs : Screens b sound lost) (hp : p.Held d.settings.retryRule (sound d.broker))
    (h : Works b d n p d' p' events) : p'.Held d.settings.retryRule (sound d'.broker) := by
  have hkeeps := h.reaches
  cases h with
  | clear item i s h hc =>
    have hq : (b.quote d.broker item.order.symbol).1 = .answer i := by rw [h]
    exact ⟨hs.keeps hkeeps (hs.clear hq hc), UInt32.zero_le⟩
  | call item attempt number hnumber => exact hp
  | again item attempt outcome failure h hn =>
    exact ⟨hs.keeps hkeeps hp.1, RetryRule.add_one_le_of_again hn⟩
  | _ => trivial

/-- A worker comes to a fair result only. -/
theorem Works.fair {item : Item} {s : Settlement} (hs : Screens b sound lost) (hn : Naming d tr)
    (hat : d.workers[n]? = some p) (hp : p.Held d.settings.retryRule (sound d.broker))
    (h : Works b d n p d' (.recording item s) events) :
    Fair d.settings.retryRule lost (tr.called ++ p.calls) (item, s) := by
  have asked : ∀ i ∈ tr.called, i ∈ tr.asked := fun i hi => hn.brokered i (tr.called_subset hi)
  cases h with
  | duplicate item h => exact .ofNeutral (.inr (.inr rfl))
  | flawed item why h hf =>
    refine .ofObjection d.now why fun i hi he => h ?_
    rw [← he]
    exact hn.mem_seen i (asked i (by simpa [Position.calls] using hi))
  | quoteBroke item s h =>
    obtain ⟨i, hi⟩ := hs.quote d.broker item.order.symbol
    rw [h] at hi
    cases hi
  | clash item i s why h hc =>
    have hunasked := hn.not_asked (List.mem_of_getElem? hat) (Multiset.mem_singleton_self _)
    refine .ofObjection d.now why fun i hi he => hunasked ?_
    exact List.mem_map.2 ⟨i, asked i (by simpa [Position.calls] using hi), he⟩
  | overrun item attempt h => exact .ofOverrun d.now (RetryRule.maxRetries_of_unnumbered h hp.2)
  | executeBroke item attempt h =>
    obtain ⟨outcome, hreply, -⟩ := hs.execute d.now hp.1
    rw [h] at hreply
    cases hreply
  | settle item attempt outcome s h hn =>
    obtain ⟨outcome', hreply, hpast⟩ := hs.execute d.now hp.1
    rw [h] at hreply
    cases hreply
    exact .ofNext hs.transient hpast hn

/-! ## The invariant -/

/-- A result that is recorded, or about to be. -/
def Settled (d : Desk β) (tr : Trace) (e : Item × Settlement) : Prop :=
  e ∈ tr.recorded ∨ .recording e.1 e.2 ∈ d.workers

/-- Calls are made only for orders that the broker does not blame, and results are fair. -/
structure Vouched (sound : β → Order → Prop) (lost : Failure) (r : RetryRule) (d : Desk β)
    (tr : Trace) : Prop where
  naming : Naming d tr
  rule : d.settings.retryRule = r
  held : ∀ p ∈ d.workers, p.Held r (sound d.broker)
  fair : ∀ e, Settled d tr e → Fair r lost tr.called e

/-- No call is about to be made for the order of a result. -/
theorem Naming.ne_of_settled (hn : Naming d tr) {e : Item × Settlement} (he : Settled d tr e)
    (ho : e.2.isOriginal = true) (hat : d.workers[n]? = some p) :
    ∀ i ∈ p.calls, i.order.id ≠ e.1.order.id := by
  intro i hi hid
  cases p with
  | calling item attempt =>
    rw [Position.eq_of_mem_calls hi] at hid
    have hadmitted : e.1.order.id ∈ (Position.calling item attempt).admitted :=
      Multiset.mem_singleton.2 hid.symm
    rcases he with he | he
    · refine hn.not_original (List.mem_of_getElem? hat) hadmitted ?_
      exact List.mem_map.2 ⟨e, List.mem_filter.2 ⟨he, ho⟩, rfl⟩
    · obtain ⟨m, hm⟩ := List.mem_iff_getElem?.1 he
      have hne : m ≠ n := by
        rintro rfl
        cases hat.symm.trans hm
      refine hn.apart hat hm hne hadmitted ?_
      simp [Position.admitted, ho]
  | _ => cases hi

namespace Vouched

variable {r : RetryRule}

theorem start (settings : Settings) (s : β) (register : Register) (programs : List (List Call)) :
    Vouched sound lost settings.retryRule ((closed settings s register).withCallers programs) []
    where
  naming := Naming.start settings s register programs
  rule := rfl
  held _ h := by cases h
  fair _ h := by rcases h with h | h <;> cases h

theorem clock (now : Int64) (hv : Vouched sound lost r d tr) :
    Vouched sound lost r { d with now := now } tr :=
  ⟨hv.naming.clock now, hv.rule, hv.held, hv.fair⟩

/-- What others do to broker and register concerns no worker. -/
theorem others (hs : Screens b sound lost) {s : β} (register : Register)
    (hv : Vouched sound lost r d tr) (hr : b.Reaches d.broker s) :
    Vouched sound lost r { d with broker := s, register := register } tr := by
  have hn := hv.naming
  exact ⟨⟨hn.asleep, hn.seen, hn.nodup, hn.vetted, hn.recorded, hn.asked, hn.brokered⟩, hv.rule,
    fun p hp => (hv.held p hp).mono fun _ => hs.keeps hr, hv.fair⟩

theorem step (hs : Screens b sound lost) (hv : Vouched sound lost r d tr)
    (h : Moves b t d d' events) : Vouched sound lost r d' (tr ++ Trace.ofStep t events) := by
  have hz := hv.naming.asleep
  have hkeeps := h.reaches
  refine ⟨hv.naming.step h, by rw [h.settings_eq]; exact hv.rule, ?_, ?_⟩
  · have hheld : ∀ p ∈ d.workers, p.Held r (sound d'.broker) :=
      fun p hp => (hv.held p hp).mono fun _ => hs.keeps hkeeps
    cases h with
    | caller hat h => exact fun p hp => h.forall_workers (P := Position.Held r _) trivial hheld p hp
    | @worker n d d' p p' events hat h =>
      have hp := hv.held p (List.mem_of_getElem? hat)
      rw [← hv.rule] at hp hheld ⊢
      have hp' := h.held hs hp
      exact h.forall_workers hz hat hheld hp'
  · intro e he
    rw [Settled, Trace.recorded, Trace.pick_step, ← Trace.recorded] at he
    rw [Trace.called, Trace.pick_step, ← Trace.called]
    cases h with
    | @caller n d d' q q' events hat h =>
      rw [h.frame.recorded, List.append_nil] at he
      rw [h.called, List.append_nil]
      refine hv.fair e (he.imp_right fun he => ?_)
      have he : .recording e.1 e.2 ∈ d'.workers := he
      rcases h.frame.workers with hw | ⟨-, hw⟩
      · rwa [hw] at he
      · rw [hw] at he
        cases List.eq_of_mem_replicate he
    | @worker n d d' p p' events hat h =>
      have hp := List.mem_of_getElem? hat
      rw [h.told.recorded] at he
      rw [h.called]
      have old : Settled d tr e → Fair r lost (tr.called ++ p.calls) e := fun he =>
        (hv.fair e he).append fun ho => hv.naming.ne_of_settled he ho hat
      rcases he with he | he
      · rcases List.mem_append.1 he with he | he
        · exact old (.inl he)
        · rw [Position.eq_of_mem_records he] at hp
          exact old (.inr hp)
      · rcases h.of_mem_set hz hat he with heq | ⟨m, -, hm⟩
        · subst heq
          have hheld := hv.held p hp
          rw [← hv.rule] at hheld ⊢
          exact h.fair hs hv.naming hat hheld
        · exact old (.inr (List.mem_of_getElem? hm))

end Vouched

/-! ## The paper broker -/

/-- **The gate and the paper broker turn down the same orders.** What the gate lets through the
broker fills, loses on the way or refuses for lack of margin, then and later on. What the gate
objects to on account of its symbol the broker refuses for good, with the same status. Hence the
results of a desk over such a broker are fair, whoever else uses the broker and the register: unless
the most retries are allowed that 32 bits can say, no result blames the connection. -/
theorem checks_agree {ρ : Type} [Random.Source ρ] :
    (∀ {g : Gate} {p p' : Paper ρ} {o : Order} (now : Int64),
      (g.examine Paper.broker p o).1 = .answer none → Paper.broker.Reaches p p' →
      (p'.execute now o).reply.PastChecks Paper.lostCall) ∧
    (∀ {g : Gate} {p p' : Paper ρ} {o : Order} {why : Objection},
      (g.examine Paper.broker p o).1 = .answer (some why) → o.id ∉ g.seen → o.flaw = none →
      badLevel o.stopLoss = none → badLevel o.takeProfit = none → Paper.broker.Reaches p p' →
      ∃ f, p'.check o = .error f ∧ f.disposition = .permanent ∧ f.kind.status = why.status) ∧
    ∀ {settings : Settings} {p : Paper ρ} {register : Register} {programs : List (List Call)}
      {d₀ d : Desk (Paper ρ)} {tr : Trace},
      open? settings p register = .ok d₀ →
      SharedRun Paper.broker (d₀.withCallers programs) d tr →
      ∀ e ∈ tr.recorded, Fair settings.retryRule Paper.lostCall tr.called e := by
  have hs : Screens Paper.broker Paper.Passes Paper.lostCall := paper_screens (ρ := ρ)
  refine ⟨?_, ?_, ?_⟩
  · intro g p p' o now h hr
    obtain ⟨i, hq, hc⟩ := Gate.examine_clear h
    obtain ⟨outcome, hreply, hpast⟩ := hs.execute now (hs.keeps hr (hs.clear hq hc))
    cases hreply
    exact hpast
  · intro g p p' o why h hnew hflaw hstop hprofit hr
    obtain ⟨i, hq, hc⟩ := Gate.examine_objects h hnew hflaw
    cases hq
    have hc : o.clash (p.quote o.symbol).1 = some why := hc
    rw [Paper.clash_quote] at hc
    rw [Paper.check_congr (Paper.symbols_of_reaches hr)]
    exact Paper.check_of_clash hc hstop hprofit
  · intro settings p register programs d₀ d tr hopen hrun e he
    obtain ⟨rfl, -⟩ := open?_eq hopen
    have hv : Vouched Paper.Passes Paper.lostCall settings.retryRule d tr :=
      hrun.invariant Vouched.clock (fun hv h => hv.step hs h)
        (fun register hv hr => hv.others hs register hr)
        (Vouched.start settings p register programs)
    exact hv.fair e (.inl he)

/-- A paper broker that loses every execution call. -/
def lossyPaper : Paper Random.Tape :=
  ((Paper.standard { words := fun _ => 0, position := 0 }).withFailureRate 1).withLatency 0 0

/-- An order for more than the symbol allows. -/
def largeOrder (id : String) : Order := { plainOrder id with volume := 1000 }

/-- One worker gives up on the first order, and another turns the second one down. -/
def lostAndLarge : Option (Desk (Paper Random.Tape) × Trace) :=
  ((closed twoWorkers lossyPaper Register.empty).withCallers
    [[.start, .submit (plainOrder "r-1") none, .submit (largeOrder "r-2") none]]).follow
      Paper.broker (turns (.caller 0) 7 ++ turns (.worker 0) 13 ++ turns (.worker 1) 5)

theorem checks_agree_lostAndLarge :
    (lossyPaper.execute 0 (plainOrder "r-1")).reply.PastChecks Paper.lostCall ∧
    (∃ f, lossyPaper.check (largeOrder "r-2") = .error f ∧ f.disposition = .permanent ∧
      f.kind.status = .invalidParams) ∧
    ∃ d, ∃ tr : Trace, lostAndLarge = some (d, tr) ∧
      tr.recorded.map (fun e => e.2.status) = [.retryExhausted, .invalidParams] ∧
      ∀ e ∈ tr.recorded, Fair twoWorkers.retryRule Paper.lostCall tr.called e := by
  refine ⟨?_, ?_, ?_⟩
  · have hplain : (Gate.empty.examine Paper.broker lossyPaper (plainOrder "r-1")).1.answer?.map
        (·.map Objection.status) = some none := by
      decide +kernel
    obtain ⟨why, hplain, hnone⟩ := Option.map_eq_some_iff.1 hplain
    cases Option.map_eq_none_iff.1 hnone
    exact checks_agree.1 0 (Reply.answer?_eq_some.1 hplain) .refl
  · have hlarge : (Gate.empty.examine Paper.broker lossyPaper (largeOrder "r-2")).1.answer?.map
        (·.map Objection.status) = some (some .invalidParams) := by
      decide +kernel
    have hflaw : (largeOrder "r-2").flaw.isNone = true := by decide +kernel
    obtain ⟨why, hlarge, hsome⟩ := Option.map_eq_some_iff.1 hlarge
    obtain ⟨why, rfl, hstatus⟩ := Option.map_eq_some_iff.1 hsome
    rw [← hstatus]
    exact checks_agree.2.1 (Reply.answer?_eq_some.1 hlarge) (by decide)
      (Option.isNone_iff_eq_none.1 hflaw) rfl rfl .refl
  · have hrun : lostAndLarge.map (fun r => (Trace.recorded r.2).map fun e => e.2.status) =
        some [.retryExhausted, .invalidParams] := by
      decide +kernel
    obtain ⟨⟨d, tr⟩, hrun, hstatuses⟩ := Option.map_eq_some_iff.1 hrun
    have hopen : open? twoWorkers lossyPaper Register.empty =
      .ok (closed twoWorkers lossyPaper Register.empty) := rfl
    exact ⟨d, tr, hrun, hstatuses, checks_agree.2.2 hopen (follow_sharedRun hrun)⟩

end Desk

end DealDesk
