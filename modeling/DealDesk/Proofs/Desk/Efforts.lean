import DealDesk.Proofs.Desk.Blame
import DealDesk.Proofs.Retry

/-!
# What is done for an order

* `Effort` — a thing that is done to have an order executed: the gate lets it through, a pause, a
  call, the reply to it. `Trace.efforts` is all that a run did for the orders of one name.
* `RetryRule.efforts` — what a rule has done for an order whose calls get given replies.
* `Stands` — what was done for an item, seen from where its worker stands, or from its result.
* `Pursued` — at every desk, what was done for an item is what the rule asks for, and its result
  says how it came out.

`retries_count_calls` is the main result: a result counts the calls after the first one, unless the
work on its order broke off. Then the result is made without the count and says zero.
-/

namespace DealDesk

/-! ## Efforts -/

inductive Effort
  /-- The gate lets the item through. -/
  | cleared
  | pause (delay : Span)
  | call
  | reply (reply : Reply Outcome)
  /-- There is no number for the next call. -/
  | overrun

namespace Effort

def isCleared : Effort → Bool
  | .cleared => true
  | _ => false

def isCall : Effort → Bool
  | .call => true
  | _ => false

/-- A call that breaks off has no answer, and one without a number is not made. -/
def isBreak : Effort → Bool
  | .reply r => r.answer?.isNone
  | .overrun => true
  | _ => false

def pause? : Effort → Option Span
  | .pause delay => some delay
  | _ => none

end Effort

/-- An effort, with the item that it is made for. A quote that breaks off counts as a reply. -/
def Event.effort? : Event → Option (Item × Effort)
  | .cleared item => some (item, .cleared)
  | .waiting item _ _ delay => some (item, .pause delay)
  | .called item => some (item, .call)
  | .answered item outcome _ => some (item, .reply (.answer outcome))
  | .broke item => some (item, .reply .broke)
  | .overrun item => some (item, .overrun)
  | _ => none

/-- The same, if the item has the given name. -/
def Event.effortFor? (id : OrderId) (e : Event) : Option Effort :=
  match e.effort? with
  | some (item, effort) => if item.order.id = id then some effort else none
  | none => none

namespace Trace

/-- All that was done for the orders of one name, in order. -/
def efforts (tr : Trace) (id : OrderId) : List Effort := tr.pick (Event.effortFor? id)

/-- How many execution calls were made for them. -/
def callCount (tr : Trace) (id : OrderId) : Nat := (tr.efforts id).countP Effort.isCall

/-- How long was waited for them, each time. -/
def pauses (tr : Trace) (id : OrderId) : List Span := (tr.efforts id).filterMap Effort.pause?

/-- Did the gate let one of them through? -/
def hasCleared (tr : Trace) (id : OrderId) : Bool := (tr.efforts id).any Effort.isCleared

/-- Did the work on one of them break off? -/
def hasBroken (tr : Trace) (id : OrderId) : Bool := (tr.efforts id).any Effort.isBreak

end Trace

/-! ## What a rule asks for -/

namespace RetryRule

variable {r : RetryRule} {replies : List (Reply Outcome)}

/-- The pause before call `i`, counted from zero; there is none before the first. -/
def pauseBefore (r : RetryRule) (i : Nat) : List Effort :=
  if i = 0 then [] else [.pause (r.backoff (UInt32.ofNat i))]

/-- What is done for an item that the gate let through and whose calls get these replies. -/
def efforts (r : RetryRule) (replies : List (Reply Outcome)) : List Effort :=
  .cleared :: replies.zipIdx.flatMap fun e => r.pauseBefore e.2 ++ [.call, .reply e.1]

/-- The waits of an order that is retried so many times. -/
def waits (r : RetryRule) (retries : Nat) : List Span :=
  (List.range retries).map fun k => r.backoff (UInt32.ofNat (k + 1))

theorem efforts_concat (replies : List (Reply Outcome)) (reply : Reply Outcome) :
    r.efforts (replies ++ [reply]) =
      r.efforts replies ++ r.pauseBefore replies.length ++ [.call] ++ [.reply reply] := by
  simp [efforts, List.zipIdx_append]

theorem countP_efforts : (r.efforts replies).countP Effort.isCall = replies.length := by
  have hpause : ∀ i, (r.pauseBefore i).countP Effort.isCall = 0 := by
    intro i
    unfold pauseBefore
    split <;> rfl
  induction replies using List.reverseRecOn with
  | nil => rfl
  | append_singleton replies reply ih =>
    rw [efforts_concat, List.countP_append, List.countP_append, List.countP_append, ih, hpause,
      List.length_append]
    rfl

/-- There is a wait before each call but the first. -/
theorem filterMap_pause_efforts :
    (r.efforts replies).filterMap Effort.pause? = r.waits (replies.length - 1) := by
  induction replies using List.reverseRecOn with
  | nil => rfl
  | append_singleton replies reply ih =>
    rw [efforts_concat, List.filterMap_append, List.filterMap_append, List.filterMap_append, ih,
      List.length_append, List.length_singleton, Nat.add_sub_cancel]
    cases hlength : replies.length with
    | zero => rfl
    | succ n =>
      rw [waits, waits, List.range_succ, List.map_append]
      simp [pauseBefore, Effort.pause?]

theorem any_isBreak_efforts : (r.efforts replies).any Effort.isBreak =
    replies.any fun reply => reply.answer?.isNone := by
  have hpause : ∀ i, (r.pauseBefore i).any Effort.isBreak = false := by
    intro i
    unfold pauseBefore
    split <;> rfl
  induction replies using List.reverseRecOn with
  | nil => rfl
  | append_singleton replies reply ih =>
    rw [efforts_concat]
    simp [ih, hpause, Effort.isBreak]

/-- So many calls have failed, each in a way that led to another. -/
structure Failing (r : RetryRule) (attempt : UInt32) (replies : List (Reply Outcome)) : Prop where
  count : replies.length = attempt.toNat
  retried : ∀ reply ∈ replies,
    ∃ failure, reply = .answer (.failed failure) ∧ r.retries failure = true

namespace Failing

variable {attempt : UInt32}

theorem none : r.Failing 0 [] := ⟨rfl, List.forall_mem_nil _⟩

theorem again {now : Int64} {o : Order} {outcome : Outcome} {failure : Failure}
    (h : r.Failing attempt replies) (hn : r.next now o attempt outcome = .again failure) :
    r.Failing (attempt + 1) (replies ++ [.answer outcome]) := by
  obtain ⟨rfl, hretries, hlt⟩ := next_again_iff.1 hn
  refine ⟨?_, fun reply hreply => ?_⟩
  · rw [List.length_append, List.length_singleton, h.count, toNat_add_one hlt]
  · rcases List.mem_append.1 hreply with hreply | hreply
    · exact h.retried reply hreply
    · exact ⟨failure, List.mem_singleton.1 hreply, hretries⟩

/-- None of them broke off, so the next reply decides. -/
theorem any_isBreak (h : r.Failing attempt replies) (reply : Reply Outcome) :
    (r.efforts (replies ++ [reply])).any Effort.isBreak = reply.answer?.isNone := by
  have hnone : (replies.any fun reply => reply.answer?.isNone) = false := by
    refine List.any_eq_false.2 fun reply hreply => ?_
    obtain ⟨failure, rfl, -⟩ := h.retried reply hreply
    exact Bool.false_ne_true
  rw [any_isBreak_efforts, List.any_append, hnone, List.any_cons, List.any_nil, Bool.or_false,
    Bool.false_or]

theorem countP_isCall (h : r.Failing attempt replies) (reply : Reply Outcome) :
    (r.efforts (replies ++ [reply])).countP Effort.isCall = attempt.toNat + 1 := by
  rw [countP_efforts, List.length_append, List.length_singleton, h.count]

theorem pauseBefore_eq (h : r.Failing attempt replies) : r.pauseBefore replies.length =
    if attempt = 0 then [] else [.pause (r.backoff attempt)] := by
  have hzero : attempt.toNat = 0 ↔ attempt = 0 := UInt32.toNat_inj (b := 0)
  rw [pauseBefore, h.count, UInt32.ofNat_toNat]
  simp only [hzero]

end Failing

end RetryRule

namespace Desk

variable {β : Type} {b : Broker β} {rule : RetryRule} {n : Nat} {t : Thread} {d d' : Desk β}
  {p p' : Position} {events : List Event} {tr : Trace} {id : OrderId} {item : Item}
  {s : Settlement}

/-! ## Where an item stands -/

/-- `Stands rule p done`: what was done for the item in hand of a worker that stands at `p`, or was
about to record it there. -/
inductive Stands (rule : RetryRule) : Position → List Effort → Prop
  | quoting (item : Item) : Stands rule (.quoting item) []
  | calling (item : Item) {attempt : UInt32} {replies : List (Reply Outcome)}
      (h : rule.Failing attempt replies) :
      Stands rule (.calling item attempt) (rule.efforts replies)
  | awaiting (item : Item) {attempt : UInt32} {replies : List (Reply Outcome)}
      (h : rule.Failing attempt replies) :
      Stands rule (.awaiting item attempt)
        (rule.efforts replies ++ rule.pauseBefore replies.length ++ [.call])
  | objected (item : Item) (s : Settlement) : Stands rule (.recording item s) []
  /-- The quote broke off. -/
  | unquoted (item : Item) (s : Settlement) : Stands rule (.recording item s) [.reply .broke]
  | settled (item : Item) {s : Settlement} {replies : List (Reply Outcome)} (outcome : Outcome)
      (h : rule.Failing s.retries replies) :
      Stands rule (.recording item s) (rule.efforts (replies ++ [.answer outcome]))
  /-- A call broke off. -/
  | lost (item : Item) {s : Settlement} {attempt : UInt32} {replies : List (Reply Outcome)}
      (h : rule.Failing attempt replies) (hretries : s.retries = 0)
      (hstatus : s.status = .connectionError) (herror : s.error = some breakText) :
      Stands rule (.recording item s) (rule.efforts (replies ++ [.broke]))
  /-- The next call has no number. -/
  | overrun (item : Item) {s : Settlement} {attempt : UInt32} {replies : List (Reply Outcome)}
      (h : rule.Failing attempt replies) (hnumber : RetryRule.ordinal? attempt = none)
      (hretries : s.retries = 0) (hstatus : s.status = .connectionError)
      (herror : s.error = some breakText) :
      Stands rule (.recording item s) (rule.efforts replies ++ [.overrun])

/-! ## Steps -/

theorem Performs.effortsFor {q q' : Program} (h : Performs t d q d' q' events) (id : OrderId) :
    events.filterMap (Event.effortFor? id) = [] := by
  cases h <;> rfl

/-- A worker makes efforts only for the name that it has in hand and that the gate admitted. -/
theorem Works.effortsFor_of_notMem (h : Works b d n p d' p' events) (hid : id ∉ p.admitted) :
    events.filterMap (Event.effortFor? id) = [] := by
  have other : ∀ {item : Item}, p.admitted = {item.order.id} → item.order.id ≠ id := by
    intro item hp he
    rw [hp, he] at hid
    exact hid (Multiset.mem_singleton_self _)
  cases h with
  | quoteBroke item s h => simp [Event.effortFor?, Event.effort?, other rfl]
  | clear item i s h hc => simp [Event.effortFor?, Event.effort?, other rfl]
  | call item attempt number hnumber =>
    split <;> simp [Event.effortFor?, Event.effort?, other rfl]
  | overrun item attempt h => simp [Event.effortFor?, Event.effort?, other rfl]
  | executeBroke item attempt h => simp [Event.effortFor?, Event.effort?, other rfl]
  | again item attempt outcome failure h hn =>
    rw [filterMap_answer fun _ => rfl]
    simp [Event.effortFor?, Event.effort?, other rfl]
  | settle item attempt outcome s h hn =>
    rw [filterMap_settled (fun _ => rfl) (fun _ => rfl) fun _ => rfl]
    simp [Event.effortFor?, Event.effort?, other rfl]
  | act item s q d' q' events h hd hf => exact h.effortsFor id
  | _ => rfl

theorem Stands.of_quoting {done : List Effort} (h : Stands rule (.quoting item) done) :
    done = [] := by
  cases h
  rfl

/-- A result that does not call its item a duplicate is that of an admitted item. -/
theorem eq_of_mem_admitted (h : id ∈ (Position.recording item s).admitted) :
    id = item.order.id := by
  simp only [Position.admitted] at h
  split at h
  · exact Multiset.mem_singleton.1 h
  · cases h

theorem effortsFor_call (item : Item) (attempt number calls : UInt32) (delay : Span) :
    ((if attempt = 0 then [] else [Event.waiting item number calls delay]) ++
        [Event.called item]).filterMap (Event.effortFor? item.order.id) =
      (if attempt = 0 then [] else [.pause delay]) ++ [.call] := by
  split <;> simp [Event.effortFor?, Event.effort?]

/-- **A worker's step takes the item on to where the rule has it stand next.** -/
theorem Works.stands {done : OrderId → List Effort} (h : Works b d n p d' p' events)
    (hnew : ∀ id, id ∉ d.gate.seen → done id = [])
    (hp : ∀ id ∈ p.admitted, Stands d.settings.retryRule p (done id)) :
    ∀ id ∈ p'.admitted,
      Stands d.settings.retryRule p' (done id ++ events.filterMap (Event.effortFor? id)) := by
  intro id hid
  cases h with
  | duplicate item h => cases hid
  | flawed item why h hf =>
    obtain rfl := eq_of_mem_admitted hid
    rw [hnew _ h]
    exact .objected item _
  | enter item h hf =>
    obtain rfl := Multiset.mem_singleton.1 hid
    rw [hnew _ h]
    exact .quoting item
  | quoteBroke item s h =>
    obtain rfl := eq_of_mem_admitted hid
    rw [(hp _ (Multiset.mem_singleton_self _)).of_quoting]
    simp only [Event.effortFor?, Event.effort?, List.filterMap_cons, if_true]
    exact .unquoted item _
  | clash item i s why h hc =>
    obtain rfl := eq_of_mem_admitted hid
    rw [(hp _ (Multiset.mem_singleton_self _)).of_quoting]
    exact .objected item _
  | clear item i s h hc =>
    obtain rfl := Multiset.mem_singleton.1 hid
    rw [(hp _ (Multiset.mem_singleton_self _)).of_quoting]
    simp only [Event.effortFor?, Event.effort?, List.filterMap_cons, if_true]
    exact .calling item .none
  | call item attempt number hnumber =>
    obtain rfl := Multiset.mem_singleton.1 hid
    have hstands := hp _ (Multiset.mem_singleton_self _)
    generalize done item.order.id = l at hstands ⊢
    cases hstands with
    | calling _ hfailing =>
      rw [effortsFor_call, ← hfailing.pauseBefore_eq, ← List.append_assoc]
      exact .awaiting item hfailing
  | overrun item attempt h =>
    obtain rfl := eq_of_mem_admitted hid
    have hstands := hp _ (Multiset.mem_singleton_self _)
    generalize done item.order.id = l at hstands ⊢
    cases hstands with
    | calling _ hfailing =>
      simp only [Event.effortFor?, Event.effort?, List.filterMap_cons, if_true]
      exact .overrun item hfailing h rfl rfl rfl
  | executeBroke item attempt h =>
    obtain rfl := eq_of_mem_admitted hid
    have hstands := hp _ (Multiset.mem_singleton_self _)
    generalize done item.order.id = l at hstands ⊢
    cases hstands with
    | awaiting _ hfailing =>
      simp only [Event.effortFor?, Event.effort?, List.filterMap_cons, if_true]
      rw [List.filterMap_nil, ← RetryRule.efforts_concat]
      exact .lost item hfailing rfl rfl rfl
  | again item attempt outcome failure h hn =>
    obtain rfl := Multiset.mem_singleton.1 hid
    have hstands := hp _ (Multiset.mem_singleton_self _)
    generalize done item.order.id = l at hstands ⊢
    cases hstands with
    | awaiting _ hfailing =>
      rw [filterMap_answer fun _ => rfl]
      simp only [Event.effortFor?, Event.effort?, if_true]
      show Stands _ _ (_ ++ [Effort.reply (.answer outcome)])
      rw [← RetryRule.efforts_concat]
      exact .calling item (hfailing.again hn)
  | settle item attempt outcome s h hn =>
    obtain rfl := eq_of_mem_admitted hid
    have hstands := hp _ (Multiset.mem_singleton_self _)
    generalize done item.order.id = l at hstands ⊢
    cases hstands with
    | awaiting _ hfailing =>
      rw [filterMap_settled (fun _ => rfl) (fun _ => rfl) fun _ => rfl]
      simp only [Event.effortFor?, Event.effort?, if_true]
      show Stands _ _ (_ ++ [Effort.reply (.answer outcome)])
      rw [← RetryRule.efforts_concat]
      obtain rfl := RetryRule.retries_of_settle hn
      exact .settled item outcome hfailing
  | _ => cases hid

/-! ## The invariant -/

/-- What was done for the items in hand and on record is what the rule asks for. -/
structure Pursued (rule : RetryRule) (d : Desk β) (tr : Trace) : Prop where
  naming : Naming d tr
  rule_eq : d.settings.retryRule = rule
  /-- Nothing was done under a name that the gate has not seen. -/
  unseen : ∀ id, id ∉ d.gate.seen → tr.efforts id = []
  hands : ∀ p ∈ d.workers, ∀ id ∈ p.admitted, Stands rule p (tr.efforts id)
  files : ∀ e ∈ tr.recorded, e.2.isOriginal = true →
    Stands rule (.recording e.1 e.2) (tr.efforts e.1.order.id)

/-- The names in hand have passed the gate. -/
theorem Naming.mem_seen_of_admitted (hn : Naming d tr) (hp : p ∈ d.workers)
    (hid : id ∈ p.admitted) : id ∈ d.gate.seen := by
  rw [← Multiset.mem_coe, hn.seen, Multiset.mem_add]
  exact .inl (mem_overWorkers.2 ⟨p, hp, hid⟩)

namespace Pursued

theorem start (settings : Settings) (s : β) (register : Register) (programs : List (List Call)) :
    Pursued settings.retryRule ((closed settings s register).withCallers programs) [] where
  naming := Naming.start settings s register programs
  rule_eq := rfl
  unseen _ _ := rfl
  hands _ h := by cases h
  files _ h := by cases h

theorem clock (now : Int64) (hp : Pursued rule d tr) : Pursued rule { d with now := now } tr :=
  ⟨hp.naming.clock now, hp.rule_eq, hp.unseen, hp.hands, hp.files⟩

/-- A step of a caller makes no effort. -/
theorem caller_step (b : Broker β) {q q' : Program} (hp : Pursued rule d tr)
    (hat : d.callers[n]? = some q) (h : Performs (.caller n) d q d' q' events) :
    Pursued rule { d' with callers := d'.callers.set n q' }
      (tr ++ Trace.ofStep (.caller n) events) := by
  have hm : Moves b (.caller n) d _ events := .caller hat h
  have hefforts : ∀ id, (tr ++ Trace.ofStep (.caller n) events).efforts id = tr.efforts id :=
    fun id => Trace.pick_quiet (h.effortsFor id)
  refine ⟨hp.naming.step hm, hm.settings_eq ▸ hp.rule_eq, fun id hid => ?_, fun p hat => ?_, ?_⟩
  · rw [hefforts]
    exact hp.unseen id fun hseen => hid (hm.seen_subset hseen)
  · simp only [hefforts]
    exact h.forall_workers (P := fun p => ∀ id ∈ p.admitted, Stands rule p (tr.efforts id))
      (fun _ hid => by cases hid) hp.hands p hat
  · intro e he
    rw [Trace.recorded, Trace.pick_step, h.frame.recorded, List.append_nil] at he
    rw [hefforts]
    exact hp.files e he

/-- A worker's step makes efforts for the name in its hands. -/
theorem worker_step (hp : Pursued rule d tr) (hat : d.workers[n]? = some p)
    (h : Works b d n p d' p' events) :
    Pursued rule { d' with workers := d'.workers.set n p' }
      (tr ++ Trace.ofStep (.worker n) events) := by
  have hm : Moves b (.worker n) d _ events := .worker hat h
  have hmem := List.mem_of_getElem? hat
  have hefforts : ∀ id, (tr ++ Trace.ofStep (.worker n) events).efforts id =
      tr.efforts id ++ events.filterMap (Event.effortFor? id) := fun id => Trace.pick_step ..
  have hother : ∀ id, id ∉ p.admitted →
      (tr ++ Trace.ofStep (.worker n) events).efforts id = tr.efforts id :=
    fun id hid => Trace.pick_quiet (h.effortsFor_of_notMem hid)
  refine ⟨hp.naming.step hm, hm.settings_eq ▸ hp.rule_eq, fun id hid => ?_, fun q hq => ?_, ?_⟩
  · have hunseen : id ∉ d.gate.seen := fun hseen => hid (hm.seen_subset hseen)
    rw [hother id fun hadmitted => hunseen (hp.naming.mem_seen_of_admitted hmem hadmitted)]
    exact hp.unseen id hunseen
  · rcases h.of_mem_set hp.naming.asleep hat hq with rfl | ⟨m, hne, hat'⟩
    · simp only [hefforts, ← hp.rule_eq]
      exact h.stands hp.unseen (hp.rule_eq ▸ hp.hands p hmem)
    · intro id hid
      rw [hother id (hp.naming.apart hat' hat hne.symm hid)]
      exact hp.hands q (List.mem_of_getElem? hat') id hid
  · intro e he ho
    rw [Trace.recorded, Trace.pick_step, ← Trace.recorded, h.told.recorded] at he
    rcases List.mem_append.1 he with he | he
    · have hfiled : e.1.order.id ∈ originalNames tr.recorded :=
        List.mem_map.2 ⟨e, List.mem_filter.2 ⟨he, ho⟩, rfl⟩
      rw [hother _ fun hid => hp.naming.not_original hmem hid hfiled]
      exact hp.files e he ho
    · obtain rfl := Position.eq_of_mem_records he
      have hadmitted : e.1.order.id ∈ (Position.recording e.1 e.2).admitted := by
        simp [Position.admitted, ho]
      rw [hefforts]
      cases h <;> exact (List.append_nil _).symm ▸ hp.hands _ hmem _ hadmitted

theorem step (hp : Pursued rule d tr) (h : Moves b t d d' events) :
    Pursued rule d' (tr ++ Trace.ofStep t events) := by
  cases h with
  | caller hat h => exact hp.caller_step b hat h
  | worker hat h => exact hp.worker_step hat h

/-- **A result tells of what was done for its order**, whether it is recorded or about to be. -/
theorem settled (hp : Pursued rule d tr) (hs : Settled d tr (item, s))
    (ho : s.isOriginal = true) : Stands rule (.recording item s) (tr.efforts item.order.id) := by
  rcases hs with hs | hs
  · exact hp.files _ hs ho
  · exact hp.hands _ hs _ (by simp [Position.admitted, ho])

end Pursued

/-- **What is done for an order, after every run.** -/
theorem follow_pursued {settings : Settings} {s : β} {register : Register}
    {programs : List (List Call)} {schedule : List Turn} {d₀ : Desk β}
    (hopen : open? settings s register = .ok d₀)
    (hrun : (d₀.withCallers programs).follow b schedule = some (d, tr)) :
    Pursued settings.retryRule d tr := by
  obtain ⟨rfl, -⟩ := open?_eq hopen
  exact follow_invariant (P := Pursued settings.retryRule) Pursued.clock Pursued.step
    (Pursued.start settings s register programs) hrun

/-! ## The count of the retries -/

/-- **A result counts the calls after the first one, unless the work broke off after several.** Of an
order that the gate let through, at least one call was made. Its result says how many there were
after the first one exactly if the work on the order did not break off or did so in the first call.
If it broke off, then the result says that the connection is lost, and it says so without any retry:
it is made where the count is not known. -/
theorem retries_count_calls {settings : Settings} {s₀ : β} {register : Register}
    {programs : List (List Call)} {schedule : List Turn} {d₀ : Desk β}
    (hopen : open? settings s₀ register = .ok d₀)
    (hrun : (d₀.withCallers programs).follow b schedule = some (d, tr))
    (hs : Settled d tr (item, s)) (ho : s.isOriginal = true)
    (hc : tr.hasCleared item.order.id = true) :
    1 ≤ tr.callCount item.order.id ∧
    (s.retries.toNat + 1 = tr.callCount item.order.id ↔
      tr.hasBroken item.order.id = false ∨ tr.callCount item.order.id = 1) ∧
    (tr.hasBroken item.order.id = true →
      s.retries = 0 ∧ s.status = .connectionError ∧ s.error = some breakText) := by
  have hstands := (follow_pursued hopen hrun).settled hs ho
  unfold Trace.hasCleared at hc
  unfold Trace.callCount Trace.hasBroken
  generalize tr.efforts item.order.id = done at hstands hc ⊢
  cases hstands with
  | objected => cases hc
  | unquoted => cases hc
  | settled _ outcome h =>
    rw [h.countP_isCall, h.any_isBreak]
    exact ⟨Nat.le_add_left 1 _, ⟨fun _ => .inl rfl, fun _ => rfl⟩, fun hbroke => by cases hbroke⟩
  | lost _ h hretries hstatus herror =>
    rw [h.countP_isCall, h.any_isBreak, hretries]
    refine ⟨Nat.le_add_left 1 _, ⟨fun he => .inr he.symm, fun he => ?_⟩, fun _ =>
      ⟨rfl, hstatus, herror⟩⟩
    rcases he with he | he
    · cases he
    · exact he.symm
  | @overrun _ _ attempt replies h hnumber hretries hstatus herror =>
    -- the calls that have numbers are all made by then
    have hcount : replies.length = RetryRule.mostCalls :=
      h.count.trans (RetryRule.ordinal?_eq_none_iff.1 hnumber)
    have hnone : [Effort.overrun].countP Effort.isCall = 0 := rfl
    have hmany := RetryRule.one_lt_mostCalls
    rw [List.countP_append, RetryRule.countP_efforts, hcount, hnone, Nat.add_zero, List.any_append,
      hretries]
    refine ⟨hmany.le, iff_of_false hmany.ne ?_, fun _ => ⟨rfl, hstatus, herror⟩⟩
    simp [Effort.isBreak, hmany.ne']

theorem open?_lossy : open? twoWorkers lossy Register.empty =
    .ok (closed twoWorkers lossy Register.empty) := rfl

/-- An order that is filled after one loss. -/
def filledOnRetry : Option (Desk Scripted × Trace) :=
  ((closed twoWorkers lossy Register.empty).withCallers
    [[.start, .submit (plainOrder "r-1") none]]).follow Scripted.broker
      (turns (.caller 0) 4 ++ turns (.worker 0) 9)

theorem filledOnRetry_ends : ∃ d, ∃ tr : Trace, ∃ e ∈ tr.recorded,
    filledOnRetry = some (d, tr) ∧ e.2.isOriginal = true ∧ e.2.retries = 1 ∧
    tr.hasCleared e.1.order.id = true ∧ tr.hasBroken e.1.order.id = false := by
  have hends : filledOnRetry.map (fun r => (Trace.recorded r.2).any fun e =>
      e.2.isOriginal && (e.2.retries == 1) && Trace.hasCleared r.2 e.1.order.id &&
        !Trace.hasBroken r.2 e.1.order.id) = some true := by
    decide +kernel
  obtain ⟨⟨d, tr⟩, hrun, hends⟩ := Option.map_eq_some_iff.1 hends
  obtain ⟨e, hmem, he⟩ := List.any_eq_true.1 hends
  simp only [Bool.and_eq_true, beq_iff_eq, Bool.not_eq_true'] at he
  obtain ⟨⟨⟨ho, hretries⟩, hcleared⟩, hbroken⟩ := he
  exact ⟨d, tr, e, hmem, hrun, ho, hretries, hcleared, hbroken⟩

theorem retries_count_calls_filledOnRetry : ∃ d, ∃ tr : Trace, ∃ e ∈ tr.recorded,
    filledOnRetry = some (d, tr) ∧ e.2.retries = 1 ∧ tr.callCount e.1.order.id = 2 := by
  obtain ⟨d, tr, e, hmem, hrun, ho, hretries, hcleared, hbroken⟩ := filledOnRetry_ends
  obtain ⟨-, hcounts, -⟩ := retries_count_calls open?_lossy hrun (.inl hmem) ho hcleared
  have hcount := hcounts.2 (.inl hbroken)
  rw [hretries] at hcount
  exact ⟨d, tr, e, hmem, hrun, hretries, hcount.symm⟩

/-- The scripted broker, but a call breaks off once the script is used up. -/
def breaking : Broker Scripted :=
  { Scripted.broker with
    execute := fun s now o =>
      if s.script.isEmpty then ⟨.broke, s, 0⟩ else Scripted.broker.execute s now o }

/-- An order whose first call is lost and whose second one breaks off. -/
def brokenOnRetry : Option (Desk Scripted × Trace) :=
  ((closed twoWorkers lossy Register.empty).withCallers
    [[.start, .submit (plainOrder "r-1") none]]).follow breaking
      (turns (.caller 0) 4 ++ turns (.worker 0) 9)

theorem retries_do_not_count_a_break : ¬ ∀ (b : Broker Scripted) {settings : Settings}
    {s₀ : Scripted} {register : Register} {programs : List (List Call)} {schedule : List Turn}
    {d₀ d : Desk Scripted} {tr : Trace}, open? settings s₀ register = .ok d₀ →
    (d₀.withCallers programs).follow b schedule = some (d, tr) →
    ∀ e ∈ tr.recorded, e.2.isOriginal = true → tr.hasCleared e.1.order.id = true →
      e.2.retries.toNat + 1 = tr.callCount e.1.order.id := by
  intro hcounts
  have hends : brokenOnRetry.map (fun r => (Trace.recorded r.2).any fun e =>
      e.2.isOriginal && Trace.hasCleared r.2 e.1.order.id && (e.2.retries == 0) &&
        (Trace.callCount r.2 e.1.order.id == 2)) = some true := by
    decide +kernel
  obtain ⟨⟨d, tr⟩, hrun, hends⟩ := Option.map_eq_some_iff.1 hends
  obtain ⟨e, hmem, he⟩ := List.any_eq_true.1 hends
  simp only [Bool.and_eq_true, beq_iff_eq] at he
  obtain ⟨⟨⟨ho, hcleared⟩, hretries⟩, hcalls⟩ := he
  have hcount := hcounts breaking open?_lossy hrun e hmem ho hcleared
  rw [hretries, hcalls] at hcount
  cases hcount

end Desk

end DealDesk
