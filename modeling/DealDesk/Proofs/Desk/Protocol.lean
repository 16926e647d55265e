import DealDesk.Proofs.Desk.Rounds
import DealDesk.Proofs.Desk.Shutdown
import DealDesk.Proofs.Retry

/-!
# Workers keep to their protocol

* `Tried` — an item that the gate let through, and the answers to its calls so far.
* `Underway` — what a worker has done since it last began to dequeue, by where it stands.
* `Works.underway` — a step goes on with the round, or ends it and begins the next.
* `OnShift` — a worker has kept full rounds, and is under way with the next.
* `Protocol` — that, and what holds besides: `Protocol.step` has every step of the desk keep it.

`worker_keeps_protocol` is the main result: whatever waits in the backlog, whatever the broker
answers and the callbacks do, a worker goes from round to round until it stops, and it stops when
the backlog is closed and empty.
-/

namespace DealDesk

namespace Desk

variable {β : Type} {b : Broker β} {rule : RetryRule} {n : Nat} {t : Thread} {d d' : Desk β}
  {p p' : Position} {events : List Event} {tr : Trace} {done : List Deed}

/-! ## Rounds that come to be settled -/

/-- An item that the gate does not let through is settled without a call. -/
theorem kept_of_not_cleared {r : Round} (s₀ : β) (hr : r.replies = []) (ho : r.overrun = false)
    (hc : r.ruling ≠ .answer none)
    (hq : r.asked = true → ∃ s, (b.quote s r.item.order.symbol).1 = r.quote)
    (hs : Settles r.item r.settlement) : r.Kept b rule where
  quoted := hq
  examined := r.exists_examine s₀ hq
  called := by
    rw [hr, Round.cleared_iff]
    exact ⟨fun h => absurd rfl h, fun h => absurd h hc⟩
  bounded := by rw [hr]; exact Nat.zero_le _
  retried := by rw [hr]; exact nofun
  unnumbered h := by rw [ho] at h; cases h
  settles := hs

/-- A round of an item whose name the gate has seen before. -/
theorem kept_of_repeated {item : Item} {s : Settlement} (s₀ : β) (hs : Settles item s) :
    Round.Kept b rule ⟨item, false, .broke, [], false, s⟩ :=
  kept_of_not_cleared s₀ rfl rfl nofun nofun hs

/-- An item that the gate let through, with answers each of which led to another call. -/
structure Tried (b : Broker β) (rule : RetryRule) (item : Item) (attempt : UInt32)
    (i : Option Instrument) (replies : List (Reply Outcome)) : Prop where
  flaw : item.order.flaw = none
  quoted : ∃ s, (b.quote s item.order.symbol).1 = .answer i
  clear : item.order.clash i = none
  count : replies.length = attempt.toNat
  le : attempt ≤ rule.maxRetries
  retried : ∀ reply ∈ replies,
    ∃ failure, reply = .answer (.failed failure) ∧ rule.retries failure = true

/-- What is done for an item from taking it to an execution call. -/
def executing (item : Item) (replies : List (Reply Outcome)) : List Deed :=
  opening item ++ [.quote item, .cleared item, .enter .executing] ++
    replies.flatMap (exchange item)

theorem executing_concat (item : Item) (replies : List (Reply Outcome)) (reply : Reply Outcome) :
    executing item (replies ++ [reply]) = executing item replies ++ exchange item reply := by
  rw [executing, List.flatMap_append, List.flatMap_singleton, ← List.append_assoc, executing]

/-- The round of an item that the gate let through, with all answers to its calls. -/
def clearedRound (item : Item) (i : Option Instrument) (replies : List (Reply Outcome))
    (overrun : Bool) (s : Settlement) : Round :=
  { item := item, isNew := true, quote := .answer i, replies := replies, overrun := overrun
    settlement := s }

namespace Tried

variable {item : Item} {attempt : UInt32} {i : Option Instrument}
  {replies all : List (Reply Outcome)} {overrun : Bool} {s : Settlement}

theorem ruling (h : Tried b rule item attempt i replies) :
    (clearedRound item i all overrun s).ruling = .answer none := by
  show item.order.ruling true (.answer i) = .answer none
  rw [Order.ruling_answer h.flaw, h.clear]

theorem called (h : Tried b rule item attempt i replies) (hne : all ≠ []) :
    (clearedRound item i all overrun s).replies ≠ [] ↔
      (clearedRound item i all overrun s).cleared = true := by
  rw [Round.cleared_iff]
  exact ⟨fun _ => h.ruling, fun _ => hne⟩

theorem examined (h : Tried b rule item attempt i replies) : ∃ (g : Gate) (s₀ : β),
    (g.examine b s₀ item.order).1 = (clearedRound item i all overrun s).ruling := by
  obtain ⟨s₀, hs₀⟩ := h.quoted
  exact Round.exists_examine (r := clearedRound item i all overrun s) s₀ fun _ => ⟨s₀, hs₀⟩

/-- The next answer may be the last. -/
theorem kept (h : Tried b rule item attempt i replies) (reply : Reply Outcome)
    (hs : Settles item s) :
    (clearedRound item i (replies ++ [reply]) false s).Kept b rule where
  quoted _ := h.quoted
  examined := h.examined
  called := h.called (List.append_ne_nil_of_right_ne_nil _ (List.cons_ne_nil _ _))
  bounded := by
    have hle : attempt.toNat ≤ rule.maxRetries.toNat := UInt32.le_iff_toNat_le.1 h.le
    show (replies ++ [reply]).length ≤ _
    rw [List.length_append, List.length_singleton, h.count]
    omega
  retried := by
    show ∀ r ∈ (replies ++ [reply]).dropLast, _
    rw [List.dropLast_concat]
    exact h.retried
  unnumbered := nofun
  settles := hs

/-- The round ends where the next call has no number. -/
theorem kept_overrun (h : Tried b rule item attempt i replies)
    (hnumber : RetryRule.ordinal? attempt = none) (hs : Settles item s) :
    (clearedRound item i replies true s).Kept b rule := by
  have hmax := RetryRule.maxRetries_of_unnumbered hnumber h.le
  have hcount : replies.length = RetryRule.mostCalls :=
    h.count.trans (RetryRule.ordinal?_eq_none_iff.1 hnumber)
  have hne : replies ≠ [] := by
    rintro rfl
    cases hcount
  exact
    { quoted := fun _ => h.quoted
      examined := h.examined
      called := h.called hne
      bounded := by
        show replies.length ≤ _
        rw [hcount, hmax]
        decide
      retried := fun reply hreply => h.retried reply (List.dropLast_subset _ hreply)
      unnumbered := fun _ => ⟨hmax, hcount, h.retried⟩
      settles := hs }

theorem handling (h : Tried b rule item attempt i replies) :
    (clearedRound item i all overrun s).handling =
      executing item all ++ (if overrun then [.overrun item] else []) ++ [.enter .recording] := by
  have hexamination : (clearedRound item i all overrun s).examination = [.quote item] :=
    Round.examination_of_sound rfl h.flaw
  have hpursuit : (clearedRound item i all overrun s).pursuit =
      [.cleared item, .enter .executing] ++ all.flatMap (exchange item) ++
        (if overrun then [.overrun item] else []) := by
    rw [Round.pursuit, h.ruling]
    rfl
  rw [Round.handling, hexamination, hpursuit, executing]
  simp [clearedRound]

/-- Another answer that leads to another call. -/
theorem again {now : Int64} {outcome : Outcome} {failure : Failure}
    (h : Tried b rule item attempt i replies)
    (hn : rule.next now item.order attempt outcome = .again failure) :
    Tried b rule item (attempt + 1) i (replies ++ [.answer outcome]) := by
  obtain ⟨rfl, hretries, hlt⟩ := RetryRule.next_again_iff.1 hn
  have hsucc := RetryRule.toNat_add_one hlt
  have hlt : attempt.toNat < rule.maxRetries.toNat := UInt32.lt_iff_toNat_lt.1 hlt
  refine ⟨h.flaw, h.quoted, h.clear, ?_, ?_, ?_⟩
  · rw [List.length_append, List.length_singleton, h.count, hsucc]
  · rw [UInt32.le_iff_toNat_le, hsucc]
    exact hlt
  · intro reply hreply
    rcases List.mem_append.1 hreply with hreply | hreply
    · exact h.retried reply hreply
    · exact ⟨failure, List.mem_singleton.1 hreply, hretries⟩

end Tried

/-! ## Rounds under way -/

/-- `Underway b rule p done`: a worker that stands at `p` has done this much since it last came to
dequeue. -/
inductive Underway (b : Broker β) (rule : RetryRule) : Position → List Deed → Prop
  | starting : Underway b rule .starting []
  | dequeuing : Underway b rule .dequeuing [.enter .dequeuing]
  | validating (item : Item) : Underway b rule (.validating item) (opening item)
  | quoting (item : Item) (hf : item.order.flaw = none) :
      Underway b rule (.quoting item) (opening item)
  | calling {item : Item} {attempt : UInt32} {i : Option Instrument}
      {replies : List (Reply Outcome)} (h : Tried b rule item attempt i replies) :
      Underway b rule (.calling item attempt) (executing item replies)
  | awaiting {item : Item} {attempt : UInt32} {i : Option Instrument}
      {replies : List (Reply Outcome)} (h : Tried b rule item attempt i replies) :
      Underway b rule (.awaiting item attempt) (executing item replies ++ [.call item])
  | recording (r : Round) (h : r.Kept b rule) :
      Underway b rule (.recording r.item r.settlement) r.handling
  | notifying (r : Round) (h : r.Kept b rule) (hc : r.item.callback.isSome = true) (q : Program) :
      Underway b rule (.notifying r.item r.settlement q)
        (r.handling ++ [.record r.item r.settlement, .notify r.item r.settlement])
  | stopped : Underway b rule .stopped [.enter .dequeuing, .enter .stopped]

/-- The round goes on, or it ends and the worker comes to dequeue again. -/
def GoesOn (b : Broker β) (rule : RetryRule) (p : Position) (done : List Deed) : Prop :=
  Underway b rule p done ∨
    p = .dequeuing ∧ ∃ r : Round, r.Kept b rule ∧ done = r.deeds ++ [.enter .dequeuing]

/-- The item of a round is settled. -/
theorem GoesOn.settled {r : Round} (h : r.Kept b rule) (hdone : r.handling = done) :
    GoesOn b rule (.recording r.item r.settlement) done :=
  .inl (hdone ▸ .recording r h)

/-- A wait before a call is no deed. -/
theorem deeds_call (item : Item) (attempt number calls : UInt32) (delay : Span) :
    ((if attempt = 0 then [] else [Event.waiting item number calls delay]) ++
      [Event.called item]).filterMap Event.deed? = [.call item] :=
  filterMap_call rfl ..

/-- Nor are the broker's notes on its answer. -/
theorem deeds_answer (item : Item) (outcome : Outcome) (delay : Nat) (notes : List String)
    (rest : List Event) :
    (Event.answered item outcome delay :: notes.map Event.noted ++ rest).filterMap Event.deed? =
      .answer item outcome :: rest.filterMap Event.deed? :=
  filterMap_answer (fun _ => rfl) ..

theorem deeds_verdict (s : Settlement) (after : Phase) :
    ([if s.isSuccess then Event.executed s else .failed s] ++
      [Event.phase .executing after]).filterMap Event.deed? = [.enter after] := by
  split <;> rfl

/-- A program does nothing that belongs to the protocol of the worker that runs it. -/
theorem Performs.deeds_eq_nil {q q' : Program} (h : Performs t d q d' q' events) :
    events.filterMap Event.deed? = [] := by
  cases h <;> rfl

/-- **A worker's step goes on with its round, or ends it.** -/
theorem Works.underway (h : Works b d n p d' p' events)
    (hu : Underway b d.settings.retryRule p done) :
    GoesOn b d.settings.retryRule p' (done ++ events.filterMap Event.deed?) := by
  have hs := h.sound
  cases h with
  | rise => cases hu; exact .inl .dequeuing
  | take item rest h => cases hu; exact .inl (.validating item)
  | retire h hc => cases hu; exact .inl .stopped
  | duplicate item h =>
    cases hu
    exact GoesOn.settled (kept_of_repeated d.broker hs) rfl
  | flawed item why h hf =>
    cases hu
    have hr : item.order.ruling true .broke = .answer (some why) := Order.ruling_of_flaw hf
    refine GoesOn.settled (r := ⟨item, true, .broke, [], false, _⟩) ?_ ?_
    · refine kept_of_not_cleared d.broker rfl rfl ?_ ?_ hs
      · simp [Round.ruling, hr]
      · simp [Round.asked, hf]
    · rw [Round.handling, Round.examination_of_flaw rfl hf, Round.pursuit, Round.ruling, hr]
      rfl
  | enter item h hf =>
    cases hu
    rw [List.filterMap_nil, List.append_nil]
    exact .inl (.quoting item hf)
  | quoteBroke item s h =>
    cases hu with
    | quoting _ hf =>
      have hr : item.order.ruling true .broke = .broke := Order.ruling_broke hf
      refine GoesOn.settled (r := ⟨item, true, .broke, [], false, _⟩) ?_ ?_
      · refine kept_of_not_cleared d.broker rfl rfl ?_ (fun _ => ⟨d.broker, ?_⟩) hs
        · simp [Round.ruling, hr]
        · rw [h]
      · rw [Round.handling, Round.examination_of_sound rfl hf, Round.pursuit, Round.ruling, hr]
        rfl
  | clash item i s why h hc =>
    cases hu with
    | quoting _ hf =>
      have hr : item.order.ruling true (.answer i) = .answer (some why) := by
        rw [Order.ruling_answer hf, hc]
      refine GoesOn.settled (r := ⟨item, true, .answer i, [], false, _⟩) ?_ ?_
      · refine kept_of_not_cleared d.broker rfl rfl ?_ (fun _ => ⟨d.broker, ?_⟩) hs
        · simp [Round.ruling, hr]
        · rw [h]
      · rw [Round.handling, Round.examination_of_sound rfl hf, Round.pursuit, Round.ruling, hr]
        rfl
  | clear item i s h hc =>
    cases hu with
    | quoting _ hf =>
      have ht : Tried b d.settings.retryRule item 0 i [] :=
        { flaw := hf, quoted := ⟨d.broker, by rw [h]⟩, clear := hc, count := rfl
          le := by simp, retried := by simp }
      exact .inl (.calling ht)
  | call item attempt number hnumber =>
    cases hu with
    | calling ht =>
      rw [deeds_call]
      exact .inl (.awaiting ht)
  | overrun item attempt h =>
    cases hu with
    | calling ht =>
      refine GoesOn.settled (ht.kept_overrun h hs) ?_
      rw [ht.handling, List.append_assoc]
      rfl
  | executeBroke item attempt h =>
    cases hu with
    | awaiting ht =>
      refine GoesOn.settled (ht.kept .broke hs) ?_
      rw [ht.handling, executing_concat]
      simp [exchange, Event.deed?]
  | again item attempt outcome failure h hn =>
    cases hu with
    | @awaiting _ _ i replies ht =>
      have hdone : executing item (replies ++ [.answer outcome]) =
          executing item replies ++ [.call item] ++ [.answer item outcome] := by
        rw [executing_concat, List.append_assoc]
        rfl
      rw [deeds_answer]
      show GoesOn _ _ _ (executing item replies ++ [.call item] ++ [.answer item outcome])
      rw [← hdone]
      exact .inl (.calling (ht.again hn))
  | settle item attempt outcome s h hn =>
    cases hu with
    | awaiting ht =>
      refine GoesOn.settled (ht.kept (.answer outcome) hs) ?_
      rw [ht.handling, executing_concat, List.append_assoc _ [_] [_], deeds_answer, deeds_verdict]
      simp [exchange]
  | record item s h =>
    cases hu with
    | recording r hk =>
      refine .inr ⟨rfl, r, hk, ?_⟩
      rw [Round.deeds_of_no_callback h, List.append_assoc, List.append_assoc]
      rfl
  | recordAndNotify item s calls h =>
    cases hu with
    | recording r hk =>
      have hc : r.item.callback.isSome = true := by rw [h]; rfl
      exact .inl (.notifying r hk hc _)
  | finish item s =>
    cases hu with
    | notifying r hk hc q =>
      refine .inr ⟨rfl, r, hk, ?_⟩
      rw [Round.deeds_of_callback hc, List.append_assoc _ [_] [_]]
      rfl
  | breakOff item s calls =>
    cases hu with
    | notifying r hk hc q =>
      refine .inr ⟨rfl, r, hk, ?_⟩
      rw [Round.deeds_of_callback hc, List.append_assoc _ [_] [_]]
      rfl
  | deliver item s box calls =>
    cases hu with
    | notifying r hk hc q =>
      exact .inl (List.append_nil _ ▸ .notifying r hk hc _)
  | act item s q d' q' events h hd hf =>
    cases hu with
    | notifying r hk hc q =>
      rw [h.deeds_eq_nil, List.append_nil]
      exact .inl (.notifying r hk hc q')

/-- A worker is told what the broker says. -/
theorem Works.heard (h : Works b d n p d' p' events) :
    ∀ deed ∈ events.filterMap Event.deed?, deed.Heard b := by
  cases h with
  | quoteBroke item s h =>
    have hbroke : (Deed.broke item).Heard b := .inl ⟨d.broker, by rw [h]⟩
    exact List.forall_mem_cons.2 ⟨trivial, List.forall_mem_cons.2 ⟨hbroke,
      List.forall_mem_singleton.2 trivial⟩⟩
  | executeBroke item attempt h =>
    have hbroke : (Deed.broke item).Heard b := .inr ⟨d.broker, d.now, h⟩
    exact List.forall_mem_cons.2 ⟨hbroke, List.forall_mem_singleton.2 trivial⟩
  | again item attempt outcome failure h hn =>
    have hanswer : (Deed.answer item outcome).Heard b := ⟨d.broker, d.now, h⟩
    rw [deeds_answer]
    exact List.forall_mem_singleton.2 hanswer
  | settle item attempt outcome s h hn =>
    have hanswer : (Deed.answer item outcome).Heard b := ⟨d.broker, d.now, h⟩
    rw [List.append_assoc, deeds_answer, deeds_verdict]
    exact List.forall_mem_cons.2 ⟨hanswer, List.forall_mem_singleton.2 trivial⟩
  | call item attempt number hnumber =>
    rw [deeds_call]
    exact List.forall_mem_singleton.2 trivial
  | breakOff item s calls =>
    show ∀ deed ∈ [Deed.enter .idle, Deed.enter .dequeuing], deed.Heard b
    simp [Deed.Heard]
  | act item s q d' q' events h hd hf =>
    rw [h.deeds_eq_nil]
    exact List.forall_mem_nil _
  | _ => simp [Event.deed?, Deed.Heard]

/-! ## Where a round under way leads -/

/-- What is done of a round is the beginning of a round that the protocol allows, or of stopping. -/
theorem Underway.prefix_of (s₀ : β) (h : Underway b rule p done) :
    done <+: [.enter .dequeuing, .enter .stopped] ∨
      ∃ r : Round, r.Kept b rule ∧ done <+: r.deeds := by
  have handled : ∀ {r : Round}, r.Kept b rule → ∀ {done}, done <+: r.handling →
      ∃ r : Round, r.Kept b rule ∧ done <+: r.deeds := by
    intro r hk done hdone
    refine ⟨r, hk, hdone.trans ?_⟩
    rw [Round.deeds, List.append_assoc, List.append_assoc]
    exact List.prefix_append _ _
  -- as far as the gate is asked, the item may as well be a duplicate
  have opened : ∀ item : Item, ∃ r : Round, r.Kept b rule ∧ opening item <+: r.deeds := by
    intro item
    have hs := Settles.ofObjection 0 item .duplicate
    refine handled (kept_of_repeated s₀ hs) ?_
    rw [Round.handling, List.append_assoc, List.append_assoc]
    exact List.prefix_append _ _
  -- as far as a call is made, it may as well break off
  have tried : ∀ {item attempt i replies}, Tried b rule item attempt i replies →
      ∀ {done}, done <+: executing item replies ++ [.call item] →
        ∃ r : Round, r.Kept b rule ∧ done <+: r.deeds := by
    intro item attempt i replies ht done hdone
    have hne : Status.connectionError ≠ .success := by decide
    have hs := Settles.ofRefused 0 item breakText hne
    refine handled (ht.kept .broke hs) (hdone.trans ?_)
    rw [ht.handling, executing_concat, exchange, List.append_assoc, List.append_assoc,
      List.prefix_append_right_inj]
    exact ⟨_, rfl⟩
  cases h with
  | starting => exact .inl List.nil_prefix
  | dequeuing => exact .inl ⟨_, rfl⟩
  | validating item => exact .inr (opened item)
  | quoting item hf => exact .inr (opened item)
  | calling ht => exact .inr (tried ht (List.prefix_append _ _))
  | awaiting ht => exact .inr (tried ht (List.prefix_refl _))
  | recording r hk => exact .inr (handled hk (List.prefix_refl _))
  | notifying r hk hc q =>
    refine .inr ⟨r, hk, ?_⟩
    rw [Round.deeds_of_callback hc]
    exact List.prefix_append _ _
  | stopped => exact .inl (List.prefix_refl _)

/-- The last phase that a worker entered is the one it shows. -/
theorem Underway.last_phase (h : Underway b rule p done) :
    (.idle :: done.filterMap Deed.phase?).getLast? = some p.phase := by
  have handled : ∀ r : Round,
      (.idle :: r.handling.filterMap Deed.phase?).getLast? = some .recording := by
    intro r
    rw [Round.handling, List.filterMap_append, ← List.cons_append]
    exact List.getLast?_concat
  have executed : ∀ (item : Item) (replies : List (Reply Outcome)),
      (executing item replies).filterMap Deed.phase? = [.dequeuing, .validating, .executing] := by
    intro item replies
    rw [executing, List.filterMap_append, filterMap_phase_exchanges]
    rfl
  cases h with
  | calling ht =>
    rw [executed]
    rfl
  | awaiting ht =>
    rw [List.filterMap_append, executed]
    rfl
  | recording r hk => exact handled r
  | notifying r hk hc q =>
    rw [List.filterMap_append]
    show (.idle :: (r.handling.filterMap Deed.phase? ++ [])).getLast? = _
    rw [List.append_nil]
    exact handled r
  | _ => rfl

/-- Every round ends idle. -/
theorem last_phase_of_rounds (rounds : List Round) :
    (.idle :: rounds.flatMap Round.phases).getLast? = some .idle := by
  rcases List.eq_nil_or_concat rounds with rfl | ⟨rest, r, rfl⟩
  · rfl
  · have hr : r.phases = [.dequeuing, .validating] ++ (if r.cleared then [.executing] else []) ++
        [.recording] ++ [.idle] := by
      simp [Round.phases]
    rw [List.concat_eq_append, List.flatMap_append, List.flatMap_singleton, hr,
      ← List.append_assoc, ← List.cons_append]
    exact List.getLast?_concat

/-! ## The invariant -/

/-- A step is worker `n`'s own, or it leaves the worker where it is, or it brings the worker in. -/
theorem Moves.position_cases (hz : d.Asleep) (h : Moves b t d d' events) (n : Nat) :
    (t ≠ .worker n ∧ (d'.workers[n]? = d.workers[n]? ∨
      d.workers[n]? = none ∧ d'.workers[n]? = some .starting)) ∨
    ∃ p d₁ p', t = .worker n ∧ d.workers[n]? = some p ∧ Works b d n p d₁ p' events ∧
      d' = { d₁ with workers := d₁.workers.set n p' } ∧ d'.workers[n]? = some p' := by
  cases h with
  | @caller m d d' q q' events hat h =>
    refine .inl ⟨nofun, ?_⟩
    show d'.workers[n]? = _ ∨ _ ∧ d'.workers[n]? = _
    rcases h.frame.workers with hw | ⟨hl, hw⟩
    · exact .inl (by rw [hw])
    · rw [hw, hz hl, List.getElem?_replicate]
      split
      · exact .inr ⟨rfl, rfl⟩
      · exact .inl rfl
  | @worker m d d' p p' events hat h =>
    have hw : d'.workers.set m p' = d.workers.set m p' := by rw [h.workers_eq hz hat]
    show _ ∧ ((d'.workers.set m p')[n]? = _ ∨ _ ∧ (d'.workers.set m p')[n]? = _) ∨ _
    by_cases hmn : m = n
    · subst hmn
      refine .inr ⟨p, d', p', rfl, hat, h, rfl, ?_⟩
      show (d'.workers.set m p')[m]? = some p'
      rw [hw, List.getElem?_set_self (List.getElem?_eq_some_iff.1 hat).1]
    · refine .inl ⟨fun ht => hmn (Thread.worker.inj ht), .inl ?_⟩
      rw [hw, List.getElem?_set_ne hmn]

theorem Moves.emptied (h : Moves b t d d' events)
    (he : d.backlog.closed = true ∧ d.backlog.items = []) :
    d'.backlog.closed = true ∧ d'.backlog.items = [] := by
  cases h with
  | caller hat h => exact h.emptied he
  | worker hat h => exact h.emptied he

/-- A worker, once it is there, has kept full rounds and is under way with the next. -/
def OnShift (b : Broker β) (rule : RetryRule) : Option Position → List Deed → Prop
  | none, deeds => deeds = []
  | some p, deeds => ∃ (rounds : List Round) (done : List Deed), (∀ r ∈ rounds, r.Kept b rule) ∧
      deeds = rounds.flatMap Round.deeds ++ done ∧ Underway b rule p done

theorem OnShift.starting : OnShift b rule (some .starting) [] :=
  ⟨[], [], List.forall_mem_nil _, rfl, .starting⟩

theorem forall_kept_concat {rounds : List Round} {r : Round} (h : ∀ r ∈ rounds, r.Kept b rule)
    (hr : r.Kept b rule) : ∀ r' ∈ rounds ++ [r], r'.Kept b rule := by
  intro r' hr'
  rcases List.mem_append.1 hr' with hr' | hr'
  · exact h r' hr'
  · rw [List.mem_singleton.1 hr']
    exact hr

theorem OnShift.step {deeds : List Deed} (hs : OnShift b d.settings.retryRule (some p) deeds)
    (h : Works b d n p d' p' events) :
    OnShift b d.settings.retryRule (some p') (deeds ++ events.filterMap Event.deed?) := by
  obtain ⟨rounds, done, hkept, rfl, hu⟩ := hs
  rcases h.underway hu with hu | ⟨rfl, r, hr, hdone⟩
  · exact ⟨rounds, _, hkept, List.append_assoc .., hu⟩
  · refine ⟨rounds ++ [r], [.enter .dequeuing], forall_kept_concat hkept hr, ?_, .dequeuing⟩
    rw [List.append_assoc, hdone, List.flatMap_append, List.flatMap_singleton, List.append_assoc]

/-- Worker `n` keeps to its protocol. -/
structure Protocol (b : Broker β) (rule : RetryRule) (n : Nat) (d : Desk β) (tr : Trace) :
    Prop where
  asleep : d.Asleep
  rule_eq : d.settings.retryRule = rule
  onShift : OnShift b rule d.workers[n]? (tr.deeds n)
  heard : ∀ deed ∈ tr.deeds n, deed.Heard b
  /-- It has stopped only if nothing is left for it. -/
  retired : d.workers[n]? = some .stopped → d.backlog.closed = true ∧ d.backlog.items = []

namespace Protocol

theorem start {d₀ : Desk β} (hz : d₀.Asleep)
    (hfresh : ∀ p, d₀.workers[n]? = some p → p = .starting) :
    Protocol b d₀.settings.retryRule n d₀ [] where
  asleep := hz
  rule_eq := rfl
  onShift := by
    cases hat : d₀.workers[n]? with
    | none => rfl
    | some p =>
      rw [hfresh p hat]
      exact .starting
  heard := List.forall_mem_nil _
  retired hat := by cases hfresh _ hat

theorem step (hp : Protocol b rule n d tr) (h : Moves b t d d' events) :
    Protocol b rule n d' (tr ++ Trace.ofStep t events) := by
  have hz := h.asleep hp.asleep
  have hrule : d'.settings.retryRule = rule := by rw [h.settings_eq, hp.rule_eq]
  have hon := hp.onShift
  rcases h.position_cases hp.asleep n with ⟨ht, hat⟩ | ⟨p, d₁, p', rfl, hat, hw, rfl, hat'⟩
  · have hdeeds : (tr ++ Trace.ofStep t events).deeds n = tr.deeds n := Trace.deeds_step_of_ne ht
    refine ⟨hz, hrule, ?_, hdeeds ▸ hp.heard, fun hstopped => ?_⟩
    · rw [hdeeds]
      rcases hat with hat | ⟨hnone, hat⟩
      · rw [hat]
        exact hon
      · rw [hnone] at hon
        rw [hat, show tr.deeds n = [] from hon]
        exact .starting
    · rcases hat with hat | ⟨-, hat⟩
      · exact h.emptied (hp.retired (hat ▸ hstopped))
      · rw [hat] at hstopped
        cases hstopped
  · have hdeeds : (tr ++ Trace.ofStep (.worker n) events).deeds n =
        tr.deeds n ++ events.filterMap Event.deed? := Trace.deeds_step_self
    rw [hat, ← hp.rule_eq] at hon
    refine ⟨hz, hrule, ?_, ?_, fun hstopped => ?_⟩
    · rw [hdeeds, hat', ← hp.rule_eq]
      exact hon.step hw
    · rw [hdeeds]
      intro deed hdeed
      rcases List.mem_append.1 hdeed with hdeed | hdeed
      · exact hp.heard deed hdeed
      · exact hw.heard deed hdeed
    · rw [hat'] at hstopped
      cases hstopped
      exact hw.retired rfl

end Protocol

/-! ## Keeping to the protocol -/

/-- A worker with an unrecorded item in its hands waits for nobody. -/
theorem isSome_step_of_unrecorded (hat : d.workers[n]? = some p) (hu : p.unrecorded ≠ 0) :
    (d.step b (.worker n)).isSome = true := by
  have hwork : (d.work b n p).isSome = true := by
    cases p with
    | validating item => rfl
    | quoting item => rfl
    | calling item attempt => rfl
    | awaiting item attempt => rfl
    | recording item s => rfl
    | _ => exact absurd rfl hu
  rw [step, hat]
  simpa using hwork

theorem prefix_shift {rounds : List Round} (h : done <+: [.enter .dequeuing, .enter .stopped]) :
    rounds.flatMap Round.deeds ++ done <+: shift rounds :=
  (List.prefix_append_right_inj _).2 h

theorem prefix_shift_concat {rounds : List Round} {r : Round} (h : done <+: r.deeds) :
    rounds.flatMap Round.deeds ++ done <+: shift (rounds ++ [r]) := by
  rw [shift, List.flatMap_append, List.flatMap_singleton, List.append_assoc]
  exact (List.prefix_append_right_inj _).2 (h.trans (List.prefix_append _ _))

/-- What a worker has done is the beginning of a shift. -/
theorem OnShift.prefix_of {deeds : List Deed} (s₀ : β)
    (h : OnShift b rule (some p) deeds) :
    ∃ rounds : List Round, (∀ r ∈ rounds, r.Kept b rule) ∧ deeds <+: shift rounds ∧
      (p = .stopped → deeds = shift rounds) := by
  obtain ⟨rounds, done, hkept, rfl, hu⟩ := h
  rcases hu.prefix_of s₀ with hdone | ⟨r, hr, hdone⟩
  · refine ⟨rounds, hkept, prefix_shift hdone, ?_⟩
    rintro rfl
    cases hu
    rfl
  · by_cases hp : p = .stopped
    · subst hp
      cases hu
      exact ⟨rounds, hkept, List.prefix_refl _, fun _ => rfl⟩
    · exact ⟨rounds ++ [r], forall_kept_concat hkept hr, prefix_shift_concat hdone, fun h =>
        absurd h hp⟩

/-- The phases lead to the one that the worker shows. -/
theorem OnShift.last_phase {deeds : List Deed} (h : OnShift b rule (some p) deeds) :
    (.idle :: deeds.filterMap Deed.phase?).getLast? = some p.phase := by
  obtain ⟨rounds, done, -, rfl, hu⟩ := h
  have hrounds := last_phase_of_rounds rounds
  have hdone := hu.last_phase
  rw [List.filterMap_append, filterMap_phase_rounds, ← List.cons_append, List.getLast?_append,
    hrounds]
  rwa [← List.singleton_append, List.getLast?_append] at hdone

/-- **Workers keep to their protocol.** Whatever waits in the backlog, whatever the broker answers
and the callbacks do: what a worker has done is the beginning of a shift of rounds that each keep to
the protocol, and leads along the path of the shift to the phase that the worker shows; what it was
told the broker said; it waits for nobody while it has an item to record; and it has stopped only at
the end of the shift, with the backlog closed and empty. -/
theorem worker_keeps_protocol {d₀ : Desk β} {schedule : List Turn} (hz : d₀.Asleep)
    (hfresh : ∀ p, d₀.workers[n]? = some p → p = .starting)
    (hrun : d₀.follow b schedule = some (d, tr)) (hat : d.workers[n]? = some p) :
    ∃ rounds : List Round, (∀ r ∈ rounds, r.Kept b d₀.settings.retryRule) ∧
      tr.deeds n <+: shift rounds ∧
      tr.phases n <+: path rounds ∧ (tr.phases n).getLast? = some p.phase ∧
      (∀ deed ∈ tr.deeds n, deed.Heard b) ∧
      (p.unrecorded ≠ 0 → (d.step b (.worker n)).isSome = true) ∧
      (p = .stopped → tr.deeds n = shift rounds ∧ tr.phases n = path rounds ∧
        d.backlog.closed = true ∧ d.backlog.items = []) := by
  have hp : Protocol b d₀.settings.retryRule n d tr :=
    follow_invariant (P := Protocol b d₀.settings.retryRule n)
      (fun _ h => ⟨h.asleep, h.rule_eq, h.onShift, h.heard, h.retired⟩) Protocol.step
      (Protocol.start hz hfresh) hrun
  have hon := hp.onShift
  rw [hat] at hon
  obtain ⟨rounds, hkept, hprefix, hstopped⟩ := hon.prefix_of d.broker
  have hpath : tr.phases n <+: path rounds := by
    rw [path_eq]
    exact List.cons_prefix_cons.2 ⟨rfl, hprefix.filterMap _⟩
  refine ⟨rounds, hkept, hprefix, hpath, hon.last_phase, hp.heard, isSome_step_of_unrecorded hat, ?_⟩
  rintro rfl
  have hdeeds := hstopped rfl
  refine ⟨hdeeds, ?_, hp.retired hat⟩
  rw [path_eq, ← hdeeds]
  rfl

/-- The first worker takes the order through every phase, and stops. -/
theorem worker_keeps_protocol_startedAndStopped : ∃ d, ∃ tr : Trace, ∃ rounds : List Round,
    startedAndStopped = some (d, tr) ∧
    tr.phases 0 = [.idle, .dequeuing, .validating, .executing, .recording, .idle, .dequeuing,
      .stopped] ∧
    (∀ r ∈ rounds, r.Kept Scripted.broker twoWorkers.retryRule) ∧ tr.deeds 0 = shift rounds ∧
    tr.phases 0 = path rounds ∧ d.backlog.closed = true ∧ d.backlog.items = [] := by
  have hends : startedAndStopped.map (fun r =>
      (r.1.workers[0]?.map Position.isStopped, Trace.phases r.2 0)) =
      some (some true, [.idle, .dequeuing, .validating, .executing, .recording, .idle, .dequeuing,
        .stopped]) := by
    decide +kernel
  obtain ⟨⟨d, tr⟩, hrun, hends⟩ := Option.map_eq_some_iff.1 hends
  obtain ⟨hat, hphases⟩ := Prod.mk.inj hends
  obtain ⟨p, hat, hstopped⟩ := Option.map_eq_some_iff.1 hat
  cases p with
  | stopped =>
    obtain ⟨rounds, hkept, -, -, -, -, -, hend⟩ :=
      worker_keeps_protocol (fun _ => rfl) (fun _ h => by cases h) hrun hat
    obtain ⟨hdeeds, hpath, hleft⟩ := hend rfl
    exact ⟨d, tr, rounds, hrun, hphases, hkept, hdeeds, hpath, hleft⟩
  | _ => cases hstopped

end Desk

end DealDesk
