import DealDesk.Proofs.Desk.InTurn
import DealDesk.Proofs.Desk.Kept
import DealDesk.Proofs.Desk.Placing

/-!
# Many workers settle as one

* `Position.Expects` — what a worker holds comes to the verdict of its item; `Works.expects` says
  that its steps keep it so.
* `Verdicts` — what all workers hold comes to the verdicts, and what is recorded has come to them.
* `Pool` — all that a run keeps to if one caller alone places orders.

`pool_settles_in_turn` is the main result: however many workers there are and however they take
turns, the register answers as if the orders were settled one after the other.
-/

namespace DealDesk

/-- After so many calls for an order, those to come lead to its verdict. -/
structure RetryRule.Expects (r : RetryRule) (a : Answers) (history : List BrokerCall) (o : Order)
    (attempt : UInt32) : Prop where
  count : executions o.id history = attempt.toNat
  verdict : (r.pursue 0 o (tell (a.outcome o)) attempt attempt.toNat).1.undated =
    (DealDesk.verdict r a o).undated

namespace Position

/-- The name of the order whose execution is answered next. -/
def executes : Position → Multiset OrderId
  | .awaiting item _ => {item.order.id}
  | _ => 0

theorem executes_subset (p : Position) : p.executes ⊆ p.admitted := by
  cases p with
  | awaiting item attempt => exact Multiset.Subset.refl _
  | _ => exact Multiset.zero_subset _

/-- The item in hand comes to its verdict. -/
def Expects (r : RetryRule) (a : Answers) (history : List BrokerCall) : Position → Prop
  | .quoting item => item.order.flaw = none
  | .calling item attempt => r.Expects a history item.order attempt
  | .awaiting item attempt =>
    (∃ number, RetryRule.ordinal? attempt = some number) ∧ r.Expects a history item.order attempt
  | .recording item s =>
    s.undated = ((verdict r a item.order).withSequence item.sequence).undated
  | .starting | .dequeuing | .validating _ | .notifying _ _ _ | .stopped => True

/-- Executions of other orders do not matter. -/
theorem Expects.mono {r : RetryRule} {a : Answers} {history history' : List BrokerCall}
    {p : Position} (h : p.Expects r a history)
    (hsame : ∀ id ∈ p.admitted, executions id history' = executions id history) :
    p.Expects r a history' := by
  cases p with
  | calling item attempt =>
    exact ⟨(hsame _ (Multiset.mem_singleton_self _)).trans h.count, h.verdict⟩
  | awaiting item attempt =>
    exact ⟨h.1, (hsame _ (Multiset.mem_singleton_self _)).trans h.2.count, h.2.verdict⟩
  | _ => exact h

end Position

namespace Desk

variable {β : Type} {b : Broker β} {n m : Nat} {t : Thread} {d d' : Desk β} {p p' q : Position}
  {events : List Event} {tr : Trace} {r : RetryRule} {a : Answers} {s₀ : β} {orders : List Order}
  {history : List BrokerCall}

/-- An order that is executed was asked for before. -/
theorem Naming.asked_of_executes (hn : Naming d tr) (hp : p ∈ d.workers) {id : OrderId}
    (hid : id ∈ p.executes) : id ∈ tr.asked.map fun i => i.order.id := by
  have hv := hn.vetted p hp
  cases p with
  | awaiting item attempt =>
    rw [Multiset.mem_singleton.1 hid]
    exact List.mem_map.2 ⟨item, hv, rfl⟩
  | _ => cases hid

/-! ## Steps of a worker -/

/-- Where a worker's step from `p` to `p'` leads: the broker, now at `s`, has heard more, but has
executed no other order than the one in hand, and the worker still comes to the verdict. -/
structure Proceeds (b : Broker β) (s₀ : β) (orders : List Order) (r : RetryRule) (a : Answers)
    (history : List BrokerCall) (p p' : Position) (s : β) (history' : List BrokerCall) : Prop where
  heard : Heard b s₀ orders history' s
  expects : p'.Expects r a history'
  others : ∀ id, id ∉ p.executes → executions id history' = executions id history

theorem Works.quoted {item : Item} (hb : Steady b s₀ orders a)
    (hs : Heard b s₀ orders history d.broker) (hflaw : item.order.flaw = none)
    (ho : item.order ∈ orders) (hnew : executions item.order.id history = 0)
    (h : Works b d n (.quoting item) d' p' events) :
    Proceeds b s₀ orders r a history (.quoting item) p' d'.broker
      (history ++ [.quote item.order]) := by
  cases h with
  | quoteBroke _ s h =>
    obtain ⟨hq, hs⟩ := hs.quoted hb ho h
    refine ⟨hs, undated_withSequence ?_ _, fun _ _ => executions_quote⟩
    rw [verdict_broke hflaw hq]
    rfl
  | clash _ i s why h hc =>
    obtain ⟨hq, hs⟩ := hs.quoted hb ho h
    refine ⟨hs, undated_withSequence ?_ _, fun _ _ => executions_quote⟩
    rw [verdict_clash hflaw hq hc]
    rfl
  | clear _ i s h hc =>
    obtain ⟨hq, hs⟩ := hs.quoted hb ho h
    refine ⟨hs, ⟨executions_quote.trans hnew, ?_⟩, fun _ _ => executions_quote⟩
    rw [verdict_clear hflaw hq hc]
    rfl

/-- The next call is made, or the order is settled without it. -/
theorem Works.made {item : Item} {attempt : UInt32} (hs : Heard b s₀ orders history d.broker)
    (hp : r.Expects a history item.order attempt)
    (h : Works b d n (.calling item attempt) d' p' events) :
    Proceeds b s₀ orders r a history (.calling item attempt) p' d'.broker history := by
  cases h with
  | call _ _ number hnumber => exact ⟨hs, ⟨⟨number, hnumber⟩, hp⟩, fun _ _ => rfl⟩
  | overrun _ _ hnumber =>
    have hverdict := hp.verdict
    rw [RetryRule.pursue_overrun hnumber] at hverdict
    exact ⟨hs, undated_withSequence hverdict _, fun _ _ => rfl⟩

theorem Works.answered {item : Item} {attempt : UInt32} (hb : Steady b s₀ orders a)
    (hs : Heard b s₀ orders history d.broker) (hr : d.settings.retryRule = r)
    (hp : (Position.awaiting item attempt).Expects r a history) (ho : item.order ∈ orders)
    (h : Works b d n (.awaiting item attempt) d' p' events) :
    Proceeds b s₀ orders r a history (.awaiting item attempt) p' d'.broker
      (history ++ [.execute d.now item.order]) := by
  subst hr
  obtain ⟨⟨number, hnumber⟩, hcount, hverdict⟩ := hp
  have hs' := hs.execute ho d.now
  have hreply := hs.execute_eq hb ho d.now
  rw [hcount] at hreply
  have hothers : ∀ id, id ∉ (Position.awaiting item attempt).executes →
      executions id (history ++ [.execute d.now item.order]) = executions id history :=
    fun id hid => executions_execute_of_ne fun he => hid (Multiset.mem_singleton.2 he.symm)
  cases h with
  | executeBroke _ _ h =>
    rw [h] at hreply
    have htold : (tell (a.outcome item.order) attempt.toNat).1 = .broke := hreply.symm
    rw [RetryRule.pursue_broke hnumber htold] at hverdict
    exact ⟨hs', undated_withSequence hverdict _, hothers⟩
  | again _ _ outcome failure h hn =>
    rw [h] at hreply
    have htold : (tell (a.outcome item.order) attempt.toNat).1 = .answer outcome.undated :=
      hreply.symm
    have hsucc := RetryRule.toNat_add_one (RetryRule.lt_of_again hn)
    rw [RetryRule.pursue_again hnumber htold (RetryRule.next_again hn 0)] at hverdict
    refine ⟨hs', ⟨?_, ?_⟩, hothers⟩
    · rw [executions_execute_self, hcount, hsucc]
    · rw [hsucc]
      exact hverdict
  | settle _ _ outcome s h hn =>
    rw [h] at hreply
    have htold : (tell (a.outcome item.order) attempt.toNat).1 = .answer outcome.undated :=
      hreply.symm
    obtain ⟨s', hn', heq⟩ := RetryRule.next_settle hn 0
    rw [RetryRule.pursue_settle hnumber htold hn'] at hverdict
    exact ⟨hs', undated_withSequence (heq.trans hverdict) _, hothers⟩

/-- **A worker's step keeps to the verdict of its item.** -/
theorem Works.expects (hb : Steady b s₀ orders a) (hs : Heard b s₀ orders history d.broker)
    (hr : d.settings.retryRule = r) (hp : p.Expects r a history)
    (horders : ∀ i ∈ p.unrecorded, i.order ∈ orders)
    (hunseen : ∀ id ∈ p.unvetted, id ∉ d.gate.seen)
    (hunasked : ∀ id ∈ p.unasked, executions id history = 0) (h : Works b d n p d' p' events) :
    ∃ history', Proceeds b s₀ orders r a history p p' d'.broker history' := by
  cases p with
  | validating item =>
    cases h with
    | duplicate _ h => exact absurd h (hunseen _ (Multiset.mem_singleton_self _))
    | flawed _ why h hf =>
      refine ⟨history, hs, undated_withSequence ?_ _, fun _ _ => rfl⟩
      rw [verdict_flaw hf]
      rfl
    | enter _ h hf => exact ⟨history, hs, hf, fun _ _ => rfl⟩
  | quoting item =>
    exact ⟨_, h.quoted hb hs hp (horders item (Multiset.mem_singleton_self _))
      (hunasked _ (Multiset.mem_singleton_self _))⟩
  | calling item attempt => exact ⟨history, h.made hs hp⟩
  | awaiting item attempt =>
    exact ⟨_, h.answered hb hs hr hp (horders item (Multiset.mem_singleton_self _))⟩
  | recording item s => cases h <;> exact ⟨history, hs, trivial, fun _ _ => rfl⟩
  | notifying item s q =>
    cases h with
    | act _ _ _ _ q' _ h hd hf =>
      rw [h.frame.broker]
      exact ⟨history, hs, trivial, fun _ _ => rfl⟩
    | _ => exact ⟨history, hs, trivial, fun _ _ => rfl⟩
  | _ => cases h <;> exact ⟨history, hs, trivial, fun _ _ => rfl⟩

/-! ## The invariant -/

/-- What the broker has heard, what the workers hold and what is recorded keep to the verdicts. -/
structure Verdicts (b : Broker β) (s₀ : β) (orders : List Order) (r : RetryRule) (a : Answers)
    (d : Desk β) (tr : Trace) (history : List BrokerCall) : Prop where
  rule : d.settings.retryRule = r
  heard : Heard b s₀ orders history d.broker
  unasked : ∀ id, id ∉ tr.asked.map (fun i => i.order.id) → executions id history = 0
  workers : ∀ p ∈ d.workers, p.Expects r a history
  recorded : ∀ e ∈ tr.recorded,
    e.2.undated = ((verdict r a e.1.order).withSequence e.1.sequence).undated

namespace Verdicts

theorem start (b : Broker β) (s₀ : β) (orders : List Order) (a : Answers) (settings : Settings)
    (register : Register) (programs : List (List Call)) :
    Verdicts b s₀ orders settings.retryRule a
      ((closed settings s₀ register).withCallers programs) [] [] where
  rule := rfl
  heard := .start b s₀ orders
  unasked _ _ := rfl
  workers _ h := by cases h
  recorded _ h := by cases h

theorem step (hb : Steady b s₀ orders a) (horders : ∀ i ∈ tr.accepted, i.order ∈ orders)
    (hids : (tr.accepted.map fun i => i.order.id).Nodup) (hc : Custody d tr) (hn : Naming d tr)
    (hv : Verdicts b s₀ orders r a d tr history) (h : Moves b t d d' events) :
    ∃ history', Verdicts b s₀ orders r a d' (tr ++ Trace.ofStep t events) history' := by
  have hrule : d'.settings.retryRule = r := by rw [h.settings_eq, hv.rule]
  cases h with
  | @caller n d d' q q' events hat h =>
    refine ⟨history, hrule, ?_, ?_, ?_, ?_⟩
    · show Heard b s₀ orders history d'.broker
      rw [h.frame.broker]
      exact hv.heard
    · rw [Trace.asked, Trace.pick_quiet h.frame.asked]
      exact hv.unasked
    · have hworkers := h.forall_workers (P := Position.Expects r a history) trivial hv.workers
      exact hworkers
    · rw [Trace.recorded, Trace.pick_quiet h.frame.recorded]
      exact hv.recorded
  | @worker n d d' p p' events hat h =>
    have hp := List.mem_of_getElem? hat
    obtain ⟨history', hnext⟩ := h.expects hb hv.heard hv.rule (hv.workers p hp)
      (fun i hi => horders i (hc.mem_accepted hp hi)) (fun id hid => hc.unseen hn hids hp hid)
      fun id hid => hv.unasked id (hn.not_asked hp hid)
    refine ⟨history', hrule, hnext.heard, fun id hid => ?_, fun q hq => ?_, fun e he => ?_⟩
    · rw [Trace.asked, Trace.pick_step, List.map_append, List.mem_append, not_or] at hid
      rw [hnext.others id fun hx => hid.1 (hn.asked_of_executes hp hx)]
      exact hv.unasked id hid.1
    · rcases h.of_mem_set hc.asleep hat hq with rfl | ⟨m, hne, hm⟩
      · exact hnext.expects
      · -- the other worker holds another name, which this step does not execute
        refine (hv.workers q (List.mem_of_getElem? hm)).mono fun id hid => ?_
        exact hnext.others id fun hx => hn.apart hat hm hne (p.executes_subset hx) hid
    · rw [Trace.recorded, Trace.pick_step, h.told.recorded] at he
      rcases List.mem_append.1 he with he | he
      · exact hv.recorded e he
      · have hexpects := hv.workers p hp
        cases p with
        | recording item s => rw [List.mem_singleton.1 he]; exact hexpects
        | _ => cases he

theorem clock (now : Int64) (hv : Verdicts b s₀ orders r a d tr history) :
    Verdicts b s₀ orders r a { d with now := now } tr history :=
  ⟨hv.rule, hv.heard, hv.unasked, hv.workers, hv.recorded⟩

end Verdicts

/-- All that a run of the pool keeps to, if caller `k` alone places orders. -/
structure Pool (b : Broker β) (s₀ : β) (r : RetryRule) (a : Answers) (k : Nat)
    (placed : List Placement) (d : Desk β) (tr : Trace) : Prop where
  custody : Custody d tr
  naming : Naming d tr
  placing : Placing k placed d tr
  judged : ∃ history, Verdicts b s₀ (placed.map Prod.fst) r a d tr history

namespace Pool

variable {k : Nat} {placed : List Placement}

theorem clock (now : Int64) (hp : Pool b s₀ r a k placed d tr) :
    Pool b s₀ r a k placed { d with now := now } tr where
  custody := hp.custody.clock now
  naming := hp.naming.clock now
  placing := hp.placing.clock now
  judged := by
    obtain ⟨history, hv⟩ := hp.judged
    exact ⟨history, hv.clock now⟩

theorem mem_orders (hp : Pool b s₀ r a k placed d tr) {i : Item} (hi : i ∈ tr.accepted) :
    i.order ∈ placed.map Prod.fst :=
  List.mem_map.2 ⟨i.placement, hp.placing.mem_placed hi, rfl⟩

theorem orders_sublist (hp : Pool b s₀ r a k placed d tr) :
    (tr.accepted.map (·.order)).Sublist (placed.map Prod.fst) := by
  have hs := hp.placing.sublist.map Prod.fst
  rwa [List.map_map] at hs

theorem ids_nodup (hp : Pool b s₀ r a k placed d tr) (hids : (placed.map fun o => o.1.id).Nodup) :
    (tr.accepted.map fun i => i.order.id).Nodup := by
  have hs := (hp.placing.sublist.map fun o => o.1.id).nodup hids
  rwa [List.map_map] at hs

theorem step (hb : Steady b s₀ (placed.map Prod.fst) a)
    (hcb : ∀ o ∈ placed, ∀ calls ∈ o.2, Call.placements calls = [])
    (hids : (placed.map fun o => o.1.id).Nodup) (hp : Pool b s₀ r a k placed d tr)
    (h : Moves b t d d' events) : Pool b s₀ r a k placed d' (tr ++ Trace.ofStep t events) where
  custody := hp.custody.step h
  naming := hp.naming.step h
  placing := hp.placing.step hcb hp.custody h
  judged := by
    obtain ⟨history, hv⟩ := hp.judged
    exact hv.step hb (fun i => hp.mem_orders) (hp.ids_nodup hids) hp.custody hp.naming h

end Pool

theorem follow_pool {settings : Settings} {programs : List (List Call)} {calls : List Call}
    {k : Nat} {schedule : List Turn} {d₀ : Desk β}
    (hopen : open? settings s₀ Register.empty = .ok d₀) (hk : programs[k]? = some calls)
    (hothers : ∀ j calls, programs[j]? = some calls → j ≠ k → Call.placements calls = [])
    (hcb : ∀ o ∈ Call.placements calls, ∀ c ∈ o.2, Call.placements c = [])
    (hids : ((Call.placements calls).map fun o => o.1.id).Nodup)
    (hb : Steady b s₀ ((Call.placements calls).map Prod.fst) a)
    (hrun : (d₀.withCallers programs).follow b schedule = some (d, tr)) :
    Pool b s₀ settings.retryRule a k (Call.placements calls) d tr := by
  obtain ⟨rfl, -⟩ := open?_eq hopen
  have hstart : Pool b s₀ settings.retryRule a k (Call.placements calls)
      ((closed settings s₀ Register.empty).withCallers programs) [] :=
    ⟨Custody.start settings s₀ programs, Naming.start settings s₀ _ programs,
      Placing.start settings s₀ hk hothers, [], Verdicts.start b s₀ _ a settings _ programs⟩
  exact follow_invariant (P := Pool b s₀ settings.retryRule a k (Call.placements calls))
    Pool.clock (Pool.step hb hcb hids) hstart hrun

/-! ## Once everything is recorded -/

namespace Pool

variable {k : Nat} {placed : List Placement}

/-- The verdicts of the accepted items are those of their orders, numbered in turn. -/
theorem map_verdict (hp : Pool b s₀ r a k placed d tr) :
    tr.accepted.map (fun i => (verdict r a i.order).withSequence i.sequence) =
      verdicts r a 0 (tr.accepted.map (·.order)) := by
  rw [verdicts, List.length_map, ← hp.placing.sequences, List.zipWith_map, List.zipWith_self]

/-- **What is recorded is the verdicts**, in some order and up to the times. -/
theorem settlements_perm (hp : Pool b s₀ r a k placed d tr)
    (hall : tr.recorded.length = tr.accepted.length) :
    (tr.settlements.map Settlement.undated).Perm
      ((verdicts r a 0 (tr.accepted.map (·.order))).map Settlement.undated) := by
  obtain ⟨history, hv⟩ := hp.judged
  have heq : tr.settlements.map Settlement.undated = ((tr.recorded.map Prod.fst).map fun i =>
      (verdict r a i.order).withSequence i.sequence).map Settlement.undated := by
    rw [Trace.settlements, List.map_map, List.map_map, List.map_map]
    exact List.map_congr_left hv.recorded
  rw [heq, ← hp.map_verdict]
  exact ((hp.custody.recorded_perm_of_length hall).map _).map _

theorem sequences_nodup (hp : Pool b s₀ r a k placed d tr)
    (hall : tr.recorded.length = tr.accepted.length) (hsize : d.register.size < UInt64.size) :
    (tr.settlements.map (·.sequence)).Nodup := by
  rw [hp.custody.size_eq hp.naming, hall] at hsize
  rw [Trace.settlements, Settles.sequences_eq hp.custody.settles,
    ((hp.custody.recorded_perm_of_length hall).map _).nodup_iff, hp.placing.sequences]
  exact counted_nodup 0 hsize.le

/-- **The register of a pool is that of its orders taken in turn**, up to the times. -/
theorem agrees (hp : Pool b s₀ r a k placed d tr) (hb : Steady b s₀ (placed.map Prod.fst) a)
    (hids : (placed.map fun o => o.1.id).Nodup) (hall : tr.recorded.length = tr.accepted.length)
    (hsize : d.register.size < UInt64.size) (now : Int64) :
    d.register.AgreeBut Settlement.undated (settleInTurn b r now
      (tr.accepted.map (·.order)) Gate.empty s₀ Register.empty) := by
  have hnames : ((tr.accepted.map (·.order)).map (·.id)).Nodup := by
    rw [List.map_map]
    exact hp.ids_nodup hids
  have hgate : ∀ o ∈ tr.accepted.map (·.order), o.id ∉ Gate.empty.seen :=
    fun _ _ => List.not_mem_nil
  obtain ⟨l, n, hreg, hl⟩ := settleInTurn_verdicts (r := r) hb now
    (tr.accepted.map (·.order)) hp.orders_sublist.subset hnames (.start b s₀ _) hgate
    (fun _ _ => rfl) Register.empty
  have hperm : (tr.settlements.map Settlement.undated).Perm (l.map Settlement.undated) := by
    rw [hl]
    exact hp.settlements_perm hall
  have hagree := Register.agreeBut_of_perm Settlement.undated_faithful
    (hp.custody.fresh hp.naming) (hp.sequences_nodup hall hsize) hperm
  rw [hp.custody.register, hreg]
  exact ⟨hagree.find?, hagree.ofClient, hagree.all, hagree.stats, hagree.statsOf, hagree.clients,
    hagree.tickets, hagree.size⟩

end Pool

/-! ## Many workers and one -/

/-- Some run of a desk with its own register ends in `d`, with every accepted order recorded, as
after a stop. -/
def Drained (b : Broker β) (settings : Settings) (s₀ : β) (programs : List (List Call))
    (d : Desk β) (tr : Trace) : Prop :=
  ∃ d₀ schedule, open? settings s₀ Register.empty = .ok d₀ ∧
    (d₀.withCallers programs).follow b schedule = some (d, tr) ∧
    tr.recorded.length = tr.accepted.length

/-- **A pool of workers settles orders as one worker does.** One caller places orders of different
names, over a broker that answers about an order whatever it is asked about others. Once every
accepted order is recorded, the register answers all its questions as if the accepted orders, which
are those placed unless some were refused, had gone one after the other through gate, broker and
register; and as that of a desk with one worker which accepted the same orders. Only the times of
completion differ. -/
theorem pool_settles_in_turn {settings : Settings} {programs : List (List Call)}
    {calls : List Call} {k : Nat} (hrun : Drained b settings s₀ programs d tr)
    (hk : programs[k]? = some calls)
    (hothers : ∀ j calls, programs[j]? = some calls → j ≠ k → Call.placements calls = [])
    (hcb : ∀ o ∈ Call.placements calls, ∀ c ∈ o.2, Call.placements c = [])
    (hids : ((Call.placements calls).map fun o => o.1.id).Nodup)
    (hb : Steady b s₀ ((Call.placements calls).map Prod.fst) a)
    (hsize : d.register.size < UInt64.size) (now : Int64) :
    (tr.accepted.map (·.order)).Sublist ((Call.placements calls).map Prod.fst) ∧
    d.register.AgreeBut Settlement.undated (settleInTurn b settings.retryRule now
      (tr.accepted.map (·.order)) Gate.empty s₀ Register.empty) ∧
    ∀ d₁ tr₁, Drained b { settings with workers := 1 } s₀ programs d₁ tr₁ →
      tr₁.accepted.map (·.order) = tr.accepted.map (·.order) →
      d.register.AgreeBut Settlement.undated d₁.register := by
  obtain ⟨d₀, schedule, hopen, hfollow, hall⟩ := hrun
  have hp := follow_pool hopen hk hothers hcb hids hb hfollow
  have hagree := hp.agrees hb hids hall hsize now
  refine ⟨hp.orders_sublist, hagree, fun d₁ tr₁ hrun₁ horders => ?_⟩
  obtain ⟨d₀', schedule₁, hopen₁, hfollow₁, hall₁⟩ := hrun₁
  have hp₁ := follow_pool hopen₁ hk hothers hcb hids hb hfollow₁
  have hsize₁ : d₁.register.size < UInt64.size := by
    have hlen := congrArg List.length horders
    rw [List.length_map, List.length_map] at hlen
    rw [hp.custody.size_eq hp.naming, hall, ← hlen, ← hall₁] at hsize
    rw [hp₁.custody.size_eq hp₁.naming]
    exact hsize
  have hagree₁ := hp₁.agrees hb hids hall₁ hsize₁ now
  rw [horders] at hagree₁
  exact hagree.trans hagree₁.symm

/-! ## Two workers, one of which overtakes -/

def twoOrders : List Call :=
  [.start, .submit (plainOrder "r-1") none, .submit (plainOrder "r-2") (some [.deliver 7])]

/-- The first worker waits for an answer while the second one makes two calls for a later order and
records it. -/
def overtaken : Option (Desk (List OrderId) × Trace) :=
  ((closed twoWorkers [] Register.empty).withCallers [twoOrders]).follow
    (Hesitant.broker Scripted.standardSymbol timeout)
    (turns (.caller 0) 7 ++ turns (.worker 0) 5 ++ turns (.worker 1) 11 ++ turns (.worker 0) 4)

theorem pool_settles_in_turn_overtaken : ∃ d, ∃ tr : Trace, overtaken = some (d, tr) ∧
    tr.settlements.map (fun s => (s.sequence, s.status)) = [(1, .success), (0, .success)] ∧
    d.register.AgreeBut Settlement.undated
      (settleInTurn (Hesitant.broker Scripted.standardSymbol timeout) twoWorkers.retryRule 0
        (tr.accepted.map (·.order)) Gate.empty [] Register.empty) := by
  have hends : overtaken.map (fun r =>
      (Trace.settlements r.2 |>.map fun s => (s.sequence, s.status),
        (Trace.recorded r.2).length, (Trace.accepted r.2).length, r.1.register.size)) =
        some ([(1, .success), (0, .success)], 2, 2, 2) := by
    decide +kernel
  obtain ⟨⟨d, tr⟩, hrun, hends⟩ := Option.map_eq_some_iff.1 hends
  obtain ⟨hsettlements, hends⟩ := Prod.mk.inj hends
  obtain ⟨hrecorded, hends⟩ := Prod.mk.inj hends
  obtain ⟨haccepted, hsize⟩ := Prod.mk.inj hends
  have hdrained : Drained (Hesitant.broker Scripted.standardSymbol timeout) twoWorkers []
      [twoOrders] d tr :=
    ⟨_, _, rfl, hrun, hrecorded.trans haccepted.symm⟩
  have hothers : ∀ j calls, [twoOrders][j]? = some calls → j ≠ 0 →
      Call.placements calls = [] := by
    intro j calls hj hne
    rw [List.getElem?_singleton, if_neg hne] at hj
    cases hj
  have hcb : ∀ o ∈ Call.placements twoOrders, ∀ c ∈ o.2, Call.placements c = [] := by
    intro o ho c hc
    rcases List.mem_cons.1 ho with rfl | ho
    · cases hc
    · rw [List.mem_singleton.1 ho] at hc
      cases hc
      rfl
  have hids : ((Call.placements twoOrders).map fun o => o.1.id).Nodup := by decide
  have hsteady := Hesitant.steady Scripted.standardSymbol timeout
    ((Call.placements twoOrders).map Prod.fst)
  have hlt : d.register.size < UInt64.size := by rw [hsize]; decide
  obtain ⟨-, hagree, -⟩ := pool_settles_in_turn hdrained rfl hothers hcb hids hsteady hlt 0
  exact ⟨d, tr, hrun, hsettlements, hagree⟩

end Desk

end DealDesk
