import DealDesk.Broker

/-!
# Steady brokers

* `BrokerCall` — a call to a broker; `Broker.after` is its state after a history of calls.
* `executions` — how often a history executes the order of a name.
* `Answers` — a quote for each symbol, and an outcome for each order and number of executions
  before.
* `Steady` — a broker that gives such answers, whatever else it is asked. The time at which a deal
  is booked may differ.
* `Heard` — the state of a broker that has heard certain calls about certain orders.
* `Hesitant.broker` — a steady broker that turns each order down once and then fills it.
-/

namespace DealDesk

/-! ## Answers without their times -/

/-- An outcome without the time of the deal. -/
def Outcome.undated : Outcome → Outcome
  | .filled fill => .filled { fill with executedAt := 0 }
  | .failed failure => .failed failure

def Reply.undated : Reply Outcome → Reply Outcome
  | .answer outcome => .answer outcome.undated
  | .broke => .broke

/-! ## Histories of calls -/

inductive BrokerCall
  /-- The symbol of the order is asked for. -/
  | quote (order : Order)
  | execute (now : Int64) (order : Order)

namespace BrokerCall

def order : BrokerCall → Order
  | .quote o | .execute _ o => o

def executes (id : OrderId) : BrokerCall → Bool
  | .quote _ => false
  | .execute _ o => o.id = id

end BrokerCall

/-- How often the order of a name is executed. -/
def executions (id : OrderId) (history : List BrokerCall) : Nat :=
  history.countP (BrokerCall.executes id)

section Executions

variable {id : OrderId} {o : Order} {now : Int64} {history : List BrokerCall}

@[simp] theorem executions_quote :
    executions id (history ++ [.quote o]) = executions id history := by
  simp [executions, BrokerCall.executes]

@[simp] theorem executions_execute_self :
    executions o.id (history ++ [.execute now o]) = executions o.id history + 1 := by
  simp [executions, BrokerCall.executes]

theorem executions_execute_of_ne (h : o.id ≠ id) :
    executions id (history ++ [.execute now o]) = executions id history := by
  simp [executions, BrokerCall.executes, h]

end Executions

namespace Broker

variable {β : Type} (b : Broker β)

def afterCall (s : β) : BrokerCall → β
  | .quote o => (b.quote s o.symbol).2
  | .execute now o => (b.execute s now o).state

/-- The state after a history of calls. -/
def after (s : β) (history : List BrokerCall) : β := history.foldl b.afterCall s

end Broker

/-! ## Steady brokers -/

structure Answers where
  quote : String → Reply (Option Instrument)
  /-- The answer to an order that was executed so many times before. -/
  outcome : Order → Nat → Reply Outcome

variable {β : Type} {b : Broker β} {s₀ s : β} {orders : List Order} {history : List BrokerCall}
  {a : Answers} {o : Order}

/-- After whatever calls about some orders, the broker answers about one of them as `a` says. -/
structure Steady (b : Broker β) (s₀ : β) (orders : List Order) (a : Answers) : Prop where
  quote : ∀ history : List BrokerCall, (∀ c ∈ history, c.order ∈ orders) → ∀ o ∈ orders,
    (b.quote (b.after s₀ history) o.symbol).1 = a.quote o.symbol
  execute : ∀ history : List BrokerCall, (∀ c ∈ history, c.order ∈ orders) → ∀ o ∈ orders, ∀ now,
    (b.execute (b.after s₀ history) now o).reply.undated = a.outcome o (executions o.id history)

/-- The broker comes to state `s` by calls about some orders. -/
structure Heard (b : Broker β) (s₀ : β) (orders : List Order) (history : List BrokerCall) (s : β) :
    Prop where
  among : ∀ c ∈ history, c.order ∈ orders
  state : s = b.after s₀ history

namespace Heard

theorem start (b : Broker β) (s₀ : β) (orders : List Order) : Heard b s₀ orders [] s₀ where
  among _ h := by cases h
  state := rfl

theorem concat (h : Heard b s₀ orders history s) {c : BrokerCall} (hc : c.order ∈ orders) :
    Heard b s₀ orders (history ++ [c]) (b.afterCall s c) where
  among c' hc' := by
    rcases List.mem_append.1 hc' with hc' | hc'
    · exact h.among c' hc'
    · rw [List.mem_singleton.1 hc']
      exact hc
  state := by rw [h.state, Broker.after, Broker.after, List.foldl_append]; rfl

theorem quote (h : Heard b s₀ orders history s) (ho : o ∈ orders) :
    Heard b s₀ orders (history ++ [.quote o]) (b.quote s o.symbol).2 :=
  h.concat (c := .quote o) ho

theorem execute (h : Heard b s₀ orders history s) (ho : o ∈ orders) (now : Int64) :
    Heard b s₀ orders (history ++ [.execute now o]) (b.execute s now o).state :=
  h.concat (c := .execute now o) ho

theorem quote_eq (h : Heard b s₀ orders history s) (hb : Steady b s₀ orders a)
    (ho : o ∈ orders) : (b.quote s o.symbol).1 = a.quote o.symbol := by
  rw [h.state]
  exact hb.quote history h.among o ho

/-- A quote, with the state after it. -/
theorem quoted (h : Heard b s₀ orders history s) (hb : Steady b s₀ orders a) (ho : o ∈ orders)
    {reply : Reply (Option Instrument)} {s' : β} (hq : b.quote s o.symbol = (reply, s')) :
    a.quote o.symbol = reply ∧ Heard b s₀ orders (history ++ [.quote o]) s' := by
  have heq := h.quote_eq hb ho
  have hs := h.quote ho
  rw [hq] at heq hs
  exact ⟨heq.symm, hs⟩

theorem execute_eq (h : Heard b s₀ orders history s) (hb : Steady b s₀ orders a)
    (ho : o ∈ orders) (now : Int64) :
    (b.execute s now o).reply.undated = a.outcome o (executions o.id history) := by
  rw [h.state]
  exact hb.execute history h.among o ho now

end Heard

/-! ## A broker that fills an order when it comes back -/

namespace Hesitant

variable (i : Instrument) (f : Failure)

/-- Under the name of the order, at the ask price. -/
def fill (now : Int64) (o : Order) : Fill :=
  { ticket := o.id.text, orderId := o.id, symbol := o.symbol, side := o.side, volume := o.volume
    price := i.ask, executedAt := now }

/-- Keeps the names of the orders that it has turned down. -/
def broker : Broker (List OrderId) where
  quote s symbol := (.answer (if symbol = i.symbol then some i else none), s)
  account _ _ := none
  execute s now o :=
    ⟨.answer (if o.id ∈ s then .filled (fill i now o) else .failed f), o.id :: s, 0⟩
  deal _ _ := none

def answers : Answers where
  quote symbol := .answer (if symbol = i.symbol then some i else none)
  outcome o n := .answer (if n = 0 then .failed f else .filled (fill i 0 o))

theorem mem_after (id : OrderId) (s : List OrderId) (history : List BrokerCall) :
    id ∈ (broker i f).after s history ↔ id ∈ s ∨ executions id history ≠ 0 := by
  induction history generalizing s with
  | nil => simp [Broker.after, executions]
  | cons c rest ih =>
    refine (ih _).trans ?_
    rw [executions, executions, List.countP_cons]
    cases c with
    | quote o => simp [Broker.afterCall, broker, BrokerCall.executes]
    | execute now o =>
      by_cases hid : o.id = id
      · simp [Broker.afterCall, broker, BrokerCall.executes, hid]
      · simp [Broker.afterCall, broker, BrokerCall.executes, hid, Ne.symm hid]

/-- **The answer about an order depends on that order alone.** -/
theorem steady (orders : List Order) : Steady (broker i f) [] orders (answers i f) where
  quote _ _ _ _ := rfl
  execute history _ o _ now := by
    have hmem := mem_after i f o.id [] history
    rw [List.mem_nil_iff, false_or] at hmem
    show (Reply.answer (if o.id ∈ (broker i f).after [] history then .filled (fill i now o)
        else .failed f)).undated =
      Reply.answer (if executions o.id history = 0 then .failed f else .filled (fill i 0 o))
    by_cases hn : executions o.id history = 0
    · rw [if_pos hn, if_neg fun h => hmem.1 h hn]
      rfl
    · rw [if_neg hn, if_pos (hmem.2 hn)]
      rfl

end Hesitant

end DealDesk
