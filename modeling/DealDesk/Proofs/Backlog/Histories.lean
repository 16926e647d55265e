import DealDesk.Backlog
import Mathlib.Data.List.Induction

/-!
# What a backlog does over a history

* `Backlog.answers`, `Backlog.after`, `Backlog.answer` — the answers to a history, the backlog after
  it, and the answer to one more operation; `answers_concat` and `after_concat` add the operation.
* `Backlog.accepted`, `Backlog.handedOut` — the items that a history brought in and took out.
* `handedOut_append_items` — nothing is lost, made up or moved in the line.
* `Orderly` — all that holds of a history that begins with an empty and open backlog.

`history_orderly` is the main result: every history is orderly.
-/

namespace DealDesk

namespace Backlog

variable {α : Type}

/-! ## Answers to a history -/

/-- The answers to a history. -/
def answers (q : Backlog α) (history : List (Operation α)) : List (Answer α) := (q.run history).1

/-- The backlog after a history. -/
def after (q : Backlog α) (history : List (Operation α)) : Backlog α := (q.run history).2

/-- The answer to one more operation. -/
def answer (q : Backlog α) (history : List (Operation α)) (op : Operation α) : Answer α :=
  ((q.after history).apply op).1

theorem run_cons (q : Backlog α) (op : Operation α) (rest : List (Operation α)) :
    q.run (op :: rest) =
      ((q.apply op).1 :: (q.apply op).2.answers rest, (q.apply op).2.after rest) := rfl

theorem run_concat (q : Backlog α) (history : List (Operation α)) (op : Operation α) :
    q.run (history ++ [op]) =
      (q.answers history ++ [q.answer history op], ((q.after history).apply op).2) := by
  induction history generalizing q with
  | nil => rfl
  | cons first rest ih =>
    rw [List.cons_append, run_cons, answers, after, ih]
    rfl

theorem answers_concat (q : Backlog α) (history : List (Operation α)) (op : Operation α) :
    q.answers (history ++ [op]) = q.answers history ++ [q.answer history op] := by
  rw [answers, run_concat]

theorem after_concat (q : Backlog α) (history : List (Operation α)) (op : Operation α) :
    q.after (history ++ [op]) = ((q.after history).apply op).2 := by
  rw [after, run_concat]

theorem length_answers (q : Backlog α) (history : List (Operation α)) :
    (q.answers history).length = history.length := by
  induction history using List.reverseRecOn with
  | nil => rfl
  | append_singleton history op ih => simp [answers_concat, ih]

/-! ## What comes in and what goes out -/

/-- The item that an operation with this answer brings in. -/
def Operation.brought : Operation α → Answer α → Option α
  | .enqueue a, .accepted => some a
  | _, _ => none

/-- The item that an answer hands out. -/
def Answer.handed : Answer α → Option α
  | .taken (.item a) => some a
  | .tried a => a
  | _ => none

/-- The items that a history brought in, in order. -/
def accepted (q : Backlog α) (history : List (Operation α)) : List α :=
  (history.zip (q.answers history)).filterMap fun e => e.1.brought e.2

/-- The items that a history took out, in order. -/
def handedOut (q : Backlog α) (history : List (Operation α)) : List α :=
  (q.answers history).filterMap Answer.handed

theorem accepted_concat (q : Backlog α) (history : List (Operation α)) (op : Operation α) :
    q.accepted (history ++ [op]) =
      q.accepted history ++ (op.brought (q.answer history op)).toList := by
  have hlen : history.length = (q.answers history).length := (q.length_answers history).symm
  rw [accepted, answers_concat, List.zip_append hlen, List.filterMap_append, ← accepted]
  cases h : op.brought (q.answer history op) <;> simp [h]

theorem handedOut_concat (q : Backlog α) (history : List (Operation α)) (op : Operation α) :
    q.handedOut (history ++ [op]) =
      q.handedOut history ++ (q.answer history op).handed.toList := by
  rw [handedOut, answers_concat, List.filterMap_append, ← handedOut]
  cases h : (q.answer history op).handed <;> simp [h]

/-! ## One operation -/

/-- An operation takes from the front of the line and adds at its end. -/
theorem apply_items (q : Backlog α) (op : Operation α) :
    (q.apply op).1.handed.toList ++ (q.apply op).2.items =
      q.items ++ (op.brought (q.apply op).1).toList := by
  obtain ⟨items, closed⟩ := q
  cases op with
  | enqueue a => cases closed <;> simp [apply, enqueue, Answer.handed, Operation.brought]
  | dequeue =>
    cases items <;> cases closed <;> simp [apply, dequeue, Answer.handed, Operation.brought]
  | tryDequeue => cases items <;> simp [apply, tryDequeue, Answer.handed, Operation.brought]
  | close => simp [apply, close, Answer.handed, Operation.brought]

/-- Only closing closes a backlog, and nothing opens it again. -/
theorem closed_apply (q : Backlog α) (op : Operation α) :
    (q.apply op).2.closed = true ↔ q.closed = true ∨ op = .close := by
  obtain ⟨items, closed⟩ := q
  cases op with
  | enqueue a => cases closed <;> simp [apply, enqueue]
  | dequeue => cases items <;> simp [apply, dequeue]
  | tryDequeue => cases items <;> simp [apply, tryDequeue]
  | close => simp [apply, close]

theorem apply_enqueue_of_open {q : Backlog α} (h : q.closed = false) (a : α) :
    q.apply (.enqueue a) = (.accepted, { q with items := q.items ++ [a] }) := by
  simp [apply, enqueue, h]

theorem apply_enqueue_of_closed {q : Backlog α} (h : q.closed = true) (a : α) :
    q.apply (.enqueue a) = (.refused a, q) := by
  simp [apply, enqueue, h]

theorem apply_close_of_closed {q : Backlog α} (h : q.closed = true) :
    q.apply .close = (.closed, q) := by
  obtain ⟨items, closed⟩ := q
  cases h
  rfl

theorem dequeue_eq_drained_iff (q : Backlog α) :
    (q.apply .dequeue).1 = .taken .drained ↔ q.closed = true ∧ q.items = [] := by
  obtain ⟨items, closed⟩ := q
  cases items <;> cases closed <;> simp [apply, dequeue]

theorem dequeue_eq_wait_iff (q : Backlog α) :
    (q.apply .dequeue).1 = .taken .wait ↔ q.closed = false ∧ q.items = [] := by
  obtain ⟨items, closed⟩ := q
  cases items <;> cases closed <;> simp [apply, dequeue]

/-- A backlog that is closed and empty stays so. -/
theorem apply_of_emptied {q : Backlog α} (h : q.closed = true ∧ q.items = [])
    (op : Operation α) : (q.apply op).2 = q := by
  obtain ⟨items, closed⟩ := q
  obtain ⟨hc, hi⟩ := h
  cases hc
  cases hi
  cases op <;> rfl

/-! ## All operations of a history -/

/-- **What was handed out, and then what waits, is what waited at first, and then what was
accepted.** -/
theorem handedOut_append_items (q : Backlog α) (history : List (Operation α)) :
    q.handedOut history ++ (q.after history).items = q.items ++ q.accepted history := by
  induction history using List.reverseRecOn with
  | nil => simp [handedOut, accepted, answers, after, run]
  | append_singleton history op ih =>
    have hop := (q.after history).apply_items op
    rw [handedOut_concat, accepted_concat, after_concat, List.append_assoc, answer, hop,
      ← List.append_assoc, ih, List.append_assoc]

theorem closed_after (q : Backlog α) (history : List (Operation α)) :
    (q.after history).closed = true ↔ q.closed = true ∨ .close ∈ history := by
  induction history using List.reverseRecOn with
  | nil => simp [after, run]
  | append_singleton history op ih =>
    rw [after_concat, closed_apply, ih, List.mem_append, List.mem_singleton, or_assoc,
      eq_comm (a := op)]

/-- Once a dequeue has found the backlog drained, it is closed and empty for good. -/
theorem emptied_of_drained {q : Backlog α} {history : List (Operation α)}
    (h : Answer.taken .drained ∈ q.answers history) :
    (q.after history).closed = true ∧ (q.after history).items = [] := by
  induction history using List.reverseRecOn with
  | nil => cases h
  | append_singleton history op ih =>
    rw [answers_concat, List.mem_append, List.mem_singleton] at h
    rw [after_concat]
    have hdone : (q.after history).closed = true ∧ (q.after history).items = [] := by
      rcases h with h | h
      · exact ih h
      · cases op with
        | dequeue => exact (dequeue_eq_drained_iff _).1 h.symm
        | enqueue a =>
          cases hc : (q.after history).closed <;> simp [answer, apply, enqueue, hc] at h
        | tryDequeue => cases h
        | close => cases h
    rw [apply_of_emptied hdone]
    exact hdone

/-! ## Every history -/

/-- What holds after a history of operations, in whatever order they are issued, of a backlog that
began empty and open. -/
structure Orderly (history : List (Operation α)) : Prop where
  /-- First in, first out: what was handed out and what waits is what was accepted, in order. -/
  line : empty.handedOut history ++ (empty.after history).items = empty.accepted history
  depth : (empty.after history).depth =
    (empty.accepted history).length - (empty.handedOut history).length
  /-- It is closed if and only if it was closed once. -/
  closed : (empty.after history).closed = true ↔ .close ∈ history
  /-- Each operation has its answer. -/
  answered : ∀ op, empty.answers (history ++ [op]) =
    empty.answers history ++ [empty.answer history op]
  /-- An item is refused if and only if the backlog was closed before; then that very item is
  handed back, and nothing changes. -/
  enqueue : ∀ a, (.close ∉ history ∧ empty.answer history (.enqueue a) = .accepted) ∨
    (.close ∈ history ∧ empty.answer history (.enqueue a) = .refused a ∧
      empty.after (history ++ [.enqueue a]) = empty.after history)
  closeAgain : .close ∈ history → empty.after (history ++ [.close]) = empty.after history
  drained : empty.answer history .dequeue = .taken .drained ↔
    (empty.after history).closed = true ∧ (empty.after history).items = []
  waits : empty.answer history .dequeue = .taken .wait ↔
    (empty.after history).closed = false ∧ (empty.after history).items = []
  /-- After the end has been told once, it is told for good. -/
  ended : Answer.taken .drained ∈ empty.answers history →
    empty.answer history .dequeue = .taken .drained ∧
      empty.answer history .tryDequeue = .tried none

/-- **Every history is orderly.** -/
theorem history_orderly (history : List (Operation α)) : Orderly history := by
  have hline : empty.handedOut history ++ (empty.after history).items =
      empty.accepted history := by
    rw [handedOut_append_items]
    exact List.nil_append _
  have hclosed : (empty.after history).closed = true ↔ Operation.close ∈ history := by
    rw [closed_after]
    simp [empty]
  refine ⟨hline, ?_, hclosed, answers_concat empty history, fun a => ?_, fun h => ?_,
    dequeue_eq_drained_iff _, dequeue_eq_wait_iff _, fun h => ?_⟩
  · rw [← hline, List.length_append, depth]
    omega
  · cases hc : (empty.after history).closed with
    | false =>
      refine .inl ⟨fun hmem => ?_, ?_⟩
      · rw [hclosed.2 hmem] at hc
        cases hc
      · rw [answer, apply_enqueue_of_open hc]
    | true =>
      refine .inr ⟨hclosed.1 hc, ?_, ?_⟩
      · rw [answer, apply_enqueue_of_closed hc]
      · rw [after_concat, apply_enqueue_of_closed hc]
  · rw [after_concat, apply_close_of_closed (hclosed.2 h)]
  · obtain ⟨hc, hi⟩ := emptied_of_drained h
    refine ⟨(dequeue_eq_drained_iff _).2 ⟨hc, hi⟩, ?_⟩
    simp [answer, apply, tryDequeue, hi]

end Backlog

end DealDesk
