import DealDesk.Proofs.Backlog.Histories
import DealDesk.Proofs.Backlog.Wakeups

/-!
# What waiting threads are given

* `Backlog.accepted_of_issued` — what is enqueued before the backlog is closed is accepted, however
  many dequeues come in between.
* `Backlog.supply` — all that threads can be given.
* `Parking.history` — the operations on the backlog that a schedule comes down to; a look is a
  dequeue.
* `Supplied` — after a schedule the backlog is that of its history, and the threads were given what
  the history handed out; an answer without an item means that the backlog is closed and empty.
* `answers_of_closed` — once the backlog is closed, all threads can come to an answer.

`answers_independent` is the main result: what the threads are given does not depend on the order in
which they take their steps.
-/

namespace DealDesk

namespace Backlog

variable {α : Type}

/-! ## What a history brings in -/

/-- Is it the operation of a thread that waits for an item? -/
def Operation.isDequeue : Operation α → Bool
  | .dequeue => true
  | .enqueue _ | .tryDequeue | .close => false

theorem accepted_cons (q : Backlog α) (op : Operation α) (rest : List (Operation α)) :
    q.accepted (op :: rest) =
      (op.brought (q.apply op).1).toList ++ (q.apply op).2.accepted rest := by
  rw [accepted, answers, run_cons, List.zip_cons_cons, List.filterMap_cons, accepted]
  cases op.brought (q.apply op).1 <;> rfl

theorem accepted_of_closed {q : Backlog α} (hc : q.closed = true) (history : List (Operation α)) :
    q.accepted history = [] := by
  induction history generalizing q with
  | nil => rfl
  | cons op rest ih =>
    rw [accepted_cons, ih ((closed_apply q op).2 (.inl hc)), List.append_nil]
    cases op with
    | enqueue a => rw [apply_enqueue_of_closed hc]; rfl
    | _ => rfl

theorem closed_dequeue (q : Backlog α) : (q.apply .dequeue).2.closed = q.closed := by
  obtain ⟨items, closed⟩ := q
  cases items <;> rfl

/-- What a backlog holds once some items are enqueued; a closed one refuses them. -/
def supply (q : Backlog α) (xs : List α) : List α := q.items ++ if q.closed then [] else xs

/-- **What is enqueued before the backlog is closed is accepted, in order.** -/
theorem accepted_of_issued {q : Backlog α} {history : List (Operation α)} {xs : List α}
    (h : history.filter (fun op => !op.isDequeue) = xs.map .enqueue ++ [.close]) :
    q.accepted history = if q.closed then [] else xs := by
  cases hc : q.closed with
  | true => exact accepted_of_closed hc history
  | false =>
    rw [if_neg Bool.false_ne_true]
    induction history generalizing q xs with
    | nil => simp at h
    | cons op rest ih =>
      rw [accepted_cons]
      cases op with
      | dequeue => exact ih h ((closed_dequeue q).trans hc)
      | tryDequeue => cases xs <;> simp [Operation.isDequeue] at h
      | enqueue a =>
        cases xs with
        | nil => simp [Operation.isDequeue] at h
        | cons x xs =>
          obtain ⟨rfl, hrest⟩ : a = x ∧
              rest.filter (fun op => !op.isDequeue) = xs.map .enqueue ++ [.close] := by
            simpa [Operation.isDequeue] using h
          rw [apply_enqueue_of_open hc]
          exact congrArg (a :: ·) (ih hrest hc)
      | close =>
        cases xs with
        | nil => exact accepted_of_closed rfl rest
        | cons x xs => simp [Operation.isDequeue] at h

end Backlog

/-! ## Threads and the history of their backlog -/

namespace Waiter

/-- The item that a thread was given. -/
def given {α : Type} : Waiter α → Option α
  | .answered a => a
  | .looking | .parked | .woken => none

end Waiter

namespace Parking

variable {α : Type} {p p' : Parking α} {s : Step α} {q : Backlog α} {steps : List (Step α)}

/-- The operation on the backlog in a step; a look is a dequeue. -/
def Step.operation? : Step α → Option (Backlog.Operation α)
  | .enqueue a => some (.enqueue a)
  | .tryDequeue => some .tryDequeue
  | .close => some .close
  | .look _ => some .dequeue
  | .arrive | .call _ _ | .stir _ => none

/-- A step that the threads take by themselves: a look, or a wake-up call. -/
def Step.isOwn : Step α → Bool
  | .look _ | .call _ _ => true
  | _ => false

/-- The operations on the backlog that a schedule comes down to. -/
def history (steps : List (Step α)) : List (Backlog.Operation α) :=
  steps.filterMap Step.operation?

/-- What the threads were given. -/
def given (p : Parking α) : List α := p.waiters.filterMap Waiter.given

theorem history_concat (steps : List (Step α)) (s : Step α) :
    history (steps ++ [s]) = history steps ++ s.operation?.toList := by
  rw [history, List.filterMap_append, ← history]
  cases h : s.operation? <;> simp [h]

/-- A thread that had nothing is given what its new state says. -/
theorem given_set {waiters : List (Waiter α)} {n : Nat} {w : Waiter α}
    (hat : waiters[n]? = some w) (hw : w.given = none) (w' : Waiter α) :
    ((waiters.set n w').filterMap Waiter.given).Perm
      (waiters.filterMap Waiter.given ++ w'.given.toList) := by
  obtain ⟨hn, rfl⟩ := List.getElem?_eq_some_iff.1 hat
  have hset := (List.set_perm_cons_eraseIdx hn w').filterMap Waiter.given
  have hwas := (List.getElem_cons_eraseIdx_perm hn).filterMap Waiter.given
  rw [List.filterMap_cons_none hw] at hwas
  refine hset.trans (List.Perm.trans ?_ (hwas.append_right _))
  cases h : w'.given with
  | none => simp [h]
  | some a => simpa [h] using (List.perm_append_singleton a _).symm

theorem given_of_looks {w : Waiter α} (h : w.looks = true) : w.given = none := by
  cases w <;> first | rfl | cases h

/-- A step does to the backlog what its operation does. -/
theorem Acts.backlog (h : Acts p s p') : p'.backlog = p.backlog.after s.operation?.toList := by
  obtain ⟨⟨items, closed⟩, waiters, calls⟩ := p
  cases h with
  | enqueue a h => cases h; rfl
  | refuse a h => cases h; rfl
  | tryDequeue => cases items <;> rfl
  | closeAgain h => cases h; rfl
  | take n w a rest hat hw h => cases h; rfl
  | leave n w hat hw h hc => cases h; rfl
  | park n w hat hw h hc => cases h; rfl
  | _ => rfl

/-- A step gives to the threads what its operation hands out. -/
theorem Acts.given (h : Acts p s p') (hs : s.operation? ≠ some .tryDequeue) :
    p'.given.Perm (p.given ++ p.backlog.handedOut s.operation?.toList) := by
  have same : p'.given = p.given → p.backlog.handedOut s.operation?.toList = [] →
      p'.given.Perm (p.given ++ p.backlog.handedOut s.operation?.toList) := by
    intro hgiven hnone
    rw [hgiven, hnone, List.append_nil]
  obtain ⟨⟨items, closed⟩, waiters, calls⟩ := p
  cases h with
  | enqueue a h => cases h; exact same rfl rfl
  | refuse a h => cases h; exact same rfl rfl
  | tryDequeue => exact absurd rfl hs
  | closeAgain h => cases h; exact same rfl rfl
  | close h => exact same rfl rfl
  | arrive => exact same (by simp [Parking.given, Waiter.given]) rfl
  | take n w a rest hat hw h =>
    cases h
    exact given_set hat (given_of_looks hw) (.answered (some a))
  | leave n w hat hw h hc =>
    cases h
    cases hc
    exact given_set hat (given_of_looks hw) (.answered none)
  | park n w hat hw h hc =>
    cases h
    cases hc
    exact given_set hat (given_of_looks hw) .parked
  | wakeAll k n hk =>
    refine same ?_ rfl
    show (waiters.map Waiter.wake).filterMap Waiter.given = waiters.filterMap Waiter.given
    rw [List.filterMap_map]
    refine List.filterMap_congr fun w _ => ?_
    cases w <;> rfl
  | wakeOne k n hk hat =>
    have hset := given_set hat rfl .woken
    exact hset
  | wakeNone k n hk h => exact same rfl rfl
  | stir n hat =>
    have hset := given_set hat rfl .woken
    exact hset

/-- Only a backlog that is closed and empty makes a thread leave without an item. -/
theorem Acts.leaves (h : Acts p s p') (hp' : .answered none ∈ p'.waiters) :
    .answered none ∈ p.waiters ∨ p.backlog.closed = true ∧ p.backlog.items = [] := by
  cases h with
  | arrive =>
    refine .inl ?_
    simpa using hp'
  | take n w a rest hat hw h => exact .inl (mem_of_mem_set hp' nofun)
  | leave n w hat hw h hc => exact .inr ⟨hc, h⟩
  | park n w hat hw h hc => exact .inl (mem_of_mem_set hp' nofun)
  | wakeAll k n hk =>
    obtain ⟨w, hw, he⟩ := List.mem_map.1 hp'
    cases w with
    | answered a => cases he; exact .inl hw
    | _ => cases he
  | wakeOne k n hk hat => exact .inl (mem_of_mem_set hp' nofun)
  | stir n hat => exact .inl (mem_of_mem_set hp' nofun)
  | _ => exact .inl hp'

/-! ## After a schedule -/

/-- What holds after a schedule that began with backlog `q` and no thread. -/
structure Supplied (q : Backlog α) (steps : List (Step α)) (p : Parking α) : Prop where
  backlog : p.backlog = q.after (history steps)
  given : .tryDequeue ∉ history steps → p.given.Perm (q.handedOut (history steps))
  ended : .answered none ∈ p.waiters → p.backlog.closed = true ∧ p.backlog.items = []

theorem supplied_ofBacklog (q : Backlog α) : Supplied q [] (ofBacklog q) :=
  ⟨rfl, fun _ => List.Perm.nil, nofun⟩

theorem Supplied.step (hs : Supplied q steps p) (h : Acts p s p') :
    Supplied q (steps ++ [s]) p' := by
  have hbacklog := h.backlog
  refine ⟨?_, fun hnone => ?_, fun hp' => ?_⟩
  · rw [history_concat]
    cases hop : s.operation? with
    | none =>
      rw [hop] at hbacklog
      rw [Option.toList_none, List.append_nil, ← hs.backlog]
      exact hbacklog
    | some op =>
      rw [hop] at hbacklog
      rw [Option.toList_some, Backlog.after_concat, ← hs.backlog]
      exact hbacklog
  · rw [history_concat] at hnone ⊢
    have hgiven := h.given fun hop => hnone (by simp [hop])
    have hwas := hs.given fun hmem => hnone (List.mem_append_left _ hmem)
    refine hgiven.trans ?_
    cases hop : s.operation? with
    | none => simpa [hop, Backlog.handedOut, Backlog.answers, Backlog.run] using hwas
    | some op =>
      rw [Option.toList_some, Backlog.handedOut_concat, Backlog.answer, ← hs.backlog]
      refine hwas.append ?_
      have hone : p.backlog.handedOut [op] = (p.backlog.apply op).1.handed.toList := by
        have hconcat := p.backlog.handedOut_concat [] op
        exact hconcat
      rw [hone]
  · have hdone : p.backlog.closed = true ∧ p.backlog.items = [] := by
      rcases h.leaves hp' with hwas | hdone
      · exact hs.ended hwas
      · exact hdone
    rw [hbacklog]
    cases s.operation? with
    | none => exact hdone
    | some op =>
      have hsame : p.backlog.after [op] = p.backlog := Backlog.apply_of_emptied hdone op
      rw [Option.toList_some, hsame]
      exact hdone

theorem follow_supplied (h : (ofBacklog q).follow steps = some p) : Supplied q steps p :=
  follow_invariant (P := Supplied q) (fun hs ha => hs.step ha) (supplied_ofBacklog q) h

/-- All threads have their answer. -/
theorem answers?_eq_some {answers : List (Option α)} :
    p.answers? = some answers ↔ p.waiters = answers.map .answered := by
  obtain ⟨backlog, waiters, calls⟩ := p
  show waiters.mapM _ = some answers ↔ waiters = answers.map .answered
  induction waiters generalizing answers with
  | nil => cases answers <;> simp
  | cons w waiters ih =>
    cases answers with
    | nil => cases w <;> simp [List.mapM_cons, Option.bind_eq_some_iff]
    | cons a answers =>
      cases w <;> simp [List.mapM_cons, Option.bind_eq_some_iff, ih, and_comm]

/-! ## All threads come to an answer -/

/-- A look at a closed backlog is an answer. -/
theorem look_of_closed {n : Nat} {w : Waiter α} (hc : p.backlog.closed = true)
    (hat : p.waiters[n]? = some w) (hw : w.looks = true) :
    p.step (.look n) = some (p.look n) ∧ (p.look n).backlog.closed = true ∧
      ∃ a, (p.look n).waiters = p.waiters.set n (.answered a) := by
  refine ⟨?_, ?_⟩
  · rw [step, hat]
    cases w with
    | looking => rfl
    | woken => rfl
    | parked => cases hw
    | answered a => cases hw
  · obtain ⟨⟨items, closed⟩, waiters, calls⟩ := p
    cases hc
    cases items with
    | nil => exact ⟨rfl, none, rfl⟩
    | cons a rest => exact ⟨rfl, some a, rfl⟩

/-- With nobody parked at a closed backlog, the threads look one after the other. -/
theorem answers_of_awake (hc : p.backlog.closed = true) (hawake : .parked ∉ p.waiters) :
    ∃ rest p' answers, p.follow rest = some p' ∧ rest.all Step.isOwn = true ∧
      p'.answers? = some answers ∧ answers.length = p.waiters.length := by
  -- on how many have still to look
  induction hn : p.waiters.countP Waiter.looks generalizing p with
  | zero =>
    refine ⟨[], p, p.waiters.map Waiter.given, rfl, rfl, answers?_eq_some.2 ?_, by simp⟩
    rw [List.map_map]
    refine ((List.map_congr_left fun w hw => ?_).trans (List.map_id p.waiters)).symm
    have hlooks := List.countP_eq_zero.1 hn w hw
    cases w with
    | answered a => rfl
    | parked => exact absurd hw hawake
    | looking => exact absurd rfl hlooks
    | woken => exact absurd rfl hlooks
  | succ k ih =>
    have hpos : 0 < p.waiters.countP Waiter.looks := by omega
    obtain ⟨w, hw, hlooks⟩ := List.countP_pos_iff.1 hpos
    obtain ⟨n, hat⟩ := List.mem_iff_getElem?.1 hw
    obtain ⟨hstep, hc', a, hwaiters⟩ := look_of_closed hc hat hlooks
    have hcount := countP_set_add Waiter.looks hat (.answered a)
    rw [if_pos hlooks] at hcount
    have hcount : (p.waiters.set n (.answered a)).countP Waiter.looks + 1 =
      p.waiters.countP Waiter.looks + 0 := hcount
    obtain ⟨rest, p', answers, hrun, hown, hanswers, hlen⟩ := ih hc'
      (by rw [hwaiters]; exact fun h => hawake (mem_of_mem_set h nofun))
      (by rw [hwaiters]; omega)
    refine ⟨.look n :: rest, p', answers, ?_, ?_, hanswers, ?_⟩
    · rw [follow, hstep]
      exact hrun
    · rw [List.all_cons, hown]
      rfl
    · rw [hlen, hwaiters, List.length_set]

/-- **Once the backlog is closed, all threads can come to an answer**: whoever is parked has a call
coming. -/
theorem answers_of_closed (ha : p.Attended) (hc : p.backlog.closed = true) :
    ∃ rest p' answers, p.follow rest = some p' ∧ rest.all Step.isOwn = true ∧
      p'.answers? = some answers ∧ answers.length = p.waiters.length := by
  by_cases hparked : .parked ∈ p.waiters
  · have hall : .all ∈ p.calls := by
      rcases ha hparked with hall | ⟨hopen, -⟩
      · exact hall
      · rw [hc] at hopen
        cases hopen
    obtain ⟨k, hk⟩ := List.mem_iff_getElem?.1 hall
    have hawake : .parked ∉ p.waiters.map Waiter.wake := by
      intro h
      obtain ⟨w, -, hw⟩ := List.mem_map.1 h
      exact wake_ne_parked w hw
    obtain ⟨rest, p', answers, hrun, hown, hanswers, hlen⟩ := answers_of_awake
      (p := { p with waiters := p.waiters.map Waiter.wake, calls := p.calls.eraseIdx k }) hc hawake
    refine ⟨.call k 0 :: rest, p', answers, ?_, ?_, hanswers, ?_⟩
    · rw [follow, step, hk]
      exact hrun
    · rw [List.all_cons, hown]
      rfl
    · rw [hlen, List.length_map]
  · exact answers_of_awake hc hparked

/-! ## The answers -/

/-- Some answers are items, and the others are none. -/
theorem perm_answers (answers : List (Option α)) :
    answers.Perm ((answers.filterMap id).map some ++
      List.replicate (answers.length - (answers.filterMap id).length) none) := by
  induction answers with
  | nil => exact List.Perm.nil
  | cons a answers ih =>
    have hle : (answers.filterMap id).length ≤ answers.length := List.length_filterMap_le id answers
    cases a with
    | none =>
      have hsub : answers.length + 1 - (answers.filterMap id).length =
        answers.length - (answers.filterMap id).length + 1 := by omega
      rw [List.filterMap_cons_none rfl, List.length_cons, hsub, List.replicate_succ]
      exact (ih.cons none).trans List.perm_middle.symm
    | some a => simpa using ih.cons (some a)

/-- **What waiting threads are given does not depend on the schedule.** Let some items be enqueued
and the backlog then be closed, while threads come for one item each, and nobody else takes any. The
threads can always be run to the end; and then those first in the line are given out, once each, the
threads that are too many leave without one, and the other items stay in order. -/
theorem answers_independent (xs : List α) (hrun : (ofBacklog q).follow steps = some p)
    (hissued : (history steps).filter (fun op => !op.isDequeue) = xs.map .enqueue ++ [.close]) :
    (∃ rest p' answers, p.follow rest = some p' ∧ rest.all Step.isOwn = true ∧
      p'.answers? = some answers ∧ answers.length = p.waiters.length) ∧
    ∀ answers, p.answers? = some answers →
      answers.Perm (((q.supply xs).take answers.length).map some ++
        List.replicate (answers.length - (q.supply xs).length) none) ∧
      p.backlog.items = (q.supply xs).drop answers.length := by
  have hs := follow_supplied hrun
  have hmem : ∀ op : Backlog.Operation α, op.isDequeue = false →
      (op ∈ history steps ↔ op ∈ xs.map .enqueue ++ [.close]) := by
    intro op hop
    rw [← hissued, List.mem_filter, hop]
    simp
  have hclosed : p.backlog.closed = true := by
    rw [hs.backlog, Backlog.closed_after]
    exact .inr ((hmem .close rfl).2 (by simp))
  refine ⟨answers_of_closed (follow_attended hrun) hclosed, fun answers hanswers => ?_⟩
  have hwaiters := answers?_eq_some.1 hanswers
  have hgiven : (answers.filterMap id).Perm (q.handedOut (history steps)) := by
    have h := hs.given fun h => by simpa using (hmem .tryDequeue rfl).1 h
    rw [given, hwaiters, List.filterMap_map] at h
    exact h
  have hline : q.handedOut (history steps) ++ p.backlog.items = q.supply xs := by
    rw [hs.backlog, Backlog.handedOut_append_items, Backlog.accepted_of_issued hissued,
      Backlog.supply]
  have hle : (answers.filterMap id).length ≤ answers.length := List.length_filterMap_le id answers
  have hlen := hgiven.length_eq
  have hperm := (perm_answers answers).trans ((hgiven.map some).append_right _)
  rw [← hline]
  -- either everybody has an item, or one has left without and then nothing is left
  rcases Nat.lt_or_eq_of_le hle with hlt | heq
  · have hnone : none ∈ answers := by
      refine (perm_answers answers).mem_iff.2 (List.mem_append_right _ ?_)
      exact List.mem_replicate.2 ⟨by omega, rfl⟩
    obtain ⟨-, hempty⟩ := hs.ended (by rw [hwaiters]; exact List.mem_map_of_mem hnone)
    rw [hempty, List.append_nil, List.take_of_length_le (by omega),
      List.drop_eq_nil_of_le (by omega), ← hlen]
    exact ⟨hperm, rfl⟩
  · have hout : answers.length = (q.handedOut (history steps)).length := by omega
    rw [heq, Nat.sub_self] at hperm
    rw [List.length_append, hout, Nat.sub_add_eq, Nat.sub_self, Nat.zero_sub,
      List.take_left, List.drop_left]
    exact ⟨hperm, rfl⟩

/-- The first thread wakes up for no reason, so the call for the first item wakes nobody; the second
one takes the item for which the third is woken. -/
def threeThreads : List (Step Nat) :=
  [.arrive, .look 0, .enqueue 7, .stir 0, .look 0, .arrive, .arrive, .call 0 1, .look 2, .enqueue 8,
    .close, .look 1, .call 0 2, .look 2]

theorem answers_independent_threeThreads : ∃ p, (ofBacklog Backlog.empty).follow threeThreads =
    some p ∧ p.answers? = some [some 7, some 8, none] ∧
    [some 7, some 8, none].Perm ([some 7, some 8] ++ [none]) ∧ p.backlog.items = [] := by
  have hrun : (ofBacklog Backlog.empty).follow threeThreads =
    some ⟨⟨[], true⟩, [.answered (some 7), .answered (some 8), .answered none], [.all]⟩ := rfl
  exact ⟨_, hrun, rfl, (answers_independent [7, 8] hrun rfl).2 _ rfl⟩

end Parking

end DealDesk
