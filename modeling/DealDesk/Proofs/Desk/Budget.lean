import DealDesk.Proofs.Desk.Calls
import DealDesk.Proofs.Retry

/-!
# How long a run can be

* `Desk.stepsLeft` — a number that every step of a desk makes smaller: what the items that wait, the
  workers and the callers can still lead to.
* `Moves.stepsLeft_lt` — the step lemma; `length_add_stepsLeft_le` — so no schedule has more turns.
* `stepsLeft_le_budget` — while nobody is at stopping the desk, its budget covers that number.

`run_stands` is the main result: a desk that runs by itself runs until no thread can take a step.
-/

namespace DealDesk

section Costs

variable (workers attempts : Nat)

/-! ## What is left to do -/

/-- Steps that an item that waits can still lead to. -/
def Item.stepsLeft (i : Item) : Nat :=
  2 * attempts + 7 + Call.costs workers attempts (i.callback.getD [])

def Pending.stepsLeft : Pending → Nat
  | .draw _ callback => 2 * attempts + 9 + Call.costs workers attempts (callback.getD [])
  | .enqueue item => item.stepsLeft workers attempts + 1
  | .close joined => (joined.getD []).length + 2
  | .join joined => joined.length + 1

def Program.stepsLeft (p : Program) : Nat :=
  (p.pending.map (Pending.stepsLeft workers attempts)).getD 0 + Call.costs workers attempts p.calls

theorem Program.stepsLeft_free (calls : List Call) :
    Program.stepsLeft workers attempts ⟨none, calls⟩ = Call.costs workers attempts calls :=
  Nat.zero_add _

theorem Program.stepsLeft_pending (p : Pending) (calls : List Call) :
    Program.stepsLeft workers attempts ⟨some p, calls⟩ =
      p.stepsLeft workers attempts + Call.costs workers attempts calls := rfl

/-- Steps that a worker can still take with what it has in hand, its retirement among them. -/
def Position.stepsLeft : Position → Nat
  | .starting => 2
  | .dequeuing => 1
  | .validating item => item.stepsLeft workers attempts
  | .quoting item => 2 * attempts + 6 + Call.costs workers attempts (item.callback.getD [])
  | .calling item attempt =>
    2 * (attempts - attempt.toNat) + 5 + Call.costs workers attempts (item.callback.getD [])
  | .awaiting item attempt =>
    2 * (attempts - attempt.toNat) + 4 + Call.costs workers attempts (item.callback.getD [])
  | .recording item _ => 3 + Call.costs workers attempts (item.callback.getD [])
  | .notifying _ _ p => p.stepsLeft workers attempts + 2
  | .stopped => 0

/-! ## The budget covers it -/

theorem Item.stepsLeft_le (i : Item) :
    i.stepsLeft workers attempts ≤ Desk.itemCost workers attempts i := by
  unfold Item.stepsLeft Desk.itemCost
  omega

/-- A call under way is paid for, unless it stops the desk: then the workers that it waits for count. -/
theorem Pending.stepsLeft_le {p : Pending} (h : p.isStop = false) :
    p.stepsLeft workers attempts ≤ Desk.pendingCost workers attempts p := by
  cases p with
  | draw order callback =>
    simp only [Pending.stepsLeft, Desk.pendingCost]
    omega
  | enqueue item =>
    simp only [Pending.stepsLeft, Item.stepsLeft, Desk.pendingCost, Desk.itemCost]
    omega
  | close joined => cases h
  | join joined => cases h

theorem Program.stepsLeft_le {p : Program} (h : ∀ stop, p.pending = some stop → stop.isStop = false) :
    p.stepsLeft workers attempts ≤ Desk.programCost workers attempts p := by
  obtain ⟨pending, calls⟩ := p
  cases pending with
  | none => simp [Program.stepsLeft, Desk.programCost]
  | some pending =>
    have hp := Pending.stepsLeft_le workers attempts (h pending rfl)
    simp only [Program.stepsLeft_pending, Desk.programCost]
    omega

theorem Position.stepsLeft_le {p : Position}
    (h : ∀ stop, p.pending = some stop → stop.isStop = false) :
    p.stepsLeft workers attempts ≤ Desk.positionCost workers attempts p := by
  cases p with
  | notifying item s q =>
    have hq : q.stepsLeft workers attempts ≤ _ := Program.stepsLeft_le workers attempts h
    simp only [Position.stepsLeft, Desk.positionCost]
    omega
  | _ =>
    simp only [Position.stepsLeft, Item.stepsLeft, Desk.positionCost, Position.item?,
      Desk.itemCost]
    omega

theorem total_eq_sum {α : Type} (cost : α → Nat) (l : List α) : total cost l = (l.map cost).sum := by
  induction l with
  | nil => rfl
  | cons x l ih => simp only [total, List.map_cons, List.sum_cons, ih]

end Costs

namespace Desk

variable {β : Type} {b : Broker β} {n : Nat} {t : Thread} {d d' : Desk β} {p p' : Position}
  {q q' : Program} {events : List Event} {tr : Trace}

/-- Execution calls that the rule allows for an item. -/
def attempts (d : Desk β) : Nat := d.settings.maxRetries.toNat + 1

/-- What the waiting items, the workers and the callers can still lead to. -/
def stepsLeft (d : Desk β) : Nat :=
  (d.backlog.items.map (Item.stepsLeft d.settings.workers.toNat d.attempts)).sum +
    overWorkers (Position.stepsLeft d.settings.workers.toNat d.attempts) d +
    (d.callers.map (Program.stepsLeft d.settings.workers.toNat d.attempts)).sum

/-- Nobody is at stopping the desk. -/
def Unstopping (d : Desk β) : Prop := ∀ t stop, d.pending? t = some stop → stop.isStop = false

/-- **The budget of a desk that nobody is stopping covers all that is left to do.** -/
theorem stepsLeft_le_budget (h : d.Unstopping) : d.stepsLeft ≤ d.budget := by
  have hworkers : ∀ p ∈ d.workers, Position.stepsLeft d.settings.workers.toNat d.attempts p ≤
      positionCost d.settings.workers.toNat d.attempts p := by
    intro p hp
    obtain ⟨n, hn⟩ := List.mem_iff_getElem?.1 hp
    exact Position.stepsLeft_le _ _ fun stop hs => h (.worker n) stop ((pending?_worker hn).trans hs)
  have hcallers : ∀ q ∈ d.callers, Program.stepsLeft d.settings.workers.toNat d.attempts q ≤
      programCost d.settings.workers.toNat d.attempts q := by
    intro q hq
    obtain ⟨n, hn⟩ := List.mem_iff_getElem?.1 hq
    exact Program.stepsLeft_le _ _ fun stop hs => h (.caller n) stop ((pending?_caller hn).trans hs)
  simp only [stepsLeft, overWorkers, budget, total_eq_sum]
  exact Nat.add_le_add (Nat.add_le_add (List.sum_le_sum fun i _ => i.stepsLeft_le _ _)
    (List.sum_le_sum hworkers)) (List.sum_le_sum hcallers)

/-! ## Every step uses some of it up -/

/-- There is no worker before the start, and never one more than the settings say. -/
structure Staffed (d : Desk β) : Prop where
  asleep : d.Asleep
  workers : d.workers.length ≤ d.settings.workers.toNat

/-- A program pays for what it adds to the backlog and for the workers that it brings in. -/
theorem Performs.stepsLeft_lt (hs : d.Staffed) (h : Performs t d q d' q' events) :
    d'.stepsLeft + q'.stepsLeft d.settings.workers.toNat d.attempts <
      d.stepsLeft + q.stepsLeft d.settings.workers.toNat d.attempts := by
  cases h with
  | receive order callback calls h =>
    cases callback <;>
      simp only [Program.stepsLeft_free, Program.stepsLeft_pending, Pending.stepsLeft, Call.costs,
        Call.cost, Option.getD_some, Option.getD_none] <;> omega
  | refuse order callback calls h =>
    cases callback <;>
      simp only [Program.stepsLeft_free, Call.costs, Call.cost] <;> omega
  | start calls h hl =>
    have hnone : d.workers = [] := hs.asleep hl
    simp only [stepsLeft, overWorkers, openUp, attempts, hnone, Program.stepsLeft_free, Call.costs,
      Call.cost, List.map_replicate, List.sum_replicate_nat, Position.stepsLeft, List.map_nil,
      List.sum_nil]
    omega
  | enqueue item calls h =>
    simp only [stepsLeft, overWorkers, attempts, Program.stepsLeft_free, Program.stepsLeft_pending,
      Pending.stepsLeft, List.map_append, List.map_cons, List.map_nil, List.sum_append,
      List.sum_cons, List.sum_nil]
    omega
  | draw order callback calls =>
    simp only [stepsLeft, overWorkers, attempts, Program.stepsLeft_pending, Pending.stepsLeft,
      Item.stepsLeft]
    omega
  | stopRunning calls h hl =>
    have hw := hs.workers
    simp only [stepsLeft, overWorkers, attempts, Program.stepsLeft_free, Program.stepsLeft_pending,
      Pending.stepsLeft, Call.costs, Call.cost, Option.getD_some, List.length_range]
    omega
  | _ =>
    simp only [stepsLeft, overWorkers, attempts, Backlog.close, Program.stepsLeft_free,
      Program.stepsLeft_pending, Pending.stepsLeft, Call.costs, Call.cost, Option.getD_some,
      Option.getD_none, List.length_cons, List.length_nil]
    omega

/-- A worker uses up its item, attempt by attempt. -/
theorem Works.stepsLeft_lt (hs : d.Staffed) (h : Works b d n p d' p' events) :
    d'.stepsLeft + p'.stepsLeft d.settings.workers.toNat d.attempts <
      d.stepsLeft + p.stepsLeft d.settings.workers.toNat d.attempts := by
  cases h with
  | take item rest h =>
    simp only [stepsLeft, overWorkers, attempts, h, Position.stepsLeft, List.map_cons,
      List.sum_cons]
    omega
  | again item attempt outcome failure h hn =>
    have hlt := RetryRule.lt_of_again hn
    have hnext : (attempt + 1).toNat = attempt.toNat + 1 := RetryRule.toNat_add_one hlt
    have hleft : attempt.toNat < d.attempts := Nat.lt_succ_of_lt (UInt32.lt_iff_toNat_lt.1 hlt)
    simp only [Position.stepsLeft, hnext]
    show d.stepsLeft + _ < _
    omega
  | recordAndNotify item s calls h =>
    show d.stepsLeft + _ < _
    simp only [Position.stepsLeft, Program.stepsLeft_free, Program.ofCalls, h, Option.getD_some]
    omega
  | breakOff item s calls =>
    simp only [Position.stepsLeft, Program.stepsLeft_free, Call.costs, Call.cost]
    omega
  | deliver item s box calls =>
    simp only [Position.stepsLeft, Program.stepsLeft_free, Call.costs, Call.cost]
    omega
  | act item s q d' q' events h hd hf =>
    have hlt := h.stepsLeft_lt hs
    simp only [Position.stepsLeft]
    omega
  | _ =>
    show d.stepsLeft + _ < _
    simp only [Position.stepsLeft, Item.stepsLeft, UInt32.toNat_zero]
    omega

/-- **Every step uses some of it up.** -/
theorem Moves.stepsLeft_lt (hs : d.Staffed) (h : Moves b t d d' events) :
    d'.stepsLeft < d.stepsLeft := by
  cases h with
  | @caller n d d' q q' events hat h =>
    have hlt := h.stepsLeft_lt hs
    have hat' : d'.callers[n]? = some q := by rw [h.frame.callers]; exact hat
    have hsum := sum_map_set (Program.stepsLeft d'.settings.workers.toNat d'.attempts) hat' q'
    simp only [attempts, h.frame.settings] at hlt hsum
    simp only [stepsLeft, overWorkers, attempts, h.frame.settings] at hlt ⊢
    omega
  | @worker n d d' p p' events hat h =>
    have hlt := h.stepsLeft_lt hs
    have hat' : d'.workers[n]? = some p := by rw [h.workers_eq hs.asleep hat]; exact hat
    have hsum := sum_map_set (Position.stepsLeft d'.settings.workers.toNat d'.attempts) hat' p'
    simp only [attempts, h.settings_eq] at hlt hsum
    simp only [stepsLeft, overWorkers, attempts, h.settings_eq] at hlt ⊢
    omega

theorem Staffed.step (hs : d.Staffed) (h : Moves b t d d' events) : d'.Staffed := by
  refine ⟨h.asleep hs.asleep, ?_⟩
  rw [h.settings_eq]
  cases h with
  | caller hat h =>
    rcases h.frame.workers with hw | ⟨-, hw⟩
    · exact (congrArg List.length hw).le.trans hs.workers
    · exact (congrArg List.length hw).le.trans List.length_replicate.le
  | worker hat h =>
    refine List.length_set.le.trans ?_
    rw [h.workers_eq hs.asleep hat]
    exact hs.workers

/-- **A schedule has no more turns than there were steps left to take.** -/
theorem length_add_stepsLeft_le : ∀ {schedule : List Turn} {d₀ d : Desk β} {tr : Trace},
    d₀.Staffed → d₀.follow b schedule = some (d, tr) →
    schedule.length + d.stepsLeft ≤ d₀.stepsLeft
  | [], d₀, d, tr, hs, h => by
    cases h
    exact (Nat.zero_add _).le
  | turn :: rest, d₀, d, tr, hs, h => by
    simp only [follow] at h
    split at h
    · cases h
    · rename_i d₁ events ht
      obtain ⟨⟨d₂, later⟩, hf, he⟩ := Option.map_eq_some_iff.1 h
      cases he
      have hm := step_cases ht
      have hclock : ({ d₀ with now := turn.now } : Desk β).Staffed := ⟨hs.asleep, hs.workers⟩
      have hlt : d₁.stepsLeft < stepsLeft { d₀ with now := turn.now } := hm.stepsLeft_lt hclock
      have hleft : stepsLeft { d₀ with now := turn.now } = d₀.stepsLeft := rfl
      have hrest := length_add_stepsLeft_le (hclock.step hm) hf
      show rest.length + 1 + d₂.stepsLeft ≤ d₀.stepsLeft
      omega

/-! ## Runs until nothing moves -/

theorem advance_moves (h : d.advance b false = some (d', tr)) : ∃ t events, Moves b t d d' events := by
  obtain ⟨t, -, ht⟩ := List.exists_of_findSome?_eq_some h
  split at ht
  · cases ht
  · obtain ⟨⟨d₁, events⟩, hs, he⟩ := Option.map_eq_some_iff.1 ht
    cases he
    exact ⟨t, events, step_cases hs⟩

/-- There is no thread to go on with when none can take a step. -/
theorem step_of_advance (h : d.advance b false = none) (t : Thread) : d.step b t = none := by
  by_cases ht : t ∈ d.threads
  · have hnone := List.findSome?_eq_none_iff.1 h t ht
    have hheld : d.isHeld false t = false := by cases t <;> rfl
    rw [hheld, if_neg Bool.false_ne_true] at hnone
    exact Option.map_eq_none_iff.1 hnone
  · cases t with
    | caller n =>
      have hn : d.callers[n]? = none := by
        simpa [threads] using ht
      rw [step, hn]
    | worker n =>
      have hn : d.workers[n]? = none := by
        simpa [threads] using ht
      rw [step, hn]

theorem runFor_stands : ∀ {fuel : Nat} {d : Desk β}, d.Staffed → d.stepsLeft ≤ fuel →
    (runFor b false fuel d).1.advance b false = none
  | 0, d, hs, hfuel => by
    show d.advance b false = none
    by_contra hsome
    obtain ⟨⟨d', tr⟩, ha⟩ := Option.ne_none_iff_exists'.1 hsome
    obtain ⟨t, events, hm⟩ := advance_moves ha
    have hlt := hm.stepsLeft_lt hs
    omega
  | fuel + 1, d, hs, hfuel => by
    unfold runFor
    split
    · assumption
    · rename_i d' tr ha
      obtain ⟨t, events, hm⟩ := advance_moves ha
      have hlt := hm.stepsLeft_lt hs
      exact runFor_stands (hs.step hm) (by omega)

/-- **A desk that nobody is stopping runs until no thread can take a step.** -/
theorem run_stands (hs : d.Staffed) (h : d.Unstopping) (t : Thread) :
    (d.run b false).1.step b t = none :=
  step_of_advance (runFor_stands hs (stepsLeft_le_budget h)) t

end Desk

end DealDesk
