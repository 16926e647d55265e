import DealDesk.Backlog.Parking
import Mathlib.Data.List.Perm.Basic

/-!
# No wake-up is lost

* `Acts` — the steps at a backlog that threads wait for, one constructor for each.
* `step_cases` — the step function does nothing else; `follow_invariant` — what a step keeps, a
  schedule keeps.
* `Attended` — while a thread is parked, a call for all is still to be given, or the backlog is open
  and holds no more items than calls are to be given and woken threads are to look.

`parked_only_if_idle` is the main result: once no call is to be given and no woken thread has to
look, a thread is parked only at a backlog that is open and empty.
-/

namespace DealDesk

/-! ## What a step can do -/

namespace Waiter

variable {α : Type}

/-- Is its next step a look? -/
def looks : Waiter α → Bool
  | .looking | .woken => true
  | .parked | .answered _ => false

def isWoken : Waiter α → Bool
  | .woken => true
  | _ => false

end Waiter

namespace Parking

variable {α : Type} {p p' : Parking α} {s : Step α}

/-- `Acts p s p'`: step `s` leads from `p` to `p'`. -/
inductive Acts (p : Parking α) : Step α → Parking α → Prop
  | enqueue (a : α) (h : p.backlog.closed = false) :
      Acts p (.enqueue a)
        { p with backlog := { p.backlog with items := p.backlog.items ++ [a] }
                 calls := p.calls ++ [.one] }
  | refuse (a : α) (h : p.backlog.closed = true) : Acts p (.enqueue a) p
  | tryDequeue :
      Acts p .tryDequeue
        { p with backlog := { p.backlog with items := p.backlog.items.tail } }
  | close (h : p.backlog.closed = false) :
      Acts p .close { p with backlog := p.backlog.close, calls := p.calls ++ [.all] }
  | closeAgain (h : p.backlog.closed = true) : Acts p .close p
  | arrive : Acts p .arrive { p with waiters := p.waiters ++ [.looking] }
  | take (n : Nat) (w : Waiter α) (a : α) (rest : List α) (hat : p.waiters[n]? = some w)
      (hw : w.looks = true) (h : p.backlog.items = a :: rest) :
      Acts p (.look n)
        { p with backlog := { p.backlog with items := rest }
                 waiters := p.waiters.set n (.answered (some a)) }
  | leave (n : Nat) (w : Waiter α) (hat : p.waiters[n]? = some w) (hw : w.looks = true)
      (h : p.backlog.items = []) (hc : p.backlog.closed = true) :
      Acts p (.look n) { p with waiters := p.waiters.set n (.answered none) }
  | park (n : Nat) (w : Waiter α) (hat : p.waiters[n]? = some w) (hw : w.looks = true)
      (h : p.backlog.items = []) (hc : p.backlog.closed = false) :
      Acts p (.look n) { p with waiters := p.waiters.set n .parked }
  | wakeAll (k n : Nat) (hk : p.calls[k]? = some .all) :
      Acts p (.call k n)
        { p with waiters := p.waiters.map Waiter.wake, calls := p.calls.eraseIdx k }
  | wakeOne (k n : Nat) (hk : p.calls[k]? = some .one) (hat : p.waiters[n]? = some .parked) :
      Acts p (.call k n)
        { p with waiters := p.waiters.set n .woken, calls := p.calls.eraseIdx k }
  | wakeNone (k n : Nat) (hk : p.calls[k]? = some .one) (h : .parked ∉ p.waiters) :
      Acts p (.call k n) { p with calls := p.calls.eraseIdx k }
  | stir (n : Nat) (hat : p.waiters[n]? = some .parked) :
      Acts p (.stir n) { p with waiters := p.waiters.set n .woken }

theorem anyParked_eq_false (h : ¬ p.anyParked = true) : .parked ∉ p.waiters := by
  intro hmem
  exact h (List.any_eq_true.2 ⟨.parked, hmem, rfl⟩)

theorem look_cases {n : Nat} {w : Waiter α} (hat : p.waiters[n]? = some w)
    (hw : w.looks = true) : Acts p (.look n) (p.look n) := by
  obtain ⟨⟨items, closed⟩, waiters, calls⟩ := p
  cases items with
  | cons a rest => exact .take n w a rest hat hw rfl
  | nil =>
    cases closed with
    | true => exact .leave n w hat hw rfl rfl
    | false => exact .park n w hat hw rfl rfl

theorem step_cases (h : p.step s = some p') : Acts p s p' := by
  cases s with
  | enqueue a =>
    cases hc : p.backlog.closed with
    | true =>
      simp only [step, Backlog.enqueue, hc, if_true] at h
      cases h
      exact .refuse a hc
    | false =>
      simp only [step, Backlog.enqueue, hc, Bool.false_eq_true, if_false] at h
      cases h
      simpa only [hc] using Acts.enqueue a hc
  | tryDequeue =>
    cases h
    have ht : p.backlog.tryDequeue.2 = { p.backlog with items := p.backlog.items.tail } := by
      obtain ⟨⟨items, closed⟩, waiters, calls⟩ := p
      cases items <;> rfl
    rw [ht]
    exact .tryDequeue
  | close =>
    simp only [step] at h
    split at h
    · rename_i hc
      cases h
      exact .closeAgain hc
    · rename_i hc
      cases h
      exact .close (by simpa using hc)
  | arrive =>
    cases h
    exact .arrive
  | look n =>
    simp only [step] at h
    split at h
    · rename_i hat
      cases h
      exact look_cases hat rfl
    · rename_i hat
      cases h
      exact look_cases hat rfl
    · cases h
  | call k n =>
    simp only [step] at h
    split at h
    · cases h
    · rename_i hk
      cases h
      exact .wakeAll k n hk
    · rename_i hk
      split at h
      · rename_i hat
        cases h
        exact .wakeOne k n hk hat
      · split at h
        · cases h
        · rename_i hnone
          cases h
          exact .wakeNone k n hk (anyParked_eq_false hnone)
  | stir n =>
    simp only [step] at h
    split at h
    · rename_i hat
      cases h
      exact .stir n hat
    · cases h

/-! ## Schedules -/

/-- **Whatever every step keeps holds after a schedule.** -/
theorem follow_invariant {P : List (Step α) → Parking α → Prop}
    (hstep : ∀ {done p s p'}, P done p → Acts p s p' → P (done ++ [s]) p')
    {steps : List (Step α)} (h₀ : P [] p) (h : p.follow steps = some p') : P steps p' := by
  suffices hgo : ∀ rest done p, P done p → p.follow rest = some p' → P (done ++ rest) p' from
    hgo steps [] p h₀ h
  intro rest
  induction rest with
  | nil =>
    intro done p hp h
    cases h
    rwa [List.append_nil]
  | cons s rest ih =>
    intro done p hp h
    simp only [follow] at h
    split at h
    · cases h
    · rename_i p₁ hs
      have h₁ := ih (done ++ [s]) p₁ (hstep hp (step_cases hs)) h
      rwa [List.append_assoc] at h₁

/-! ## Calls and woken threads -/

/-- How many calls for one thread are still to be given. -/
def owed (p : Parking α) : Nat := p.calls.count WakeUp.one

/-- How many woken threads have still to look. -/
def stirred (p : Parking α) : Nat := p.waiters.countP Waiter.isWoken

/-- While a thread is parked, all are about to be woken, or each item has a call to be given or a
woken thread to look. -/
def Attended (p : Parking α) : Prop :=
  .parked ∈ p.waiters →
    .all ∈ p.calls ∨ p.backlog.closed = false ∧ p.backlog.items.length ≤ p.owed + p.stirred

theorem countP_set_add {ι : Type} (f : ι → Bool) {l : List ι} {n : Nat} {a : ι}
    (h : l[n]? = some a) (a' : ι) :
    (l.set n a').countP f + (if f a then 1 else 0) = l.countP f + (if f a' then 1 else 0) := by
  obtain ⟨hn, rfl⟩ := List.getElem?_eq_some_iff.1 h
  rw [(List.set_perm_cons_eraseIdx hn a').countP_eq f,
    ← (List.getElem_cons_eraseIdx_perm hn).countP_eq f, List.countP_cons, List.countP_cons]
  ac_rfl

/-- What a list holds after one entry has changed to another value it held before. -/
theorem mem_of_mem_set {ι : Type} {l : List ι} {n : Nat} {a b : ι} (h : a ∈ l.set n b)
    (hb : b ≠ a) : a ∈ l := by
  rcases List.mem_or_eq_of_mem_set h with h | h
  · exact h
  · exact absurd h.symm hb

/-- A call for one thread that is given was owed, and no call for all is. -/
theorem eraseIdx_one {calls : List WakeUp} {k : Nat} (hk : calls[k]? = some .one) :
    (calls.eraseIdx k).count WakeUp.one + 1 = calls.count WakeUp.one ∧
      (WakeUp.all ∈ calls → WakeUp.all ∈ calls.eraseIdx k) := by
  obtain ⟨hlt, he⟩ := List.getElem?_eq_some_iff.1 hk
  have hperm := (List.getElem_cons_eraseIdx_perm hlt).symm
  rw [he] at hperm
  refine ⟨?_, fun hall => ?_⟩
  · rw [hperm.count_eq, List.count_cons_self]
  · rcases List.mem_cons.1 (hperm.mem_iff.1 hall) with h | h
    · cases h
    · exact h

theorem wake_ne_parked (w : Waiter α) : Waiter.wake w ≠ .parked := by
  cases w <;> nofun

/-- A parked thread stays attended while there come no more items than calls and woken threads. -/
theorem Attended.mono (ha : p.Attended) (hparked : .parked ∈ p.waiters)
    (hall : .all ∈ p.calls → .all ∈ p'.calls) (hclosed : p'.backlog.closed = p.backlog.closed)
    (hcount : p'.backlog.items.length + (p.owed + p.stirred) ≤
      p.backlog.items.length + (p'.owed + p'.stirred)) :
    .all ∈ p'.calls ∨
      p'.backlog.closed = false ∧ p'.backlog.items.length ≤ p'.owed + p'.stirred := by
  rcases ha hparked with h | ⟨hopen, hle⟩
  · exact .inl (hall h)
  · exact .inr ⟨hclosed.trans hopen, by omega⟩

/-- **No step leaves a parked thread unattended.** -/
theorem Attended.step (ha : p.Attended) (h : Acts p s p') : p'.Attended := by
  intro hparked
  cases h with
  | enqueue a h =>
    refine ha.mono hparked (fun hall => List.mem_append_left _ hall) rfl ?_
    simp only [owed, stirred, List.count_append, List.length_append, List.count_singleton_self,
      List.length_singleton]
    omega
  | refuse a h => exact ha hparked
  | tryDequeue =>
    refine ha.mono hparked id rfl ?_
    simp only [owed, stirred, List.length_tail]
    omega
  | close h => exact .inl (List.mem_append_right _ (List.mem_singleton.2 rfl))
  | closeAgain h => exact ha hparked
  | arrive =>
    refine ha.mono (by simpa using hparked) id rfl ?_
    simp [owed, stirred, Waiter.isWoken]
  | take n w a rest hat hw h =>
    -- the thread that takes an item may be a woken one, but the item is gone as well
    have hset := countP_set_add Waiter.isWoken hat (.answered (some a))
    have hanswered : Waiter.isWoken (.answered (some a)) = false := rfl
    rw [hanswered, if_neg Bool.false_ne_true] at hset
    refine ha.mono (mem_of_mem_set hparked nofun) id rfl ?_
    simp only [owed, stirred, h, List.length_cons]
    split at hset <;> omega
  | leave n w hat hw h hc =>
    rcases ha (mem_of_mem_set hparked nofun) with hall | ⟨hopen, -⟩
    · exact .inl hall
    · rw [hc] at hopen
      cases hopen
  | park n w hat hw h hc =>
    refine .inr ⟨hc, ?_⟩
    simp only [h, List.length_nil]
    exact Nat.zero_le _
  | wakeAll k n hk =>
    obtain ⟨w, -, hw⟩ := List.mem_map.1 hparked
    exact absurd hw (wake_ne_parked w)
  | wakeOne k n hk hat =>
    obtain ⟨hcount, hkeep⟩ := eraseIdx_one hk
    have hset := countP_set_add Waiter.isWoken hat .woken
    refine ha.mono (mem_of_mem_set hparked nofun) hkeep rfl ?_
    simp only [Waiter.isWoken, Bool.false_eq_true, if_false, if_true] at hset
    simp only [owed, stirred]
    omega
  | wakeNone k n hk h => exact absurd hparked h
  | stir n hat =>
    have hset := countP_set_add Waiter.isWoken hat .woken
    refine ha.mono (mem_of_mem_set hparked nofun) id rfl ?_
    simp only [Waiter.isWoken, Bool.false_eq_true, if_false, if_true] at hset
    simp only [owed, stirred]
    omega

/-- While nobody waits, nobody waits in vain. -/
theorem attended_ofBacklog (q : Backlog α) : (ofBacklog q).Attended := nofun

theorem follow_attended {q : Backlog α} {steps : List (Step α)}
    (h : (ofBacklog q).follow steps = some p) : p.Attended :=
  follow_invariant (P := fun _ p => p.Attended) (fun ha hs => ha.step hs) (attended_ofBacklog q) h

/-- **No wake-up is lost.** Once no call is to be given and no woken thread has to look, a thread is
parked only if the backlog is open and empty. -/
theorem parked_only_if_idle {q : Backlog α} {steps : List (Step α)}
    (hrun : (ofBacklog q).follow steps = some p) (hcalls : p.calls = [])
    (hwoken : .woken ∉ p.waiters) (hparked : .parked ∈ p.waiters) :
    p.backlog.closed = false ∧ p.backlog.items = [] := by
  have hstirred : p.stirred = 0 := by
    refine List.countP_eq_zero.2 fun w hw hlook => ?_
    cases w with
    | woken => exact hwoken hw
    | _ => cases hlook
  rcases follow_attended hrun hparked with hall | ⟨hopen, hle⟩
  · rw [hcalls] at hall
    cases hall
  · rw [owed, hcalls, hstirred] at hle
    exact ⟨hopen, List.length_eq_zero_iff.1 (Nat.le_zero.1 hle)⟩

/-- Two threads park, and the item that wakes the first is taken by a third before it looks. -/
def stolen : List (Step Nat) :=
  [.arrive, .arrive, .look 0, .look 1, .enqueue 7, .call 0 0, .arrive, .look 2, .look 0]

theorem parked_only_if_idle_stolen : ∃ p, (ofBacklog Backlog.empty).follow stolen = some p ∧
    p.waiters = [.parked, .parked, .answered (some 7)] ∧
    p.backlog.closed = false ∧ p.backlog.items = [] := by
  have hrun : (ofBacklog Backlog.empty).follow stolen =
    some ⟨Backlog.empty, [.parked, .parked, .answered (some 7)], []⟩ := rfl
  exact ⟨_, hrun, rfl, parked_only_if_idle hrun rfl (by decide) (by decide)⟩

end Parking

end DealDesk
