import DealDesk.Proofs.Desk.Callbacks
import DealDesk.Proofs.Desk.Submissions

/-!
# The calls made to a desk

* `History` — who began which call, in order; `started`, `stopped`, `opens` and `firstStop` are what the
  lifecycle depends on, and `History.lifecycle` is where it stands after them.
* `Desk.calls` — the history of a run.
* `Moves.call_cases` — a step of a thread is one of its calls, or it has nothing to do with calls.
* `Course` — lifecycle, acceptance, number of workers and lock of a desk follow from its history.

`follow_course` is the main result.
-/

namespace DealDesk

/-! ## Histories -/

/-- Does the call open a desk? -/
def Call.isStart : Call → Bool
  | .start => true
  | .deliver _ | .fail | .submit _ _ | .stop => false

/-- Where a lifecycle stands after a call. -/
def Lifecycle.on : Lifecycle → Call → Lifecycle
  | .idle, .start => .running
  | _, .stop => .stopped
  | l, _ => l

theorem Lifecycle.on_stop (l : Lifecycle) : l.on .stop = .stopped := by
  cases l <;> rfl

theorem Lifecycle.on_other {call : Call} (l : Lifecycle) (hstart : call.isStart = false)
    (hstop : call.isStop = false) : l.on call = l := by
  cases call with
  | start => cases hstart
  | stop => cases hstop
  | _ => cases l <;> rfl

/-- Who began which call, in order. -/
abbrev History := List (Thread × Call)

namespace History

variable {h : History} {l : History} {e : Thread × Call}

def started (h : History) : Bool := h.any fun e => e.2.isStart

def stopped (h : History) : Bool := h.any fun e => e.2.isStop

/-- Who stopped the desk first. -/
def firstStop (h : History) : Option Thread := (h.find? fun e => e.2.isStop).map Prod.fst

/-- Does a start come before every stop? -/
def opens (h : History) : Bool :=
  (h.find? fun e => e.2.isStart || e.2.isStop).any fun e => e.2.isStart

/-- Where the lifecycle stands. -/
def lifecycle (h : History) : Lifecycle := h.foldl (fun l e => l.on e.2) .idle

theorem lifecycle_append (h l : History) :
    (h ++ l).lifecycle = l.foldl (fun l e => l.on e.2) h.lifecycle :=
  List.foldl_append

theorem stopped_append (h l : History) : (h ++ l).stopped = (h.stopped || l.stopped) :=
  List.any_append

/-- **A desk is stopped once a stop came, and until then it runs once a start came.** -/
theorem lifecycle_eq (h : History) :
    h.lifecycle = if h.stopped then .stopped else if h.started then .running else .idle := by
  induction h using List.reverseRecOn with
  | nil => rfl
  | append_singleton h e ih =>
    obtain ⟨t, call⟩ := e
    have hstarted : started (h ++ [(t, call)]) = (started h || call.isStart) := by
      simp [started]
    have hstopped : stopped (h ++ [(t, call)]) = (stopped h || call.isStop) := by
      simp [stopped]
    rw [lifecycle_append, ih, hstarted, hstopped]
    cases stopped h <;> cases started h <;> cases call <;> rfl

theorem lifecycle_eq_stopped : h.lifecycle = .stopped ↔ h.stopped = true := by
  rw [lifecycle_eq]
  cases h.stopped <;> cases h.started <;> decide

theorem lifecycle_eq_idle : h.lifecycle = .idle ↔ h.started = false ∧ h.stopped = false := by
  rw [lifecycle_eq]
  cases h.stopped <;> cases h.started <;> decide

/-- What opens a desk, or leaves it closed for good, is its first start or stop. -/
theorem opens_append (hl : h.lifecycle ≠ .idle) : (h ++ l).opens = h.opens := by
  have hsome : (h.find? fun e => e.2.isStart || e.2.isStop).isSome = true := by
    rw [List.find?_isSome]
    by_contra hnone
    push Not at hnone
    refine hl (lifecycle_eq_idle.2 ⟨?_, ?_⟩) <;> refine List.any_eq_false.2 fun e he ht => ?_
    · exact hnone e he (by simp [ht])
    · exact hnone e he (by simp [ht])
  obtain ⟨e, he⟩ := Option.isSome_iff_exists.1 hsome
  rw [opens, List.find?_append, he, Option.some_or, opens, he]

theorem opens_append_of_idle (hl : h.lifecycle = .idle) : (h ++ l).opens = opens l := by
  obtain ⟨hstarted, hstopped⟩ := lifecycle_eq_idle.1 hl
  have hnone : h.find? (fun e => e.2.isStart || e.2.isStop) = none := by
    refine List.find?_eq_none.2 fun e he => ?_
    have hstart := List.any_eq_false.1 hstarted e he
    have hstop := List.any_eq_false.1 hstopped e he
    simp [hstart, hstop]
  rw [opens, List.find?_append, hnone, Option.none_or, opens]

theorem opens_singleton (e : Thread × Call) : opens [e] = e.2.isStart := by
  obtain ⟨t, call⟩ := e
  cases call <;> rfl

theorem firstStop_append (h l : History) : (h ++ l).firstStop = h.firstStop.or l.firstStop := by
  rw [firstStop, List.find?_append]
  cases hfind : h.find? fun e => e.2.isStop with
  | none => simp [firstStop, hfind]
  | some e => simp [firstStop, hfind]

theorem firstStop_eq_none : h.firstStop = none ↔ h.stopped = false := by
  rw [firstStop, Option.map_eq_none_iff, List.find?_eq_none, stopped, List.any_eq_false]

/-- Calls that neither start nor stop the desk. -/
def Quiet (l : History) : Prop := ∀ e ∈ l, e.2.isStart = false ∧ e.2.isStop = false

theorem Quiet.stopped (hl : Quiet l) (h : History) : (h ++ l).stopped = h.stopped := by
  have hnone : l.stopped = false := List.any_eq_false.2 fun e he => by simp [hl e he]
  rw [stopped_append, hnone, Bool.or_false]

theorem Quiet.lifecycle (hl : Quiet l) (h : History) : (h ++ l).lifecycle = h.lifecycle := by
  have hnone : l.started = false := List.any_eq_false.2 fun e he => by simp [hl e he]
  have hstarted : started (h ++ l) = started h := by
    rw [started, List.any_append, ← started, ← started, hnone, Bool.or_false]
  rw [lifecycle_eq, lifecycle_eq, hstarted, hl.stopped]

theorem Quiet.opens (hl : Quiet l) (h : History) : (h ++ l).opens = h.opens := by
  have hnone : l.find? (fun e => e.2.isStart || e.2.isStop) = none := by
    refine List.find?_eq_none.2 fun e he => ?_
    simp [hl e he]
  rw [History.opens, List.find?_append, hnone, Option.or_none, History.opens]

theorem Quiet.firstStop (hl : Quiet l) (h : History) : (h ++ l).firstStop = h.firstStop := by
  have hnone : l.find? (fun e => e.2.isStop) = none := by
    refine List.find?_eq_none.2 fun e he => ?_
    simp [hl e he]
  rw [History.firstStop, List.find?_append, hnone, Option.or_none, History.firstStop]

/-- The history of a step that begins a call, or none. -/
def ofCall (t : Thread) (call : Option Call) : History := (call.map fun c => (t, c)).toList

end History

/-! ## Calls that are about to begin -/

/-- The call that a program begins with its next step. -/
def Program.next? (p : Program) : Option Call :=
  match p.pending with
  | none => p.calls.head?
  | some _ => none

/-- The call that the callback in a worker's hands begins with its next step. -/
def Position.next? : Position → Option Call
  | .notifying _ _ p => p.next?
  | _ => none

namespace Desk

variable {β : Type} {b : Broker β} {n : Nat} {t : Thread} {d d' : Desk β} {p p' : Position}
  {q q' : Program} {events : List Event} {tr : Trace} {h : History}

def next? (d : Desk β) : Thread → Option Call
  | .caller n => d.callers[n]?.bind Program.next?
  | .worker n => d.workers[n]?.bind Position.next?

/-- What the next step of a thread adds to the history. -/
def begun (d : Desk β) (t : Thread) : History := .ofCall t (d.next? t)

/-- The history of a run. -/
def calls (b : Broker β) : List Turn → Desk β → History
  | [], _ => []
  | turn :: rest, d =>
    match d.tick b turn with
    | none => []
    | some (d', _) => d.begun turn.thread ++ calls b rest d'

/-- **What every step keeps holds after a run, of its history as well.** -/
theorem follow_history {P : History → Desk β → Trace → Prop}
    (hclock : ∀ {h d tr} now, P h d tr → P h { d with now := now } tr)
    (hstep : ∀ {h d d' tr t events}, P h d tr → Moves b t d d' events →
      P (h ++ d.begun t) d' (tr ++ Trace.ofStep t events)) :
    ∀ {schedule : List Turn} {d₀ d : Desk β} {tr : Trace} (h₀ : History) (tr₀ : Trace),
      P h₀ d₀ tr₀ → d₀.follow b schedule = some (d, tr) →
      P (h₀ ++ calls b schedule d₀) d (tr₀ ++ tr)
  | [], d₀, d, tr, h₀, tr₀, h, hrun => by
    cases hrun
    rw [List.append_nil, calls, List.append_nil]
    exact h
  | turn :: rest, d₀, d, tr, h₀, tr₀, h, hrun => by
    cases ht : d₀.tick b turn with
    | none =>
      rw [follow, ht] at hrun
      cases hrun
    | some next =>
      obtain ⟨d₁, events⟩ := next
      rw [follow, ht] at hrun
      obtain ⟨⟨d₂, later⟩, hf, he⟩ := Option.map_eq_some_iff.1 hrun
      cases he
      have hnext := follow_history hclock hstep _ _ (hstep (hclock turn.now h) (step_cases ht)) hf
      rw [List.append_assoc, List.append_assoc tr₀] at hnext
      rw [calls, ht]
      exact hnext

/-! ## Steps -/

/-- A step that has nothing to do with calls to the desk. -/
structure Idles (d d' : Desk β) (events : List Event) : Prop where
  settings : d'.settings = d.settings
  lifecycle : d'.lifecycle = d.lifecycle
  accepting : d'.accepting = d.accepting
  lock : d'.lock = d.lock
  closed : d'.backlog.closed = d.backlog.closed
  workers : d'.workers.length = d.workers.length
  accepted : events.filterMap Event.accepted? = []
  waiting : d'.backlog.items <:+ d.backlog.items

/-- Desk `d'` is desk `d`, but for the place of the thread that took the step. -/
structure Reseated (d d' : Desk β) : Prop where
  settings : d'.settings = d.settings
  lifecycle : d'.lifecycle = d.lifecycle
  accepting : d'.accepting = d.accepting
  lock : d'.lock = d.lock
  backlog : d'.backlog = d.backlog
  register : d'.register = d.register
  workers : d'.workers.length = d.workers.length

theorem Works.call_cases (hz : d.Asleep) (hat : d.workers[n]? = some p)
    (h : Works b d n p d' p' events) :
    (∃ q q', p.pending = q.pending ∧ p.next? = q.next? ∧ p'.pending = q'.pending ∧
      Performs (.worker n) d q d' q' events) ∨
    (p.pending = none ∧ History.Quiet (.ofCall (.worker n) p.next?) ∧ p'.pending = none ∧
      Idles d d' events) := by
  have hw := h.workers_eq hz hat
  cases h with
  | take item rest h =>
    refine .inr ⟨rfl, nofun, rfl, rfl, rfl, rfl, rfl, rfl, rfl, rfl, ?_⟩
    rw [h]
    exact List.suffix_cons item rest
  | call item attempt number hnumber =>
    exact .inr ⟨rfl, nofun, rfl, rfl, rfl, rfl, rfl, rfl, rfl, filterMap_call rfl .., List.suffix_rfl⟩
  | again item attempt outcome failure h hn =>
    refine .inr ⟨rfl, nofun, rfl, rfl, rfl, rfl, rfl, rfl, rfl, ?_, List.suffix_rfl⟩
    rw [filterMap_answer fun _ => rfl]
    rfl
  | settle item attempt outcome s h hn =>
    exact .inr ⟨rfl, nofun, rfl, rfl, rfl, rfl, rfl, rfl, rfl,
      filterMap_settled (fun _ => rfl) (fun _ => rfl) (fun _ => rfl) .., List.suffix_rfl⟩
  | act item s q d' q' events h hd hf => exact .inl ⟨q, q', rfl, rfl, rfl, h⟩
  | breakOff item s calls =>
    refine .inr ⟨rfl, fun e he => ?_, rfl, rfl, rfl, rfl, rfl, rfl, rfl, rfl, List.suffix_rfl⟩
    rw [List.mem_singleton.1 he]
    exact ⟨rfl, rfl⟩
  | deliver item s box calls =>
    refine .inr ⟨rfl, fun e he => ?_, rfl, rfl, rfl, rfl, rfl, rfl, rfl, rfl, List.suffix_rfl⟩
    rw [List.mem_singleton.1 he]
    exact ⟨rfl, rfl⟩
  | _ => exact .inr ⟨rfl, nofun, rfl, rfl, rfl, rfl, rfl, rfl, rfl, rfl, List.suffix_rfl⟩

/-- **A step is one of a call to the desk, or it has nothing to do with such calls.** -/
theorem Moves.call_cases (hz : d.Asleep) (h : Moves b t d d' events) :
    (∃ q q' d₁, d.pending? t = q.pending ∧ d.next? t = q.next? ∧ d'.pending? t = q'.pending ∧
      Performs t d q d₁ q' events ∧ Reseated d₁ d') ∨
    (d.pending? t = none ∧ History.Quiet (d.begun t) ∧ d'.pending? t = none ∧
      Idles d d' events) := by
  cases h with
  | @caller n d d' q q' events hat h =>
    refine .inl ⟨q, q', d', pending?_caller hat, ?_, h.pending?_set hat, h,
      rfl, rfl, rfl, rfl, rfl, rfl, rfl⟩
    rw [next?, hat]
    rfl
  | @worker n d d' p p' events hat h =>
    have hnext : d.next? (.worker n) = p.next? := by
      rw [next?, hat]
      rfl
    rw [pending?_worker hat, h.pending?_set hz hat, begun, hnext]
    rcases h.call_cases hz hat with ⟨q, q', hq, hcall, hq', hperforms⟩ | ⟨hq, hcall, hq', hi⟩
    · exact .inl ⟨q, q', d', hq, hcall, hq', hperforms, rfl, rfl, rfl, rfl, rfl, rfl,
        List.length_set⟩
    · exact .inr ⟨hq, hcall, hq', hi.settings, hi.lifecycle, hi.accepting, hi.lock, hi.closed,
        List.length_set.trans hi.workers, hi.accepted, hi.waiting⟩

theorem Performs.lifecycle_on (h : Performs t d q d' q' events) :
    d'.lifecycle = (History.ofCall t q.next?).foldl (fun l e => l.on e.2) d.lifecycle := by
  cases h with
  | deliver box calls => exact (d.lifecycle.on_other rfl rfl).symm
  | fail calls => exact (d.lifecycle.on_other rfl rfl).symm
  | receive order callback calls h => exact (d.lifecycle.on_other rfl rfl).symm
  | refuse order callback calls h => exact (d.lifecycle.on_other rfl rfl).symm
  | startAgain calls h hl => show d.lifecycle = d.lifecycle.on .start; rw [hl]; rfl
  | startLate calls h hl => show d.lifecycle = d.lifecycle.on .start; rw [hl]; rfl
  | start calls h hl => show Lifecycle.running = d.lifecycle.on .start; rw [hl]; rfl
  | stopRunning calls h hl => exact d.lifecycle.on_stop.symm
  | stopQuiet calls h hl => exact d.lifecycle.on_stop.symm
  | _ => rfl

/-- Orders are accepted while the lifecycle is running. -/
theorem Performs.accepting_iff (ha : d.accepting = true ↔ d.lifecycle = .running)
    (h : Performs t d q d' q' events) : d'.accepting = true ↔ d'.lifecycle = .running := by
  cases h with
  | start calls h hl => exact ⟨fun _ => rfl, fun _ => rfl⟩
  | stopRunning calls h hl => exact ⟨nofun, nofun⟩
  | stopQuiet calls h hl => exact ⟨nofun, nofun⟩
  | _ => exact ha

/-- Only a start that finds the desk idle brings workers in. -/
theorem Performs.workers_length (h : Performs t d q d' q' events) :
    (d.lifecycle = .idle ∧ q.next? = some .start ∧
      d'.workers.length = d.settings.workers.toNat) ∨
    ((d.lifecycle = .idle → q.next? ≠ some .start) ∧ d'.workers.length = d.workers.length) := by
  cases h with
  | start calls h hl => exact .inl ⟨hl, rfl, List.length_replicate⟩
  | startAgain calls h hl => exact .inr ⟨fun hidle => absurd (hidle.symm.trans hl) nofun, rfl⟩
  | startLate calls h hl => exact .inr ⟨fun hidle => absurd (hidle.symm.trans hl) nofun, rfl⟩
  | _ => exact .inr ⟨nofun, rfl⟩

theorem Performs.closed_mono (h : Performs t d q d' q' events) (hc : d.backlog.closed = true) :
    d'.backlog.closed = true := by
  cases h with
  | closeQuiet calls => rfl
  | close workers calls => rfl
  | _ => exact hc

theorem Moves.closed_mono (hz : d.Asleep) (h : Moves b t d d' events)
    (hc : d.backlog.closed = true) : d'.backlog.closed = true := by
  rcases h.call_cases hz with ⟨q, q', d₁, -, -, -, hperforms, hsame⟩ | ⟨-, -, -, hidle⟩
  · rw [hsame.backlog]
    exact hperforms.closed_mono hc
  · rw [hidle.closed]
    exact hc

/-! ## What follows from the history -/

/-- How a desk stands after these calls. -/
structure Course (h : History) (d : Desk β) : Prop where
  asleep : d.Asleep
  lifecycle : d.lifecycle = h.lifecycle
  accepting : d.accepting = true ↔ d.lifecycle = .running
  workers : d.workers.length = if h.opens then d.settings.workers.toNat else 0
  /-- Who is stopping the desk has the lock. -/
  holder : ∀ u stop, d.pending? u = some stop → stop.isStop = true → d.lock = some u
  joining : ∀ u workers, d.pending? u = some (.join workers) → d.backlog.closed = true
  /-- Before a stop the lock is free and the backlog open. -/
  unlocked : d.lifecycle ≠ .stopped → d.lock = none ∧ d.backlog.closed = false
  /-- Once a stop has returned the backlog is closed. -/
  stopped : d.lifecycle = .stopped → d.lock = none → d.backlog.closed = true

namespace Course

theorem start (settings : Settings) (s : β) (register : Register) (programs : List (List Call)) :
    Course [] ((closed settings s register).withCallers programs) where
  asleep _ := rfl
  lifecycle := rfl
  accepting := ⟨nofun, nofun⟩
  workers := rfl
  holder u stop hu _ := by
    rw [pending?_start] at hu
    cases hu
  joining u workers hu := by
    rw [pending?_start] at hu
    cases hu
  unlocked _ := ⟨rfl, rfl⟩
  stopped hl _ := by cases hl

/-- Neither the time nor what desks share plays a part. -/
theorem elsewhere (s : β) (register : Register) (now : Int64) (hc : Course h d) :
    Course h { d with broker := s, register := register, now := now } :=
  ⟨hc.asleep, hc.lifecycle, hc.accepting, hc.workers, hc.holder, hc.joining, hc.unlocked,
    hc.stopped⟩

theorem clock (now : Int64) (hc : Course h d) : Course h { d with now := now } :=
  hc.elsewhere d.broker d.register now

/-- Lock and backlog after a call's step: who stops the desk takes the lock and gives it back when it
is done, with the backlog closed, and takes it from nobody. -/
structure Locking (t : Thread) (d d' : Desk β) (pending : Option Pending) : Prop where
  holder : ∀ stop, pending = some stop → stop.isStop = true → d'.lock = some t
  joining : ∀ workers, pending = some (.join workers) → d'.backlog.closed = true
  others : ∀ u, u ≠ t → d.lock = some u → d'.lock = some u
  unlocked : d'.lifecycle ≠ .stopped → d'.lock = none ∧ d'.backlog.closed = false
  stopped : d'.lifecycle = .stopped → d'.lock = none → d'.backlog.closed = true

theorem performs (hc : Course h d) (hq : d.pending? t = q.pending)
    (hp : Performs t d q d' q' events) : Locking t d d' q'.pending := by
  -- a program that is not about to stop the desk leaves lock and backlog as they are
  have quiet : ∀ pending : Option Pending, (∀ stop, pending = some stop → stop.isStop = false) →
      Locking t d d pending := by
    intro pending hnone
    refine ⟨fun stop hstop his => ?_, fun workers hjoin => ?_, fun _ _ => id, hc.unlocked,
      hc.stopped⟩
    · rw [hnone stop hstop] at his
      cases his
    · cases hnone _ hjoin
  -- one that is about to has the lock
  have held : ∀ stop, q.pending = some stop → stop.isStop = true →
      d.lock = some t ∧ d.lifecycle = .stopped := by
    intro stop hstop his
    have hlock := hc.holder t stop (hq.trans hstop) his
    refine ⟨hlock, ?_⟩
    by_contra hl
    rw [(hc.unlocked hl).1] at hlock
    cases hlock
  have alone : ∀ {u}, u ≠ t → d.lock = some t → d.lock = some u → ∀ {a : Prop}, a := by
    intro u hu hlock hlock'
    rw [hlock] at hlock'
    cases hlock'
    exact absurd rfl hu
  cases hp with
  | start calls h hl =>
    have hopen := hc.unlocked (by rw [hl]; nofun)
    exact ⟨nofun, nofun, fun _ _ => id, fun _ => hopen, nofun⟩
  | stopRunning calls h hl =>
    refine ⟨fun _ _ _ => rfl, nofun, fun u _ hu => ?_, fun hl => absurd rfl hl, nofun⟩
    rw [h] at hu
    cases hu
  | stopQuiet calls h hl =>
    refine ⟨fun _ _ _ => rfl, nofun, fun u _ hu => ?_, fun hl => absurd rfl hl, nofun⟩
    rw [h] at hu
    cases hu
  | enqueue item calls h => exact ⟨nofun, nofun, fun _ _ => id, hc.unlocked, hc.stopped⟩
  | draw order callback calls =>
    refine ⟨fun stop hs his => ?_, nofun, fun _ _ => id, hc.unlocked, hc.stopped⟩
    cases hs
    cases his
  | closeQuiet calls =>
    obtain ⟨hlock, hl⟩ := held _ rfl rfl
    exact ⟨nofun, nofun, fun u hu hu' => alone hu hlock hu', fun hl' => absurd hl hl',
      fun _ _ => rfl⟩
  | close workers calls =>
    obtain ⟨hlock, hl⟩ := held _ rfl rfl
    exact ⟨fun _ _ _ => hlock, fun _ _ => rfl, fun _ _ => id, fun hl' => absurd hl hl',
      fun _ _ => rfl⟩
  | leave calls =>
    obtain ⟨hlock, hl⟩ := held _ rfl rfl
    exact ⟨nofun, nofun, fun u hu hu' => alone hu hlock hu', fun hl' => absurd hl hl',
      fun _ _ => hc.joining t _ hq⟩
  | skip n rest calls ht =>
    obtain ⟨hlock, hl⟩ := held _ rfl rfl
    exact ⟨fun _ _ _ => hlock, fun _ _ => hc.joining t _ hq, fun _ _ => id, hc.unlocked,
      hc.stopped⟩
  | join n rest calls hs =>
    obtain ⟨hlock, hl⟩ := held _ rfl rfl
    exact ⟨fun _ _ _ => hlock, fun _ _ => hc.joining t _ hq, fun _ _ => id, hc.unlocked,
      hc.stopped⟩
  | receive order callback calls h => exact quiet _ fun stop hs => by cases hs; rfl
  | _ => exact quiet _ nofun

/-- The workers that the history calls for. -/
theorem workers_step (hc : Course h d) (hp : Performs t d q d' q' events) :
    d'.workers.length =
      if (h ++ .ofCall t q.next?).opens then d.settings.workers.toNat else 0 := by
  rcases hp.workers_length with ⟨hl, hnext, hlen⟩ | ⟨hnext, hlen⟩
  · rw [hc.lifecycle] at hl
    rw [hnext, History.opens_append_of_idle hl, hlen]
    rfl
  · rw [hlen, hc.workers]
    by_cases hl : d.lifecycle = .idle
    · have hnone : (History.ofCall t q.next?).opens = false := by
        have hnext := hnext hl
        cases hcall : q.next? with
        | none => rfl
        | some call =>
          rw [hcall] at hnext
          show History.opens [(t, call)] = false
          rw [History.opens_singleton]
          cases call <;> first | rfl | exact absurd rfl hnext
      have hopens : h.opens = false := by
        have happend := History.opens_append_of_idle (l := []) (hc.lifecycle ▸ hl)
        rwa [List.append_nil] at happend
      rw [History.opens_append_of_idle (hc.lifecycle ▸ hl), hnone, hopens]
    · rw [History.opens_append (hc.lifecycle ▸ hl)]

/-- **Each step goes on as the history says.** -/
theorem step (hc : Course h d) (hm : Moves b t d d' events) : Course (h ++ d.begun t) d' := by
  have hz := hc.asleep
  have hothers : ∀ {u}, u ≠ t → d'.pending? u = d.pending? u :=
    fun hu => hm.pending?_of_ne hz (Ne.symm hu)
  have hclosed := hm.closed_mono hz
  rcases hm.call_cases hz with ⟨q, q', d₁, hq, hnext, hq', hperforms, hsame⟩ |
    ⟨hq, hquiet, hq', hidle⟩
  · have hlock := hc.performs hq hperforms
    have hlife : d'.lifecycle = (h ++ d.begun t).lifecycle := by
      rw [hsame.lifecycle, hperforms.lifecycle_on, hc.lifecycle, begun, hnext,
        History.lifecycle_append]
    refine ⟨hm.asleep hz, hlife, ?_, ?_, fun u stop hu his => ?_, fun u workers hu => ?_, ?_, ?_⟩
    · rw [hsame.accepting, hsame.lifecycle]
      exact hperforms.accepting_iff hc.accepting
    · rw [hsame.workers, hm.settings_eq, begun, hnext]
      exact hc.workers_step hperforms
    · rw [hsame.lock]
      by_cases hut : u = t
      · subst hut
        exact hlock.holder stop (hq'.symm.trans hu) his
      · rw [hothers hut] at hu
        exact hlock.others u hut (hc.holder u stop hu his)
    · by_cases hut : u = t
      · subst hut
        rw [hsame.backlog]
        exact hlock.joining workers (hq'.symm.trans hu)
      · rw [hothers hut] at hu
        exact hclosed (hc.joining u workers hu)
    · rw [hsame.lifecycle, hsame.lock, hsame.backlog]
      exact hlock.unlocked
    · rw [hsame.lifecycle, hsame.lock, hsame.backlog]
      exact hlock.stopped
  · have hpending : ∀ u, d'.pending? u = d.pending? u := by
      intro u
      by_cases hut : u = t
      · rw [hut, hq, hq']
      · exact hothers hut
    refine ⟨hm.asleep hz, ?_, ?_, ?_, fun u stop hu his => ?_, fun u workers hu => ?_, ?_, ?_⟩
    · rw [hidle.lifecycle, hquiet.lifecycle, hc.lifecycle]
    · rw [hidle.accepting, hidle.lifecycle]
      exact hc.accepting
    · rw [hidle.workers, hidle.settings, hquiet.opens]
      exact hc.workers
    · rw [hidle.lock]
      exact hc.holder u stop (hpending u ▸ hu) his
    · exact hclosed (hc.joining u workers (hpending u ▸ hu))
    · rw [hidle.lifecycle, hidle.lock, hidle.closed]
      exact hc.unlocked
    · rw [hidle.lifecycle, hidle.lock, hidle.closed]
      exact hc.stopped

end Course

/-- **Where a desk stands follows from the calls made to it**, whatever else its threads did. -/
theorem follow_course {settings : Settings} {s : β} {register : Register}
    {programs : List (List Call)} {schedule : List Turn} {d₀ : Desk β}
    (hopen : open? settings s register = .ok d₀)
    (hrun : (d₀.withCallers programs).follow b schedule = some (d, tr)) :
    Course (calls b schedule (d₀.withCallers programs)) d := by
  obtain ⟨rfl, -⟩ := open?_eq hopen
  exact follow_history (P := fun h d _ => Course h d) (fun now h => h.clock now)
    (fun h hm => h.step hm) [] [] (Course.start settings s register programs) hrun

end Desk

end DealDesk
