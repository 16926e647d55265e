import DealDesk.Proofs.Desk.SingleCaller
import DealDesk.Proofs.Register.Agreement

/-!
# The lifetime of a desk

* `Ends` — how far the first stop has come if a caller made it, and what holds of a desk that was never
  opened and of a worker that has stopped.
* `Returned` — the first stop came from a caller, to which it has returned.
* `AtRest` — a desk that was stopped; `AtRest.follow`: nothing but its counter moves any more.
* `Lived` — what the calls made to a desk decide, whoever made them.

`lifetime_follows_calls` is the main result.
-/

namespace DealDesk

namespace Desk

variable {β : Type} {b : Broker β} {n : Nat} {t : Thread} {d d' : Desk β} {p p' : Position}
  {q q' : Program} {events : List Event} {tr : Trace} {h : History}

/-! ## The first stop -/

/-- How far caller `n` has come with stopping the desk: it is at it and the workers it does not wait
for have stopped, or the backlog is closed and every worker has stopped. -/
inductive Stopping (d : Desk β) (n : Nat) : Prop
  | underway (stop : Pending) (hp : d.pending? (.caller n) = some stop) (hstop : stop.isStop = true)
      (hs : d.Reached stop)
  | returned (hc : d.backlog.closed = true) (hs : ∀ k, d.hasStopped k = true)

/-- Once a desk was started no step wakes a worker that has stopped. -/
theorem Moves.hasStopped_mono (hz : d.Asleep) (hl : d.lifecycle ≠ .idle) (hm : Moves b t d d' events)
    {k : Nat} (hk : d.hasStopped k = true) : d'.hasStopped k = true := by
  cases hm with
  | @caller n d d' q q' events hat hp =>
    rcases hp.frame.workers with hw | ⟨hidle, -⟩
    · show d'.hasStopped k = true
      rwa [hasStopped, hw, ← hasStopped]
    · exact absurd hidle hl
  | worker hat hw => exact hw.hasStopped_set hz hat hk

/-- The first stop begins. -/
theorem Performs.stopping_begins (hz : d.Asleep) (hl : d.lifecycle ≠ .stopped)
    (hp : Performs t d q d' q' events) (hnext : q.next? = some .stop) :
    ∃ stop, q'.pending = some stop ∧ stop.isStop = true ∧ d'.Reached stop := by
  cases hp with
  | stopRunning calls h hrunning =>
    refine ⟨_, rfl, rfl, fun k hk => hasStopped_of_le ?_⟩
    simpa using hk
  | stopQuiet calls h hquiet =>
    refine ⟨_, rfl, rfl, fun k _ => hasStopped_of_le ?_⟩
    cases hlife : d.lifecycle with
    | idle =>
      show d.workers.length ≤ k
      rw [hz hlife]
      exact Nat.zero_le k
    | running => exact absurd hlife hquiet
    | stopped => exact absurd hlife hl
  | _ => cases hnext

/-- Its caller goes on with it. -/
theorem Performs.stopping_goes_on {stop : Pending} (hp : Performs (.caller n) d q d' q' events)
    (hq : q.pending = some stop) (hstop : stop.isStop = true) (hs : d.Reached stop) :
    (∃ stop', q'.pending = some stop' ∧ stop'.isStop = true ∧ d'.Reached stop') ∨
      (d'.backlog.closed = true ∧ ∀ k, d'.hasStopped k = true) := by
  cases hp with
  | draw order callback calls => cases hq; cases hstop
  | enqueue item calls h => cases hq; cases hstop
  | refuseLate item calls h => cases hq; cases hstop
  | closeQuiet calls => cases hq; exact .inr ⟨rfl, fun k => hs k nofun⟩
  | close workers calls => cases hq; exact .inl ⟨_, rfl, rfl, rfl, fun k hk => hs k hk⟩
  | leave calls => cases hq; exact .inr ⟨hs.1, fun k => hs.2 k nofun⟩
  | skip k rest calls h => cases h
  | join k rest calls h =>
    cases hq
    refine .inl ⟨_, rfl, rfl, hs.1, fun m hm => ?_⟩
    by_cases hmk : m = k
    · rw [hmk]
      exact h
    · exact hs.2 m (by simp [hmk, hm])
  | _ => cases hq

/-- How a desk comes to its end. -/
structure Ends (h : History) (d : Desk β) (tr : Trace) : Prop where
  course : Course h d
  staffed : d.settings.workers ≠ 0
  stopping : ∀ n, h.firstStop = some (.caller n) → d.Stopping n
  retired : ∀ p ∈ d.workers, p.isStopped = true →
    d.backlog.closed = true ∧ d.backlog.items = []
  unopened : d.workers = [] → d.Unopened ∧ tr.accepted = [] ∧ ∀ e ∈ tr, ∃ n, e.1 = .caller n

namespace Ends

theorem start {settings : Settings} (s : β) (register : Register) (programs : List (List Call))
    (hw : settings.workers ≠ 0) :
    Ends [] ((closed settings s register).withCallers programs) [] where
  course := .start settings s register programs
  staffed := hw
  stopping n hn := by cases hn
  retired _ hp := by cases hp
  unopened _ := by
    refine ⟨⟨rfl, rfl, fun q hq => ?_⟩, rfl, fun _ he => absurd he List.not_mem_nil⟩
    obtain ⟨calls, -, rfl⟩ := List.mem_map.1 hq
    rfl

/-- Neither the time nor what desks share plays a part. -/
theorem elsewhere (s : β) (register : Register) (now : Int64) (he : Ends h d tr) :
    Ends h { d with broker := s, register := register, now := now } tr where
  course := he.course.elsewhere s register now
  staffed := he.staffed
  stopping n hn := by
    cases he.stopping n hn with
    | underway stop hp hstop hs => exact .underway stop hp hstop (hs.mono id fun _ => id)
    | returned hc hs => exact .returned hc hs
  retired := he.retired
  unopened hw := by
    obtain ⟨hu, hnone⟩ := he.unopened hw
    exact ⟨⟨hu.accepting, hu.items, hu.callers⟩, hnone⟩

theorem clock (now : Int64) (he : Ends h d tr) : Ends h { d with now := now } tr :=
  he.elsewhere d.broker d.register now

/-- A caller makes the first stop. -/
theorem stopping_begins (he : Ends h d tr) (hm : Moves b t d d' events) (hnone : h.firstStop = none)
    (hn : History.firstStop (d.begun t) = some (.caller n)) : d'.Stopping n := by
  have hl : d.lifecycle ≠ .stopped := by
    rw [he.course.lifecycle, ne_eq, History.lifecycle_eq_stopped, History.firstStop_eq_none.1 hnone]
    decide
  rw [begun] at hn
  cases hnext : d.next? t with
  | none => rw [hnext] at hn; cases hn
  | some call =>
    rw [hnext] at hn
    cases call with
    | stop =>
      cases hn
      cases hm with
      | @caller n d d' q q' events hat hp =>
        have hcall : q.next? = some .stop := by
          rw [← hnext, next?, hat]
          rfl
        obtain ⟨stop, hq', hstop, hs⟩ := hp.stopping_begins he.course.asleep hl hcall
        exact .underway stop ((hp.pending?_set hat).trans hq') hstop (hs.mono id fun _ => id)
    | _ => cases hn

/-- The caller that made the first stop takes it further. -/
theorem stopping_goes_on (he : Ends h d tr) (hm : Moves b t d d' events)
    (hfirst : h.firstStop = some (.caller n)) : d'.Stopping n := by
  have hz := he.course.asleep
  have hidle : d.lifecycle ≠ .idle := by
    rw [he.course.lifecycle, History.lifecycle_eq_stopped.2]
    · decide
    · by_contra hno
      rw [History.firstStop_eq_none.2 (by simpa using hno)] at hfirst
      cases hfirst
  have hclosed := hm.closed_mono hz
  have hstopped : ∀ k, d.hasStopped k = true → d'.hasStopped k = true :=
    fun k => hm.hasStopped_mono hz hidle
  cases he.stopping n hfirst with
  | returned hc hs => exact .returned (hclosed hc) fun k => hstopped k (hs k)
  | underway stop hp hstop hs =>
    by_cases ht : t = .caller n
    · subst ht
      cases hm with
      | @caller n d d' q q' events hat hperforms =>
        rw [pending?_caller hat] at hp
        rcases hperforms.stopping_goes_on hp hstop hs with ⟨stop', hq', hstop', hs'⟩ | ⟨hc, hall⟩
        · exact .underway stop' ((hperforms.pending?_set hat).trans hq') hstop'
            (hs'.mono id fun _ => id)
        · exact .returned hc hall
    · rw [← hm.pending?_of_ne hz ht] at hp
      exact .underway stop hp hstop (hs.mono hclosed hstopped)

theorem stopping_step (he : Ends h d tr) (hm : Moves b t d d' events)
    (hn : (h ++ d.begun t).firstStop = some (.caller n)) : d'.Stopping n := by
  rw [History.firstStop_append] at hn
  cases hfirst : h.firstStop with
  | none =>
    rw [hfirst, Option.none_or] at hn
    exact he.stopping_begins hm hfirst hn
  | some u =>
    rw [hfirst, Option.some_or] at hn
    exact he.stopping_goes_on hm (hfirst.trans hn)

theorem step (he : Ends h d tr) (hm : Moves b t d d' events) :
    Ends (h ++ d.begun t) d' (tr ++ Trace.ofStep t events) := by
  have hz := he.course.asleep
  refine ⟨he.course.step hm, hm.settings_eq ▸ he.staffed, fun n => he.stopping_step hm, ?_,
    fun hnone => ?_⟩
  · cases hm with
    | @caller n d d' q q' events hat hp =>
      have hr : ∀ p ∈ d.workers, p.isStopped = true →
          d'.backlog.closed = true ∧ d'.backlog.items = [] :=
        fun p hmem hstopped => hp.emptied (he.retired p hmem hstopped)
      have hw := hp.forall_workers (P := fun p => p.isStopped = true →
        d'.backlog.closed = true ∧ d'.backlog.items = []) nofun hr
      exact hw
    | @worker n d d' p p' events hat hw =>
      have hr : ∀ q ∈ d.workers, q.isStopped = true →
          d'.backlog.closed = true ∧ d'.backlog.items = [] :=
        fun q hmem hstopped => hw.emptied (he.retired q hmem hstopped)
      exact hw.forall_workers hz hat hr hw.retired
  · cases hm with
    | @caller n d d' q q' events hat hp =>
      have hw : d'.workers = [] := hnone
      have hd : d.workers = [] := by
        rcases hp.frame.workers with hw' | ⟨hl, -⟩
        · rw [← hw', hw]
        · exact hz hl
      obtain ⟨hu, haccepted, hcallers⟩ := he.unopened hd
      obtain ⟨hacc, hitems, hq⟩ := hp.unopened hu (List.mem_of_getElem? hat) hw he.staffed
      refine ⟨⟨hacc, hitems, fun r hr => ?_⟩, ?_, fun e he => ?_⟩
      · obtain ⟨j, hj⟩ := List.mem_iff_getElem?.1 hr
        rcases hp.caller_cases hj with ⟨-, rfl⟩ | ⟨-, hj⟩
        · exact hq
        · exact hu.callers r (List.mem_of_getElem? hj)
      · have hframe := hp.frame.items
        rw [hitems, hu.items, List.nil_append] at hframe
        rw [Trace.accepted_step, haccepted, ← hframe]
        rfl
      · rcases List.mem_append.1 he with he | he
        · exact hcallers e he
        · obtain ⟨event, -, rfl⟩ := List.mem_map.1 he
          exact ⟨n, rfl⟩
    | @worker n d d' p p' events hat hw =>
      have hnone : d'.workers.set n p' = [] := hnone
      rw [hw.workers_eq hz hat, List.set_eq_nil_iff] at hnone
      rw [hnone] at hat
      cases hat

end Ends

theorem follow_ends {settings : Settings} {s : β} {register : Register}
    {programs : List (List Call)} {schedule : List Turn} {d₀ : Desk β}
    (hopen : open? settings s register = .ok d₀)
    (hrun : (d₀.withCallers programs).follow b schedule = some (d, tr)) :
    Ends (calls b schedule (d₀.withCallers programs)) d tr := by
  obtain ⟨rfl, hw⟩ := open?_eq hopen
  exact follow_history (P := Ends) Ends.clock (fun h hm => h.step hm) [] []
    (Ends.start s register programs hw) hrun

/-! ## After the first stop -/

/-- A desk that was stopped: its backlog takes nothing, and no worker is left. -/
structure AtRest (d : Desk β) : Prop where
  asleep : d.Asleep
  lifecycle : d.lifecycle = .stopped
  closed : d.backlog.closed = true
  stopped : ∀ k, d.hasStopped k = true

/-- Closing a closed backlog changes nothing. -/
theorem close_of_closed {α : Type} {l : Backlog α} (h : l.closed = true) : l.close = l := by
  cases l with
  | mk items closed =>
    cases h
    rfl

namespace AtRest

/-- **A desk at rest only hands out numbers any more.** -/
theorem step (hr : AtRest d) (hm : Moves b t d d' events) :
    AtRest d' ∧ d'.backlog = d.backlog ∧
      d'.register = { d.register with nextSequence := d'.register.nextSequence } ∧
      events.filterMap Event.accepted? = [] ∧ events.filterMap Event.recorded? = [] := by
  have hidle : d.lifecycle ≠ .idle := by rw [hr.lifecycle]; nofun
  cases hm with
  | @worker n d d' p p' events hat hw =>
    have hstopped : p.isStopped = true := by
      have hn := hr.stopped n
      rwa [hasStopped, hat] at hn
    cases hw <;> cases hstopped
  | @caller n d d' q q' events hat hp =>
    have hkeep : ∀ k, d.hasStopped k = true → d'.hasStopped k = true :=
      fun k hk => (Moves.caller (b := b) hat hp).hasStopped_mono hr.asleep hidle hk
    have hasleep := (Moves.caller (b := b) hat hp).asleep hr.asleep
    have hclose : d.backlog.close = d.backlog := close_of_closed hr.closed
    have hsame : d'.backlog = d.backlog ∧ d'.lifecycle = .stopped ∧
        events.filterMap Event.accepted? = [] := by
      cases hp with
      | start calls h hl => exact absurd hl hidle
      | enqueue item calls h => rw [hr.closed] at h; cases h
      | closeQuiet calls => exact ⟨hclose, hr.lifecycle, rfl⟩
      | close workers calls => exact ⟨hclose, hr.lifecycle, rfl⟩
      | stopRunning calls h hl => exact ⟨rfl, rfl, rfl⟩
      | stopQuiet calls h hl => exact ⟨rfl, rfl, rfl⟩
      | _ => exact ⟨rfl, hr.lifecycle, rfl⟩
    obtain ⟨hbacklog, hlife, haccepted⟩ := hsame
    refine ⟨⟨hasleep, hlife, ?_, fun k => hkeep k (hr.stopped k)⟩, hbacklog, hp.frame.register,
      haccepted, hp.frame.recorded⟩
    show d'.backlog.closed = true
    rw [hbacklog]
    exact hr.closed

theorem workers (hr : AtRest d) : ∀ p ∈ d.workers, p.isStopped = true := by
  intro p hp
  obtain ⟨k, hk⟩ := List.mem_iff_getElem?.1 hp
  have hstopped := hr.stopped k
  rwa [hasStopped, hk] at hstopped

/-- What is left alone from a state at rest on. -/
structure Left (d d' : Desk β) (tr : Trace) : Prop where
  rest : AtRest d'
  backlog : d'.backlog = d.backlog
  register : d'.register = { d.register with nextSequence := d'.register.nextSequence }
  accepted : tr.accepted = []
  recorded : tr.recorded = []

theorem follow {later : List Turn} {tr' : Trace} (hr : AtRest d)
    (hlater : d.follow b later = some (d', tr')) : Left d d' tr' := by
  have h₀ : Left d d [] := ⟨hr, rfl, rfl, rfl, rfl⟩
  refine follow_invariant (P := Left d) (fun now hl => ?_) (fun hl hm => ?_) h₀ hlater
  · exact ⟨⟨hl.rest.asleep, hl.rest.lifecycle, hl.rest.closed, hl.rest.stopped⟩, hl.backlog,
      hl.register, hl.accepted, hl.recorded⟩
  · obtain ⟨hrest, hbacklog, hregister, haccepted, hrecorded⟩ := hl.rest.step hm
    refine ⟨hrest, hbacklog.trans hl.backlog, ?_, ?_, ?_⟩
    · rw [hregister, hl.register]
    · rw [Trace.accepted_step, hl.accepted, haccepted]
      rfl
    · rw [Trace.recorded, Trace.pick_step, ← Trace.recorded, hl.recorded, hrecorded]
      rfl

end AtRest

/-- The first stop came from a caller, to which it has returned. -/
def Returned (h : History) (d : Desk β) : Prop :=
  ∃ n, h.firstStop = some (.caller n) ∧
    ∀ stop, d.pending? (.caller n) = some stop → stop.isStop = false

/-- A caller that is done has no call under way. -/
theorem Returned.of_finished (hfirst : h.firstStop = some (.caller n))
    (hdone : ∀ q ∈ d.callers, q.finished = true) : Returned h d := by
  refine ⟨n, hfirst, fun stop hstop => ?_⟩
  obtain ⟨q, hq, hpending⟩ := Option.bind_eq_some_iff.1 hstop
  have hfinished := hdone q (List.mem_of_getElem? hq)
  simp [Program.finished, hpending] at hfinished

/-- Once it has returned the desk is at rest, with nothing in its backlog. -/
theorem Ends.atRest (he : Ends h d tr) (hreturned : Returned h d) :
    AtRest d ∧ d.backlog.items = [] := by
  obtain ⟨n, hfirst, hdone⟩ := hreturned
  have hl : d.lifecycle = .stopped := by
    rw [he.course.lifecycle, History.lifecycle_eq_stopped]
    by_contra hno
    rw [History.firstStop_eq_none.2 (by simpa using hno)] at hfirst
    cases hfirst
  cases he.stopping n hfirst with
  | underway stop hp hstop hs =>
    rw [hdone stop hp] at hstop
    cases hstop
  | returned hc hs =>
    refine ⟨⟨he.course.asleep, hl, hc, hs⟩, ?_⟩
    cases hw : d.workers with
    | nil => exact (he.unopened hw).1.items
    | cons p rest =>
      have hp : d.workers[0]? = some p := by rw [hw]; rfl
      have hstopped : p.isStopped = true := by
        have h0 := hs 0
        rwa [hasStopped, hp] at h0
      exact (he.retired p (List.mem_of_getElem? hp) hstopped).2

/-! ## What the calls decide -/

/-- What the calls made so far decide at a desk. -/
structure Lived (b : Broker β) (h : History) (d : Desk β) (tr : Trace) : Prop where
  accepting : d.accepting = true ↔ h.started = true ∧ h.stopped = false
  /-- A start has to wait only for a stop that is under way. -/
  waits : h.stopped = false → d.lock = none
  /-- A start is refused once a stop came, and only the first one does anything. -/
  start : ∀ t, d.lock = none → d.begin t .start = some (
    if h.stopped then (d, none, [.startRefused])
    else if h.started then (d, none, [.alreadyOpen])
    else (d.openUp, none, [.opening d.settings.workers.toNat, .opened]))
  /-- Nothing changes when an order is refused. -/
  submit : ∀ t order callback, d.begin t (.submit order callback) = some (
    if h.started && !h.stopped then (d, some (.draw order callback), [.received order])
    else (d, none, [.refused order]))
  /-- An order is taken to the end of the backlog unless a stop came in between. -/
  enqueue : ∀ t item, h.stopped = false →
    d.resume t (.enqueue item) = some
      ({ d with backlog := { d.backlog with items := d.backlog.items ++ [item] } }, none,
        [.accepted item])
  /-- Callbacks are those of accepted items, each at most once. -/
  notified : (tr.notified.map Prod.fst).Subperm tr.accepted
  workers : d.workers.length = if h.opens then d.settings.workers.toNat else 0
  /-- A further stop takes the lock and gives it back. -/
  stopAgain : h.stopped = true → d.lock = none → ∀ t later d' tr', d.follow b later = some (d', tr') →
    d.begin t .stop = some ({ d with lock := some t }, some (.close none), []) ∧
    d'.resume t (.close none) = some ({ d' with lock := none }, none, [])
  /-- A desk that was not started before it was stopped takes no order, and no worker takes a step. -/
  unopened : h.opens = false → d.workers = [] ∧ tr.accepted = [] ∧ tr.recorded = [] ∧
    ∀ e ∈ tr, ∃ n, e.1 = .caller n
  /-- Once the first stop has returned to its caller, nothing waits and no answer of the register
  changes. -/
  rest : Returned h d → d.backlog.closed = true ∧ d.backlog.items = [] ∧
    ∀ later d' (tr' : Trace), d.follow b later = some (d', tr') → d'.backlog = d.backlog ∧
      Register.AgreeBut id d.register d'.register ∧ tr'.accepted = [] ∧ tr'.recorded = []

theorem closed_of_follow {later : List Turn} {tr' : Trace} (hz : d.Asleep)
    (hclosed : d.backlog.closed = true) (hlater : d.follow b later = some (d', tr')) :
    d'.backlog.closed = true := by
  have hkeeps := follow_keeps (b := b) (P := fun d => d.Asleep ∧ d.backlog.closed = true)
    (fun _ h => h) (fun h hm => ⟨hm.asleep h.1, hm.closed_mono h.1 h.2⟩) ⟨hz, hclosed⟩ hlater
  exact hkeeps.2

theorem Ends.lived (he : Ends h d tr) (ht : Tended d tr) (hv : Deliveries d tr) : Lived b h d tr := by
  have hc := he.course
  have hl := hc.lifecycle
  rw [History.lifecycle_eq] at hl
  have hacc : d.accepting = (h.started && !h.stopped) := by
    rw [Bool.eq_iff_iff, hc.accepting, hl]
    cases h.stopped <;> cases h.started <;> decide
  have hopen : h.stopped = false → d.lock = none ∧ d.backlog.closed = false := by
    intro hno
    refine hc.unlocked ?_
    rw [hl, hno]
    cases h.started <;> nofun
  refine ⟨?_, fun hno => (hopen hno).1, fun t hlock => ?_, fun t order callback => ?_,
    fun t item hno => ?_, ?_, hc.workers, fun hyes hlock t later d' tr' hlater => ?_, fun hno => ?_,
    fun hreturned => ?_⟩
  · rw [hacc]
    cases h.stopped <;> cases h.started <;> decide
  · rw [begin, hlock, hl]
    cases h.stopped <;> cases h.started <;> rfl
  · rw [begin, hacc]
    cases h.stopped <;> cases h.started <;> rfl
  · rw [resume, Backlog.enqueue, if_neg (by rw [(hopen hno).2]; decide)]
  · rw [hv.notified]
    exact (List.filter_sublist.map _).subperm.trans ht.recorded_subperm
  · rw [hyes, if_pos rfl] at hl
    have hclosed := closed_of_follow hc.asleep (hc.stopped hl hlock) hlater
    constructor
    · have hnot : d.accepting = false := by rw [hacc, hyes, Bool.not_true, Bool.and_false]
      have hsame : { d with lock := some t, accepting := false, lifecycle := .stopped } =
          { d with lock := some t } := by rw [← hnot, ← hl]
      rw [begin, hsame, hlock, hl]
      rfl
    · rw [resume, close_of_closed hclosed]
  · have hnone : d.workers = [] := by
      rw [← List.length_eq_zero_iff, hc.workers, hno]
      rfl
    obtain ⟨-, haccepted, hcallers⟩ := he.unopened hnone
    have hsub := ht.recorded_subperm
    rw [haccepted, List.subperm_nil, List.map_eq_nil_iff] at hsub
    exact ⟨hnone, haccepted, hsub, hcallers⟩
  · obtain ⟨hrest, hitems⟩ := he.atRest hreturned
    refine ⟨hrest.closed, hitems, fun later d' tr' hlater => ?_⟩
    have hleft := hrest.follow hlater
    refine ⟨hleft.backlog, ?_, hleft.accepted, hleft.recorded⟩
    rw [hleft.register]
    exact (Register.agreeBut_withNext id d.register _).symm

/-- **The lifetime of a desk follows from the calls made to it**, by whomever and whatever its workers
do in between. A single caller whose callbacks stop nothing is told, call by call, what its own calls
before ask for. -/
theorem lifetime_follows_calls {settings : Settings} {s : β} {register : Register}
    {programs : List (List Call)} {schedule : List Turn} {d₀ : Desk β}
    (hopen : open? settings s register = .ok d₀)
    (hrun : (d₀.withCallers programs).follow b schedule = some (d, tr)) :
    Lived b (calls b schedule (d₀.withCallers programs)) d tr ∧
    ∀ program, programs = [program] →
      (∀ c ∈ program.filterMap Call.callback?, Call.anyStops c = false) →
      (tr.ofThread (.caller 0)).answers <+: answersTo [] program ∧
      ((∀ q ∈ d.callers, q.finished = true) →
        (tr.ofThread (.caller 0)).answers = answersTo [] program) := by
  refine ⟨(follow_ends hopen hrun).lived (follow_tended hopen hrun) (follow_deliveries hopen hrun), ?_⟩
  rintro program rfl hcalm
  have hh := follow_hears hopen hcalm hrun
  exact ⟨hh.told_prefix, hh.told_all⟩

/-- The caller goes on after its stop: it submits, starts and stops once more. -/
def comesBack : List Call :=
  oneCaller ++ [.submit (plainOrder "r-2") (some [.deliver 8]), .start, .stop]

def comesBackTurns : List Turn :=
  turns (.caller 0) 6 ++ turns (.worker 0) 12 ++ turns (.worker 1) 2 ++ turns (.caller 0) 7

/-- The last four turns of the caller are those of the calls after its first stop. -/
def cameBack : Option (Desk Scripted × Trace) :=
  ((closed twoWorkers lossy Register.empty).withCallers [comesBack]).follow Scripted.broker
    comesBackTurns

theorem lifetime_follows_calls_cameBack : ∃ d, ∃ tr : Trace, cameBack = some (d, tr) ∧
    (tr.ofThread (.caller 0)).answers =
      [.opened, .accepted (plainOrder "r-1"), .refused (plainOrder "r-2"), .startRefused] ∧
    d.workers.length = 2 ∧ d.accepting = false ∧ d.backlog.closed = true ∧ d.backlog.items = [] := by
  have hends : cameBack.map (fun r =>
      (r.1.callers.all Program.finished, r.1.settings.workers.toNat)) = some (true, 2) := by
    decide +kernel
  obtain ⟨⟨d, tr⟩, hrun, hends⟩ := Option.map_eq_some_iff.1 hends
  obtain ⟨hall, hworkers⟩ := Prod.mk.inj hends
  have hopen : open? twoWorkers lossy Register.empty =
    .ok (closed twoWorkers lossy Register.empty) := rfl
  have hdone : ∀ q ∈ d.callers, q.finished = true := by simpa using hall
  obtain ⟨hlived, htold⟩ := lifetime_follows_calls hopen hrun
  generalize hh : calls Scripted.broker comesBackTurns _ = h at hlived
  have hcalls : (h.firstStop, h.opens, h.stopped) = (some (.caller 0), true, true) := by
    rw [← hh]
    decide +kernel
  obtain ⟨hfirst, hrest⟩ := Prod.mk.inj hcalls
  obtain ⟨hopens, hstopped⟩ := Prod.mk.inj hrest
  obtain ⟨hclosed, hitems, -⟩ := hlived.rest (.of_finished hfirst hdone)
  refine ⟨d, tr, hrun, (htold comesBack rfl (by decide)).2 hdone, ?_, ?_, hclosed, hitems⟩
  · rw [hlived.workers, hopens, if_pos rfl, hworkers]
  · rw [← Bool.not_eq_true, hlived.accepting, hstopped]
    simp

end Desk

end DealDesk
