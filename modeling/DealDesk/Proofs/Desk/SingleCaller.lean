import DealDesk.Proofs.Desk.Calls
import DealDesk.Proofs.Desk.Shutdown

/-!
# What a single caller is told

* `Answer` — what a caller is told of a start or of a submission.
* `answersTo` — what it is told of its calls, if only the starts and stops before a call count.
* `Standing` — how far a single caller has come with its calls and with what it is told.

`follow_hears` is the main result: at a desk whose callbacks stop nothing a single caller is told that,
whatever the workers and the callbacks do in between.
-/

namespace DealDesk

/-! ## Answers -/

/-- What a caller is told of a start or of a submission. -/
inductive Answer
  | opened
  | alreadyOpen
  | startRefused
  | accepted (order : Order)
  | refused (order : Order)

def Event.answer? : Event → Option Answer
  | .opened => some .opened
  | .alreadyOpen => some .alreadyOpen
  | .startRefused => some .startRefused
  | .accepted item => some (.accepted item.order)
  | .refused order | .refusedLate order => some (.refused order)
  | _ => none

def Trace.answers (tr : Trace) : List Answer := tr.pick Event.answer?

/-- What a caller is told of a call when these calls came before it. -/
def Call.answer? (before : List Call) : Call → Option Answer
  | .start => some (if before.any Call.isStop then .startRefused
      else if before.any Call.isStart then .alreadyOpen else .opened)
  | .submit order _ => some (if before.any Call.isStart && !before.any Call.isStop
      then .accepted order else .refused order)
  | .deliver _ | .fail | .stop => none

/-- What a caller is told of its calls. -/
def answersTo (before : List Call) : List Call → List Answer
  | [] => []
  | call :: calls => (call.answer? before).toList ++ answersTo (before ++ [call]) calls

theorem answersTo_append (before calls calls' : List Call) :
    answersTo before (calls ++ calls') =
      answersTo before calls ++ answersTo (before ++ calls) calls' := by
  induction calls generalizing before with
  | nil => rw [List.nil_append, List.append_nil, answersTo, List.nil_append]
  | cons call calls ih =>
    rw [List.cons_append, answersTo, answersTo, ih, List.append_assoc, List.append_assoc]
    rfl

/-- What the caller is told when the submission under way goes through. -/
def Pending.owed : Option Pending → List Answer
  | some (.draw order _) => [.accepted order]
  | some (.enqueue item) => [.accepted item.order]
  | _ => []

namespace Desk

variable {β : Type} {b : Broker β} {t : Thread} {d d' : Desk β} {q q' : Program}
  {events : List Event} {tr : Trace} {h : History}

/-! ## A single caller -/

/-- The history of a caller that made these calls. -/
def madeBy (t : Thread) (calls : List Call) : History := calls.map fun c => (t, c)

theorem lifecycle_madeBy (t : Thread) (made : List Call) : (madeBy t made).lifecycle =
    if made.any Call.isStop then .stopped
    else if made.any Call.isStart then .running else .idle := by
  rw [History.lifecycle_eq, History.stopped, History.started, madeBy, List.any_map, List.any_map]
  rfl

theorem lifecycle_madeBy_concat (t : Thread) (made : List Call) (call : Call) :
    (madeBy t (made ++ [call])).lifecycle = (madeBy t made).lifecycle.on call := by
  rw [madeBy, List.map_append, History.lifecycle_append]
  rfl

section AnswerAt

variable {made : List Call} (hl : d.lifecycle = (madeBy t made).lifecycle)

include hl

/-- What a start is told follows from where the lifecycle stands. -/
theorem answer?_start : Call.answer? made .start = some (match d.lifecycle with
    | .idle => .opened
    | .running => .alreadyOpen
    | .stopped => .startRefused) := by
  rw [hl, lifecycle_madeBy, Call.answer?]
  cases made.any Call.isStop <;> cases made.any Call.isStart <;> rfl

theorem answer?_submit (ha : d.accepting = true ↔ d.lifecycle = .running) (order : Order)
    (callback : Option (List Call)) : Call.answer? made (.submit order callback) =
      some (if d.accepting then .accepted order else .refused order) := by
  have hacc : d.accepting = (made.any Call.isStart && !made.any Call.isStop) := by
    rw [Bool.eq_iff_iff, ha, hl, lifecycle_madeBy]
    cases made.any Call.isStop <;> cases made.any Call.isStart <;> decide
  rw [Call.answer?, hacc]

end AnswerAt

/-- Where a single caller stands with its calls, having heard these answers. -/
structure Standing (calls : List Call) (answers : List Answer) (d : Desk β) (q : Program) : Prop where
  made : ∃ made, calls = made ++ q.calls ∧
    answers ++ Pending.owed q.pending = answersTo [] made ∧
    d.lifecycle = (madeBy (.caller 0) made).lifecycle
  running : Pending.owed q.pending ≠ [] → d.lifecycle = .running

section Standings

variable {calls rest made : List Call} {answers told : List Answer} {call : Call}
  {pending : Option Pending}

/-- A call begins. -/
theorem Standing.begins (hcalls : calls = made ++ call :: rest) (hanswers : answers = answersTo [] made)
    (hl : d.lifecycle = (madeBy (.caller 0) made).lifecycle)
    (hlife : d'.lifecycle = d.lifecycle.on call)
    (htold : (call.answer? made).toList = told ++ Pending.owed pending)
    (hrunning : Pending.owed pending ≠ [] → d'.lifecycle = .running) :
    Standing calls (answers ++ told) d' ⟨pending, rest⟩ := by
  refine ⟨⟨made ++ [call], ?_, ?_, ?_⟩, hrunning⟩
  · rw [hcalls, List.append_assoc]
    rfl
  · rw [answersTo_append, ← hanswers, List.append_assoc, ← htold, answersTo, answersTo,
      List.append_nil]
    rfl
  · rw [lifecycle_madeBy_concat, hlife, hl]

/-- A call goes on and has nothing to tell, or tells what was owed. -/
theorem Standing.goes_on (hs : Standing calls answers d q) (hrest : q'.calls = q.calls)
    (hlife : d'.lifecycle = d.lifecycle)
    (howed : told ++ Pending.owed q'.pending = Pending.owed q.pending) :
    Standing calls (answers ++ told) d' q' := by
  obtain ⟨⟨made, hcalls, hanswers, hl⟩, hrunning⟩ := hs
  refine ⟨⟨made, by rw [hcalls, hrest], ?_, hlife.trans hl⟩, fun hne => ?_⟩
  · rw [List.append_assoc, howed, hanswers]
  · rw [hlife]
    refine hrunning fun hnil => hne ?_
    rw [hnil] at howed
    exact (List.append_eq_nil_iff.1 howed).2

end Standings

/-- **Each answer is the one that the calls before ask for.** -/
theorem Standing.step {calls : List Call} {answers : List Answer} (hs : Standing calls answers d q)
    (hc : Course h d) (hp : Performs (.caller 0) d q d' q' events) :
    Standing calls (answers ++ events.filterMap Event.answer?) d' q' := by
  obtain ⟨made, hcalls, hanswers, hl⟩ := hs.made
  have begins : ∀ {call rest pending}, q = ⟨none, call :: rest⟩ → q' = ⟨pending, rest⟩ →
      d'.lifecycle = d.lifecycle.on call →
      (call.answer? made).toList = events.filterMap Event.answer? ++ Pending.owed pending →
      (Pending.owed pending ≠ [] → d'.lifecycle = .running) →
      Standing calls (answers ++ events.filterMap Event.answer?) d' q' := by
    rintro call rest pending rfl rfl hlife htold hrunning
    rw [show Pending.owed none = [] from rfl, List.append_nil] at hanswers
    exact .begins hcalls hanswers hl hlife htold hrunning
  have hstart := answer?_start hl
  have hsubmit := answer?_submit hl hc.accepting
  cases hp with
  | deliver box calls => exact begins rfl rfl (d.lifecycle.on_other rfl rfl).symm rfl (absurd rfl)
  | fail calls => exact begins rfl rfl (d.lifecycle.on_other rfl rfl).symm rfl (absurd rfl)
  | receive order callback calls ha =>
    refine begins rfl rfl (d.lifecycle.on_other rfl rfl).symm ?_ fun _ => hc.accepting.1 ha
    rw [hsubmit, ha]
    rfl
  | refuse order callback calls ha =>
    refine begins rfl rfl (d.lifecycle.on_other rfl rfl).symm ?_ (absurd rfl)
    rw [hsubmit, ha]
    rfl
  | startAgain calls h hlife =>
    refine begins rfl rfl (by rw [hlife]; rfl) ?_ (absurd rfl)
    rw [hstart, hlife]
    rfl
  | startLate calls h hlife =>
    refine begins rfl rfl (by rw [hlife]; rfl) ?_ (absurd rfl)
    rw [hstart, hlife]
    rfl
  | start calls h hlife =>
    refine begins rfl rfl (by rw [hlife]; rfl) ?_ (absurd rfl)
    rw [hstart, hlife]
    rfl
  | stopRunning calls h hlife => exact begins rfl rfl d.lifecycle.on_stop.symm rfl (absurd rfl)
  | stopQuiet calls h hlife => exact begins rfl rfl d.lifecycle.on_stop.symm rfl (absurd rfl)
  | refuseLate item calls hclosed =>
    have hrun := hs.running (by simp [Pending.owed])
    rw [(hc.unlocked (by rw [hrun]; nofun)).2] at hclosed
    cases hclosed
  | _ => exact hs.goes_on rfl rfl rfl

/-- A single caller at a desk whose callbacks stop nothing. -/
structure Hears (calls : List Call) (h : History) (d : Desk β) (tr : Trace) : Prop where
  course : Course h d
  harmless : Harmless d
  caller : ∃ q, d.callers = [q] ∧ Standing calls (tr.ofThread (.caller 0)).answers d q

namespace Hears

variable {calls : List Call}

theorem start (settings : Settings) (s : β) (register : Register)
    (hcalm : ∀ c ∈ calls.filterMap Call.callback?, Call.anyStops c = false) :
    Hears calls [] ((closed settings s register).withCallers [calls]) [] where
  course := .start settings s register [calls]
  harmless := .start settings s register (by simpa using hcalm)
  caller := ⟨Program.ofCalls calls, rfl, ⟨[], rfl, rfl, rfl⟩, absurd rfl⟩

theorem clock (now : Int64) (hh : Hears calls h d tr) : Hears calls h { d with now := now } tr :=
  ⟨hh.course.clock now,
    ⟨hh.harmless.asleep, hh.harmless.callers, hh.harmless.waiting, hh.harmless.workers⟩,
    hh.caller.imp fun _ ⟨hq, hs⟩ => ⟨hq, hs.made, hs.running⟩⟩

theorem step (hh : Hears calls h d tr) (hm : Moves b t d d' events) :
    Hears calls (h ++ d.begun t) d' (tr ++ Trace.ofStep t events) := by
  refine ⟨hh.course.step hm, hh.harmless.step hm, ?_⟩
  obtain ⟨q, hcallers, hs⟩ := hh.caller
  cases hm with
  | @caller n d d' r q' events hat hp =>
    obtain ⟨rfl, rfl⟩ : n = 0 ∧ r = q := by
      rw [hcallers] at hat
      cases n with
      | zero => exact ⟨rfl, (Option.some.inj hat).symm⟩
      | succ n => cases hat
    have hstanding := hs.step hh.course hp
    refine ⟨q', ?_, ?_⟩
    · show d'.callers.set 0 q' = [q']
      rw [hp.frame.callers, hcallers]
      rfl
    · rw [Trace.ofThread_step_self, Trace.answers, Trace.pick_step]
      exact ⟨hstanding.made, hstanding.running⟩
  | @worker n d d' p p' events hat hw =>
    obtain ⟨-, hlife, -⟩ := hw.quiet hh.harmless hat
    obtain ⟨made, hcalls, hanswers, hl⟩ := hs.made
    refine ⟨q, hw.callers_eq.trans hcallers, ?_⟩
    have hne : Thread.worker n ≠ .caller 0 := nofun
    rw [Trace.ofThread_step_of_ne tr hne]
    exact ⟨⟨made, hcalls, hanswers, hlife.trans hl⟩, fun ho => hlife.trans (hs.running ho)⟩

/-- What a single caller was told so far is told in order. -/
theorem told_prefix (hh : Hears calls h d tr) :
    (tr.ofThread (.caller 0)).answers <+: answersTo [] calls := by
  obtain ⟨q, -, ⟨made, hcalls, hanswers, -⟩, -⟩ := hh.caller
  rw [hcalls, answersTo_append, ← hanswers, List.append_assoc]
  exact List.prefix_append _ _

/-- A single caller that is done was told of all its calls. -/
theorem told_all (hh : Hears calls h d tr) (hdone : ∀ q ∈ d.callers, q.finished = true) :
    (tr.ofThread (.caller 0)).answers = answersTo [] calls := by
  obtain ⟨q, hq, ⟨made, hcalls, hanswers, -⟩, -⟩ := hh.caller
  have hfinished := hdone q (by rw [hq]; exact List.mem_singleton.2 rfl)
  rw [Program.finished, Bool.and_eq_true, Option.isNone_iff_eq_none, List.isEmpty_iff] at hfinished
  obtain ⟨hpending, hnil⟩ := hfinished
  rw [hnil, List.append_nil] at hcalls
  rw [hpending] at hanswers
  rw [hcalls, ← hanswers]
  exact (List.append_nil _).symm

end Hears

/-- **What a single caller is told follows from its own calls.** -/
theorem follow_hears {settings : Settings} {s : β} {register : Register} {program : List Call}
    {schedule : List Turn} {d₀ : Desk β} (hopen : open? settings s register = .ok d₀)
    (hcalm : ∀ c ∈ program.filterMap Call.callback?, Call.anyStops c = false)
    (hrun : (d₀.withCallers [program]).follow b schedule = some (d, tr)) :
    Hears program (calls b schedule (d₀.withCallers [program])) d tr := by
  obtain ⟨rfl, -⟩ := open?_eq hopen
  exact follow_history (P := Hears program) (fun now h => h.clock now) (fun h hm => h.step hm) [] []
    (Hears.start settings s register hcalm) hrun

end Desk

end DealDesk
