import DealDesk.Proofs.Desk.Budget
import DealDesk.Proofs.Desk.Lifetime
import DealDesk.Proofs.Desk.Line

/-!
# Waiting for each other

* `Stuck`, `Halted` — why a program or a worker cannot take a step.
* `Standoff` — a thread that stops the desk has the lock and waits for a worker, whose callback waits for
  the lock.
* `Course.moves_or_standoff` — while a stop has not returned, or an accepted item is not recorded, a
  thread can take a step or there is a standoff.
* `Standoff.step` — a standoff stays.

`stalls_only_in_standoff` is the main result, and `stop_waits_forever` a run that ends so. A stop skips
the worker that it runs on and no other.
-/

namespace DealDesk

/-- Does the call take the lock on the lifecycle? -/
def Call.locks (c : Call) : Bool := c.isStart || c.isStop

/-- What a running callback has still to do is the end of what its item asked for. -/
def Position.Faithful : Position → Prop
  | .notifying item _ q => ∃ calls, item.callback = some calls ∧ q.calls <:+ calls
  | _ => True

namespace Desk

variable {β : Type} {b : Broker β} {n : Nat} {t u : Thread} {d d' : Desk β} {p p' : Position}
  {q q' : Program} {events : List Event} {tr : Trace} {h : History}

/-! ## Why a thread cannot take a step -/

/-- Why thread `t` cannot go on with a program. -/
inductive Stuck (t : Thread) (d : Desk β) : Program → Prop
  | done : Stuck t d ⟨none, []⟩
  | lock (call : Call) (calls : List Call) (hc : call.locks = true) (hl : d.lock ≠ none) :
      Stuck t d ⟨none, call :: calls⟩
  | worker (n : Nat) (rest : List Nat) (calls : List Call) (hn : t ≠ .worker n)
      (hs : d.hasStopped n = false) : Stuck t d ⟨some (.join (n :: rest)), calls⟩

theorem stuck_of_perform (h : d.perform t q = none) : Stuck t d q := by
  obtain ⟨pending, calls⟩ := q
  cases pending with
  | some pending =>
    have hr : d.resume t pending = none := Option.map_eq_none_iff.1 h
    cases pending with
    | draw order callback => cases hr
    | enqueue item =>
      simp only [resume] at hr
      split at hr <;> cases hr
    | close joined => cases joined <;> cases hr
    | join joined =>
      cases joined with
      | nil => cases hr
      | cons n rest =>
        simp only [resume] at hr
        split at hr
        · cases hr
        · rename_i hn
          split at hr
          · cases hr
          · rename_i hs
            exact .worker n rest calls hn (by simpa using hs)
  | none =>
    cases calls with
    | nil => exact .done
    | cons call calls =>
      have hb : d.begin t call = none := Option.map_eq_none_iff.1 h
      cases call with
      | deliver box => cases hb
      | fail => cases hb
      | submit order callback =>
        simp only [begin] at hb
        split at hb <;> cases hb
      | start =>
        simp only [begin] at hb
        split at hb
        · rename_i hl
          exact .lock .start calls rfl (Option.isSome_iff_ne_none.1 hl)
        · split at hb <;> cases hb
      | stop =>
        simp only [begin] at hb
        split at hb
        · rename_i hl
          exact .lock .stop calls rfl (Option.isSome_iff_ne_none.1 hl)
        · cases hb

/-- Why worker `n` cannot go on from a position. -/
inductive Halted (n : Nat) (d : Desk β) : Position → Prop
  | stopped : Halted n d .stopped
  | starved (hi : d.backlog.items = []) (hc : d.backlog.closed = false) : Halted n d .dequeuing
  | callback (item : Item) (s : Settlement) (q : Program) (hq : q ≠ ⟨none, []⟩)
      (hs : Stuck (.worker n) d q) : Halted n d (.notifying item s q)

theorem halted_of_notify {item : Item} {s : Settlement} (h : d.notify (.worker n) item s q = none) :
    Halted n d (.notifying item s q) := by
  unfold notify at h
  split at h
  · cases h
  · cases h
  · cases h
  · rename_i hdone _ _
    refine .callback item s q ?_ (stuck_of_perform (Option.map_eq_none_iff.1 h))
    rintro rfl
    exact hdone rfl rfl

theorem halted_of_work (h : d.work b n p = none) : Halted n d p := by
  cases p with
  | stopped => exact .stopped
  | dequeuing =>
    simp only [work, Backlog.dequeue] at h
    cases hi : d.backlog.items with
    | nil =>
      cases hc : d.backlog.closed with
      | false => exact .starved hi hc
      | true => simp [hi, hc] at h
    | cons item rest => simp [hi] at h
  | notifying item s q => exact halted_of_notify h
  | _ => cases h

theorem halted_of_step (hat : d.workers[n]? = some p) (h : d.step b (.worker n) = none) :
    Halted n d p := by
  rw [step, hat] at h
  exact halted_of_work (Option.map_eq_none_iff.1 h)

/-- A thread that cannot take a step is stuck in the program that it is in, if it is in one. -/
theorem stuck_of_step (h : d.step b t = none) :
    ((d.pending? t).isSome ∨ (d.next? t).any Call.locks) →
    ∃ q, d.pending? t = q.pending ∧ d.next? t = q.next? ∧ Stuck t d q := by
  cases t with
  | caller n =>
    cases hat : d.callers[n]? with
    | none => simp [pending?, next?, hat]
    | some q =>
      intro _
      rw [step, hat] at h
      refine ⟨q, pending?_caller hat, ?_, stuck_of_perform (Option.map_eq_none_iff.1 h)⟩
      rw [next?, hat, Option.bind_some]
  | worker n =>
    cases hat : d.workers[n]? with
    | none => simp [pending?, next?, hat]
    | some p =>
      rw [pending?_worker hat, next?, hat, Option.bind_some]
      cases halted_of_step hat h with
      | callback item s q hq hs => exact fun _ => ⟨q, rfl, rfl, hs⟩
      | stopped => simp [Position.pending, Position.next?]
      | starved hi hc => simp [Position.pending, Position.next?]

/-- A thread that has a call under way and cannot take a step waits for a worker. -/
theorem waits_of_pending {was : Pending} (hp : d.pending? t = some was) (h : d.step b t = none) :
    ∃ n rest, was = .join (n :: rest) ∧ t ≠ .worker n ∧ d.hasStopped n = false := by
  obtain ⟨q, hq, -, hs⟩ := stuck_of_step h (.inl (by rw [hp]; rfl))
  rw [hp] at hq
  cases hs with
  | done => cases hq
  | lock call calls hc hl => cases hq
  | worker n rest calls hn hs => cases hq; exact ⟨n, rest, rfl, hn, hs⟩

/-- A thread that is about to start or stop the desk and cannot take a step waits for the lock. -/
theorem locked_of_next {call : Call} (hn : d.next? t = some call) (hc : call.locks = true)
    (h : d.step b t = none) : d.lock ≠ none := by
  obtain ⟨q, -, hq, hs⟩ := stuck_of_step h (.inr (by rw [hn]; exact hc))
  rw [hn] at hq
  cases hs with
  | done => cases hq
  | lock call calls hc hl => exact hl
  | worker n rest calls hn hs => cases hq

/-! ## Standoffs -/

/-- Thread `t` has the lock and waits for worker `n`, whose callback waits for the lock. -/
structure Standoff (d : Desk β) (t : Thread) (n : Nat) : Prop where
  other : t ≠ .worker n
  holds : d.lock = some t
  waits : ∃ rest, d.pending? t = some (.join (n :: rest))
  asks : ∃ call, d.next? (.worker n) = some call ∧ call.locks = true

/-- Has the thread begun to stop the desk, or is it about to? -/
def atStop (d : Desk β) (t : Thread) : Bool :=
  (d.next? t).any Call.isStop || (d.pending? t).any Pending.isStop

/-- Whoever has the lock is stopping the desk. -/
def Held (d : Desk β) : Prop :=
  ∀ t, d.lock = some t → ∃ stop, d.pending? t = some stop ∧ stop.isStop = true

/-- A program that takes the lock goes on with the stop, and one that returns gives it back. -/
theorem Performs.held (h : Performs t d q d' q' events)
    (hq : d.lock = some t → ∃ stop, q.pending = some stop ∧ stop.isStop = true) :
    (∀ u, d'.lock = some u → u ≠ t → d.lock = some u) ∧
      (d'.lock = some t → ∃ stop, q'.pending = some stop ∧ stop.isStop = true) := by
  cases h with
  | stopRunning calls hl hlife =>
    exact ⟨fun u hu hne => absurd (Option.some.inj hu).symm hne, fun _ => ⟨_, rfl, rfl⟩⟩
  | stopQuiet calls hl hlife =>
    exact ⟨fun u hu hne => absurd (Option.some.inj hu).symm hne, fun _ => ⟨_, rfl, rfl⟩⟩
  | closeQuiet calls => exact ⟨nofun, nofun⟩
  | leave calls => exact ⟨nofun, nofun⟩
  | close workers calls => exact ⟨fun u hu _ => hu, fun _ => ⟨_, rfl, rfl⟩⟩
  | skip n rest calls ht => exact ⟨fun u hu _ => hu, fun _ => ⟨_, rfl, rfl⟩⟩
  | join n rest calls hs => exact ⟨fun u hu _ => hu, fun _ => ⟨_, rfl, rfl⟩⟩
  | _ =>
    refine ⟨fun u hu _ => hu, fun hl => ?_⟩
    obtain ⟨stop, hs, his⟩ := hq hl
    cases hs <;> cases his

theorem Held.step (hh : d.Held) (hz : d.Asleep) (hm : Moves b t d d' events) : d'.Held := by
  intro u hu
  rcases hm.call_cases hz with ⟨q, q', d₁, hq, -, hq', hperforms, hsame⟩ | ⟨hq, -, -, hidle⟩
  · obtain ⟨hothers, hself⟩ := hperforms.held (hq ▸ hh t)
    rw [hsame.lock] at hu
    by_cases hut : u = t
    · subst hut
      rw [hq']
      exact hself hu
    · rw [hm.pending?_of_ne hz (Ne.symm hut)]
      exact hh u (hothers u hu hut)
  · rw [hidle.lock] at hu
    obtain ⟨stop, hs, his⟩ := hh u hu
    have hut : t ≠ u := by
      rintro rfl
      rw [hq] at hs
      cases hs
    exact ⟨stop, (hm.pending?_of_ne hz hut).trans hs, his⟩

/-! ## Nothing else stands in the way -/

/-- Nobody can take a step. -/
def Still (b : Broker β) (d : Desk β) : Prop := ∀ t, d.step b t = none

/-- **If nobody can take a step and somebody has the lock, there is a standoff**: what keeps the worker
that is waited for from its end can only be the lock. -/
theorem Ends.standoff_of_lock (he : Ends h d tr) (hh : d.Held) (hs : d.Still b)
    (hl : d.lock = some t) : ∃ n, d.Standoff t n := by
  obtain ⟨stop, hp, hstop⟩ := hh t hl
  obtain ⟨n, rest, rfl, hn, hrunning⟩ := waits_of_pending hp (hs t)
  have hclosed := he.course.joining t _ hp
  refine ⟨n, hn, hl, ⟨rest, hp⟩, ?_⟩
  cases hat : d.workers[n]? with
  | none =>
    rw [hasStopped, hat] at hrunning
    cases hrunning
  | some p =>
    rw [hasStopped, hat] at hrunning
    cases halted_of_step hat (hs (.worker n)) with
    | stopped => cases hrunning
    | starved hi hc => rw [hc] at hclosed; cases hclosed
    | callback item s q hq hstuck =>
      cases hstuck with
      | done => exact absurd rfl hq
      | lock call calls hc _ =>
        refine ⟨call, ?_, hc⟩
        rw [next?, hat]
        rfl
      | worker m rest' calls hm hs' =>
        -- the worker would be stopping the desk itself, and have the lock
        have hlock := he.course.holder (.worker n) _ (pending?_worker hat) rfl
        exact absurd (Option.some.inj (hl.symm.trans hlock)) hn

/-- While the lock is free and an accepted item is not recorded, somebody can take a step. -/
theorem Ends.recorded_of_unlocked (he : Ends h d tr) (ht : Tended d tr) (hs : d.Still b)
    (hl : d.lock = none) : tr.recorded.length = tr.accepted.length := by
  have hhalted : ∀ p ∈ d.workers, p.unrecorded = 0 ∧ (d.backlog.items ≠ [] → p.isStopped = true) := by
    intro p hp
    obtain ⟨n, hat⟩ := List.mem_iff_getElem?.1 hp
    cases halted_of_step hat (hs (.worker n)) with
    | stopped => exact ⟨rfl, fun _ => rfl⟩
    | starved hi hc => exact ⟨rfl, fun hitems => absurd hi hitems⟩
    | callback item s q hq hstuck =>
      cases hstuck with
      | done => exact absurd rfl hq
      | lock call calls hc hl' => exact absurd hl hl'
      | worker m rest calls hm hs' =>
        have hlock := he.course.holder (.worker n) _ (pending?_worker hat) rfl
        rw [hl] at hlock
        cases hlock
  have hitems : d.backlog.items = [] := by
    by_contra hne
    cases hw : d.workers with
    | nil => exact hne (he.unopened hw).1.items
    | cons p rest =>
      have hp : p ∈ d.workers := by rw [hw]; exact List.mem_cons_self
      exact hne (he.retired p hp ((hhalted p hp).2 hne)).2
  have hi := congrArg Multiset.card ht.items
  rw [hitems, overWorkers_eq_zero fun p hp => (hhalted p hp).1] at hi
  simpa using hi.symm

/-- **Somebody can take a step or there is a standoff**, while a stop has not returned or an accepted
item is not recorded. -/
theorem Ends.moves_or_standoff (he : Ends h d tr) (ht : Tended d tr) (hh : d.Held)
    (hopen : (∃ t, d.atStop t = true) ∨ tr.recorded.length ≠ tr.accepted.length) :
    (∃ t, d.step b t ≠ none) ∨ ∃ t n, d.Standoff t n := by
  by_cases hs : d.Still b
  · right
    cases hl : d.lock with
    | some t =>
      obtain ⟨n, hn⟩ := he.standoff_of_lock hh hs hl
      exact ⟨t, n, hn⟩
    | none =>
      rcases hopen with ⟨t, ht⟩ | hopen
      · rcases Bool.or_eq_true_iff.1 ht with ht | ht
        · obtain ⟨call, hnext, hstop⟩ := (Option.any_eq_true _ _).1 ht
          exact absurd hl (locked_of_next hnext (Bool.or_eq_true_iff.2 (.inr hstop)) (hs t))
        · obtain ⟨stop, hp, hstop⟩ := (Option.any_eq_true _ _).1 ht
          have hlock := he.course.holder t stop hp hstop
          rw [hl] at hlock
          cases hlock
      · exact absurd (he.recorded_of_unlocked ht hs hl) hopen
  · left
    exact not_forall.1 hs

/-! ## A standoff stays -/

/-- A step moves nobody on to another call but its own thread. -/
theorem Moves.next?_of_ne (hz : d.Asleep) (hm : Moves b t d d' events) (hu : t ≠ .worker n)
    (hn : d.next? (.worker n) ≠ none) : d'.next? (.worker n) = d.next? (.worker n) := by
  cases hm with
  | @caller m d d' q q' events hat hp =>
    show d'.workers[n]?.bind Position.next? = _
    rcases hp.frame.workers with hw | ⟨hl, -⟩
    · rw [hw]
      rfl
    · refine absurd ?_ hn
      rw [next?, hz hl]
      rfl
  | @worker m d d' p p' events hat hw =>
    have hmn : m ≠ n := fun he => hu (congrArg Thread.worker he)
    show (d'.workers.set m p')[n]?.bind Position.next? = _
    rw [hw.workers_eq hz hat, List.getElem?_set_ne hmn]
    rfl

/-- A thread in the callback of a worker has not stopped. -/
theorem hasStopped_of_next {call : Call} (hn : d.next? (.worker n) = some call) :
    d.hasStopped n = false := by
  rw [next?] at hn
  cases hat : d.workers[n]? with
  | none => rw [hat] at hn; cases hn
  | some p =>
    rw [hat] at hn
    rw [hasStopped, hat]
    cases p <;> first | rfl | cases hn

/-- Who holds the lock waits on, and so does the callback. -/
theorem Standoff.still (hs : d.Standoff t n) (hz : d.Asleep) (hm : Moves b u d d' events) :
    u ≠ t ∧ u ≠ .worker n := by
  obtain ⟨rest, hwaits⟩ := hs.waits
  obtain ⟨call, hnext, hlocks⟩ := hs.asks
  constructor
  · rintro rfl
    rcases hm.call_cases hz with ⟨q, q', d₁, hq, -, -, hperforms, -⟩ | ⟨hq, -⟩
    · rw [hwaits] at hq
      cases hperforms with
      | skip m rest' calls hm => cases hq; exact hs.other hm
      | join m rest' calls hstopped =>
        cases hq
        rw [hasStopped_of_next hnext] at hstopped
        cases hstopped
      | _ => cases hq
    · rw [hwaits] at hq
      cases hq
  · rintro rfl
    have hlock := hs.holds
    rcases hm.call_cases hz with ⟨q, q', d₁, -, hq, -, hperforms, -⟩ | ⟨-, hquiet, -⟩
    · rw [hnext] at hq
      cases hperforms with
      | startAgain calls hl hlife => rw [hl] at hlock; cases hlock
      | startLate calls hl hlife => rw [hl] at hlock; cases hlock
      | start calls hl hlife => rw [hl] at hlock; cases hlock
      | stopRunning calls hl hlife => rw [hl] at hlock; cases hlock
      | stopQuiet calls hl hlife => rw [hl] at hlock; cases hlock
      | _ => cases hq <;> cases hlocks
    · rw [begun, hnext] at hquiet
      obtain ⟨hstart, hstop⟩ := hquiet (.worker n, call) List.mem_cons_self
      rw [Call.locks, hstart, hstop] at hlocks
      cases hlocks

/-- **A standoff stays**: neither of the two can take a step, and nobody else gives the lock back. -/
theorem Standoff.step (hs : d.Standoff t n) (hc : Course h d) (hm : Moves b u d d' events) :
    d'.Standoff t n := by
  have hz := hc.asleep
  obtain ⟨hut, hun⟩ := hs.still hz hm
  obtain ⟨rest, hwaits⟩ := hs.waits
  obtain ⟨call, hnext, hlocks⟩ := hs.asks
  have hwaits' : d'.pending? t = some (.join (n :: rest)) :=
    (hm.pending?_of_ne hz hut).trans hwaits
  refine ⟨hs.other, ?_, ⟨rest, hwaits'⟩, call, ?_, hlocks⟩
  · exact (hc.step hm).holder t _ hwaits' rfl
  · rw [hm.next?_of_ne hz hun (by rw [hnext]; nofun), hnext]

/-! ## Where it comes from -/

theorem Performs.calls_suffix (h : Performs t d q d' q' events) : q'.calls <:+ q.calls := by
  cases h <;> first | exact List.suffix_rfl | exact List.suffix_cons _ _

theorem Works.faithful (hp : p.Faithful) (h : Works b d n p d' p' events) : p'.Faithful := by
  cases h with
  | recordAndNotify item s calls h => exact ⟨calls, h, List.suffix_rfl⟩
  | deliver item s box calls =>
    obtain ⟨all, hall, hsuffix⟩ := hp
    exact ⟨all, hall, (List.suffix_cons _ _).trans hsuffix⟩
  | act item s q d' q' events h hd hf =>
    obtain ⟨all, hall, hsuffix⟩ := hp
    exact ⟨all, hall, h.calls_suffix.trans hsuffix⟩
  | _ => trivial

/-- What decides whether a desk can get stuck. -/
structure Interlock (h : History) (d : Desk β) (tr : Trace) : Prop where
  ends : Ends h d tr
  tended : Tended d tr
  held : d.Held
  faithful : ∀ p ∈ d.workers, p.Faithful

namespace Interlock

theorem start {settings : Settings} (s : β) (register : Register) (programs : List (List Call))
    (hw : settings.workers ≠ 0) :
    Interlock [] ((closed settings s register).withCallers programs) [] where
  ends := .start s register programs hw
  tended := .start settings s register programs
  held t ht := by cases ht
  faithful p hp := by cases hp

theorem clock (now : Int64) (hd : Interlock h d tr) : Interlock h { d with now := now } tr :=
  ⟨hd.ends.clock now, hd.tended.clock now, hd.held, hd.faithful⟩

theorem step (hd : Interlock h d tr) (hm : Moves b t d d' events) :
    Interlock (h ++ d.begun t) d' (tr ++ Trace.ofStep t events) := by
  have hz := hd.tended.asleep
  refine ⟨hd.ends.step hm, hd.tended.step hm, hd.held.step hz hm, ?_⟩
  cases hm with
  | caller hat hp =>
    have hw := hp.forall_workers (P := Position.Faithful) trivial hd.faithful
    exact hw
  | worker hat hw =>
    exact hw.forall_workers hz hat hd.faithful
      (hw.faithful (hd.faithful _ (List.mem_of_getElem? hat)))

/-- What a callback does next was asked for by an accepted item. -/
theorem mem_callback (hd : Interlock h d tr) {call : Call}
    (hnext : d.next? (.worker n) = some call) :
    ∃ item ∈ tr.accepted, ∃ calls, item.callback = some calls ∧ call ∈ calls := by
  rw [next?] at hnext
  cases hat : d.workers[n]? with
  | none => rw [hat] at hnext; cases hnext
  | some p =>
    rw [hat, Option.bind_some] at hnext
    have hp := List.mem_of_getElem? hat
    cases p with
    | notifying item s q =>
      obtain ⟨calls, hcalls, hsuffix⟩ := hd.faithful _ hp
      have hrecorded : item ∈ tr.recorded.map Prod.fst :=
        List.mem_map_of_mem (f := Prod.fst) (hd.tended.onRecord _ hp)
      refine ⟨item, hd.tended.recorded_subperm.subset hrecorded, calls, hcalls, ?_⟩
      refine hsuffix.subset ?_
      obtain ⟨pending, ahead⟩ := q
      cases pending with
      | some pending => cases hnext
      | none => exact List.mem_of_mem_head? hnext
    | _ => cases hnext

/-- In a standoff the callback of an accepted item starts or stops the desk itself. -/
theorem blame (hd : Interlock h d tr) (hs : d.Standoff t n) :
    ∃ item ∈ tr.accepted, ∃ calls, item.callback = some calls ∧ calls.any Call.locks = true := by
  obtain ⟨call, hnext, hlocks⟩ := hs.asks
  obtain ⟨item, hitem, calls, hcalls, hmem⟩ := hd.mem_callback hnext
  exact ⟨item, hitem, calls, hcalls, List.any_eq_true.2 ⟨call, hmem, hlocks⟩⟩

end Interlock

theorem follow_interlock {settings : Settings} {s : β} {register : Register}
    {programs : List (List Call)} {schedule : List Turn} {d₀ : Desk β}
    (hopen : open? settings s register = .ok d₀)
    (hrun : (d₀.withCallers programs).follow b schedule = some (d, tr)) :
    Interlock (calls b schedule (d₀.withCallers programs)) d tr := by
  obtain ⟨rfl, hw⟩ := open?_eq hopen
  exact follow_history (P := Interlock) Interlock.clock (fun h hm => h.step hm) [] []
    (Interlock.start s register programs hw) hrun

/-! ## The ways in which a desk stalls -/

/-- How the calls to start and to stop a desk can come to wait for each other. -/
structure Stalls (b : Broker β) (d : Desk β) (tr : Trace) : Prop where
  /-- Nothing but a standoff keeps a stop from returning or an accepted item from its record. -/
  moves : (∃ t, d.atStop t = true) ∨ tr.recorded.length ≠ tr.accepted.length →
    (∃ t, d.step b t ≠ none) ∨ ∃ t n, d.Standoff t n
  /-- It takes an accepted item whose callback itself starts or stops the desk. -/
  blame : ∀ t n, d.Standoff t n →
    ∃ item ∈ tr.accepted, ∃ calls, item.callback = some calls ∧ calls.any Call.locks = true
  /-- Whatever the others do, neither of the two takes a step any more. -/
  stays : ∀ t n, d.Standoff t n → ∀ later d' tr', d.follow b later = some (d', tr') →
    d'.Standoff t n ∧ d'.step b t = none ∧ d'.step b (.worker n) = none

/-- Neither of the two can take a step. -/
theorem Standoff.step_eq_none (hs : d.Standoff t n) (hz : d.Asleep) :
    d.step b t = none ∧ d.step b (.worker n) = none := by
  constructor
  · by_contra hsome
    obtain ⟨⟨d', events⟩, hstep⟩ := Option.ne_none_iff_exists'.1 hsome
    exact (hs.still hz (step_cases hstep)).1 rfl
  · by_contra hsome
    obtain ⟨⟨d', events⟩, hstep⟩ := Option.ne_none_iff_exists'.1 hsome
    exact (hs.still hz (step_cases hstep)).2 rfl

/-- **A desk stalls only in a standoff.** On every run, as long as a stop has not returned or an
accepted item is not recorded, a thread can take a step, or a thread that stops the desk waits for a
worker whose callback waits for that stop to return: this stays so, and it takes a callback that
itself starts or stops the desk. No run is longer than the budget, so each comes to its end. -/
theorem stalls_only_in_standoff {settings : Settings} {s : β} {register : Register}
    {programs : List (List Call)} {schedule : List Turn} {d₀ : Desk β}
    (hopen : open? settings s register = .ok d₀)
    (hrun : (d₀.withCallers programs).follow b schedule = some (d, tr)) :
    Stalls b d tr ∧ schedule.length ≤ (d₀.withCallers programs).budget := by
  have hd := follow_interlock hopen hrun
  refine ⟨⟨fun hopen => hd.ends.moves_or_standoff hd.tended hd.held hopen, fun t n => hd.blame,
    fun t n hs later d' tr' hlater => ?_⟩, ?_⟩
  · obtain ⟨hc, hs'⟩ := follow_history (P := fun h d _ => Course h d ∧ d.Standoff t n)
      (fun now h => ⟨h.1.clock now, ⟨h.2.other, h.2.holds, h.2.waits, h.2.asks⟩⟩)
      (fun h hm => ⟨h.1.step hm, h.2.step h.1 hm⟩) _ [] ⟨hd.ends.course, hs⟩ hlater
    exact ⟨hs', hs'.step_eq_none hc.asleep⟩
  · obtain ⟨rfl, -⟩ := open?_eq hopen
    have hstaffed : ((closed settings s register).withCallers programs).Staffed :=
      ⟨fun _ => rfl, Nat.zero_le _⟩
    have hunstopping : ((closed settings s register).withCallers programs).Unstopping := by
      intro t stop hp
      rw [pending?_start] at hp
      cases hp
    have hleft := length_add_stepsLeft_le hstaffed hrun
    have hbudget := stepsLeft_le_budget hunstopping
    omega

/-! ## Two stops -/

/-- A caller stops the desk, and so does the callback of its order. -/
def stopsAndIsStopped : List Call :=
  [.start, .submit (plainOrder "r-1") (some [.stop]), .stop]

/-- The caller has the lock before the callback asks for it. -/
def stoppedTwice : Option (Desk Scripted × Trace) :=
  ((closed oneWorker lossy Register.empty).withCallers [stopsAndIsStopped]).follow Scripted.broker
    (turns (.caller 0) 4 ++ turns (.worker 0) 9 ++ turns (.caller 0) 2)

/-- **Two stops can wait for each other**: the caller's for the worker to end, and that of the worker's
callback for the caller to return. -/
theorem stop_waits_forever : ∃ d, ∃ tr : Trace, stoppedTwice = some (d, tr) ∧
    d.atStop (.caller 0) = true ∧ d.atStop (.worker 0) = true ∧
    ∀ t, d.step Scripted.broker t = none := by
  have hends : stoppedTwice.map (fun r => (r.1.atStop (.caller 0), r.1.atStop (.worker 0),
      (r.1.advance Scripted.broker false).isNone)) = some (true, true, true) := by
    decide +kernel
  obtain ⟨⟨d, tr⟩, hrun, hends⟩ := Option.map_eq_some_iff.1 hends
  obtain ⟨hcaller, hrest⟩ := Prod.mk.inj hends
  obtain ⟨hworker, hnone⟩ := Prod.mk.inj hrest
  exact ⟨d, tr, hrun, hcaller, hworker, step_of_advance (Option.isNone_iff_eq_none.1 hnone)⟩

theorem stalls_only_in_standoff_stoppedTwice : ∃ d, ∃ tr : Trace, stoppedTwice = some (d, tr) ∧
    (∃ t n, d.Standoff t n) ∧ ∃ item ∈ tr.accepted, ∃ calls, item.callback = some calls ∧
      calls.any Call.locks = true := by
  have hends : stoppedTwice.map (fun r => (r.1.atStop (.caller 0),
      (r.1.advance Scripted.broker false).isNone)) = some (true, true) := by
    decide +kernel
  obtain ⟨⟨d, tr⟩, hrun, hends⟩ := Option.map_eq_some_iff.1 hends
  obtain ⟨hcaller, hnone⟩ := Prod.mk.inj hends
  have hopen : open? oneWorker lossy Register.empty =
    .ok (closed oneWorker lossy Register.empty) := rfl
  obtain ⟨hstalls, -⟩ := stalls_only_in_standoff hopen hrun
  rcases hstalls.moves (.inl ⟨_, hcaller⟩) with ⟨t, ht⟩ | ⟨t, n, hs⟩
  · exact absurd (step_of_advance (Option.isNone_iff_eq_none.1 hnone) t) ht
  · exact ⟨d, tr, hrun, ⟨t, n, hs⟩, hstalls.blame t n hs⟩

end Desk

end DealDesk
