import DealDesk.Proofs.Desk.Callbacks
import DealDesk.Proofs.Desk.Kept

/-!
# Stopping a desk

* `Stage` — how far stopping has come: nobody has the lock, or one caller has it and is about to
  close the backlog, or waits for the workers that are left.
* `Shutdown` — the stage, and what holds of a desk that was never opened and of a worker that has
  stopped.
* `Shutdown.drained` — once every stop has returned the backlog is empty and no worker is left.

`nothing_lost` is the main result: then every accepted order is recorded, and only those are.
-/

namespace DealDesk

/-- The part of a stop that is under way. -/
def Program.closing (p : Program) : Option Pending := p.pending.filter Pending.isStop

/-- Is a submission under way? -/
def Program.submits (p : Program) : Bool := p.pending.any fun pending => !pending.isStop

theorem eq_of_getElem?_set_replicate {α : Type} {k m n : Nat} {c c' : α}
    (h : ((List.replicate k none).set m (some c))[n]? = some (some c')) : m = n ∧ c = c' := by
  rw [List.getElem?_set] at h
  split at h
  · rename_i hmn
    split at h
    · exact ⟨hmn, by simpa using h⟩
    · cases h
  · rw [List.getElem?_replicate] at h
    split at h <;> cases h

namespace Desk

variable {β : Type} {b : Broker β} {n : Nat} {t : Thread} {d d' : Desk β} {p p' : Position}
  {q q' : Program} {events : List Event} {tr : Trace}

/-! ## Stages -/

def closings (d : Desk β) : List (Option Pending) := d.callers.map Program.closing

/-- How far a stop that is under way has come: the workers it does not wait for have stopped. -/
def Reached (d : Desk β) : Pending → Prop
  | .close workers => ∀ k, k ∉ workers.getD [] → d.hasStopped k = true
  | .join workers => d.backlog.closed = true ∧ ∀ k, k ∉ workers → d.hasStopped k = true
  | .draw _ _ | .enqueue _ => True

inductive Stage (d : Desk β) : Prop
  | unlocked (h : d.lock = none) (hc : d.closings = List.replicate d.callers.length none)
      (hs : d.lifecycle = .stopped → d.backlog.closed = true ∧ ∀ k, d.hasStopped k = true)
  | locked (n : Nat) (stop : Pending) (h : d.lock = some (.caller n)) (hl : d.lifecycle = .stopped)
      (hn : n < d.callers.length)
      (hc : d.closings = (List.replicate d.callers.length none).set n (some stop))
      (hs : d.Reached stop)

theorem Reached.mono {stop : Pending} (hclosed : d.backlog.closed = true → d'.backlog.closed = true)
    (hs : ∀ k, d.hasStopped k = true → d'.hasStopped k = true) (h : d.Reached stop) :
    d'.Reached stop := by
  cases stop with
  | close workers => exact fun k hk => hs k (h k hk)
  | join workers => exact ⟨hclosed h.1, fun k hk => hs k (h.2 k hk)⟩
  | _ => trivial

namespace Stage

/-- A step that touches neither lock nor lifecycle keeps the stage. -/
theorem quiet (hst : d.Stage) (hlock : d'.lock = d.lock) (hlife : d'.lifecycle = d.lifecycle)
    (hclosed : d'.backlog.closed = d.backlog.closed) (hc : d'.closings = d.closings)
    (hs : ∀ k, d.hasStopped k = true → d'.hasStopped k = true) : d'.Stage := by
  have hlen : d'.callers.length = d.callers.length := by
    simpa [closings] using congrArg List.length hc
  cases hst with
  | unlocked h hc' hs' =>
    refine .unlocked (hlock.trans h) (by rw [hc, hc', hlen]) fun hl => ?_
    obtain ⟨hcl, hall⟩ := hs' (hlife ▸ hl)
    exact ⟨hclosed.trans hcl, fun k => hs k (hall k)⟩
  | locked n stop h hl hn hc' hs' =>
    exact .locked n stop (hlock.trans h) (hlife.trans hl) (hlen ▸ hn) (by rw [hc, hc', hlen])
      (hs'.mono (fun hcl => hclosed.trans hcl) hs)

/-- Nobody is stopping while the lock is free. -/
theorem of_lock_none (hst : d.Stage) (h : d.lock = none) :
    d.closings = List.replicate d.callers.length none ∧
      (d.lifecycle = .stopped → d.backlog.closed = true ∧ ∀ k, d.hasStopped k = true) := by
  cases hst with
  | unlocked _ hc hs => exact ⟨hc, hs⟩
  | locked n stop h' => rw [h] at h'; cases h'

/-- Who is stopping has the lock. -/
theorem of_closing {stop : Pending} (hst : d.Stage) (h : d.closings[n]? = some (some stop)) :
    d.lock = some (.caller n) ∧ d.lifecycle = .stopped ∧
      d.closings = (List.replicate d.callers.length none).set n (some stop) ∧ d.Reached stop := by
  cases hst with
  | unlocked h' hc hs =>
    rw [hc, List.getElem?_replicate] at h
    split at h <;> cases h
  | locked m stop' h' hl hn hc hs =>
    rw [hc] at h
    obtain ⟨rfl, rfl⟩ := eq_of_getElem?_set_replicate h
    exact ⟨h', hl, hc, hs⟩

end Stage

/-- A caller's step shows in its own place only. -/
theorem closings_set (d : Desk β) (n : Nat) (q : Program) :
    ({ d with callers := d.callers.set n q } : Desk β).closings = d.closings.set n q.closing :=
  List.map_set

theorem closings_getElem? (hat : d.callers[n]? = some q) : d.closings[n]? = some q.closing := by
  rw [closings, List.getElem?_map, hat]
  rfl

theorem closings_set_self (hat : d.callers[n]? = some q) (h : q'.closing = q.closing) :
    d.closings.set n q'.closing = d.closings := by
  obtain ⟨hn, hq⟩ := List.getElem?_eq_some_iff.1 (closings_getElem? hat)
  rw [h, ← hq, List.set_getElem_self]

/-- A worker that is not there counts as stopped. -/
theorem hasStopped_of_le (h : d.workers.length ≤ n) : d.hasStopped n = true := by
  rw [hasStopped, List.getElem?_eq_none h]

namespace Stage

/-- A caller frees the lock. -/
theorem unlock (hcallers : d'.callers = d.callers) (hq : q'.closing = none)
    (hc : d.closings.set n none = List.replicate d.callers.length none) (h : d'.lock = none)
    (hs : d'.lifecycle = .stopped → d'.backlog.closed = true ∧ ∀ k, d'.hasStopped k = true) :
    ({ d' with callers := d'.callers.set n q' } : Desk β).Stage := by
  refine .unlocked h ?_ hs
  rw [closings_set, hq, closings, hcallers]
  show d.closings.set n none = List.replicate (d.callers.set n q').length none
  rw [hc, List.length_set]

/-- A caller takes the lock, or comes further with the stop for which it has it. -/
theorem advance {stop : Pending} (hcallers : d'.callers = d.callers) (hn : n < d.callers.length)
    (hq : q'.closing = some stop)
    (hc : d.closings.set n (some stop) =
      (List.replicate d.callers.length none).set n (some stop))
    (h : d'.lock = some (.caller n)) (hl : d'.lifecycle = .stopped) (hs : d'.Reached stop) :
    ({ d' with callers := d'.callers.set n q' } : Desk β).Stage := by
  refine .locked n stop h hl ?_ ?_ (hs.mono id fun _ => id)
  · show n < (d'.callers.set n q').length
    rw [hcallers, List.length_set]
    exact hn
  · rw [closings_set, hq, closings, hcallers]
    show d.closings.set n _ = (List.replicate (d.callers.set n q').length none).set n _
    rw [hc, List.length_set]

theorem performs (hz : d.Asleep) (hst : d.Stage) (hat : d.callers[n]? = some q)
    (h : Performs (.caller n) d q d' q' events) :
    ({ d' with callers := d'.callers.set n q' } : Desk β).Stage := by
  have hn : n < d.callers.length := (List.getElem?_eq_some_iff.1 hat).1
  have hcl := closings_getElem? hat
  cases h with
  | start calls h hl =>
    obtain ⟨hc, -⟩ := hst.of_lock_none h
    exact .unlock (d := d) rfl rfl (by rw [hc, List.set_replicate_self]) h nofun
  | stopRunning calls h hl =>
    obtain ⟨hc, -⟩ := hst.of_lock_none h
    refine .advance (d := d) rfl hn rfl (by rw [hc]) rfl rfl fun k hk => ?_
    exact hasStopped_of_le (by simpa using hk)
  | stopQuiet calls h hl =>
    obtain ⟨hc, hs⟩ := hst.of_lock_none h
    refine .advance (d := d) rfl hn rfl (by rw [hc]) rfl rfl fun k hk => ?_
    cases hlife : d.lifecycle with
    | idle =>
      have hk : d.hasStopped k = true := hasStopped_of_le (by rw [hz hlife]; exact Nat.zero_le k)
      exact hk
    | running => exact absurd hlife hl
    | stopped => exact (hs hlife).2 k
  | closeQuiet calls =>
    obtain ⟨hlock, hl, hc, hs⟩ := hst.of_closing hcl
    refine .unlock (d := d) rfl rfl ?_ rfl fun _ => ⟨rfl, fun k => hs k nofun⟩
    rw [hc, List.set_set, List.set_replicate_self]
  | close workers calls =>
    obtain ⟨hlock, hl, hc, hs⟩ := hst.of_closing hcl
    refine .advance (d := d) rfl hn rfl ?_ hlock hl ⟨rfl, fun k hk => hs k hk⟩
    rw [hc, List.set_set]
  | leave calls =>
    obtain ⟨hlock, hl, hc, hs⟩ := hst.of_closing hcl
    refine .unlock (d := d) rfl rfl ?_ rfl fun _ => ⟨hs.1, fun k => hs.2 k nofun⟩
    rw [hc, List.set_set, List.set_replicate_self]
  | skip k rest calls h => cases h
  | join k rest calls h =>
    obtain ⟨hlock, hl, hc, hs⟩ := hst.of_closing hcl
    refine .advance (d := d) rfl hn rfl ?_ hlock hl ⟨hs.1, fun m hm => ?_⟩
    · rw [hc, List.set_set]
    · by_cases hmk : m = k
      · rw [hmk]
        exact h
      · exact hs.2 m (by simp [hmk, hm])
  | _ =>
    refine hst.quiet rfl rfl rfl ?_ fun k hk => hk
    rw [closings_set]
    exact closings_set_self hat rfl

end Stage

/-- A program that stops nothing leaves lock and lifecycle of an opened desk alone. -/
theorem Performs.quiet (hq : q.stops = false) (hl : d.lifecycle ≠ .idle)
    (h : Performs t d q d' q' events) :
    d'.lock = d.lock ∧ d'.lifecycle = d.lifecycle ∧ d'.backlog.closed = d.backlog.closed := by
  cases h with
  | start calls h hidle => exact absurd hidle hl
  | stopRunning calls h hl => cases hq
  | stopQuiet calls h hl => cases hq
  | closeQuiet calls => cases hq
  | close workers calls => cases hq
  | leave calls => cases hq
  | _ => exact ⟨rfl, rfl, rfl⟩

theorem Works.quiet (hh : Harmless d) (hat : d.workers[n]? = some p)
    (h : Works b d n p d' p' events) :
    d'.lock = d.lock ∧ d'.lifecycle = d.lifecycle ∧ d'.backlog.closed = d.backlog.closed := by
  cases h with
  | act item s q d' q' events h hd hf =>
    refine h.quiet (hh.workers _ (List.mem_of_getElem? hat)).1 fun hidle => ?_
    rw [hh.asleep hidle] at hat
    cases hat
  | _ => exact ⟨rfl, rfl, rfl⟩

/-- A worker that has stopped takes no step, and no other worker's step wakes it. -/
theorem Works.hasStopped_set (hz : d.Asleep) (hat : d.workers[n]? = some p)
    (h : Works b d n p d' p' events) {k : Nat} (hk : d.hasStopped k = true) :
    ({ d' with workers := d'.workers.set n p' } : Desk β).hasStopped k = true := by
  have hlive : p.isStopped = false := by
    cases h <;> rfl
  have hkn : n ≠ k := by
    rintro rfl
    have hk : p.isStopped = true := by rwa [hasStopped, hat] at hk
    rw [hlive] at hk
    cases hk
  have hsame : (d'.workers.set n p')[k]? = d.workers[k]? := by
    rw [h.workers_eq hz hat, List.getElem?_set_ne hkn]
  rw [hasStopped] at hk ⊢
  rw [hsame]
  exact hk

theorem Moves.stage (hh : Harmless d) (hst : d.Stage) (h : Moves b t d d' events) : d'.Stage := by
  cases h with
  | caller hat h => exact hst.performs hh.asleep hat h
  | @worker n d d' p p' events hat h =>
    obtain ⟨hlock, hlife, hclosed⟩ := h.quiet hh hat
    refine hst.quiet hlock hlife hclosed ?_ fun k hk => h.hasStopped_set hh.asleep hat hk
    show d'.callers.map Program.closing = _
    rw [h.callers_eq]
    rfl

/-! ## Ahead of the stop, and after it -/

/-- A stop that is ahead stays ahead until it takes the lifecycle to its end. -/
theorem Performs.stop_ahead (h : Performs t d q d' q' events) (hl : d'.lifecycle ≠ .stopped)
    (hq : q.calls.any Call.isStop = true) : q'.calls.any Call.isStop = true := by
  cases h with
  | stopRunning calls h hl' => exact absurd rfl hl
  | stopQuiet calls h hl' => exact absurd rfl hl
  | _ => exact hq

theorem Performs.lifecycle_ne_stopped (h : Performs t d q d' q' events)
    (hl : d'.lifecycle ≠ .stopped) : d.lifecycle ≠ .stopped := by
  cases h with
  | start calls h hidle => rw [hidle]; nofun
  | stopRunning calls h hl' => exact absurd rfl hl
  | stopQuiet calls h hl' => exact absurd rfl hl
  | _ => exact hl

/-- A backlog that is closed and empty stays so. -/
theorem Performs.emptied (h : Performs t d q d' q' events)
    (he : d.backlog.closed = true ∧ d.backlog.items = []) :
    d'.backlog.closed = true ∧ d'.backlog.items = [] := by
  cases h with
  | enqueue item calls h => rw [he.1] at h; cases h
  | closeQuiet calls => exact ⟨rfl, he.2⟩
  | close workers calls => exact ⟨rfl, he.2⟩
  | _ => exact he

theorem Works.emptied (h : Works b d n p d' p' events)
    (he : d.backlog.closed = true ∧ d.backlog.items = []) :
    d'.backlog.closed = true ∧ d'.backlog.items = [] := by
  cases h with
  | take item rest h => rw [he.2] at h; cases h
  | act item s q d' q' events h hd hf => exact h.emptied he
  | _ => exact he

/-- A worker stops when nothing is left for it. -/
theorem Works.retired (h : Works b d n p d' p' events) (hp : p'.isStopped = true) :
    d'.backlog.closed = true ∧ d'.backlog.items = [] := by
  cases h with
  | retire h hc => exact ⟨hc, h⟩
  | _ => cases hp

/-- A desk that was never opened accepts nothing. -/
structure Unopened (d : Desk β) : Prop where
  accepting : d.accepting = false
  items : d.backlog.items = []
  callers : ∀ q ∈ d.callers, q.submits = false

theorem Performs.unopened (hu : d.Unopened) (hat : q ∈ d.callers) (hw : d'.workers = [])
    (hs : d.settings.workers ≠ 0) (h : Performs t d q d' q' events) :
    d'.accepting = false ∧ d'.backlog.items = [] ∧ q'.submits = false := by
  have hq := hu.callers q hat
  cases h with
  | start calls h hl =>
    have hlen : d.settings.workers.toNat = 0 := by
      simpa [openUp] using congrArg List.length hw
    exact absurd (UInt64.toNat_inj.1 hlen) hs
  | receive order callback calls h => rw [hu.accepting] at h; cases h
  | draw order callback calls => cases hq
  | enqueue item calls h => cases hq
  | stopRunning calls h hl => exact ⟨rfl, hu.items, rfl⟩
  | stopQuiet calls h hl => exact ⟨rfl, hu.items, rfl⟩
  | _ => exact ⟨hu.accepting, hu.items, rfl⟩

/-! ## The invariant -/

structure Shutdown (d : Desk β) : Prop where
  harmless : Harmless d
  staffed : d.settings.workers ≠ 0
  stage : d.Stage
  /-- Some caller still has to stop the desk, or one has begun to. -/
  ahead : d.lifecycle ≠ .stopped → ∃ q ∈ d.callers, q.calls.any Call.isStop = true
  retired : ∀ p ∈ d.workers, p.isStopped = true →
    d.backlog.closed = true ∧ d.backlog.items = []
  unopened : d.workers = [] → d.Unopened

namespace Shutdown

theorem start {settings : Settings} (s : β) (register : Register) {programs : List (List Call)}
    (hw : settings.workers ≠ 0)
    (hcalm : ∀ calls ∈ programs, ∀ c ∈ calls.filterMap Call.callback?, Call.anyStops c = false)
    (hstop : ∃ calls ∈ programs, calls.any Call.isStop = true) :
    Shutdown ((closed settings s register).withCallers programs) where
  harmless := .start settings s register hcalm
  staffed := hw
  stage := by
    refine .unlocked rfl ?_ nofun
    show (programs.map Program.ofCalls).map Program.closing =
      List.replicate (programs.map Program.ofCalls).length none
    rw [List.map_map, List.length_map]
    exact List.map_const' ..
  ahead _ := by
    obtain ⟨calls, hcalls, hany⟩ := hstop
    exact ⟨Program.ofCalls calls, List.mem_map_of_mem hcalls, hany⟩
  retired _ h := by cases h
  unopened _ := by
    refine ⟨rfl, rfl, fun q hq => ?_⟩
    obtain ⟨calls, -, rfl⟩ := List.mem_map.1 hq
    rfl

theorem step (hs : Shutdown d) (h : Moves b t d d' events) : Shutdown d' := by
  have hharmless := hs.harmless.step h
  have hstaffed : d'.settings.workers ≠ 0 := by
    rw [h.settings_eq]
    exact hs.staffed
  have hstage := h.stage hs.harmless hs.stage
  cases h with
  | @caller n d d' q q' events hat h =>
    refine ⟨hharmless, hstaffed, hstage, fun hl => ?_, ?_, fun hw => ?_⟩
    · obtain ⟨r, hr, hany⟩ := hs.ahead (h.lifecycle_ne_stopped hl)
      obtain ⟨m, hm⟩ := List.mem_iff_getElem?.1 hr
      show ∃ r ∈ d'.callers.set n q', _
      rw [h.frame.callers]
      by_cases hnm : n = m
      · subst hnm
        rw [hat] at hm
        cases hm
        exact ⟨q', List.mem_set (List.getElem?_eq_some_iff.1 hat).1 _, h.stop_ahead hl hany⟩
      · refine ⟨r, List.mem_iff_getElem?.2 ⟨m, ?_⟩, hany⟩
        rw [List.getElem?_set_ne hnm]
        exact hm
    · have hr : ∀ p ∈ d.workers, p.isStopped = true →
          d'.backlog.closed = true ∧ d'.backlog.items = [] :=
        fun p hp hstopped => h.emptied (hs.retired p hp hstopped)
      have hw := h.forall_workers (P := fun p => p.isStopped = true →
        d'.backlog.closed = true ∧ d'.backlog.items = []) nofun hr
      exact hw
    · have hw : d'.workers = [] := hw
      have hd : d.workers = [] := by
        rcases h.frame.workers with hw' | ⟨hl, -⟩
        · rw [← hw', hw]
        · exact hs.harmless.asleep hl
      have hu := hs.unopened hd
      obtain ⟨hacc, hitems, hq⟩ := h.unopened hu (List.mem_of_getElem? hat) hw hs.staffed
      refine ⟨hacc, hitems, fun r hr => ?_⟩
      obtain ⟨j, hj⟩ := List.mem_iff_getElem?.1 hr
      rcases h.caller_cases hj with ⟨-, rfl⟩ | ⟨-, hj⟩
      · exact hq
      · exact hu.callers r (List.mem_of_getElem? hj)
  | @worker n d d' p p' events hat h =>
    have hw := h.workers_eq hs.harmless.asleep hat
    obtain ⟨-, hlife, -⟩ := h.quiet hs.harmless hat
    refine ⟨hharmless, hstaffed, hstage, fun hl => ?_, ?_, fun hnone => ?_⟩
    · show ∃ r ∈ d'.callers, _
      rw [h.callers_eq]
      exact hs.ahead (hlife ▸ hl)
    · have hr : ∀ q ∈ d.workers, q.isStopped = true →
          d'.backlog.closed = true ∧ d'.backlog.items = [] :=
        fun q hq hstopped => h.emptied (hs.retired q hq hstopped)
      refine h.forall_workers hs.harmless.asleep hat hr fun hstopped => ?_
      exact h.retired hstopped
    · have hnone : d'.workers.set n p' = [] := hnone
      rw [hw, List.set_eq_nil_iff] at hnone
      rw [hnone] at hat
      cases hat

/-- While nobody is stopping, the lock is free. -/
theorem lock_none (hst : d.Stage) (hstops : ∀ q ∈ d.callers, q.stops = false) : d.lock = none := by
  cases hst with
  | unlocked h hc hs => exact h
  | locked n stop h hl hn hc hs =>
    have hat : d.closings[n]? = some (some stop) := by
      rw [hc, List.getElem?_set_self (by rw [List.length_replicate]; exact hn)]
    rw [closings, List.getElem?_map] at hat
    obtain ⟨q, hq, hstop⟩ := Option.map_eq_some_iff.1 hat
    have hfalse := hstops q (List.mem_of_getElem? hq)
    obtain ⟨hpending, hisStop⟩ := Option.filter_eq_some_iff.1 hstop
    rw [Program.stops, hpending, Option.any_some, hisStop] at hfalse
    cases hfalse

/-- **Once every stop has returned the backlog is empty and every worker has stopped.** -/
theorem drained (hs : Shutdown d) (hstops : ∀ q ∈ d.callers, q.stops = false) :
    d.backlog.items = [] ∧ ∀ p ∈ d.workers, p.isStopped = true := by
  have hlife : d.lifecycle = .stopped := by
    by_contra hl
    obtain ⟨q, hq, hany⟩ := hs.ahead hl
    have hstop := hstops q hq
    rw [Program.stops, hany, Bool.or_true] at hstop
    cases hstop
  obtain ⟨-, hall⟩ := (hs.stage.of_lock_none (lock_none hs.stage hstops)).2 hlife
  have hstopped : ∀ p ∈ d.workers, p.isStopped = true := by
    intro p hp
    obtain ⟨k, hk⟩ := List.mem_iff_getElem?.1 hp
    have hk' := hall k
    rwa [hasStopped, hk] at hk'
  refine ⟨?_, hstopped⟩
  cases hw : d.workers with
  | nil => exact (hs.unopened hw).items
  | cons p rest =>
    have hp : p ∈ d.workers := by rw [hw]; exact List.mem_cons_self
    exact (hs.retired p hp (hstopped p hp)).2

end Shutdown

theorem follow_shutdown {settings : Settings} {s : β} {register : Register}
    {programs : List (List Call)} {schedule : List Turn} {d₀ : Desk β}
    (hopen : open? settings s register = .ok d₀)
    (hcalm : ∀ calls ∈ programs, ∀ c ∈ calls.filterMap Call.callback?, Call.anyStops c = false)
    (hstop : ∃ calls ∈ programs, calls.any Call.isStop = true)
    (hrun : (d₀.withCallers programs).follow b schedule = some (d, tr)) : Shutdown d := by
  obtain ⟨rfl, hw⟩ := open?_eq hopen
  exact follow_keeps (P := Shutdown)
    (fun _ h => ⟨⟨h.harmless.asleep, h.harmless.callers, h.harmless.waiting, h.harmless.workers⟩,
      h.staffed, h.stage.quiet rfl rfl rfl rfl fun _ => id, h.ahead, h.retired,
      fun hw => ⟨(h.unopened hw).accepting, (h.unopened hw).items, (h.unopened hw).callers⟩⟩)
    Shutdown.step (Shutdown.start s register hw hcalm hstop) hrun

/-! ## Nothing is lost -/

/-- A quantity that a stopped worker has none of is gone from the desk. -/
theorem overWorkers_stopped {M : Type} [AddCommMonoid M] {f : Position → M}
    (hf : f .stopped = 0) (h : ∀ p ∈ d.workers, p.isStopped = true) : overWorkers f d = 0 := by
  refine overWorkers_eq_zero fun p hp => ?_
  have hstopped := h p hp
  cases p with
  | stopped => exact hf
  | _ => cases hstopped

/-- Once the workers have stopped, what was accepted is what is recorded. -/
theorem Tended.recorded_perm (ht : Tended d tr) (hitems : d.backlog.items = [])
    (h : ∀ p ∈ d.workers, p.isStopped = true) : (tr.recorded.map Prod.fst).Perm tr.accepted := by
  have hi := ht.items
  rw [hitems, overWorkers_stopped rfl h] at hi
  apply Multiset.coe_eq_coe.1
  rw [hi]
  show _ = 0 + 0 + _
  rw [zero_add, zero_add]

end Desk

/-- What names an accepted item among all. -/
def Item.key (i : Item) : OrderId × ClientId × UInt64 := (i.order.id, i.order.client, i.sequence)

def Settlement.key (s : Settlement) : OrderId × ClientId × UInt64 :=
  (s.orderId, s.client, s.sequence)

namespace Desk

variable {β : Type} {b : Broker β} {d : Desk β} {tr : Trace}

/-- The settlements recorded carry the keys of their items. -/
theorem Tended.keys_eq (ht : Tended d tr) :
    tr.settlements.map Settlement.key = (tr.recorded.map Prod.fst).map Item.key := by
  rw [Trace.settlements, List.map_map, List.map_map]
  apply List.map_congr_left
  intro e he
  have hs := ht.settles e he
  simp only [Function.comp_apply, Settlement.key, Item.key, hs.orderId, hs.client, hs.sequence]

/-- **No work is lost.** When every stop has returned, the backlog is empty; the register holds one
settlement for each accepted item and no other; each accepted item with a callback had it invoked
once, with what was recorded for it, and no other callback was invoked; and the callbacks have
delivered all they had to. -/
theorem nothing_lost {settings : Settings} {s : β} {programs : List (List Call)}
    {schedule : List Turn} {d₀ : Desk β} (hopen : open? settings s Register.empty = .ok d₀)
    (hcalm : ∀ calls ∈ programs, ∀ c ∈ calls.filterMap Call.callback?, Call.anyStops c = false)
    (hstop : ∃ calls ∈ programs, calls.any Call.isStop = true)
    (hrun : (d₀.withCallers programs).follow b schedule = some (d, tr))
    (hreturned : ∀ q ∈ d.callers, q.stops = false) :
    d.backlog.items = [] ∧
    (d.register.all.map Settlement.key).Perm (tr.accepted.map Item.key) ∧
    d.register.size = tr.accepted.length ∧
    (tr.recorded.map Prod.fst).Perm tr.accepted ∧ (tr.recorded.map Prod.snd).Perm d.register.all ∧
    tr.notified = tr.recorded.filter (fun e => e.1.callback.isSome) ∧
    (tr.notified.map Prod.fst).Perm (tr.accepted.filter fun i => i.callback.isSome) ∧
    tr.delivered.Perm (tr.recorded.flatMap deliveries) := by
  have hc := follow_custody hopen hrun
  have hn := follow_naming hopen hrun
  have hv := follow_deliveries hopen hrun
  obtain ⟨hitems, hstopped⟩ := (follow_shutdown hopen hcalm hstop hrun).drained hreturned
  have hrec := hc.recorded_perm hitems hstopped
  have hall := hc.all_perm hn
  refine ⟨hitems, ?_, ?_, hrec, hall.symm, hv.notified, ?_, ?_⟩
  · exact (hall.map _).trans (hc.keys_eq ▸ hrec.map _)
  · rw [hc.size_eq hn, ← hrec.length_eq, List.length_map]
  · rw [hv.notified]
    have hf := hrec.filter fun i => i.callback.isSome
    rwa [List.filter_map] at hf
  · have hd := hv.delivered
    rw [overWorkers_stopped rfl hstopped, add_zero] at hd
    exact (Multiset.coe_eq_coe.1 hd).symm

/-- One caller that starts the desk, submits an order with a receipt and stops the desk. -/
def oneCaller : List Call := [.start, .submit (plainOrder "r-1") (some [.deliver 7]), .stop]

/-- The caller comes to wait for the workers, one of which takes the order and makes two calls. -/
def startedAndStopped : Option (Desk Scripted × Trace) :=
  ((closed twoWorkers lossy Register.empty).withCallers [oneCaller]).follow Scripted.broker
    (turns (.caller 0) 6 ++ turns (.worker 0) 12 ++ turns (.worker 1) 2 ++ turns (.caller 0) 3)

theorem nothing_lost_startedAndStopped : ∃ d, ∃ tr : Trace, startedAndStopped = some (d, tr) ∧
    d.backlog.items = [] ∧ d.register.size = 1 ∧ (tr.recorded.map Prod.fst).Perm tr.accepted ∧
    tr.delivered.Perm (tr.recorded.flatMap deliveries) := by
  have hends : startedAndStopped.map (fun r =>
      (r.1.callers.all fun q => !q.stops, (Trace.accepted r.2).length)) = some (true, 1) := by
    decide +kernel
  obtain ⟨⟨d, tr⟩, hrun, hends⟩ := Option.map_eq_some_iff.1 hends
  obtain ⟨hall, hlen⟩ := Prod.mk.inj hends
  have hopen : open? twoWorkers lossy Register.empty =
    .ok (closed twoWorkers lossy Register.empty) := rfl
  have hreturned : ∀ q ∈ d.callers, q.stops = false := by simpa using hall
  obtain ⟨hitems, -, hsize, hrec, -, -, -, hdel⟩ :=
    nothing_lost hopen (by decide) ⟨oneCaller, List.mem_singleton.2 rfl, by decide⟩ hrun hreturned
  exact ⟨d, tr, hrun, hitems, hsize.trans hlen, hrec, hdel⟩

end Desk

end DealDesk
