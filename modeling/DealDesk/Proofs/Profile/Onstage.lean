import DealDesk.Proofs.Profile.Placements
import DealDesk.Proofs.Profile.Scenes

/-!
# Who is on stage

* `Onstage` — the callers and the lifecycle of a desk in each scene of a run, and whose stop is the
  first.
* `Underway` — what holds in the course of a run, whatever acts it takes: among other things, the
  orders accepted and those still to be submitted are those of the profile.
* `Underway.goes_on` — no run is stuck before it is over.

`play_underway` is the main result.
-/

namespace DealDesk

theorem Program.stops_submissions (box : Nat) (orders : List Order) :
    (Program.ofCalls (submissions box orders)).stops = false := by
  have hnone : (submissions box orders).any Call.isStop = false := by
    rw [submissions, List.any_map]
    exact List.any_eq_false.2 fun _ _ => nofun
  rw [stops, ofCalls, hnone]
  rfl

theorem Program.ahead_submissions (box : Nat) (orders : List Order) :
    (Program.ofCalls (submissions box orders)).ahead =
      orders.map fun o => (o, some [.deliver box]) := by
  rw [ahead, ofCalls, submissions, Call.placements, List.filterMap_map]
  exact congrFun List.filterMap_eq_map' _

theorem Program.eq_last_of_unfinished (done : List Program) {q r : Program} {n : Nat}
    (hdone : ∀ r ∈ done, r.finished = true) (hat : (done ++ [q])[n]? = some r)
    (hr : r.finished = false) : n = done.length ∧ r = q := by
  rcases Nat.lt_or_ge n done.length with hn | hn
  · rw [List.getElem?_append_left hn] at hat
    rw [hdone r (List.mem_of_getElem? hat)] at hr
    cases hr
  · rw [List.getElem?_append_right hn] at hat
    obtain ⟨hlt, he⟩ := List.getElem?_eq_some_iff.1 hat
    rw [List.length_singleton] at hlt
    refine ⟨by omega, ?_⟩
    simpa [show n - done.length = 0 by omega] using he.symm

namespace Desk

variable {β : Type} {b : Broker β} {n : Nat} {t : Thread} {d d' : Desk β} {q q' : Program}
  {events : List Event} {tr : Trace} {h : History} {scene : Scene}

/-! ## The scenes -/

/-- The callers of a desk in each scene, and how far its lifecycle has come. -/
inductive Onstage (h : History) (d : Desk β) : Scene → Prop
  | unopened (hl : d.lifecycle = .idle) (hc : d.callers = [Program.ofCalls [.start]]) :
      Onstage h d .opening
  | opened (hl : d.lifecycle = .running) (hc : d.callers = [Program.ofCalls []]) :
      Onstage h d .opening
  | trading (hl : d.lifecycle = .running) (hq : ∀ q ∈ d.callers, q.stops = false) :
      Onstage h d .trading
  | unstopped (done : List Program) (hl : d.lifecycle = .running)
      (hc : d.callers = done ++ [Program.ofCalls [.stop]])
      (hdone : ∀ q ∈ done, q.finished = true) : Onstage h d .closing
  | stopping (done : List Program) (q : Program)
      (hf : h.firstStop = some (.caller done.length)) (hc : d.callers = done ++ [q])
      (hdone : ∀ q ∈ done, q.finished = true) (hq : q.calls = []) (ho : q.ahead = []) :
      Onstage h d .closing
  | closed (hr : AtRest d) (hitems : d.backlog.items = [])
      (hdone : ∀ q ∈ d.callers, q.finished = true) : Onstage h d .closed

namespace Onstage

theorem clock (now : Int64) (ho : Onstage h d scene) :
    Onstage h { d with now := now } scene := by
  cases ho with
  | unopened hl hc => exact .unopened hl hc
  | opened hl hc => exact .opened hl hc
  | trading hl hq => exact .trading hl hq
  | unstopped done hl hc hdone => exact .unstopped done hl hc hdone
  | stopping done q hf hc hdone hq ho => exact .stopping done q hf hc hdone hq ho
  | closed hr hitems hdone =>
    exact .closed ⟨hr.asleep, hr.lifecycle, hr.closed, hr.stopped⟩ hitems hdone

/-- Callers owe orders only while the desk is running. -/
theorem owed (ho : Onstage h d scene) : d.owed = 0 ∨ d.lifecycle = .running := by
  cases ho with
  | unopened hl hc =>
    left
    rw [Desk.owed, hc]
    rfl
  | stopping done q hf hc hdone hq ho =>
    refine .inl (owed_of_ahead fun r hr => ?_)
    rw [hc, List.mem_append, List.mem_singleton] at hr
    rcases hr with hr | rfl
    · exact Program.ahead_of_finished (hdone r hr)
    · exact ho
  | closed hr hitems hdone => exact .inl (owed_of_ahead fun r hr => Program.ahead_of_finished (hdone r hr))
  | _ => exact .inr ‹_›

end Onstage

theorem Performs.unfinished (h : Performs t d q d' q' events) : q.finished = false := by
  cases h <;> rfl

/-- A caller goes on as its scene has it. -/
theorem Onstage.caller_step (hc : Course h d) (ho : Onstage h d scene)
    (hm : Moves b (.caller n) d d' events) : Onstage (h ++ d.begun (.caller n)) d' scene := by
  cases hm with
  | @caller n d d' q q' events hat hp =>
    have hunfinished := hp.unfinished
    have hset : ∀ done r, d.callers = done ++ [r] →
        d'.callers.set done.length q' = done ++ [q'] := by
      intro done r hcs
      rw [hp.frame.callers, hcs, List.set_append_right _ _ (Nat.le_refl _), Nat.sub_self]
      rfl
    cases ho with
    | unopened hl hcs =>
      rw [hcs] at hat
      obtain ⟨rfl, rfl⟩ := Program.eq_last_of_unfinished [] (List.forall_mem_nil _) hat hunfinished
      cases hp with
      | start calls hlock hidle => exact .opened rfl (hset [] _ hcs)
      | startAgain calls hlock hrun => rw [hl] at hrun; cases hrun
      | startLate calls hlock hlate => rw [hl] at hlate; cases hlate
    | opened hl hcs =>
      rw [hcs] at hat
      obtain ⟨-, rfl⟩ := Program.eq_last_of_unfinished [] (List.forall_mem_nil _) hat hunfinished
      cases hunfinished
    | trading hl hq =>
      have hstops := hq q (List.mem_of_getElem? hat)
      obtain ⟨-, hlife, -⟩ := hp.quiet hstops (by rw [hl]; decide)
      refine .trading (hlife.trans hl) fun r hr => ?_
      obtain ⟨j, hj⟩ := List.mem_iff_getElem?.1 hr
      rcases hp.caller_cases hj with ⟨-, rfl⟩ | ⟨-, hj⟩
      · exact hp.stops_eq_false hstops
      · exact hq r (List.mem_of_getElem? hj)
    | unstopped done hl hcs hdone =>
      have hnext : d.begun (.caller n) = .ofCall (.caller n) q.next? := by
        rw [begun, next?, hat]
        rfl
      rw [hcs] at hat
      obtain ⟨rfl, rfl⟩ := Program.eq_last_of_unfinished done hdone hat hunfinished
      cases hp with
      | stopRunning calls hlock hrun =>
        refine .stopping done _ ?_ (hset done _ hcs) hdone rfl rfl
        rw [History.firstStop_append, hc.unstopped hl, hnext]
        rfl
      | stopQuiet calls hlock hquiet => exact absurd hl hquiet
    | stopping done r hf hcs hdone hr hor =>
      rw [hcs] at hat
      obtain ⟨rfl, rfl⟩ := Program.eq_last_of_unfinished done hdone hat hunfinished
      refine .stopping done q' ?_ (hset done _ hcs) hdone ?_ (hp.idle hor).1
      · rw [History.firstStop_append, hf]
        rfl
      · exact List.suffix_nil.1 (hr ▸ hp.calls_suffix)
    | closed hrest hitems hdone =>
      rw [hdone q (List.mem_of_getElem? hat)] at hunfinished
      cases hunfinished

/-- A worker changes nothing about its scene. -/
theorem Onstage.worker_step (hd : Interlock h d tr) (hmail : tr.Mailing)
    (hp : d.pending? (.worker n) = none) (ho : Onstage h d scene)
    (hm : Moves b (.worker n) d d' events) : Onstage (h ++ d.begun (.worker n)) d' scene := by
  obtain ⟨-, hquiet, hidle⟩ := hd.worker_idles hmail hp hm
  have hcallers : d'.callers = d.callers := by
    cases hm with
    | worker hat hw => exact hw.callers_eq
  cases ho with
  | unopened hl hc => exact .unopened (hidle.lifecycle.trans hl) (hcallers.trans hc)
  | opened hl hc => exact .opened (hidle.lifecycle.trans hl) (hcallers.trans hc)
  | trading hl hq => exact .trading (hidle.lifecycle.trans hl) (hcallers ▸ hq)
  | unstopped done hl hc hdone =>
    exact .unstopped done (hidle.lifecycle.trans hl) (hcallers.trans hc) hdone
  | stopping done q hf hc hdone hq ho =>
    exact .stopping done q ((hquiet.firstStop h).trans hf) (hcallers.trans hc) hdone hq ho
  | closed hr hitems hdone =>
    obtain ⟨hrest, hbacklog, -⟩ := hr.step hm
    exact .closed hrest (hbacklog ▸ hitems) (hcallers ▸ hdone)

end Desk

namespace LoadProfile

open Desk DealDesk.Random

variable {β ρ : Type} [Source ρ] {p : LoadProfile} {b : Broker β} {choices names : Nat → ρ}
  {s s' : Play β} {tr : Trace}

/-! ## The orders of a profile -/

/-- What the clients submit: the settlement of each order goes to the mailbox of its client. -/
def placements (p : LoadProfile) (choices names : Nat → ρ) : List Placement :=
  p.numbers.flatMap fun n => (p.ordersOf choices names n).map fun o => (o, some [.deliver n])

theorem sum_ahead (l : List Program) :
    (l.map fun q => (↑q.ahead : Multiset Placement)).sum = ↑(l.flatMap Program.ahead) := by
  induction l with
  | nil => rfl
  | cons q l ih => rw [List.map_cons, List.sum_cons, ih, List.flatMap_cons, Multiset.coe_add]

/-- The clients owe what the profile says. -/
theorem ahead_clientPrograms :
    ((p.clientPrograms choices names).map fun q => (↑q.ahead : Multiset Placement)).sum =
      ↑(p.placements choices names) := by
  rw [sum_ahead, clientPrograms, List.flatMap_map, placements]
  refine congrArg _ (List.flatMap_congr fun n _ => ?_)
  rw [callsFor_eq, Program.ahead_submissions]

/-- A client stops nothing and has not begun yet. -/
theorem of_mem_clientPrograms {q : Program} (hq : q ∈ p.clientPrograms choices names) :
    q.pending = none ∧ q.stops = false := by
  obtain ⟨n, -, rfl⟩ := List.mem_map.1 hq
  exact ⟨rfl, Program.stops_submissions n _⟩

/-! ## What holds in the course of a run -/

/-- What holds of a run, whatever acts it has taken. -/
structure Underway (p : LoadProfile) (choices names : Nat → ρ) (s : Play β) (tr : Trace) : Prop where
  custody : Custody s.desk tr
  naming : Naming s.desk tr
  deliveries : Deliveries s.desk tr
  onstage : ∃ h, Interlock h s.desk tr ∧ Onstage h s.desk s.scene
  /-- No callback is in the middle of a call to the desk. -/
  patient : ∀ n, s.desk.pending? (.worker n) = none
  /-- Each order of the profile is accepted or still to be submitted. -/
  placed : (↑(tr.accepted.map Item.placement) + s.desk.owed +
    if s.scene = .opening then ↑(p.placements choices names) else 0 : Multiset Placement) =
      ↑(p.placements choices names)

namespace Underway

theorem start (broker : β) (hgood : p.settings.check = .ok ()) :
    Underway p choices names (p.firstScene broker) [] := by
  have hopen : open? p.settings broker Register.empty =
      .ok (closed p.settings broker Register.empty) := by
    rw [open?, hgood]
  exact
    { custody := .start _ _ _
      naming := .start _ _ _ _
      deliveries := .start _ _ _ _
      onstage := ⟨[], .start _ _ _ (open?_eq hopen).2, .unopened rfl rfl⟩
      patient := fun n => rfl
      placed := rfl }

theorem clock (now : Int64) (hu : Underway p choices names s tr) :
    Underway p choices names { s with desk := { s.desk with now := now } } tr where
  custody := hu.custody.clock now
  naming := hu.naming.clock now
  deliveries := ⟨hu.deliveries.asleep, hu.deliveries.notified, hu.deliveries.delivered⟩
  onstage := by
    obtain ⟨h, hd, ho⟩ := hu.onstage
    exact ⟨h, hd.clock now, ho.clock now⟩
  patient := hu.patient
  placed := hu.placed

/-- An accepted order is one of the profile. -/
theorem mem_placements (hu : Underway p choices names s tr) {i : Item} (hi : i ∈ tr.accepted) :
    ∃ n ∈ p.numbers, i.order ∈ p.ordersOf choices names n ∧ i.callback = some [.deliver n] := by
  have hmem : i.placement ∈ (↑(p.placements choices names) : Multiset Placement) := by
    rw [← hu.placed, Multiset.mem_add, Multiset.mem_add]
    exact .inl (.inl (Multiset.mem_coe.2 (List.mem_map_of_mem hi)))
  obtain ⟨n, hn, hm⟩ := List.mem_flatMap.1 (Multiset.mem_coe.1 hmem)
  obtain ⟨o, ho, he⟩ := List.mem_map.1 hm
  obtain ⟨rfl, hcallback⟩ := Prod.mk.inj he
  exact ⟨n, hn, ho, hcallback.symm⟩

theorem mailing (hu : Underway p choices names s tr) : tr.Mailing := by
  intro i hi
  obtain ⟨n, -, -, hn⟩ := hu.mem_placements hi
  exact ⟨n, hn⟩

/-- A desk that callers owe orders takes them. -/
theorem takes (hu : Underway p choices names s tr) :
    s.desk.owed = 0 ∨ s.desk.accepting = true ∧ s.desk.backlog.closed = false := by
  obtain ⟨h, hd, ho⟩ := hu.onstage
  refine ho.owed.imp_right fun hl => ⟨hd.ends.course.accepting.2 hl, ?_⟩
  exact (hd.ends.course.unlocked (ne_stopped_of_running hl)).2

theorem placed_step {t : Thread} {d : Desk β} {events : List Event}
    (hu : Underway p choices names s tr) (hm : Moves b t s.desk d events) :
    s.desk.owed = ↑((events.filterMap Event.accepted?).map Item.placement) + d.owed := by
  cases t with
  | caller n => exact hm.owed_add hu.takes
  | worker n =>
    obtain ⟨h, hd, -⟩ := hu.onstage
    obtain ⟨-, -, hidle⟩ := hd.worker_idles hu.mailing (hu.patient n) hm
    rw [hidle.accepted]
    cases hm with
    | worker hat hw =>
      have hcallers := hw.callers_eq
      rw [Desk.owed, Desk.owed, hcallers]
      exact (zero_add _).symm

/-- **A step of a thread keeps it.** -/
theorem turn {t : Thread} {d : Desk β} {events : List Event} (hu : Underway p choices names s tr)
    (hm : Moves b t s.desk d events) :
    Underway p choices names { s with desk := d } (tr ++ Trace.ofStep t events) where
  custody := hu.custody.step hm
  naming := hu.naming.step hm
  deliveries := hu.deliveries.step hm
  onstage := by
    obtain ⟨h, hd, ho⟩ := hu.onstage
    refine ⟨_, hd.step hm, ?_⟩
    cases t with
    | caller n => exact ho.caller_step hd.ends.course hm
    | worker n => exact ho.worker_step hd hu.mailing (hu.patient n) hm
  patient n := by
    by_cases ht : t = .worker n
    · subst ht
      obtain ⟨h, hd, -⟩ := hu.onstage
      exact (hd.worker_idles hu.mailing (hu.patient n) hm).1
    · exact (hm.pending?_of_ne hu.custody.asleep ht).trans (hu.patient n)
  placed := by
    have hstep := hu.placed_step hm
    have hplaced := hu.placed
    rw [Trace.accepted_step, List.map_append, ← Multiset.coe_add]
    rw [hstep, ← add_assoc] at hplaced
    exact hplaced

/-- Other callers, who owe what is missing. -/
theorem recast (hu : Underway p choices names s tr) (scene : Scene) (callers : List Program)
    (honstage : ∀ h, Interlock h s.desk tr → Onstage h s.desk s.scene →
      Interlock h { s.desk with callers := callers } tr ∧
        Onstage h { s.desk with callers := callers } scene)
    (hscene : scene ≠ .opening)
    (hahead : (callers.map fun q => (↑q.ahead : Multiset Placement)).sum = s.desk.owed +
      if s.scene = .opening then ↑(p.placements choices names) else 0) :
    Underway p choices names
      { scene := scene, desk := { s.desk with callers := callers } } tr where
  custody := ⟨⟨hu.custody.asleep, hu.custody.items, hu.custody.sound, hu.custody.onRecord,
    hu.custody.settles⟩, hu.custody.register⟩
  naming := ⟨hu.naming.asleep, hu.naming.seen, hu.naming.nodup, hu.naming.vetted,
    hu.naming.recorded, hu.naming.asked, hu.naming.brokered⟩
  deliveries := ⟨hu.deliveries.asleep, hu.deliveries.notified, hu.deliveries.delivered⟩
  onstage := by
    obtain ⟨h, hd, ho⟩ := hu.onstage
    exact ⟨h, honstage h hd ho⟩
  patient := hu.patient
  placed := by
    have hplaced := hu.placed
    rw [add_assoc, ← hahead] at hplaced
    rw [if_neg hscene, add_zero]
    exact hplaced

/-- **The next scene keeps it.** -/
theorem next (hu : Underway p choices names s tr) (hn : p.nextScene choices names s = some s') :
    Underway p choices names s' tr := by
  unfold nextScene at hn
  split at hn
  · rename_i hall
    have hdone : ∀ q ∈ s.desk.callers, q.finished = true := by simpa using hall
    split at hn
    · rename_i hscene
      cases hn
      refine hu.recast .trading _ (fun h hd ho => ?_) (by decide) ?_
      · rw [hscene] at ho
        cases ho with
        | unopened hl hc => rw [hc] at hdone; cases hdone _ List.mem_cons_self
        | opened hl hc =>
          exact ⟨hd.recast hl fun q hq => (of_mem_clientPrograms hq).1,
            .trading hl fun q hq => (of_mem_clientPrograms hq).2⟩
      · rw [if_pos hscene, ahead_clientPrograms,
          owed_of_ahead fun q hq => Program.ahead_of_finished (hdone q hq), zero_add]
    · rename_i hscene
      cases hn
      refine hu.recast .closing _ (fun h hd ho => ?_) (by decide) ?_
      · rw [hscene] at ho
        cases ho with
        | trading hl hq =>
          refine ⟨hd.recast hl fun q hq => ?_, .unstopped s.desk.callers hl rfl hdone⟩
          rcases List.mem_append.1 hq with hq | hq
          · exact (Program.finished_iff.1 (hdone q hq)).1
          · rw [List.mem_singleton.1 hq]
            rfl
      · rw [if_neg (by rw [hscene]; decide), List.map_append, List.sum_append]
        rfl
    · rename_i hscene
      cases hn
      refine hu.recast .closed s.desk.callers (fun h hd ho => ?_) (by decide) ?_
      · rw [hscene] at ho
        cases ho with
        | unstopped done hl hc _ =>
          rw [hc] at hdone
          cases hdone _ (List.mem_append_right _ List.mem_cons_self)
        | stopping done q hf hc _ hq hahead =>
          obtain ⟨hrest, hitems⟩ := hd.ends.atRest (.of_finished hf hdone)
          exact ⟨hd, .closed hrest hitems hdone⟩
      · rw [if_neg (by rw [hscene]; decide), add_zero]
        rfl
    · cases hn
  · cases hn

theorem act {a : Act} {events : Trace} (hu : Underway p choices names s tr)
    (ha : p.act b choices names s a = some (s', events)) :
    Underway p choices names s' (tr ++ events) := by
  rcases act_cases ha with ⟨turn, d, told, hm, -, rfl, rfl⟩ | ⟨-, hn, rfl⟩
  · exact (hu.clock turn.now).turn hm
  · rw [List.append_nil]
    exact hu.next hn

/-! ## Nobody waits for ever -/

/-- **When no thread can take a step the scene has come to its end.** -/
theorem finished (hu : Underway p choices names s tr) (hs : s.desk.Still b)
    (hscene : s.scene ≠ .closed) : ∀ q ∈ s.desk.callers, q.finished = true := by
  obtain ⟨h, hd, ho⟩ := hu.onstage
  -- before the stop nothing can keep a caller waiting
  have hopen : s.desk.lifecycle ≠ .stopped → ∀ q ∈ s.desk.callers, q.stops = false →
      q.finished = true := by
    intro hl q hq hstops
    obtain ⟨n, hat⟩ := List.mem_iff_getElem?.1 hq
    have hstep := hs (.caller n)
    rw [Desk.step, hat] at hstep
    cases stuck_of_perform (Option.map_eq_none_iff.1 hstep) with
    | done => rfl
    | lock call calls hc hlock => exact absurd (hd.ends.course.unlocked hl).1 hlock
    | worker n rest calls hn hs => cases hstops
  -- a thread that is at stopping the desk and cannot go on is in a standoff
  have hstop : ∀ t, s.desk.atStop t = true → False := by
    intro t ht
    rcases hd.ends.moves_or_standoff (b := b) hd.tended hd.held (.inl ⟨t, ht⟩) with
      ⟨u, hu⟩ | ⟨u, n, hstandoff⟩
    · exact hu (hs u)
    · obtain ⟨item, hitem, calls, hcalls, hlocks⟩ := hd.blame hstandoff
      obtain ⟨box, hbox⟩ := hu.mailing item hitem
      rw [hcalls] at hbox
      cases hbox
      cases hlocks
  generalize s.scene = scene at ho hscene
  cases ho with
  | unopened hl hc =>
    refine fun q hq => hopen (by rw [hl]; decide) q hq ?_
    rw [hc, List.mem_singleton] at hq
    rw [hq]
    rfl
  | opened hl hc =>
    intro q hq
    rw [hc, List.mem_singleton] at hq
    rw [hq]
    rfl
  | trading hl hq => exact fun q hm => hopen (ne_stopped_of_running hl) q hm (hq q hm)
  | unstopped done hl hc hdone =>
    refine (hstop (.caller done.length) ?_).elim
    rw [atStop, next?, hc, List.getElem?_concat_length]
    rfl
  | stopping done q hf hc hdone hq hahead =>
    intro r hr
    rw [hc, List.mem_append, List.mem_singleton] at hr
    rcases hr with hr | rfl
    · exact hdone r hr
    · obtain ⟨pending, calls⟩ := r
      cases hq
      cases pending with
      | none => rfl
      | some stop =>
        refine (hstop (.caller done.length) ?_).elim
        rw [atStop, pending?, hc, List.getElem?_concat_length]
        cases stop <;> first | exact Bool.or_true _ | cases hahead
  | closed => exact absurd rfl hscene

/-- **No run is stuck before it is over.** -/
theorem goes_on (hu : Underway p choices names s tr) (hscene : s.scene ≠ .closed) :
    ∃ a s' events, p.act b choices names s a = some (s', events) := by
  by_cases hs : s.desk.Still b
  · have hall : s.desk.callers.all Program.finished = true :=
      List.all_eq_true.2 (hu.finished hs hscene)
    refine ⟨.next, ?_⟩
    rw [LoadProfile.act, nextScene, if_pos hall]
    cases hsc : s.scene with
    | closed => exact absurd hsc hscene
    | _ => exact ⟨_, _, rfl⟩
  · obtain ⟨t, ht⟩ := not_forall.1 hs
    obtain ⟨⟨d, events⟩, hstep⟩ := Option.ne_none_iff_exists'.1 ht
    refine ⟨.turn ⟨t, s.desk.now⟩, { s with desk := d }, Trace.ofStep t events, ?_⟩
    have htick : s.desk.tick b ⟨t, s.desk.now⟩ = some (d, events) := hstep
    rw [LoadProfile.act, htick]
    rfl

end Underway

/-- **It holds of every run from its first scene on.** -/
theorem play_underway {broker : β} {acts : List Act} (hgood : p.settings.check = .ok ())
    (hplay : p.play b choices names acts (p.firstScene broker) = some (s, tr)) :
    Underway p choices names s tr :=
  play_invariant (P := Underway p choices names) Underway.act (Underway.start broker hgood) hplay

end LoadProfile

end DealDesk
