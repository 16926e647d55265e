import DealDesk.Proofs.Desk.Budget
import DealDesk.Proofs.Profile.Orders

/-!
# The scenes of a run

* `Scene` — a run of a profile opens a desk, lets the clients trade, closes the desk, and is over.
* `Play` — a desk in one of these scenes; `Act` — a thread takes a turn, or the run goes on to its next
  scene, which it does once all callers of the scene are done.
* `LoadProfile.play` — acts in any order in which they are possible.
* `LoadProfile.reportOf` — what is reported of a desk and of what its threads did.
* `play_length` — no list of acts is longer than what was ahead of the run.
-/

namespace DealDesk

inductive Scene
  | opening
  | trading
  | closing
  | closed
  deriving DecidableEq, Repr

/-- A run of a profile under way. -/
structure Play (β : Type) where
  scene : Scene
  desk : Desk β

inductive Act
  | turn (turn : Turn)
  /-- All callers are done, and the next scene begins. -/
  | next

namespace LoadProfile

open DealDesk.Random

variable {β ρ : Type} [Source ρ] (p : LoadProfile) (b : Broker β) (choices names : Nat → ρ)

/-! ## Acts -/

/-- The clients of the run, before they place their orders. -/
def clientPrograms : List Program :=
  p.numbers.map fun n => Program.ofCalls (p.callsFor choices names n)

/-- A desk that is about to be opened. -/
def firstScene (broker : β) : Play β where
  scene := .opening
  desk := (Desk.closed p.settings broker Register.empty).withCallers [[.start]]

/-- The clients take the place of whoever opened the desk. -/
def withClients (d : Desk β) : Desk β := { d with callers := p.clientPrograms choices names }

/-- One more caller, who stops the desk. -/
def withStop (d : Desk β) : Desk β :=
  { d with callers := d.callers ++ [Program.ofCalls [.stop]] }

/-- The scene that follows when all callers are done. -/
def nextScene (s : Play β) : Option (Play β) :=
  if s.desk.callers.all Program.finished then
    match s.scene with
    | .opening => some { scene := .trading, desk := p.withClients choices names s.desk }
    | .trading => some { scene := .closing, desk := withStop s.desk }
    | .closing => some { s with scene := .closed }
    | .closed => none
  else none

def act (s : Play β) : Act → Option (Play β × Trace)
  | .turn turn =>
    (s.desk.tick b turn).map fun (desk, events) =>
      ({ s with desk := desk }, Trace.ofStep turn.thread events)
  | .next => (p.nextScene choices names s).map fun s => (s, [])

/-- Acts one after the other; `none` if one of them is not possible. -/
def play : List Act → Play β → Option (Play β × Trace)
  | [], s => some (s, [])
  | a :: rest, s =>
    (p.act b choices names s a).bind fun (s, events) =>
      (play rest s).map fun (s, later) => (s, events ++ later)

/-- What is reported of a run. -/
def reportOf (desk : Desk β) (tr : Trace) : ProfileRun :=
  let mail := p.numbers.map fun n => (p.clientName n, mailbox n tr)
  { report :=
      { profile := p.name, submitted := p.totalRequests.getD 0, accepted := countAccepted tr
        delivered := (mail.flatMap Prod.snd).length
        submitElapsed := Span.ofNanos 0, totalElapsed := Span.ofNanos 0
        register := desk.register }
    mail := mail }

variable {p b choices names} {s s' : Play β} {tr tr' : Trace}

/-- What an act does: a step of a thread, or the next scene. -/
theorem act_cases {a : Act} {events : Trace} (h : p.act b choices names s a = some (s', events)) :
    (∃ turn d told, Desk.Moves b turn.thread { s.desk with now := turn.now } d told ∧
      a = .turn turn ∧ s' = { s with desk := d } ∧ events = Trace.ofStep turn.thread told) ∨
    (a = .next ∧ p.nextScene choices names s = some s' ∧ events = []) := by
  cases a with
  | turn turn =>
    obtain ⟨⟨d, told⟩, ht, he⟩ := Option.map_eq_some_iff.1 h
    cases he
    exact .inl ⟨turn, d, told, Desk.step_cases ht, rfl, rfl, rfl⟩
  | next =>
    obtain ⟨next, hn, he⟩ := Option.map_eq_some_iff.1 h
    cases he
    exact .inr ⟨rfl, hn, rfl⟩

/-- **What every act keeps holds in the end.** -/
theorem play_invariant {P : Play β → Trace → Prop}
    (hact : ∀ {s s' tr events a}, P s tr → p.act b choices names s a = some (s', events) →
      P s' (tr ++ events)) :
    ∀ {acts : List Act} {s s' : Play β} {tr₀ tr : Trace}, P s tr₀ →
      p.play b choices names acts s = some (s', tr) → P s' (tr₀ ++ tr)
  | [], s, s', tr₀, tr, h, hplay => by
    cases hplay
    rw [List.append_nil]
    exact h
  | a :: rest, s, s', tr₀, tr, h, hplay => by
    obtain ⟨⟨s₁, events⟩, ha, hrest⟩ := Option.bind_eq_some_iff.1 hplay
    obtain ⟨⟨s₂, later⟩, hr, he⟩ := Option.map_eq_some_iff.1 hrest
    cases he
    rw [← List.append_assoc]
    exact play_invariant hact (hact h ha) hr

theorem play_cons {a : Act} {rest : List Act} {s₁ s₂ : Play β} {events later : Trace}
    (ha : p.act b choices names s a = some (s₁, events))
    (hrest : p.play b choices names rest s₁ = some (s₂, later)) :
    p.play b choices names (a :: rest) s = some (s₂, events ++ later) := by
  rw [play, ha, Option.bind_some]
  show Option.map _ (p.play b choices names rest s₁) = _
  rw [hrest]
  rfl

theorem play_append {first later : List Act} {s₁ s₂ : Play β} {tr₁ tr₂ : Trace}
    (h₁ : p.play b choices names first s = some (s₁, tr₁))
    (h₂ : p.play b choices names later s₁ = some (s₂, tr₂)) :
    p.play b choices names (first ++ later) s = some (s₂, tr₁ ++ tr₂) := by
  induction first generalizing s tr₁ with
  | nil =>
    cases h₁
    exact h₂
  | cons a rest ih =>
    obtain ⟨⟨s₀, events⟩, ha, hrest⟩ := Option.bind_eq_some_iff.1 h₁
    obtain ⟨⟨s₃, told⟩, hr, he⟩ := Option.map_eq_some_iff.1 hrest
    cases he
    rw [List.cons_append, play_cons ha (ih hr), List.append_assoc]

/-- The turns of a schedule are acts of the scene. -/
theorem play_follow {schedule : List Turn} {d : Desk β}
    (h : s.desk.follow b schedule = some (d, tr)) :
    p.play b choices names (schedule.map .turn) s = some ({ s with desk := d }, tr) := by
  induction schedule generalizing s tr with
  | nil =>
    cases h
    rfl
  | cons turn rest ih =>
    simp only [Desk.follow] at h
    split at h
    · cases h
    · rename_i d₁ events ht
      obtain ⟨⟨d₂, later⟩, hf, he⟩ := Option.map_eq_some_iff.1 h
      cases he
      have hrest : p.play b choices names (rest.map .turn) { s with desk := d₁ } =
        some ({ s with desk := d₂ }, later) := ih hf
      refine play_cons ?_ hrest
      rw [act, ht]
      rfl

/-- A scene that has come to its end makes way for the next one. -/
theorem play_next (h : p.nextScene choices names s = some s') :
    p.play b choices names [.next] s = some (s', []) := by
  have ha : p.act b choices names s .next = some (s', []) := by
    rw [act, h]
    rfl
  have hrest : p.play b choices names [] s' = some (s', []) := rfl
  exact play_cons ha hrest

section Next

variable {d : Desk β} (hall : d.callers.all Program.finished = true)

include hall

theorem nextScene_opening : p.nextScene choices names { scene := .opening, desk := d } =
    some { scene := .trading, desk := p.withClients choices names d } :=
  if_pos hall

theorem nextScene_trading : p.nextScene choices names { scene := .trading, desk := d } =
    some { scene := .closing, desk := withStop d } :=
  if_pos hall

theorem nextScene_closing : p.nextScene choices names { scene := .closing, desk := d } =
    some { scene := .closed, desk := d } :=
  if_pos hall

end Next

/-! ## How many acts there can be -/

section Length

variable (p choices names)

/-- Acts that the later scenes can add. -/
def ahead (workers attempts : Nat) : Scene → Nat
  | .opening =>
    ((p.clientPrograms choices names).map (Program.stepsLeft workers attempts)).sum +
      (Program.ofCalls [.stop]).stepsLeft workers attempts + 3
  | .trading => (Program.ofCalls [.stop]).stepsLeft workers attempts + 2
  | .closing => 1
  | .closed => 0

/-- Acts that are left. -/
def actsLeft (s : Play β) : Nat :=
  s.desk.stepsLeft + p.ahead choices names s.desk.settings.workers.toNat s.desk.attempts s.scene

end Length

theorem nextScene_actsLeft (h : p.nextScene choices names s = some s') :
    p.actsLeft choices names s' < p.actsLeft choices names s := by
  unfold nextScene at h
  split at h
  · split at h
    · rename_i hscene
      cases h
      simp only [actsLeft, ahead, hscene, withClients, Desk.stepsLeft, Desk.overWorkers,
        Desk.attempts]
      omega
    · rename_i hscene
      cases h
      simp only [actsLeft, ahead, hscene, withStop, Desk.stepsLeft, Desk.overWorkers,
        Desk.attempts, List.map_append, List.sum_append, List.map_cons, List.map_nil,
        List.sum_cons, List.sum_nil]
      omega
    · rename_i hscene
      cases h
      simp only [actsLeft, ahead, hscene]
      omega
    · cases h
  · cases h

theorem act_actsLeft {a : Act} {events : Trace} (hs : s.desk.Staffed)
    (h : p.act b choices names s a = some (s', events)) :
    p.actsLeft choices names s' < p.actsLeft choices names s := by
  rcases act_cases h with ⟨turn, d, told, hm, -, rfl, -⟩ | ⟨-, hn, -⟩
  · have hsettings : d.settings = s.desk.settings := hm.settings_eq
    have hlt : d.stepsLeft < s.desk.stepsLeft :=
      hm.stepsLeft_lt (d := { s.desk with now := turn.now }) ⟨hs.asleep, hs.workers⟩
    simp only [actsLeft, Desk.attempts, hsettings]
    omega
  · exact nextScene_actsLeft hn

theorem act_staffed {a : Act} {events : Trace} (hs : s.desk.Staffed)
    (h : p.act b choices names s a = some (s', events)) : s'.desk.Staffed := by
  rcases act_cases h with ⟨turn, d, told, hm, -, rfl, -⟩ | ⟨-, hn, -⟩
  · exact Desk.Staffed.step (d := { s.desk with now := turn.now }) ⟨hs.asleep, hs.workers⟩ hm
  · unfold nextScene at hn
    split at hn
    · split at hn <;> cases hn <;> exact ⟨hs.asleep, hs.workers⟩
    · cases hn

theorem play_staffed {acts : List Act} (hs : s.desk.Staffed)
    (h : p.play b choices names acts s = some (s', tr)) : s'.desk.Staffed :=
  @play_invariant β ρ _ p b choices names (fun s _ => s.desk.Staffed)
    (fun hs ha => act_staffed hs ha) acts s s' [] tr hs h

/-- **Every act uses up some of what was left.** -/
theorem play_length : ∀ {acts : List Act} {s s' : Play β} {tr : Trace}, s.desk.Staffed →
    p.play b choices names acts s = some (s', tr) →
    acts.length + p.actsLeft choices names s' ≤ p.actsLeft choices names s
  | [], s, s', tr, hs, h => by
    cases h
    exact (Nat.zero_add _).le
  | a :: rest, s, s', tr, hs, h => by
    obtain ⟨⟨s₁, events⟩, ha, hrest⟩ := Option.bind_eq_some_iff.1 h
    obtain ⟨⟨s₂, later⟩, hr, he⟩ := Option.map_eq_some_iff.1 hrest
    cases he
    have hlt := act_actsLeft hs ha
    have hlen := play_length (act_staffed hs ha) hr
    rw [List.length_cons]
    omega

end LoadProfile

end DealDesk
