import DealDesk.Proofs.Broker.Checks
import DealDesk.Proofs.Desk.Trace

/-!
# Desks that share their broker and their register

* `Moves.reaches` — a step of a desk makes calls to its broker and does nothing else to it.
* `SharedRun` — a run of a desk between whose steps others call its broker and use its register.
* `SharedRun.invariant` — what steps and the doings of others keep, a run keeps.
* `follow_sharedRun` — a desk that has its broker to itself runs like this as well.
-/

namespace DealDesk

namespace Broker.Reaches

variable {β : Type} {b : Broker β} {s s' s'' : β}

theorem trans (h : b.Reaches s s') (h' : b.Reaches s' s'') : b.Reaches s s'' := by
  induction h' with
  | refl => exact h
  | quote h' symbol ih => exact .quote ih symbol
  | execute h' now o ih => exact .execute ih now o
  | connect h' server login password ih => exact .connect ih server login password
  | disconnect h' ih => exact .disconnect ih

end Broker.Reaches

namespace Desk

variable {β : Type} {b : Broker β} {n : Nat} {t : Thread} {d d' d₀ : Desk β} {p p' : Position}
  {q q' : Program} {events : List Event} {tr : Trace}

/-! ## What a step does to the broker -/

theorem Performs.broker_eq (h : Performs t d q d' q' events) : d'.broker = d.broker := by
  cases h <;> rfl

theorem Works.reaches (h : Works b d n p d' p' events) : b.Reaches d.broker d'.broker := by
  have quoted : ∀ {item : Item} {reply : Reply (Option Instrument)} {s : β},
      b.quote d.broker item.order.symbol = (reply, s) → b.Reaches d.broker s := by
    intro item reply s h
    have hs : s = (b.quote d.broker item.order.symbol).2 := by rw [h]
    rw [hs]
    exact .quote .refl _
  cases h with
  | quoteBroke item s h => exact quoted h
  | clash item i s why h hc => exact quoted h
  | clear item i s h hc => exact quoted h
  | executeBroke item attempt h => exact .execute .refl d.now item.order
  | again item attempt outcome failure h hn => exact .execute .refl d.now item.order
  | settle item attempt outcome s h hn => exact .execute .refl d.now item.order
  | act item s q d' q' events h hd hf => rw [h.broker_eq]; exact .refl
  | _ => exact .refl

/-- A step of a desk makes calls to its broker and does nothing else to it. -/
theorem Moves.reaches (h : Moves b t d d' events) : b.Reaches d.broker d'.broker := by
  cases h with
  | @caller n d d' q q' events hat h =>
    show b.Reaches d.broker d'.broker
    rw [h.broker_eq]
    exact .refl
  | worker hat h => exact h.reaches

/-! ## Runs with others about -/

/-- A run of a desk from state `d₀` on, between whose steps others call its broker and use its
register. The trace tells what the desk itself does. -/
inductive SharedRun (b : Broker β) (d₀ : Desk β) : Desk β → Trace → Prop
  | start : SharedRun b d₀ d₀ []
  | turn {d d' : Desk β} {tr : Trace} {events : List Event} (turn : Turn)
      (h : SharedRun b d₀ d tr) (ht : d.tick b turn = some (d', events)) :
      SharedRun b d₀ d' (tr ++ Trace.ofStep turn.thread events)
  | others {d : Desk β} {tr : Trace} {s : β} (register : Register) (h : SharedRun b d₀ d tr)
      (hr : b.Reaches d.broker s) : SharedRun b d₀ { d with broker := s, register := register } tr

/-- **What steps and the doings of others keep, a run keeps.** -/
theorem SharedRun.invariant {P : Desk β → Trace → Prop}
    (hclock : ∀ {d tr} now, P d tr → P { d with now := now } tr)
    (hstep : ∀ {d d' tr t events}, P d tr → Moves b t d d' events →
      P d' (tr ++ Trace.ofStep t events))
    (hothers : ∀ {d tr s} register, P d tr → b.Reaches d.broker s →
      P { d with broker := s, register := register } tr)
    (h₀ : P d₀ []) (h : SharedRun b d₀ d tr) : P d tr := by
  induction h with
  | start => exact h₀
  | turn turn h ht ih => exact hstep (hclock turn.now ih) (step_cases ht)
  | others register h hr ih => exact hothers register ih hr

/-- A run goes on with the turns of a schedule. -/
theorem SharedRun.follow {schedule : List Turn} {d₁ : Desk β} {tr₁ : Trace}
    (h₁ : SharedRun b d₀ d₁ tr₁) (h : d₁.follow b schedule = some (d, tr)) :
    SharedRun b d₀ d (tr₁ ++ tr) := by
  induction schedule generalizing d₁ tr₁ tr with
  | nil =>
    cases h
    rwa [List.append_nil]
  | cons turn rest ih =>
    simp only [Desk.follow] at h
    split at h
    · cases h
    · rename_i d₂ events ht
      obtain ⟨⟨d₃, later⟩, hf, he⟩ := Option.map_eq_some_iff.1 h
      cases he
      have hrun := ih (.turn turn h₁ ht) hf
      rwa [List.append_assoc] at hrun

/-- A desk that has its broker to itself. -/
theorem follow_sharedRun {schedule : List Turn} (h : d₀.follow b schedule = some (d, tr)) :
    SharedRun b d₀ d tr :=
  SharedRun.start.follow h

end Desk

end DealDesk
