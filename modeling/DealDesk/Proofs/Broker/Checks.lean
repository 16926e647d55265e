import DealDesk.Gate
import DealDesk.Proofs.Broker.Books

/-!
# The gate and the paper broker ask for the same

* `Broker.Reaches` — the states to which calls lead a broker.
* `Order.clash_shifted` — an objection does not hang on the prices of a symbol.
* `Paper.check_of_clear`, `Paper.check_of_clash` — what the gate lets through passes the checks of
  the paper broker, and what it objects to fails them with the same status.
* `Outcome.PastChecks` — an outcome that does not blame the order.
* `Screens` — what a broker quotes tells which orders it does not blame later on;
  `paper_screens` says this of the paper broker.
-/

namespace DealDesk

/-! ## States of a broker -/

/-- The states to which calls lead a broker, whoever makes them. -/
inductive Broker.Reaches {β : Type} (b : Broker β) (s : β) : β → Prop
  | refl : b.Reaches s s
  | quote {s' : β} (h : b.Reaches s s') (symbol : String) : b.Reaches s (b.quote s' symbol).2
  | execute {s' : β} (h : b.Reaches s s') (now : Int64) (o : Order) :
      b.Reaches s (b.execute s' now o).state
  | connect {s' : β} (h : b.Reaches s s') (server : String) (login : UInt64)
      (password : String) : b.Reaches s (b.connect s' server login password).state
  | disconnect {s' : β} (h : b.Reaches s s') : b.Reaches s (b.disconnect s')

/-! ## Objections to a symbol -/

/-- Moving the prices of a symbol changes no objection. -/
theorem Order.clash_shifted (o : Order) (i : Option Instrument) (delta : Float) :
    o.clash (i.map fun i => i.shifted delta) = o.clash i := by
  cases i <;> rfl

namespace Gate

variable {β : Type} {b : Broker β} {g : Gate} {s : β} {o : Order}

/-- An order is let through if the quote for its symbol raises no objection. -/
theorem examine_clear (h : (g.examine b s o).1 = .answer none) :
    ∃ i, (b.quote s o.symbol).1 = .answer i ∧ o.clash i = none := by
  unfold examine at h
  split at h
  · cases h
  · split at h
    · cases h
    · split at h
      · cases h
      · rename_i i s' hq
        exact ⟨i, congrArg Prod.fst hq, Reply.answer.inj h⟩

/-- An order that is new and sound on its own is turned down for what its symbol is quoted. -/
theorem examine_objects {why : Objection} (h : (g.examine b s o).1 = .answer (some why))
    (hnew : o.id ∉ g.seen) (hsound : o.flaw = none) :
    ∃ i, (b.quote s o.symbol).1 = .answer i ∧ o.clash i = some why := by
  have henter : g.enter o.id = (true, ⟨o.id :: g.seen⟩) := by simp [enter, hnew]
  unfold examine at h
  rw [henter, hsound] at h
  dsimp only at h
  split at h
  · cases h
  · rename_i i s' hq
    exact ⟨i, congrArg Prod.fst hq, Reply.answer.inj h⟩

end Gate

/-! ## The paper broker -/

namespace Paper

variable {ρ : Type} {p q : Paper ρ} {o : Order} {outcome : Outcome}

theorem Executes.symbols (h : Executes p o outcome q) : q.symbols = p.symbols := by
  cases h with
  | lost q h => obtain ⟨source, rfl⟩ := h; rfl
  | refused q failure h hc => obtain ⟨source, rfl⟩ := h; rfl
  | short q i required available h hc => obtain ⟨source, rfl⟩ := h; rfl
  | filled q i f hc hid ht hf hn hs => exact hs

/-- What the gate lets through for a listed symbol passes the checks. -/
theorem check_of_clear (h : o.clash (p.symbols.get? o.symbol) = none) :
    ∃ i, p.check o = .ok i := by
  unfold check
  cases hi : p.symbols.get? o.symbol with
  | none => rw [hi] at h; cases h
  | some i =>
    rw [hi, Order.clash] at h
    dsimp only
    -- the rules of the gate come in the same order
    split at h
    · cases h
    · rename_i ht
      rw [if_neg ht]
      split at h
      · cases h
      · rename_i ha
        rw [if_neg ha]
        split at h
        · cases h
        · rename_i hs
          rw [if_neg hs]
          exact ⟨i, rfl⟩

/-- What the gate objects to fails the checks for good, with the same status, unless only its
protection levels are at fault. -/
theorem check_of_clash {why : Objection} (h : o.clash (p.symbols.get? o.symbol) = some why)
    (hstop : badLevel o.stopLoss = none) (hprofit : badLevel o.takeProfit = none) :
    ∃ f, p.check o = .error f ∧ f.disposition = .permanent ∧ f.kind.status = why.status := by
  unfold check
  cases hi : p.symbols.get? o.symbol with
  | none => rw [hi] at h; cases h; exact ⟨_, rfl, rfl, rfl⟩
  | some i =>
    rw [hi, Order.clash, hstop, hprofit] at h
    dsimp only at h ⊢
    split at h
    · rename_i ht
      cases h
      exact ⟨_, if_pos ht, rfl, rfl⟩
    · rename_i ht
      rw [if_neg ht]
      split at h
      · rename_i ha
        cases h
        exact ⟨_, if_pos ha, rfl, rfl⟩
      · rename_i ha
        rw [if_neg ha]
        split at h
        · rename_i hs
          cases h
          exact ⟨_, if_pos hs, rfl, rfl⟩
        · cases h

variable [Random.Source ρ]

/-- A quote is what the book lists, with its prices moved. -/
theorem quote_eq (p : Paper ρ) (symbol : String) :
    ∃ delta, (p.quote symbol).1 = (p.symbols.get? symbol).map fun i => i.shifted delta := by
  unfold quote
  cases p.symbols.get? symbol with
  | none => exact ⟨0, rfl⟩
  | some i => exact ⟨_, rfl⟩

theorem clash_quote (p : Paper ρ) (o : Order) :
    o.clash (p.quote o.symbol).1 = o.clash (p.symbols.get? o.symbol) := by
  obtain ⟨delta, hq⟩ := p.quote_eq o.symbol
  rw [hq, Order.clash_shifted]

theorem connect_symbols (p : Paper ρ) (server : String) (login : UInt64) :
    (p.connect server login).state.symbols = p.symbols := by
  obtain ⟨source, he⟩ := p.delay_redrawn
  unfold connect
  split
  · rfl
  · show p.delay.2.symbols = p.symbols
    rw [he]

/-- **No call changes the book of symbols.** -/
theorem symbols_of_reaches (h : (broker : Broker (Paper ρ)).Reaches p q) :
    q.symbols = p.symbols := by
  induction h with
  | refl => rfl
  | @quote p' h symbol ih =>
    obtain ⟨source, he⟩ := p'.quote_redrawn symbol
    show (p'.quote symbol).2.symbols = p.symbols
    rw [he]
    exact ih
  | @execute p' h now o ih => exact (p'.execute_cases now o).symbols.trans ih
  | @connect p' h server login password ih => exact (p'.connect_symbols server login).trans ih
  | disconnect h ih => exact ih

end Paper

/-! ## Brokers that blame no order that they are quoted for -/

/-- A fill, the loss of the call, or a lack of margin for good. -/
def Outcome.PastChecks (lost : Failure) : Outcome → Prop
  | .filled _ => True
  | .failed f => f = lost ∨ f.kind = .margin ∧ f.disposition = .permanent

/-- What a broker quotes tells which orders it does not blame, now and later on. -/
structure Screens {β : Type} (b : Broker β) (sound : β → Order → Prop) (lost : Failure) : Prop where
  transient : lost.disposition = .transient
  quote : ∀ s symbol, ∃ i, (b.quote s symbol).1 = .answer i
  clear : ∀ {s : β} {o : Order} {i : Option Instrument}, (b.quote s o.symbol).1 = .answer i →
    o.clash i = none → sound s o
  keeps : ∀ {s s' : β} {o : Order}, b.Reaches s s' → sound s o → sound s' o
  execute : ∀ {s : β} {o : Order} (now : Int64), sound s o →
    ∃ outcome, (b.execute s now o).reply = .answer outcome ∧ outcome.PastChecks lost

/-- The order passes the checks of the server. -/
def Paper.Passes {ρ : Type} (p : Paper ρ) (o : Order) : Prop := ∃ i, p.check o = .ok i

theorem Paper.Executes.pastChecks {ρ : Type} {p q : Paper ρ} {o : Order} {outcome : Outcome}
    {i : Instrument} (h : Executes p o outcome q) (hi : p.check o = .ok i) :
    outcome.PastChecks lostCall := by
  cases h with
  | lost q h => exact .inl rfl
  | refused q failure h hc => rw [hi] at hc; cases hc
  | short q i required available h hc => exact .inr ⟨rfl, rfl⟩
  | filled q i f hc hid ht hf hn hs => trivial

/-- **The paper broker blames no order that it is quoted for.** -/
theorem paper_screens {ρ : Type} [Random.Source ρ] :
    Screens (Paper.broker : Broker (Paper ρ)) Paper.Passes Paper.lostCall where
  transient := rfl
  quote _ _ := ⟨_, rfl⟩
  clear {p o i} hq hc := by
    cases hq
    exact Paper.check_of_clear ((p.clash_quote o).symm.trans hc)
  keeps hr hp := by
    obtain ⟨i, hi⟩ := hp
    exact ⟨i, (Paper.check_congr (Paper.symbols_of_reaches hr) _).trans hi⟩
  execute {p o} now hp := by
    obtain ⟨i, hi⟩ := hp
    exact ⟨(p.execute now o).reply, rfl, (p.execute_cases now o).pastChecks hi⟩

end DealDesk
