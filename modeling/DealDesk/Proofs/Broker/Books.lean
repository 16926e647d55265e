import DealDesk.Broker.Paper
import DealDesk.Broker.Scripted

/-!
# Brokers that keep books

* `KeepsBooks` — a broker books a fill under the next ticket when it answers with one, and at no
  other time, and finds a deal under its ticket.
* `Paper.Executes` — what an execution by a paper broker does, one constructor for each case.
* `paper_keepsBooks`, `scripted_keepsBooks` — the paper broker and the scripted broker do.
-/

namespace DealDesk

/-- What an execution with the given reply does to the books. -/
inductive Books (o : Order) (fills fills' : Table String Fill) (next next' : UInt64) :
    Reply Outcome → Prop
  | filled (f : Fill) (hid : f.orderId = o.id) (ht : f.ticket = toString next.toNat)
      (hf : fills' = fills.put f.ticket f) (hn : next' = next + 1) :
      Books o fills fills' next next' (.answer (.filled f))
  | failed (failure : Failure) (hf : fills' = fills) (hn : next' = next) :
      Books o fills fills' next next' (.answer (.failed failure))
  | broke (hf : fills' = fills) (hn : next' = next) : Books o fills fills' next next' .broke

/-- A broker with a ledger of fills and a counter for tickets. -/
structure KeepsBooks {β : Type} (b : Broker β) (fills : β → Table String Fill)
    (next : β → UInt64) : Prop where
  quote : ∀ s symbol, fills (b.quote s symbol).2 = fills s ∧ next (b.quote s symbol).2 = next s
  execute : ∀ s now o, Books o (fills s) (fills (b.execute s now o).state) (next s)
    (next (b.execute s now o).state) (b.execute s now o).reply
  deal : ∀ s ticket, b.deal s ticket = ((fills s).get? ticket).map .filled

/-! ## The scripted broker -/

theorem scripted_keepsBooks : KeepsBooks Scripted.broker Scripted.fills Scripted.nextTicket where
  quote _ _ := ⟨rfl, rfl⟩
  execute s now o := by
    show Books o _ (s.execute now o).2.fills _ (s.execute now o).2.nextTicket
      (.answer (s.execute now o).1)
    unfold Scripted.execute
    dsimp only
    split
    · exact .failed _ rfl rfl
    · exact .filled _ rfl rfl rfl rfl
  deal _ _ := rfl

/-! ## The paper broker -/

namespace Paper

variable {ρ : Type} {p q : Paper ρ} {o : Order} {outcome : Outcome}

/-- Only the random source has moved on. -/
def Redrawn (p q : Paper ρ) : Prop := ∃ source, q = { p with source := source }

theorem Redrawn.trans {r : Paper ρ} (h : Redrawn p q) (h' : Redrawn q r) : Redrawn p r := by
  obtain ⟨source, rfl⟩ := h
  obtain ⟨source', rfl⟩ := h'
  exact ⟨source', rfl⟩

/-- What the server asks of an order hangs on its symbols alone. -/
theorem check_congr (h : q.symbols = p.symbols) (o : Order) : q.check o = p.check o := by
  unfold check
  rw [h]

theorem Redrawn.check_eq (h : Redrawn p q) (o : Order) : q.check o = p.check o := by
  obtain ⟨source, rfl⟩ := h
  rfl

/-- What an execution of an order by a paper broker does: the call is lost, the checks fail, the
margin falls short, or a deal is booked. -/
inductive Executes (p : Paper ρ) (o : Order) : Outcome → Paper ρ → Prop
  | lost (q : Paper ρ) (h : Redrawn p q) : Executes p o (.failed lostCall) q
  | refused (q : Paper ρ) (failure : Failure) (h : Redrawn p q)
      (hc : p.check o = .error failure) : Executes p o (.failed failure) q
  | short (q : Paper ρ) (i : Instrument) (required available : Float) (h : Redrawn p q)
      (hc : p.check o = .ok i) : Executes p o (.failed (marginRefusal required available)) q
  | filled (q : Paper ρ) (i : Instrument) (f : Fill) (hc : p.check o = .ok i)
      (hid : f.orderId = o.id) (ht : f.ticket = toString p.nextTicket.toNat)
      (hf : q.fills = p.fills.put f.ticket f) (hn : q.nextTicket = p.nextTicket + 1)
      (hs : q.symbols = p.symbols) : Executes p o (.filled f) q

theorem Executes.books (h : Executes p o outcome q) :
    Books o p.fills q.fills p.nextTicket q.nextTicket (.answer outcome) := by
  cases h with
  | lost q h => obtain ⟨source, rfl⟩ := h; exact .failed _ rfl rfl
  | refused q failure h hc => obtain ⟨source, rfl⟩ := h; exact .failed _ rfl rfl
  | short q i required available h hc => obtain ⟨source, rfl⟩ := h; exact .failed _ rfl rfl
  | filled q i f hc hid ht hf hn hs => exact .filled f hid ht hf hn

theorem reserve_cases (p : Paper ρ) (volume : Float) :
    (∃ margin, p.reserve volume = .ok { p with margin := margin }) ∨
      ∃ required available, p.reserve volume = .error (marginRefusal required available) := by
  unfold reserve
  split
  · exact .inl ⟨_, rfl⟩
  · exact .inr ⟨_, _, rfl⟩

variable [Random.Source ρ]

theorem quote_redrawn (p : Paper ρ) (symbol : String) : Redrawn p (p.quote symbol).2 := by
  unfold quote
  split <;> exact ⟨_, rfl⟩

theorem delay_redrawn (p : Paper ρ) : Redrawn p p.delay.2 := by
  unfold delay
  dsimp only
  split <;> exact ⟨_, rfl⟩

theorem loses_redrawn (p : Paper ρ) : Redrawn p p.loses.2 := by
  unfold loses
  split <;> exact ⟨_, rfl⟩

theorem execute_cases (p : Paper ρ) (now : Int64) (o : Order) :
    Executes p o (p.execute now o).reply (p.execute now o).state := by
  have hloses := p.delay_redrawn.trans p.delay.2.loses_redrawn
  unfold execute
  dsimp only
  split
  · exact .lost _ hloses
  · split
    · rename_i failure hc
      exact .refused _ failure hloses ((hloses.check_eq o).symm.trans hc)
    · rename_i i hc
      have hc := (hloses.check_eq o).symm.trans hc
      rcases reserve_cases p.delay.2.loses.2 o.volume with
        ⟨margin, hr⟩ | ⟨required, available, hr⟩
      · rw [hr]
        obtain ⟨source, he⟩ := hloses
        rw [he]
        exact .filled _ i _ hc rfl rfl rfl rfl rfl
      · rw [hr]
        exact .short _ i required available hloses hc

end Paper

theorem paper_keepsBooks {ρ : Type} [Random.Source ρ] :
    KeepsBooks (Paper.broker : Broker (Paper ρ)) Paper.fills Paper.nextTicket where
  quote p symbol := by
    obtain ⟨source, he⟩ := p.quote_redrawn symbol
    show (p.quote symbol).2.fills = _ ∧ (p.quote symbol).2.nextTicket = _
    rw [he]
    exact ⟨rfl, rfl⟩
  execute p now o := (p.execute_cases now o).books
  deal _ _ := rfl

end DealDesk
