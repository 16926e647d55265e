import DealDesk.Proofs.Broker.Dealings

/-!
# Executions that take turns

* `Reading` — the numbers in which a broker counts: doubles in a running broker (`Reading.running`),
  rationals in exact books (`Reading.exact`).
* `Paper.Stage`, `Paper.proceed` — an execution cut into the steps in which it draws from the random
  source, sets margin aside, draws its ticket and books its deal.
* `proceedAll_eq_execute` — taken without a break these steps are `Paper.execute`.
* `Busy` — a paper broker with executions under way; `Busy.follow` lets them take turns in any order.
* `Proceeds` — what a step can do, one constructor for each case.

Who arrives late only takes its turns late, so all executions are there from the start.
-/

namespace DealDesk

/-- How a broker reads volumes and counts, and how it words a refusal for the margin that is
required and that is left. -/
structure Reading (α : Type) where
  amount : Float → α
  terms : MarginTerms α
  words : α → α → String

def Reading.running : Reading Float where
  amount := id
  terms := Paper.terms
  words required available := (Paper.marginRefusal required available).reason

def Reading.exact (amount : Float → ℚ) (words : ℚ → ℚ → String) : Reading ℚ where
  amount := amount
  terms := { perLot := 1000, impact := 1 / 1000, hundred := 100 }
  words := words

namespace Paper

/-! ## Steps of an execution -/

/-- How far an execution has come. -/
inductive Stage
  | arrived
  | waited
  | checked (i : Instrument)
  | reserved (i : Instrument)
  | ticketed (i : Instrument) (ticket : String)
  | priced (f : Fill)
  | done (outcome : Outcome)

namespace Stage

/-- Is margin set aside? -/
def isReserved : Stage → Bool
  | .reserved _ | .ticketed _ _ | .priced _ | .done (.filled _) => true
  | .arrived | .waited | .checked _ | .done (.failed _) => false

/-- Is setting margin aside what comes next? -/
def isChecked : Stage → Bool
  | .checked _ => true
  | _ => false

def isDone : Stage → Bool
  | .done _ => true
  | _ => false

/-- Did it fail for lack of margin? -/
def isShort : Stage → Bool
  | .done (.failed failure) => failure.kind == .margin
  | _ => false

/-- The ticket that it has drawn. -/
def tickets : Stage → Multiset String
  | .ticketed _ ticket => {ticket}
  | .priced f | .done (.filled f) => {f.ticket}
  | .arrived | .waited | .checked _ | .reserved _ | .done (.failed _) => 0

/-- The deal that it has booked. -/
def fills : Stage → Multiset Fill
  | .done (.filled f) => {f}
  | _ => 0

end Stage

section Steps

variable {α ρ : Type} [Add α] [Sub α] [Mul α] [Div α] [LT α] [DecidableLT α] [Random.Source ρ]

/-- The next step of an execution. Whether the call is lost shows as the order is checked, which reads
nothing that changes. -/
def proceed (r : Reading α) (now : Int64) (o : Order) (p : Paper ρ) (book : MarginBook α) :
    Stage → Option (Paper ρ × MarginBook α × Stage)
  | .arrived => some (p.delay.2, book, .waited)
  | .waited =>
    let (lost, p) := p.loses
    if lost then some (p, book, .done (.failed lostCall))
    else match p.check o with
      | .error failure => some (p, book, .done (.failed failure))
      | .ok i => some (p, book, .checked i)
  | .checked i =>
    match book.reserve r.terms (r.amount o.volume) with
    | some book => some (p, book, .reserved i)
    | none =>
      let reason := r.words (MarginBook.required r.terms (r.amount o.volume)) book.free
      some (p, book, .done (.failed (refusal .margin reason)))
  | .reserved i =>
    let (ticket, p) := p.drawTicket
    some (p, book, .ticketed i ticket)
  | .ticketed i ticket =>
    let (price, p) := p.fillPrice i o.side
    some (p, book, .priced { ticket := ticket, orderId := o.id, symbol := i.symbol, side := o.side
                             volume := o.volume, price := price, executedAt := now })
  | .priced f => some (p.book f, book, .done (.filled f))
  | .done _ => none

/-- So many steps of one execution without a break, or fewer if it comes to its end. -/
def proceedAll (r : Reading α) (now : Int64) (o : Order) :
    Nat → Paper ρ × MarginBook α × Stage → Paper ρ × MarginBook α × Stage
  | 0, s => s
  | n + 1, s =>
    match proceed r now o s.1 s.2.1 s.2.2 with
    | none => s
    | some s => proceedAll r now o n s

/-- **Taken without a break the steps are an execution.** -/
theorem proceedAll_eq_execute (p : Paper ρ) (now : Int64) (o : Order) :
    let s := proceedAll .running now o 6 (p, p.margin, .arrived)
    { s.1 with margin := s.2.1 } = (p.execute now o).state ∧
      s.2.2 = .done (p.execute now o).reply := by
  obtain ⟨source, hdrawn⟩ := p.delay_redrawn.trans p.delay.2.loses_redrawn
  have hmargin : p.delay.2.loses.2.margin = p.margin := by rw [hdrawn]
  have hself : { p.delay.2.loses.2 with margin := p.margin } = p.delay.2.loses.2 := by
    rw [← hmargin]
  cases hlost : p.delay.2.loses.1 with
  | true =>
    simp only [proceedAll, proceed, execute, hlost, if_true]
    exact ⟨hself, trivial⟩
  | false =>
    cases hcheck : p.delay.2.loses.2.check o with
    | error failure =>
      simp only [proceedAll, proceed, execute, hlost, hcheck, Bool.false_eq_true, if_false]
      exact ⟨hself, trivial⟩
    | ok i =>
      cases hreserve : p.margin.reserve terms o.volume with
      | none =>
        simp only [proceedAll, proceed, execute, hlost, hcheck, Bool.false_eq_true, if_false,
          Paper.reserve, hmargin, Reading.running, id_eq, hreserve]
        exact ⟨hself, rfl⟩
      | some margin =>
        simp only [proceedAll, proceed, execute, hlost, hcheck, Bool.false_eq_true, if_false,
          Paper.reserve, hmargin, Reading.running, id_eq, hreserve]
        exact ⟨rfl, rfl⟩

/-! ## What a step can do -/

/-- `Proceeds r o p book stage p' book' stage'`: one step of the execution of `o`. -/
inductive Proceeds (r : Reading α) (o : Order) (p : Paper ρ) (book : MarginBook α) :
    Stage → Paper ρ → MarginBook α → Stage → Prop
  | wait (q : Paper ρ) (h : Redrawn p q) : Proceeds r o p book .arrived q book .waited
  | fail (q : Paper ρ) (h : Redrawn p q) (failure : Failure) (hk : failure.kind ≠ .margin) :
      Proceeds r o p book .waited q book (.done (.failed failure))
  | pass (q : Paper ρ) (h : Redrawn p q) (i : Instrument) :
      Proceeds r o p book .waited q book (.checked i)
  | reserve (i : Instrument)
      (h : ¬book.free < MarginBook.required r.terms (r.amount o.volume)) :
      Proceeds r o p book (.checked i) p (book.charged r.terms (r.amount o.volume)) (.reserved i)
  | short (i : Instrument) (reason : String)
      (h : book.free < MarginBook.required r.terms (r.amount o.volume)) :
      Proceeds r o p book (.checked i) p book (.done (.failed (refusal .margin reason)))
  | ticket (i : Instrument) :
      Proceeds r o p book (.reserved i) { p with nextTicket := p.nextTicket + 1 } book
        (.ticketed i (ticketText p.nextTicket))
  | price (i : Instrument) (ticket : String) (q : Paper ρ) (h : Redrawn p q) (f : Fill)
      (ht : f.ticket = ticket) (hv : f.volume = o.volume) :
      Proceeds r o p book (.ticketed i ticket) q book (.priced f)
  | book (f : Fill) :
      Proceeds r o p book (.priced f) { p with fills := p.fills.put f.ticket f } book
        (.done (.filled f))

omit [Random.Source ρ] in
/-- The checks never ask for margin. -/
theorem kind_of_check {p : Paper ρ} {o : Order} {failure : Failure}
    (h : p.check o = .error failure) : failure.kind ≠ .margin := by
  unfold check at h
  split at h
  · cases h; nofun
  · split at h
    · cases h; nofun
    · split at h
      · cases h; nofun
      · split at h
        · cases h; nofun
        · cases h

theorem proceed_cases {r : Reading α} {now : Int64} {o : Order} {p p' : Paper ρ}
    {book book' : MarginBook α} {stage stage' : Stage}
    (h : proceed r now o p book stage = some (p', book', stage')) :
    Proceeds r o p book stage p' book' stage' := by
  cases stage with
  | arrived => cases h; exact .wait _ p.delay_redrawn
  | waited =>
    simp only [proceed] at h
    split at h
    · cases h; exact .fail _ p.loses_redrawn lostCall nofun
    · split at h
      · rename_i failure hc
        cases h
        exact .fail _ p.loses_redrawn failure (kind_of_check hc)
      · rename_i i hc
        cases h
        exact .pass _ p.loses_redrawn i
  | checked i =>
    simp only [proceed, MarginBook.reserve] at h
    by_cases hs : book.free < MarginBook.required r.terms (r.amount o.volume)
    · rw [if_pos hs] at h
      cases h
      exact .short i _ hs
    · rw [if_neg hs] at h
      cases h
      exact .reserve i hs
  | reserved i => cases h; exact .ticket i
  | ticketed i ticket => cases h; exact .price i ticket _ ⟨_, rfl⟩ _ rfl rfl
  | priced f => cases h; exact .book f
  | done outcome => cases h

theorem proceed_isSome (r : Reading α) (now : Int64) (o : Order) (p : Paper ρ)
    (book : MarginBook α) {stage : Stage} (h : stage.isDone = false) :
    (proceed r now o p book stage).isSome := by
  cases stage with
  | done outcome => cases h
  | waited =>
    simp only [proceed]
    split
    · rfl
    · split <;> rfl
  | checked i =>
    simp only [proceed]
    split <;> rfl
  | _ => rfl

/-! ## Executions under way -/

/-- A paper broker with executions under way. It counts in `book`; the amounts in `paper` are not
read. -/
structure Busy (α ρ : Type) where
  paper : Paper ρ
  book : MarginBook α
  calls : List (Order × Stage)

/-- All orders have arrived, and nothing else has happened. -/
def Busy.opening (p : Paper ρ) (book : MarginBook α) (orders : List Order) : Busy α ρ :=
  { paper := p, book := book, calls := orders.map fun o => (o, .arrived) }

/-- Execution `n` takes its turn. -/
def Busy.step (r : Reading α) (turn : Nat × Int64) (s : Busy α ρ) : Option (Busy α ρ) :=
  match s.calls[turn.1]? with
  | none => none
  | some (o, stage) =>
    (proceed r turn.2 o s.paper s.book stage).map fun (paper, book, stage) =>
      { paper := paper, book := book, calls := s.calls.set turn.1 (o, stage) }

/-- Executions take their turns, each at a time of day. -/
def Busy.follow (r : Reading α) : List (Nat × Int64) → Busy α ρ → Option (Busy α ρ)
  | [], s => some s
  | turn :: rest, s => (s.step r turn).bind (follow r rest)

theorem Busy.step_cases {r : Reading α} {turn : Nat × Int64} {s s' : Busy α ρ}
    (h : s.step r turn = some s') : ∃ o stage stage', s.calls[turn.1]? = some (o, stage) ∧
      Proceeds r o s.paper s.book stage s'.paper s'.book stage' ∧
      s'.calls = s.calls.set turn.1 (o, stage') := by
  unfold Busy.step at h
  split at h
  · cases h
  · rename_i o stage hat
    obtain ⟨⟨p, book, stage'⟩, hp, rfl⟩ := Option.map_eq_some_iff.1 h
    exact ⟨o, stage, stage', hat, proceed_cases hp, rfl⟩

/-- No execution ever waits for another. -/
theorem Busy.step_isSome {r : Reading α} {turn : Nat × Int64} {s : Busy α ρ} {o : Order}
    {stage : Stage}
    (hat : s.calls[turn.1]? = some (o, stage)) (h : stage.isDone = false) :
    (s.step r turn).isSome := by
  rw [Busy.step, hat, Option.isSome_map]
  exact proceed_isSome r turn.2 o s.paper s.book h

/-- **What every turn keeps holds after any turns.** -/
theorem Busy.follow_keeps {r : Reading α} {P : Busy α ρ → Prop}
    (hstep : ∀ {s s' turn}, P s → s.step r turn = some s' → P s') :
    ∀ {turns : List (Nat × Int64)} {s s' : Busy α ρ}, P s → s.follow r turns = some s' → P s'
  | [], s, s', h, hrun => by
    cases hrun
    exact h
  | turn :: rest, s, s', h, hrun => by
    obtain ⟨s₁, hs, hrest⟩ := Option.bind_eq_some_iff.1 hrun
    exact follow_keeps hstep (hstep h hs) hrest

end Steps

end Paper

end DealDesk
