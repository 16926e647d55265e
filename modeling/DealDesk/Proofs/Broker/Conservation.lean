import DealDesk.Proofs.Broker.Interleaving
import DealDesk.Proofs.Desk.Trace

/-!
# Margin is conserved

* `SetAside book lots` — in exact books, the amounts when so many lots are set aside.
* `Busy.overCalls` — a quantity summed over the executions under way, settled ones included.
* `Balanced` — the lots set aside are those of the executions that got that far, each of which has a
  ticket of its own once it has drawn one; the ledger holds the deals that are booked.
* `Conserved` — what follows for the account, for the next turn, and for a broker at rest.

`margin_conserved` is the main result: it holds whichever execution takes its turn when.
-/

namespace DealDesk

/-! ## Exact books -/

/-- The amounts of an account over 100000 with so many lots set aside. -/
structure SetAside (book : MarginBook ℚ) (lots : ℚ) : Prop where
  balance : book.balance = 100000
  used : book.used = 1000 * lots
  free : book.free = book.balance - book.used
  covered : 0 ≤ book.free
  equity : book.equity = book.balance - book.used / 1000
  level : book.used ≠ 0 → book.level = 100 * book.equity / book.used

theorem SetAside.opening : SetAside (MarginBook.opening 0 100000) 0 := by
  refine ⟨rfl, (mul_zero _).symm, ?_, ?_, ?_, fun h => absurd rfl h⟩ <;>
    norm_num [MarginBook.opening]

/-- **Setting aside what the free margin allows** keeps the amounts in step. -/
theorem SetAside.charged {amount : Float → ℚ} {words : ℚ → ℚ → String} {book : MarginBook ℚ}
    {lots volume : ℚ} (h : SetAside book lots) (henough : volume * 1000 ≤ book.free) :
    SetAside (book.charged (Reading.exact amount words).terms volume) (lots + volume) := by
  have hused := h.used
  have hfree := h.free
  have hequity := h.equity
  refine ⟨h.balance, ?_, ?_, ?_, ?_, fun _ => ?_⟩ <;>
    simp only [MarginBook.charged, MarginBook.required, Reading.exact]
  · linarith
  · linarith
  · linarith
  · linarith
  · ring

namespace Paper

open DealDesk.Desk (sum_map_set)

variable {ρ : Type} {amount : Float → ℚ} {words : ℚ → ℚ → String} {s s' : Busy ℚ ρ}
  {p p' : Paper ρ} {book book' : MarginBook ℚ} {o : Order} {stage stage' : Stage}
  {turn : Nat × Int64}

/-! ## Quantities over the executions -/

/-- A quantity summed over the executions. -/
def Busy.overCalls {M : Type} [AddCommMonoid M] (f : Order × Stage → M) (s : Busy ℚ ρ) : M :=
  (s.calls.map f).sum

/-- What an execution has set aside, in lots. -/
def lots (amount : Float → ℚ) (c : Order × Stage) : ℚ :=
  if c.2.isReserved then amount c.1.volume else 0

/-- The deal that an execution is about to book, or has booked, is of the volume of its order. -/
def Faithful : Order × Stage → Prop
  | (o, .priced f) | (o, .done (.filled f)) => f.volume = o.volume
  | _ => True

/-- Before anything has happened nothing counts. -/
theorem Busy.overCalls_opening {M : Type} [AddCommMonoid M] {f : Order × Stage → M}
    (hf : ∀ o, f (o, .arrived) = 0) (p : Paper ρ) (book : MarginBook ℚ) (orders : List Order) :
    (Busy.opening p book orders).overCalls f = 0 := by
  refine List.sum_eq_zero fun x hx => ?_
  obtain ⟨c, hc, rfl⟩ := List.mem_map.1 hx
  obtain ⟨o, -, rfl⟩ := List.mem_map.1 hc
  exact hf o

/-! ## The account -/

/-- A step leaves the account alone, with what the execution has set aside, or it sets its volume
aside. -/
theorem Proceeds.account_cases
    (h : Proceeds (.exact amount words) o p book stage p' book' stage') :
    (book' = book ∧ lots amount (o, stage') = lots amount (o, stage)) ∨
      (amount o.volume * 1000 ≤ book.free ∧
        book' = book.charged (Reading.exact amount words).terms (amount o.volume) ∧
        lots amount (o, stage) = 0 ∧ lots amount (o, stage') = amount o.volume) := by
  cases h with
  | reserve i h => exact .inr ⟨not_lt.1 h, rfl, rfl, rfl⟩
  | _ => exact .inl ⟨rfl, rfl⟩

/-- It fails for lack of margin if it finds too little left, and takes what it needs otherwise. -/
theorem Proceeds.short_iff (h : Proceeds (.exact amount words) o p book stage p' book' stage') :
    (stage'.isShort = true ↔ stage.isChecked = true ∧ book.free < 1000 * amount o.volume) ∧
    (stage.isChecked = true → 1000 * amount o.volume ≤ book.free →
      stage'.isReserved = true ∧ book'.free = book.free - 1000 * amount o.volume) := by
  cases h with
  | reserve i h =>
    have henough : 1000 * amount o.volume ≤ book.free := by
      rw [mul_comm]
      exact not_lt.1 h
    refine ⟨⟨nofun, fun hs => absurd hs.2 (not_lt.2 henough)⟩, fun _ _ => ⟨rfl, ?_⟩⟩
    rw [mul_comm]
    rfl
  | short i reason h =>
    have hlack : book.free < 1000 * amount o.volume := by
      rw [mul_comm]
      exact h
    exact ⟨⟨fun _ => ⟨rfl, hlack⟩, fun _ => rfl⟩, fun _ henough => absurd hlack (not_lt.2 henough)⟩
  | fail q h failure hk =>
    refine ⟨⟨fun hs => absurd (beq_iff_eq.1 hs) hk, fun hs => ?_⟩, nofun⟩
    cases hs.1
  | _ => exact ⟨⟨nofun, fun hs => nomatch hs.1⟩, nofun⟩

/-! ## The tickets -/

/-- So many tickets are drawn, no two executions have the same, and the ledger holds the deals that are
booked. -/
structure Ticketed (drawn : Nat) (s : Busy ℚ ρ) : Prop where
  nextTicket : s.paper.nextTicket = firstTicket + UInt64.ofNat drawn
  tickets : s.overCalls (fun c => c.2.tickets) =
    (↑((counted firstTicket drawn).map ticketText) : Multiset String)
  /-- Until the counter has gone round. -/
  fills : s.calls.length ≤ UInt64.size → (↑s.paper.fills : Multiset (String × Fill)) =
    (s.overCalls fun c => c.2.fills).map fun f => (f.ticket, f)

/-- A step draws the next ticket, books a deal under the ticket that it has, or does neither. -/
theorem Proceeds.ticket_cases {r : Reading ℚ} (h : Proceeds r o p book stage p' book' stage') :
    (p'.nextTicket = p.nextTicket ∧ p'.fills = p.fills ∧ stage'.tickets = stage.tickets ∧
      stage'.fills = stage.fills) ∨
    (p'.nextTicket = p.nextTicket + 1 ∧ p'.fills = p.fills ∧ stage.tickets = 0 ∧
      stage'.tickets = {ticketText p.nextTicket} ∧ stage'.fills = stage.fills) ∨
    (∃ f, p'.nextTicket = p.nextTicket ∧ p'.fills = p.fills.put f.ticket f ∧
      stage = .priced f ∧ stage' = .done (.filled f)) := by
  cases h with
  | ticket i => exact .inr (.inl ⟨rfl, rfl, rfl, rfl, rfl⟩)
  | book f => exact .inr (.inr ⟨f, rfl, rfl, rfl, rfl⟩)
  | reserve i h => exact .inl ⟨rfl, rfl, rfl, rfl⟩
  | short i reason h => exact .inl ⟨rfl, rfl, rfl, rfl⟩
  | wait q h => obtain ⟨source, rfl⟩ := h; exact .inl ⟨rfl, rfl, rfl, rfl⟩
  | fail q h failure hk => obtain ⟨source, rfl⟩ := h; exact .inl ⟨rfl, rfl, rfl, rfl⟩
  | pass q h i => obtain ⟨source, rfl⟩ := h; exact .inl ⟨rfl, rfl, rfl, rfl⟩
  | price i ticket q h f ht hv =>
    obtain ⟨source, rfl⟩ := h
    refine .inl ⟨rfl, rfl, ?_, rfl⟩
    show ({f.ticket} : Multiset String) = {ticket}
    rw [ht]

/-- What is booked has a ticket. -/
theorem Busy.booked_le (s : Busy ℚ ρ) : (s.overCalls fun c => c.2.fills).map (·.ticket) ≤
    s.overCalls fun c => c.2.tickets := by
  unfold Busy.overCalls
  induction s.calls with
  | nil => exact le_rfl
  | cons c rest ih =>
    obtain ⟨o, stage⟩ := c
    rw [List.map_cons, List.sum_cons, Multiset.map_add, List.map_cons, List.sum_cons]
    refine add_le_add ?_ ih
    cases stage with
    | done outcome => cases outcome <;> exact le_rfl
    | _ => exact Multiset.zero_le _

/-- An execution draws one ticket at most. -/
theorem Busy.card_tickets_le (s : Busy ℚ ρ) :
    (s.overCalls fun c => c.2.tickets).card ≤ s.calls.length := by
  unfold Busy.overCalls
  induction s.calls with
  | nil => exact le_rfl
  | cons c rest ih =>
    obtain ⟨o, stage⟩ := c
    have hone : stage.tickets.card ≤ 1 := by
      cases stage with
      | done outcome => cases outcome <;> simp [Stage.tickets]
      | _ => simp [Stage.tickets]
    rw [List.map_cons, List.sum_cons, Multiset.card_add, List.length_cons, add_comm]
    exact add_le_add ih hone

namespace Ticketed

variable {drawn : Nat}

theorem opening {p : Paper ρ} (hp : p.Unused) (book : MarginBook ℚ) (orders : List Order) :
    Ticketed 0 (Busy.opening p book orders) where
  nextTicket := hp.nextTicket.trans (add_zero _).symm
  tickets := Busy.overCalls_opening (fun _ => rfl) p book orders
  fills _ := by
    rw [Busy.overCalls_opening (fun _ => rfl) p book orders]
    show (↑p.fills : Multiset (String × Fill)) = 0
    rw [hp.fills]
    rfl

theorem tickets_nodup (ht : Ticketed drawn s) (h : s.calls.length ≤ UInt64.size) :
    (s.overCalls fun c => c.2.tickets).Nodup := by
  have hcard := s.card_tickets_le
  rw [ht.tickets, Multiset.coe_card, List.length_map, counted, List.length_map,
    List.length_range] at hcard
  rw [ht.tickets, Multiset.coe_nodup]
  exact (counted_nodup firstTicket (hcard.trans h)).map ticketText_injective

theorem step {r : Reading ℚ} (ht : Ticketed drawn s) (hat : s.calls[turn.1]? = some (o, stage))
    (hp : Proceeds r o s.paper s.book stage s'.paper s'.book stage')
    (hcalls : s'.calls = s.calls.set turn.1 (o, stage')) : ∃ drawn', Ticketed drawn' s' := by
  have htickets := sum_map_set (fun c : Order × Stage => c.2.tickets) hat (o, stage')
  have hfills := sum_map_set (fun c : Order × Stage => c.2.fills) hat (o, stage')
  rw [← hcalls] at htickets hfills
  have hlength : s'.calls.length = s.calls.length := by rw [hcalls, List.length_set]
  rcases hp.ticket_cases with ⟨hnext, hledger, hsame, hsame'⟩ |
    ⟨hnext, hledger, hnone, hticket, hsame⟩ | ⟨f, hnext, hledger, rfl, rfl⟩
  · rw [hsame] at htickets
    rw [hsame'] at hfills
    refine ⟨drawn, hnext.trans ht.nextTicket, ?_, fun h => ?_⟩
    · exact (add_right_cancel htickets).trans ht.tickets
    · rw [hledger, ht.fills (hlength ▸ h)]
      exact congrArg _ (add_right_cancel hfills).symm
  · rw [hnone, hticket, add_zero] at htickets
    rw [hsame] at hfills
    refine ⟨drawn + 1, ?_, ?_, fun h => ?_⟩
    · rw [hnext, ht.nextTicket, UInt64.ofNat_add, add_assoc]
      rfl
    · rw [counted_concat, List.map_append, ← Multiset.coe_add, ← ht.tickets, ← ht.nextTicket]
      exact htickets
    · rw [hledger, ht.fills (hlength ▸ h)]
      exact congrArg _ (add_right_cancel hfills).symm
  · have htickets' : (s'.overCalls fun c => c.2.tickets) = s.overCalls fun c => c.2.tickets :=
      add_right_cancel htickets
    have hfills' : (s'.overCalls fun c => c.2.fills) = (s.overCalls fun c => c.2.fills) + {f} :=
      (add_zero _).symm.trans hfills
    refine ⟨drawn, hnext.trans ht.nextTicket, htickets'.trans ht.tickets, fun h => ?_⟩
    have hold := ht.fills (hlength ▸ h)
    -- the ticket is one of those drawn, none of which comes twice
    have hnodup := Multiset.nodup_of_le (htickets' ▸ s'.booked_le) (ht.tickets_nodup (hlength ▸ h))
    rw [hfills', Multiset.map_add, Multiset.map_singleton, Multiset.nodup_add] at hnodup
    have hnew : f.ticket ∉ s.paper.fills.keys := by
      intro hm
      have hm : f.ticket ∈ (↑s.paper.fills : Multiset (String × Fill)).map Prod.fst := hm
      rw [hold, Multiset.map_map] at hm
      exact Multiset.disjoint_left.1 hnodup.2.2 hm (Multiset.mem_singleton_self _)
    rw [hledger, Table.put_of_not_mem f hnew, ← Multiset.coe_add, hold, hfills', Multiset.map_add]
    rfl

end Ticketed

/-! ## Both together -/

/-- The account and the ledger agree with the executions under way. -/
structure Balanced (amount : Float → ℚ) (s : Busy ℚ ρ) : Prop where
  positive : ∀ c ∈ s.calls, 0 < amount c.1.volume
  faithful : ∀ c ∈ s.calls, Faithful c
  account : SetAside s.book (s.overCalls (lots amount))
  ticketed : ∃ drawn, Ticketed drawn s

theorem Proceeds.faithful {r : Reading ℚ} (h : Proceeds r o p book stage p' book' stage')
    (hf : Faithful (o, stage)) : Faithful (o, stage') := by
  cases h with
  | price i ticket q h f ht hv => exact hv
  | book f => exact hf
  | _ => trivial

theorem Balanced.opening {p : Paper ρ} (hp : p.Unused) {orders : List Order}
    (hpos : ∀ o ∈ orders, 0 < amount o.volume) :
    Balanced amount (Busy.opening p (MarginBook.opening 0 100000) orders) where
  positive c hc := by
    obtain ⟨o, ho, rfl⟩ := List.mem_map.1 hc
    exact hpos o ho
  faithful c hc := by
    obtain ⟨o, -, rfl⟩ := List.mem_map.1 hc
    trivial
  account := by
    rw [Busy.overCalls_opening fun _ => rfl]
    exact .opening
  ticketed := ⟨0, .opening hp _ orders⟩

namespace Balanced

theorem lots_nonneg (hb : Balanced amount s) : ∀ x ∈ s.calls.map (lots amount), 0 ≤ x := by
  intro x hx
  obtain ⟨c, hc, rfl⟩ := List.mem_map.1 hx
  unfold lots
  split
  · exact (hb.positive c hc).le
  · exact le_rfl

/-- An execution that has set its margin aside uses some. -/
theorem used_pos (hb : Balanced amount s) {c : Order × Stage} (hc : c ∈ s.calls)
    (hr : c.2.isReserved = true) : 0 < s.book.used := by
  have hlots : lots amount c = amount c.1.volume := if_pos hr
  have hle := List.single_le_sum hb.lots_nonneg (lots amount c) (List.mem_map_of_mem hc)
  have hpos := hb.positive c hc
  have hsum : amount c.1.volume ≤ s.overCalls (lots amount) := hlots ▸ hle
  rw [hb.account.used]
  linarith

/-- At rest the lots set aside are those of the fills. -/
theorem lots_eq (hb : Balanced amount s) (hdone : ∀ c ∈ s.calls, c.2.isDone = true) :
    s.overCalls (lots amount) =
      ((s.overCalls fun c => c.2.fills).map fun f => amount f.volume).sum := by
  have hfaithful := hb.faithful
  unfold Busy.overCalls
  generalize s.calls = calls at hdone hfaithful
  induction calls with
  | nil => rfl
  | cons c rest ih =>
    have ih := ih (fun c hc => hdone c (List.mem_cons_of_mem _ hc))
      (fun c hc => hfaithful c (List.mem_cons_of_mem _ hc))
    have hc : lots amount c = (c.2.fills.map fun f => amount f.volume).sum := by
      obtain ⟨o, stage⟩ := c
      have hd := hdone _ List.mem_cons_self
      have hf := hfaithful _ List.mem_cons_self
      cases stage with
      | done outcome =>
        cases outcome with
        | failed failure => rfl
        | filled f =>
          have hf : f.volume = o.volume := hf
          show amount o.volume = (({f} : Multiset Fill).map fun f => amount f.volume).sum
          rw [Multiset.map_singleton, Multiset.sum_singleton, hf]
      | _ => cases hd
    rw [List.map_cons, List.sum_cons, ih, hc, List.map_cons, List.sum_cons, Multiset.map_add,
      Multiset.sum_add]

end Balanced

variable [Random.Source ρ]

/-- **Every turn keeps the balance.** -/
theorem Balanced.step (hb : Balanced amount s) (h : s.step (.exact amount words) turn = some s') :
    Balanced amount s' := by
  obtain ⟨o, stage, stage', hat, hp, hcalls⟩ := Busy.step_cases h
  have hmem := List.mem_of_getElem? hat
  have keeps : ∀ {P : Order × Stage → Prop}, (∀ c ∈ s.calls, P c) → P (o, stage') →
      ∀ c ∈ s'.calls, P c := by
    intro P hall hnew c hc
    rw [hcalls] at hc
    rcases List.mem_or_eq_of_mem_set hc with hc | rfl
    · exact hall c hc
    · exact hnew
  obtain ⟨drawn, ht⟩ := hb.ticketed
  refine ⟨keeps hb.positive (hb.positive (o, stage) hmem),
    keeps hb.faithful (hp.faithful (hb.faithful _ hmem)), ?_, ht.step hat hp hcalls⟩
  have hsum : s'.overCalls (lots amount) + lots amount (o, stage) =
      s.overCalls (lots amount) + lots amount (o, stage') := by
    rw [Busy.overCalls, hcalls]
    exact sum_map_set (lots amount) hat (o, stage')
  rcases hp.account_cases with ⟨hbook, hlots⟩ | ⟨henough, hbook, hbefore, hafter⟩
  · rw [hlots] at hsum
    rw [hbook, add_right_cancel hsum]
    exact hb.account
  · rw [hbefore, hafter, add_zero] at hsum
    rw [hbook, hsum]
    exact hb.account.charged henough

/-! ## What it comes to -/

/-- The account of a busy broker, what the next turn does to it, and its ledger at rest. -/
structure Conserved (amount : Float → ℚ) (words : ℚ → ℚ → String) (s : Busy ℚ ρ) : Prop where
  balance : s.book.balance = 100000
  used : s.book.used = 1000 * s.overCalls (lots amount)
  free : s.book.free = s.book.balance - s.book.used
  bounds : 0 ≤ s.book.free ∧ s.book.free ≤ s.book.balance
  equity : s.book.equity = s.book.balance - s.book.used / 1000
  level : (∃ c ∈ s.calls, c.2.isReserved = true) →
    s.book.level = 100 * s.book.equity / s.book.used
  /-- An execution fails for lack of margin as it comes to set it aside and finds too little left, and
  at no other time; the last of it may be taken. -/
  turn : ∀ turn s', s.step (.exact amount words) turn = some s' → ∀ o stage stage',
    s.calls[turn.1]? = some (o, stage) → s'.calls[turn.1]? = some (o, stage') →
      (stage'.isShort = true ↔
        stage.isChecked = true ∧ s.book.free < 1000 * amount o.volume) ∧
      (stage.isChecked = true → 1000 * amount o.volume ≤ s.book.free →
        stage'.isReserved = true ∧ s'.book.free = s.book.free - 1000 * amount o.volume)
  /-- What is used is the margin of the fills that were answered, and these are the ledger unless
  there are more than the counter has tickets. -/
  rest : (∀ c ∈ s.calls, c.2.isDone = true) →
    s.book.used = 1000 * ((s.overCalls fun c => c.2.fills).map fun f => amount f.volume).sum ∧
    (s.calls.length ≤ 2 ^ 64 →
      s.book.used = 1000 * (s.paper.fills.values.map fun f => amount f.volume).sum)

theorem Balanced.conserved (hb : Balanced amount s) : Conserved amount words s where
  balance := hb.account.balance
  used := hb.account.used
  free := hb.account.free
  bounds := by
    have hnonneg : 0 ≤ s.overCalls (lots amount) := List.sum_nonneg hb.lots_nonneg
    refine ⟨hb.account.covered, ?_⟩
    rw [hb.account.free, hb.account.used]
    linarith
  equity := hb.account.equity
  level h := by
    obtain ⟨c, hc, hr⟩ := h
    exact hb.account.level (hb.used_pos hc hr).ne'
  turn turn s' h o stage stage' hat hat' := by
    obtain ⟨o₁, stage₁, stage₂, hat₁, hp, hcalls⟩ := Busy.step_cases h
    rw [hat] at hat₁
    cases hat₁
    rw [hcalls, List.getElem?_set_self (List.getElem?_eq_some_iff.1 hat).1] at hat'
    cases hat'
    exact hp.short_iff
  rest hdone := by
    rw [hb.account.used, hb.lots_eq hdone]
    refine ⟨rfl, fun hfew => ?_⟩
    obtain ⟨drawn, ht⟩ := hb.ticketed
    have hledger := congrArg (fun m => (m.map fun e => amount e.2.volume).sum) (ht.fills hfew)
    simp only [Multiset.map_map, Multiset.map_coe, Multiset.sum_coe] at hledger
    rw [Table.values, List.map_map]
    exact congrArg _ hledger.symm

/-- **Margin is conserved.** In exact books, and whichever execution takes its turn when, the margin
that is used is that of the volumes set aside; the free margin is the rest of the balance, which
never moves, and never falls below zero; equity and level follow. An execution fails for lack of
margin exactly if it comes to set aside more than is left. Once no execution is under way the
margin that is used is that of the fills. -/
theorem margin_conserved {p : Paper ρ} (hp : p.Unused) {orders : List Order}
    (hpos : ∀ o ∈ orders, 0 < amount o.volume) {turns : List (Nat × Int64)}
    (hrun : (Busy.opening p (MarginBook.opening 0 100000) orders).follow (.exact amount words)
      turns = some s) : Conserved amount words s :=
  (Busy.follow_keeps (P := Balanced amount) (fun hb h => hb.step h) (.opening hp hpos)
    hrun).conserved

/-- Two orders of one lot each take turns until both are filled. -/
def takingTurns : Option (Busy ℚ Random.Tape) :=
  (Busy.opening reliablePaper (MarginBook.opening 0 100000)
    [Desk.plainOrder "r-1", Desk.plainOrder "r-2"]).follow
      (.exact (fun _ => 1) fun _ _ => "No margin") (List.replicate 6 [(0, 0), (1, 0)]).flatten

theorem margin_conserved_takingTurns : ∃ s, takingTurns = some s ∧
    s.calls.map (fun c => c.2.isReserved) = [true, true] ∧ s.paper.fills.values.length = 2 ∧
    s.book.used = 2000 ∧ s.book.free = 98000 := by
  have hends : takingTurns.map (fun s => (s.calls.map fun c => (c.2.isReserved, c.2.isDone),
      s.paper.fills.values.length)) = some ([(true, true), (true, true)], 2) := by
    decide +kernel
  obtain ⟨s, hrun, hends⟩ := Option.map_eq_some_iff.1 hends
  obtain ⟨hcalls, hfills⟩ := Prod.mk.inj hends
  have hreserved := congrArg (List.map Prod.fst) hcalls
  rw [List.map_map] at hreserved
  have hc : Conserved (fun _ => 1) (fun _ _ => "No margin") s :=
    margin_conserved unused_reliablePaper (fun _ _ => one_pos) hrun
  have hlength : s.calls.length = 2 := by simpa using congrArg List.length hcalls
  have hall : ∀ c ∈ s.calls, c.2.isDone = true := by
    intro c hmem
    have hstage : (c.2.isReserved, c.2.isDone) ∈ [(true, true), (true, true)] :=
      hcalls ▸ List.mem_map_of_mem hmem
    simp only [List.mem_cons, List.not_mem_nil, or_false, or_self, Prod.mk.injEq] at hstage
    exact hstage.2
  have hused : s.book.used = 2000 := by
    rw [(hc.rest hall).2 (by rw [hlength]; decide), List.map_const', hfills]
    norm_num
  refine ⟨s, hrun, hreserved, hfills, hused, ?_⟩
  rw [hc.free, hc.balance, hused]
  norm_num

end Paper

end DealDesk
