import DealDesk.Proofs.Desk.Rounds
import Mathlib.Data.Finset.Card

/-!
# What the gate decides

* `Rule` — what the gate asks of an order whose name is new, one thing after the other.
  `Rule.Holds` says when it is met, given what the broker answers about the symbol, and `Rule.Says`
  what the gate may say if it is the first that is not.
* `Order.ruling_clear_iff`, `Order.ruling_of_failsFirst` — the ruling lets an order through if all
  rules hold, and else it is what the first that fails says.
* `Order.numbers_of_holds` — where all rules hold, every amount is a number.
* `Gate.after` — the gate after any orders; `seen_after` and `count_after` say what it knows.
* `Broker.watched` — a broker beside which the calls to it are listed.

`gate_decides_exactly` is the main result: it says all that one call to the gate does, after any
calls before it.
-/

namespace DealDesk

/-! ## Doubles that are no numbers -/

section NotANumber

open Float.Model

variable {x : Float}

theorem unpack_of_isNaN (h : x.isNaN = true) : x.toModel.unpack = .notANumber := by
  have hmodel : x.toModel.unpack.isNaN = true := h
  cases hx : x.toModel.unpack with
  | notANumber => rfl
  | _ => rw [hx] at hmodel; cases hmodel

theorem compare_notANumber (f : UnpackedFloat) : f.compare .notANumber = none := by
  cases f <;> rfl

/-- Nothing is less than what is no number. -/
theorem not_lt_of_isNaN (y : Float) (h : x.isNaN = true) : ¬y < x := by
  intro hlt
  have hmodel : y.toModel.unpack.lt x.toModel.unpack = true := of_decide_eq_true hlt
  rw [unpack_of_isNaN h, UnpackedFloat.lt, compare_notANumber] at hmodel
  cases hmodel

/-- It does not compare with anything, on either side. -/
theorem not_le_of_isNaN (y : Float) (h : x.isNaN = true) : ¬y ≤ x ∧ ¬x ≤ y := by
  constructor
  · intro hle
    have hmodel : y.toModel.unpack.le x.toModel.unpack = true := of_decide_eq_true hle
    rw [unpack_of_isNaN h, UnpackedFloat.le, compare_notANumber] at hmodel
    cases hmodel
  · intro hle
    have hmodel : x.toModel.unpack.le y.toModel.unpack = true := of_decide_eq_true hle
    rw [unpack_of_isNaN h, UnpackedFloat.le] at hmodel
    cases hmodel

theorem isNaN_ofModel_pack {f : UnpackedFloat} (h : f = .notANumber) :
    (Float.ofModel (Float.Model.pack f)).isNaN = true := by
  rw [h]
  rfl

theorem isNaN_div_of_isNaN (y : Float) (h : x.isNaN = true) : (y / x).isNaN = true := by
  refine isNaN_ofModel_pack
    (f := UnpackedFloat.div Format.binary64 y.toModel.unpack x.toModel.unpack) ?_
  rw [unpack_of_isNaN h]
  cases y.toModel.unpack <;> rfl

theorem isNaN_sub_of_isNaN (y : Float) (h : x.isNaN = true) : (x - y).isNaN = true := by
  refine isNaN_ofModel_pack
    (f := UnpackedFloat.sub Format.binary64 x.toModel.unpack y.toModel.unpack) ?_
  rw [unpack_of_isNaN h]
  rfl

theorem isNaN_abs_of_isNaN (h : x.isNaN = true) : x.abs.isNaN = true := by
  refine isNaN_ofModel_pack (f := x.toModel.unpack.abs) ?_
  rw [unpack_of_isNaN h]
  rfl

end NotANumber

/-! ## The rules -/

/-- What the gate asks of an order whose name is new, in the order in which it asks. -/
inductive Rule
  | client
  | symbol
  | volume
  /-- The broker answers when it is asked for the symbol. -/
  | answered
  | known
  | tradeable
  | range
  | step
  | stopLoss
  | takeProfit
  deriving DecidableEq

namespace Rule

/-- The place in the order. -/
def rank : Rule → Nat
  | .client => 0
  | .symbol => 1
  | .volume => 2
  | .answered => 3
  | .known => 4
  | .tradeable => 5
  | .range => 6
  | .step => 7
  | .stopLoss => 8
  | .takeProfit => 9

/-- Is the rule met, if the broker answers `quote` when it is asked for the symbol? -/
def Holds (o : Order) (quote : Reply (Option Instrument)) : Rule → Prop
  | .client => o.client.text ≠ ""
  | .symbol => o.symbol ≠ ""
  | .volume => 0 < o.volume
  | .answered => quote ≠ .broke
  | .known => quote ≠ .answer none
  | .tradeable => ∀ i, quote = .answer (some i) → i.tradeable = true
  | .range => ∀ i, quote = .answer (some i) → i.minVolume ≤ o.volume ∧ o.volume ≤ i.maxVolume
  | .step => ∀ i, quote = .answer (some i) → i.volumeStep ≤ 0 ∨
      (o.volume / i.volumeStep - Decimal.nearestInteger (o.volume / i.volumeStep)).abs ≤
        Instrument.stepTolerance
  | .stopLoss => ∀ x, o.stopLoss = some x → 0 < x
  | .takeProfit => ∀ x, o.takeProfit = some x → 0 < x

/-- `r.Says o quote v`: if `r` is the first rule that is not met, the gate says `v`. -/
inductive Says (o : Order) :
    Rule → Reply (Option Instrument) → Reply (Option Objection) → Prop
  | client (quote : Reply (Option Instrument)) : Says o .client quote (.answer (some .noClient))
  | symbol (quote : Reply (Option Instrument)) : Says o .symbol quote (.answer (some .noSymbol))
  | volume (quote : Reply (Option Instrument)) : Says o .volume quote (.answer (some .volume))
  | answered : Says o .answered .broke .broke
  | known : Says o .known (.answer none) (.answer (some .unknownSymbol))
  | tradeable (i : Instrument) :
      Says o .tradeable (.answer (some i)) (.answer (some .notTradeable))
  | range (i : Instrument) :
      Says o .range (.answer (some i)) (.answer (some (.outOfRange i.minVolume i.maxVolume)))
  | step (i : Instrument) :
      Says o .step (.answer (some i)) (.answer (some (.offStep i.volumeStep)))
  | stopLoss (i : Instrument) {x : Float} (h : o.stopLoss = some x) :
      Says o .stopLoss (.answer (some i)) (.answer (some (.stopLoss x)))
  | takeProfit (i : Instrument) {x : Float} (h : o.takeProfit = some x) :
      Says o .takeProfit (.answer (some i)) (.answer (some (.takeProfit x)))

/-- The rule is not met, but all before it are. -/
def FailsFirst (r : Rule) (o : Order) (quote : Reply (Option Instrument)) : Prop :=
  ¬r.Holds o quote ∧ ∀ q : Rule, q.rank < r.rank → q.Holds o quote

/-- A symbol that may not be traded is turned down; whatever else fails is the client's mistake. -/
def status : Rule → Status
  | .tradeable => .rejected
  | _ => .invalidParams

variable {r : Rule} {o : Order} {quote : Reply (Option Instrument)}
  {v : Reply (Option Objection)} {why : Objection}

theorem Says.status_eq (h : r.Says o quote (.answer (some why))) : why.status = r.status := by
  cases h <;> rfl

theorem Says.ne_clear (h : r.Says o quote v) : v ≠ .answer none := by
  cases h <;> nofun

theorem Says.ne_duplicate (h : r.Says o quote v) : v ≠ .answer (some .duplicate) := by
  cases h <;> nofun

/-- What fails first has something to say. -/
theorem FailsFirst.exists_says (h : r.FailsFirst o quote) : ∃ v, r.Says o quote v := by
  obtain ⟨hr, hbefore⟩ := h
  have told : 5 ≤ r.rank → ∃ i, quote = .answer (some i) := by
    intro hle
    have hanswered := hbefore .answered (Nat.lt_of_lt_of_le (by decide) hle)
    have hknown := hbefore .known (Nat.lt_of_lt_of_le (by decide) hle)
    rcases quote with (_ | i) | _
    · exact absurd rfl hknown
    · exact ⟨i, rfl⟩
    · exact absurd rfl hanswered
  cases r with
  | client => exact ⟨_, .client quote⟩
  | symbol => exact ⟨_, .symbol quote⟩
  | volume => exact ⟨_, .volume quote⟩
  | answered =>
    obtain rfl : quote = .broke := not_not.1 hr
    exact ⟨_, .answered⟩
  | known =>
    obtain rfl : quote = .answer none := not_not.1 hr
    exact ⟨_, .known⟩
  | tradeable =>
    obtain ⟨i, rfl⟩ := told (by decide)
    exact ⟨_, .tradeable i⟩
  | range =>
    obtain ⟨i, rfl⟩ := told (by decide)
    exact ⟨_, .range i⟩
  | step =>
    obtain ⟨i, rfl⟩ := told (by decide)
    exact ⟨_, .step i⟩
  | stopLoss =>
    obtain ⟨i, rfl⟩ := told (by decide)
    cases hx : o.stopLoss with
    | none => exact absurd (fun x h => by cases hx.symm.trans h) hr
    | some x => exact ⟨_, .stopLoss i hx⟩
  | takeProfit =>
    obtain ⟨i, rfl⟩ := told (by decide)
    cases hx : o.takeProfit with
    | none => exact absurd (fun x h => by cases hx.symm.trans h) hr
    | some x => exact ⟨_, .takeProfit i hx⟩

/-- Some rule fails first if not all hold. -/
theorem exists_failsFirst (h : ¬∀ r : Rule, r.Holds o quote) :
    ∃ r : Rule, r.FailsFirst o quote := by
  by_contra hnone
  refine h fun r => ?_
  induction hn : r.rank using Nat.strongRecOn generalizing r with
  | ind n ih =>
    by_contra hr
    exact hnone ⟨r, hr, fun q hq => ih _ (hn ▸ hq) q rfl⟩

end Rule

/-! ## The ruling -/

section Checks

variable {o : Order} {i : Instrument}

theorem Rule.holds_tradeable :
    tradeable.Holds o (.answer (some i)) ↔ i.tradeable = true := by
  simp [Holds]

theorem Rule.holds_range :
    range.Holds o (.answer (some i)) ↔ i.allows o.volume = true := by
  simp [Holds, Instrument.allows]

theorem Rule.holds_step : step.Holds o (.answer (some i)) ↔ i.aligned o.volume = true := by
  have hstep : step.Holds o (.answer (some i)) ↔ i.volumeStep ≤ 0 ∨
      (o.volume / i.volumeStep - Decimal.nearestInteger (o.volume / i.volumeStep)).abs ≤
        Instrument.stepTolerance := by
    simp [Holds]
  rw [hstep, Instrument.aligned]
  by_cases h : i.volumeStep ≤ 0 <;> simp [h]

theorem badLevel_eq_none_iff {level : Option Float} :
    badLevel level = none ↔ ∀ x, level = some x → 0 < x := by
  cases level with
  | none => simp [badLevel]
  | some y => simp [badLevel]

theorem badLevel_of_not {x : Float} (h : ¬0 < x) : badLevel (some x) = some x := if_neg h

end Checks

namespace Order

variable {o : Order} {quote : Reply (Option Instrument)} {i : Instrument} {r : Rule}
  {v : Reply (Option Objection)}

/-- An order is sound on its own if the first three rules hold, for which no broker is asked. -/
theorem flaw_eq_none_iff :
    o.flaw = none ↔ o.client.text ≠ "" ∧ o.symbol ≠ "" ∧ 0 < o.volume := by
  unfold flaw ClientId.isEmpty
  by_cases hc : o.client.text = ""
  · simp [hc]
  · by_cases hs : o.symbol = ""
    · simp [hc, hs]
    · by_cases hv : 0 < o.volume <;> simp [hc, hs, hv]

/-- The first rules, taken together. -/
theorem flaw_eq_none (h : ∀ q : Rule, q.rank < 3 → q.Holds o quote) : o.flaw = none :=
  flaw_eq_none_iff.2 ⟨h .client (by decide), h .symbol (by decide), h .volume (by decide)⟩

theorem clash_eq_none (h : ∀ q : Rule, q.Holds o (.answer (some i))) :
    o.clash (some i) = none := by
  have ht := Rule.holds_tradeable.1 (h .tradeable)
  have ha := Rule.holds_range.1 (h .range)
  have hs := Rule.holds_step.1 (h .step)
  have hl := badLevel_eq_none_iff.2 (h .stopLoss)
  have hp := badLevel_eq_none_iff.2 (h .takeProfit)
  simp [clash, ht, ha, hs, hl, hp]

/-- **The ruling is the verdict of the first rule that fails.** -/
theorem ruling_of_failsFirst (h : r.FailsFirst o quote) (hv : r.Says o quote v) :
    o.ruling true quote = v := by
  obtain ⟨hr, hbefore⟩ := h
  have hsound : 3 ≤ r.rank → o.flaw = none := fun hle =>
    flaw_eq_none fun q hq => hbefore q (by omega)
  cases hv with
  | client =>
    have hc : o.client.text = "" := not_not.1 hr
    exact ruling_of_flaw (by simp [flaw, ClientId.isEmpty, hc])
  | symbol =>
    have hc : o.client.text ≠ "" := hbefore .client (by decide)
    have hs : o.symbol = "" := not_not.1 hr
    exact ruling_of_flaw (by simp [flaw, ClientId.isEmpty, hc, hs])
  | volume =>
    have hc : o.client.text ≠ "" := hbefore .client (by decide)
    have hs : o.symbol ≠ "" := hbefore .symbol (by decide)
    have hv : ¬0 < o.volume := hr
    exact ruling_of_flaw (by simp [flaw, ClientId.isEmpty, hc, hs, hv])
  | answered => exact ruling_broke (hsound (by decide))
  | known => exact ruling_answer (hsound (by decide)) none
  | tradeable i =>
    rw [Rule.holds_tradeable] at hr
    rw [ruling_answer (hsound (by decide))]
    simp [clash, hr]
  | range i =>
    have ht := Rule.holds_tradeable.1 (hbefore .tradeable (by decide))
    rw [Rule.holds_range] at hr
    rw [ruling_answer (hsound (by decide))]
    simp [clash, ht, hr]
  | step i =>
    have ht := Rule.holds_tradeable.1 (hbefore .tradeable (by decide))
    have ha := Rule.holds_range.1 (hbefore .range (by decide))
    rw [Rule.holds_step] at hr
    rw [ruling_answer (hsound (by decide))]
    simp [clash, ht, ha, hr]
  | @stopLoss i x hx =>
    have ht := Rule.holds_tradeable.1 (hbefore .tradeable (by decide))
    have ha := Rule.holds_range.1 (hbefore .range (by decide))
    have hs := Rule.holds_step.1 (hbefore .step (by decide))
    have hbad : ¬0 < x := by simpa [Rule.Holds, hx] using hr
    rw [ruling_answer (hsound (by decide))]
    simp [clash, ht, ha, hs, hx, badLevel_of_not hbad]
  | @takeProfit i x hx =>
    have ht := Rule.holds_tradeable.1 (hbefore .tradeable (by decide))
    have ha := Rule.holds_range.1 (hbefore .range (by decide))
    have hs := Rule.holds_step.1 (hbefore .step (by decide))
    have hl := badLevel_eq_none_iff.2 (hbefore .stopLoss (by decide))
    have hbad : ¬0 < x := by simpa [Rule.Holds, hx] using hr
    rw [ruling_answer (hsound (by decide))]
    simp [clash, ht, ha, hs, hl, hx, badLevel_of_not hbad]

/-- **The ruling lets an order through if all rules hold**, and not otherwise. -/
theorem ruling_clear_iff :
    o.ruling true quote = .answer none ↔ ∀ r : Rule, r.Holds o quote := by
  constructor
  · intro hclear
    by_contra hnot
    obtain ⟨r, hr⟩ := Rule.exists_failsFirst hnot
    obtain ⟨v, hv⟩ := hr.exists_says
    exact hv.ne_clear ((ruling_of_failsFirst hr hv).symm.trans hclear)
  · intro h
    have hsound : o.flaw = none := flaw_eq_none fun q _ => h q
    cases quote with
    | broke => exact absurd rfl (h .answered)
    | answer quoted =>
      cases quoted with
      | none => exact absurd rfl (h .known)
      | some i => rw [ruling_answer hsound, clash_eq_none h]

/-- Any other ruling is what the first rule that fails says. -/
theorem ruling_eq_iff (hv : v ≠ .answer none) :
    o.ruling true quote = v ↔ ∃ r : Rule, r.FailsFirst o quote ∧ r.Says o quote v := by
  constructor
  · rintro rfl
    obtain ⟨r, hr⟩ := Rule.exists_failsFirst (mt ruling_clear_iff.2 hv)
    obtain ⟨w, hw⟩ := hr.exists_says
    rw [ruling_of_failsFirst hr hw]
    exact ⟨r, hr, hw⟩
  · rintro ⟨r, hr, hsays⟩
    exact ruling_of_failsFirst hr hsays

theorem exists_rule {why : Objection} (h : o.ruling true quote = .answer (some why)) :
    ∃ r : Rule, r.FailsFirst o quote ∧ r.Says o quote (.answer (some why)) :=
  (ruling_eq_iff (v := .answer (some why)) nofun).1 h

/-- Where all rules hold, every amount is a number. -/
theorem numbers_of_holds (h : ∀ r : Rule, r.Holds o quote) : o.volume.isNaN = false ∧
    (∀ x, o.stopLoss = some x → x.isNaN = false) ∧
    (∀ x, o.takeProfit = some x → x.isNaN = false) ∧
    ∀ i, quote = .answer (some i) →
      i.minVolume.isNaN = false ∧ i.maxVolume.isNaN = false ∧ i.volumeStep.isNaN = false := by
  have number : ∀ {x : Float}, 0 < x → x.isNaN = false := fun hx =>
    Bool.eq_false_iff.2 fun hnan => not_lt_of_isNaN 0 hnan hx
  refine ⟨number (h .volume), fun x hx => number (h .stopLoss x hx),
    fun x hx => number (h .takeProfit x hx), fun i hi => ⟨?_, ?_, ?_⟩⟩
  · exact Bool.eq_false_iff.2 fun hnan => (not_le_of_isNaN _ hnan).2 (h .range i hi).1
  · exact Bool.eq_false_iff.2 fun hnan => (not_le_of_isNaN _ hnan).1 (h .range i hi).2
  · refine Bool.eq_false_iff.2 fun hnan => ?_
    rcases h .step i hi with hstep | hstep
    · exact (not_le_of_isNaN _ hnan).2 hstep
    · have hdiv := isNaN_div_of_isNaN o.volume hnan
      exact (not_le_of_isNaN _ (isNaN_abs_of_isNaN (isNaN_sub_of_isNaN _ hdiv))).2 hstep

end Order

/-! ## Histories -/

/-- A call that is made to a broker. -/
inductive Asked
  | symbol (name : String)
  | execution (order : Order)
  | connection (server : String)
  | disconnection

/-- The broker, with a list of the calls that are made to it beside its state. -/
def Broker.watched {β : Type} (b : Broker β) : Broker (β × List Asked) where
  quote s symbol :=
    let (reply, state) := b.quote s.1 symbol
    (reply, state, s.2 ++ [.symbol symbol])
  account s := b.account s.1
  execute s now o :=
    let called := b.execute s.1 now o
    ⟨called.reply, (called.state, s.2 ++ [.execution o]), called.delay⟩
  deal s := b.deal s.1
  notes := b.notes
  connect s server login password :=
    let called := b.connect s.1 server login password
    ⟨called.reply, (called.state, s.2 ++ [.connection server]), called.delay⟩
  disconnect s := (b.disconnect s.1, s.2 ++ [.disconnection])
  isConnected s := b.isConnected s.1
  symbols s := b.symbols s.1

namespace Gate

variable {β : Type} {b : Broker β} {g : Gate} {s : β} {o : Order} {id : OrderId}
  {history : List (β × Order)}

/-- The gate after a history of orders, each shown to it with the broker in some state. -/
def after (b : Broker β) (history : List (β × Order)) : Gate :=
  history.foldl (fun g call => (g.examine b call.1 call.2).2.1) empty

theorem after_concat (s : β) (o : Order) :
    after b (history ++ [(s, o)]) = ((after b history).examine b s o).2.1 := by
  rw [after, List.foldl_append]
  rfl

/-- Examining an order adds its name to the names seen, if it is new, and does nothing else. -/
theorem examine_seen : (g.examine b s o).2.1.seen =
    if o.id ∈ g.seen then g.seen else o.id :: g.seen := by
  by_cases hseen : o.id ∈ g.seen
  · simp [examine, enter, hseen]
  · cases hflaw : o.flaw with
    | some why => simp [examine, enter, hseen, hflaw]
    | none =>
      cases hq : b.quote s o.symbol with
      | mk reply s' => cases reply <;> simp [examine, enter, hseen, hflaw, hq]

/-- **The gate has seen the names of all orders, whatever it said of them.** -/
theorem seen_after (b : Broker β) (history : List (β × Order)) :
    (after b history).seen.Nodup ∧
      ∀ id, id ∈ (after b history).seen ↔ id ∈ history.map fun call => call.2.id := by
  induction history using List.reverseRecOn with
  | nil => exact ⟨List.nodup_nil, fun id => Iff.rfl⟩
  | append_singleton history call ih =>
    obtain ⟨s, o⟩ := call
    obtain ⟨hnodup, hmem⟩ := ih
    rw [after_concat, examine_seen]
    split
    · rename_i hseen
      refine ⟨hnodup, fun id => ?_⟩
      rw [hmem, List.map_append, List.mem_append, List.map_singleton, List.mem_singleton]
      refine ⟨.inl, fun h => h.elim (fun h => h) ?_⟩
      rintro rfl
      exact (hmem _).1 hseen
    · rename_i hnew
      refine ⟨List.nodup_cons.2 ⟨hnew, hnodup⟩, fun id => ?_⟩
      rw [List.mem_cons, hmem, List.map_append, List.mem_append, List.map_singleton,
        List.mem_singleton, or_comm]

/-- It counts the different names. -/
theorem count_after (b : Broker β) (history : List (β × Order)) :
    (after b history).count = (history.map fun call => call.2.id).toFinset.card := by
  obtain ⟨hnodup, hmem⟩ := seen_after b history
  rw [count, ← List.toFinset_card_of_nodup hnodup]
  congr 1
  ext id
  rw [List.mem_toFinset, List.mem_toFinset, hmem]

/-- **A watched broker is asked for the symbol of an order that is new and sound on its own**, once,
and for nothing else; for the rest it makes no difference that it is watched. -/
theorem examine_watched (log : List Asked) : g.examine b.watched (s, log) o =
    ((g.examine b s o).1, (g.examine b s o).2.1, (g.examine b s o).2.2,
      log ++ if o.id ∉ g.seen ∧ o.flaw = none then [.symbol o.symbol] else []) := by
  by_cases hseen : o.id ∈ g.seen
  · simp [examine, enter, hseen]
  · cases hflaw : o.flaw with
    | some why => simp [examine, enter, hseen, hflaw]
    | none =>
      cases hq : b.quote s o.symbol with
      | mk reply s' => cases reply <;> simp [examine, enter, hseen, hflaw, hq, Broker.watched]

/-- **The gate decides exactly.** After any orders before it, an order is called a duplicate if and
only if one of them had its name, whatever became of that one. Otherwise it is let through if and
only if all rules hold, and else what is said of it is what the first rule that fails says. What is
settled so bears the names of the order and counts no retry, and is rejected if the symbol may not
be traded, but the client's mistake if another rule failed. No order passes with an amount that is
no number. The broker is asked for the symbol of an order that is new and sound on its own, once,
and for nothing else. The gate counts the different names that it was shown. -/
theorem gate_decides_exactly (b : Broker β) (history : List (β × Order)) (s : β) (o : Order) :
    let g := after b history
    let quote := (b.quote s o.symbol).1
    let verdict := (g.examine b s o).1
    let names := history.map fun call => call.2.id
    (verdict = .answer (some .duplicate) ↔ o.id ∈ names) ∧
    (o.id ∉ names → (verdict = .answer none ↔ ∀ r : Rule, r.Holds o quote) ∧
      ∀ v, v ≠ .answer none →
        (verdict = v ↔ ∃ r : Rule, r.FailsFirst o quote ∧ r.Says o quote v)) ∧
    (∀ (why : Objection) (now : Int64), verdict = .answer (some why) →
      let settlement := why.settlement now o
      settlement.orderId = o.id ∧ settlement.client = o.client ∧ settlement.retries = 0 ∧
      (o.id ∈ names → settlement.status = .duplicate) ∧
      (o.id ∉ names → ∃ r : Rule, r.FailsFirst o quote ∧ settlement.status = r.status)) ∧
    (verdict = .answer none → o.volume.isNaN = false ∧
      (∀ x, o.stopLoss = some x → x.isNaN = false) ∧
      (∀ x, o.takeProfit = some x → x.isNaN = false) ∧
      ∀ i, quote = .answer (some i) →
        i.minVolume.isNaN = false ∧ i.maxVolume.isNaN = false ∧ i.volumeStep.isNaN = false) ∧
    (∀ log : List Asked, g.examine b.watched (s, log) o =
      (verdict, (g.examine b s o).2.1, (g.examine b s o).2.2,
        log ++ if o.id ∉ names ∧ o.client.text ≠ "" ∧ o.symbol ≠ "" ∧ 0 < o.volume
          then [.symbol o.symbol] else [])) ∧
    g.count = names.toFinset.card := by
  intro g quote verdict names
  have hmem : ∀ id, id ∈ g.seen ↔ id ∈ names := (seen_after b history).2
  have hverdict : verdict = o.ruling (decide (o.id ∉ names)) quote := by
    rw [← decide_eq_decide.2 (not_congr (hmem o.id))]
    exact g.examine_fst b s o
  have hold : o.id ∈ names → verdict = .answer (some .duplicate) := fun h => by
    rw [hverdict, decide_eq_false (not_not.2 h)]
    rfl
  have hnew : o.id ∉ names → verdict = o.ruling true quote := fun h => by
    rw [hverdict, decide_eq_true h]
  refine ⟨⟨fun hdup => ?_, hold⟩, fun h => ?_, fun why now hwhy => ?_, fun hclear => ?_,
    fun log => ?_, count_after b history⟩
  · by_contra h
    obtain ⟨r, -, hsays⟩ := Order.exists_rule ((hnew h).symm.trans hdup)
    exact hsays.ne_duplicate rfl
  · rw [hnew h]
    exact ⟨Order.ruling_clear_iff, fun v hv => Order.ruling_eq_iff hv⟩
  · refine ⟨rfl, rfl, rfl, fun h => ?_, fun h => ?_⟩
    · cases (hold h).symm.trans hwhy
      rfl
    · obtain ⟨r, hr, hsays⟩ := Order.exists_rule ((hnew h).symm.trans hwhy)
      exact ⟨r, hr, hsays.status_eq⟩
  · by_cases h : o.id ∈ names
    · cases (hold h).symm.trans hclear
    · exact Order.numbers_of_holds (Order.ruling_clear_iff.1 ((hnew h).symm.trans hclear))
  · rw [examine_watched]
    simp only [hmem, Order.flaw_eq_none_iff]
    rfl

end Gate

end DealDesk
