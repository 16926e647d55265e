import DealDesk.Proofs.Record.Lawful

/-!
# Records are read as they were written

* `RecordKind` — the nine kinds of values that are written as records, each with its reader and
  its writer.
* `RecordKind.Presents` — the trees that say a value: fields in any order, with strange ones among
  them or left out where they hold nothing, or the array of the fields.
* `RecordKind.decode_of_presents`, `RecordKind.decode_finite` — such a tree is decoded to the value,
  and what is decoded has finite doubles.

`read_as_written` is the main result: a value is read from every spelling of every tree that says
it, what is written for it among them, and so whatever has been read survives another round.
-/

namespace DealDesk

open Json

/-! ## Decoding texts -/

section Texts

variable {α : Type} {decode : Json → Except DecodeError α}

/-- A text that is spelled is decoded as the tree is. -/
theorem decodeText_of_spells {j : Json} {cs : List Char} (h : Spells j cs) :
    decodeText decode (String.ofList cs) = decode j := by
  rw [decodeText, h.ofText]
  cases hj : decode j <;> simp [hj]

theorem decode_of_decodeText {text : String} {a : α} (h : decodeText decode text = .ok a) :
    decode (Json.ofText text).1 = .ok a := by
  unfold decodeText at h
  dsimp only at h
  split at h
  · cases h
  · next hdecode =>
    split at h
    · cases h
    · cases h
      exact hdecode

end Texts

/-! ## Outcomes -/

namespace Outcome

theorem decode_named {name : String} (hname : name ∈ variants) (content : Json) :
    decode (ofMembers [(name, content)]) = decodeContent name content := by
  rw [decode, ofMembers, List.map_singleton, decodeVariant, if_pos hname]
  cases decodeContent name content <;> rfl

theorem decode_cases {j : Json} {o : Outcome} (h : decode j = .ok o) :
    (∃ f content, Fill.form.decode content = .ok f ∧ o = .filled f) ∨
      ∃ f content, Failure.form.decode content = .ok f ∧ o = .failed f := by
  rcases decodeVariant_ok h with ⟨name, hname⟩ | ⟨name, content, hcontent⟩
  · cases hname
  · unfold decodeContent at hcontent
    split at hcontent
    · cases hf : Fill.form.decode content with
      | error e => rw [hf] at hcontent; cases hcontent
      | ok f =>
        rw [hf] at hcontent
        cases hcontent
        exact .inl ⟨f, content, hf, rfl⟩
    · cases hf : Failure.form.decode content with
      | error e => rw [hf] at hcontent; cases hcontent
      | ok f =>
        rw [hf] at hcontent
        cases hcontent
        exact .inr ⟨f, content, hf, rfl⟩

end Outcome

/-! ## Kinds of records -/

inductive RecordKind
  | order
  | settlement
  | instrument
  | account
  | fill
  | failure
  | outcome
  | status
  | settings
  deriving DecidableEq, Repr

namespace RecordKind

def Value : RecordKind → Type
  | order => Order
  | settlement => Settlement
  | instrument => Instrument
  | account => Account
  | fill => Fill
  | failure => Failure
  | outcome => Outcome
  | status => Status
  | settings => Settings

def encode : (k : RecordKind) → k.Value → Json
  | order => Order.form.encode floatJson
  | settlement => Settlement.form.encode floatJson
  | instrument => Instrument.form.encode floatJson
  | account => Account.form.encode floatJson
  | fill => Fill.form.encode floatJson
  | failure => Failure.form.encode floatJson
  | outcome => Outcome.encode floatJson
  | status => Status.encode
  | settings => Settings.form.encode floatJson

def decode : (k : RecordKind) → Json → Except DecodeError k.Value
  | order => Order.form.decode
  | settlement => Settlement.form.decode
  | instrument => Instrument.form.decode
  | account => Account.form.decode
  | fill => Fill.form.decode
  | failure => Failure.form.decode
  | outcome => Outcome.decode
  | status => Status.decode
  | settings => Settings.form.decode

/-- The doubles in a value. -/
def floats : (k : RecordKind) → k.Value → List Float
  | order => Order.form.floats
  | settlement => Settlement.form.floats
  | instrument => Instrument.form.floats
  | account => Account.form.floats
  | fill => Fill.form.floats
  | failure => Failure.form.floats
  | outcome => fun
    | .filled f => Fill.form.floats f
    | .failed f => Failure.form.floats f
  | status => fun _ => []
  | settings => Settings.form.floats

/-- The tree says the value. An object that names a variant has one member, whose content can be
presented like any record. -/
def Presents : (k : RecordKind) → k.Value → Json → Prop
  | order => fun o => DealDesk.Presents (Order.form.slots o)
  | settlement => fun s => DealDesk.Presents (Settlement.form.slots s)
  | instrument => fun i => DealDesk.Presents (Instrument.form.slots i)
  | account => fun a => DealDesk.Presents (Account.form.slots a)
  | fill => fun f => DealDesk.Presents (Fill.form.slots f)
  | failure => fun f => DealDesk.Presents (Failure.form.slots f)
  | outcome => fun
    | .filled f => fun j => ∃ content, DealDesk.Presents (Fill.form.slots f) content ∧
        j = ofMembers [("Filled", content)]
    | .failed f => fun j => ∃ content, DealDesk.Presents (Failure.form.slots f) content ∧
        j = ofMembers [("Failed", content)]
  | status => fun s j => j = .text s.variant
  | settings => fun s => DealDesk.Presents (Settings.form.slots s)

theorem presents_encode (k : RecordKind) (v : k.Value) : k.Presents v (k.encode v) := by
  cases k with
  | outcome =>
    cases v with
    | filled f => exact ⟨_, Fill.form.shape.presents_encode (Fill.form.data f), rfl⟩
    | failed f => exact ⟨_, Failure.form.shape.presents_encode (Failure.form.data f), rfl⟩
  | status => rfl
  | _ => exact Shape.presents_encode _ _

theorem spelled_encode (k : RecordKind) (v : k.Value) : Spelled (k.encode v) := by
  cases k with
  | outcome =>
    cases v with
    | filled f =>
      exact spelled_ofMembers (List.forall_mem_singleton.mpr (Shape.spelled_encode _ _))
    | failed f =>
      exact spelled_ofMembers (List.forall_mem_singleton.mpr (Shape.spelled_encode _ _))
  | status => exact spelled_text _
  | _ => exact Shape.spelled_encode _ _

variable {j : Json}

/-- **A tree that says a value is decoded to it.** -/
theorem decode_of_presents (k : RecordKind) {v : k.Value}
    (hfinite : ∀ x ∈ k.floats v, x.isFinite = true) (hback : ∀ x ∈ k.floats v, ReadsBack x)
    (hj : k.Presents v j) (hskip : skipFault j = none) : k.decode j = .ok v := by
  cases k with
  | order => exact Order.form_lawful.decode_of_presents hfinite hback hj hskip
  | settlement => exact Settlement.form_lawful.decode_of_presents hfinite hback hj hskip
  | instrument => exact Instrument.form_lawful.decode_of_presents hfinite hback hj hskip
  | account => exact Account.form_lawful.decode_of_presents hfinite hback hj hskip
  | fill => exact Fill.form_lawful.decode_of_presents hfinite hback hj hskip
  | failure => exact Failure.form_lawful.decode_of_presents hfinite hback hj hskip
  | settings => exact Settings.form_lawful.decode_of_presents hfinite hback hj hskip
  | status =>
    cases hj
    cases v <;> rfl
  | outcome =>
    cases v with
    | filled f =>
      obtain ⟨content, hcontent, rfl⟩ := hj
      have hf := Fill.form_lawful.decode_of_presents hfinite hback hcontent
        (skipFault_of_mem hskip _ List.mem_cons_self)
      rw [decode, Outcome.decode_named (by decide), Outcome.decodeContent, if_pos rfl, hf]
      rfl
    | failed f =>
      obtain ⟨content, hcontent, rfl⟩ := hj
      have hf := Failure.form_lawful.decode_of_presents hfinite hback hcontent
        (skipFault_of_mem hskip _ List.mem_cons_self)
      rw [decode, Outcome.decode_named (by decide), Outcome.decodeContent, if_neg (by decide), hf]
      rfl

/-- **What is decoded has finite doubles only.** -/
theorem decode_finite (k : RecordKind) {v : k.Value} (h : k.decode j = .ok v) :
    ∀ x ∈ k.floats v, x.isFinite = true := by
  cases k with
  | order => exact Order.form_lawful.decode_finite h
  | settlement => exact Settlement.form_lawful.decode_finite h
  | instrument => exact Instrument.form_lawful.decode_finite h
  | account => exact Account.form_lawful.decode_finite h
  | fill => exact Fill.form_lawful.decode_finite h
  | failure => exact Failure.form_lawful.decode_finite h
  | settings => exact Settings.form_lawful.decode_finite h
  | status => nofun
  | outcome =>
    rcases Outcome.decode_cases h with ⟨f, content, hf, rfl⟩ | ⟨f, content, hf, rfl⟩
    · exact Fill.form_lawful.decode_finite hf
    · exact Failure.form_lawful.decode_finite hf

end RecordKind

/-! ## There and back -/

/-- **A value is read as it was written.** Let the decimals that are written for the doubles of a
value read back as these doubles. If they are finite, the value is read from what is written for
it, and from every spelling of every tree that says it. What has been read as the value has finite
doubles, so what is written for it then is read as the value again. -/
theorem read_as_written (k : RecordKind) (v : k.Value) (hback : ∀ x ∈ k.floats v, ReadsBack x) :
    ((∀ x ∈ k.floats v, x.isFinite = true) →
      decodeText k.decode (k.encode v).toText = .ok v ∧
        ∀ j cs, k.Presents v j → Spells j cs → decodeText k.decode (String.ofList cs) = .ok v) ∧
      ∀ text, decodeText k.decode text = .ok v →
        decodeText k.decode (k.encode v).toText = .ok v := by
  have hread : (∀ x ∈ k.floats v, x.isFinite = true) → ∀ j cs, k.Presents v j → Spells j cs →
      decodeText k.decode (String.ofList cs) = .ok v := fun hfinite j cs hj hcs =>
    (decodeText_of_spells hcs).trans (k.decode_of_presents hfinite hback hj hcs.skipFault)
  have hwritten : (∀ x ∈ k.floats v, x.isFinite = true) →
      decodeText k.decode (k.encode v).toText = .ok v := fun hfinite =>
    hread hfinite _ _ (k.presents_encode v) (k.spelled_encode v)
  exact ⟨fun hfinite => ⟨hwritten hfinite, hread hfinite⟩, fun text h =>
    hwritten (k.decode_finite (decode_of_decodeText h))⟩

theorem readsBack_of {x : Float} {n : Numeral} (hn : Numeral.ofFloat? x = some n)
    (hx : n.toFloat = x) : ReadsBack x := fun m hm => by
  cases hn.symm.trans hm
  exact hx

def halfLot : Order :=
  { id := ⟨"r-1"⟩, client := ⟨"the \"desk\""⟩, side := .buy, symbol := "EURUSD", volume := 0.5
    stopLoss := none, takeProfit := some 1.25, submittedAt := -1 }

/-- The order is read from the text that is written for it, and from one that begins with a
stranger, goes through the fields backwards and says nothing of the one that is empty. -/
theorem read_as_written_halfLot :
    (∀ x ∈ RecordKind.order.floats halfLot, ReadsBack x) ∧
      (∀ x ∈ RecordKind.order.floats halfLot, x.isFinite = true) ∧
      decodeText Order.form.decode (Order.form.encode floatJson halfLot).toText = .ok halfLot ∧
      decodeText Order.form.decode (ofMembers
        [("note", .bool true), ("submitted_at", .number (.whole true 1)),
          ("take_profit", floatJson 1.25), ("volume", floatJson 0.5), ("symbol", .text "EURUSD"),
          ("side", .text "Buy"), ("submitter_id", .text "the \"desk\""),
          ("request_id", .text "r-1")]).toText = .ok halfLot := by
  have hback : ∀ x ∈ RecordKind.order.floats halfLot, ReadsBack x := by
    refine List.forall_mem_cons.mpr ⟨?_, List.forall_mem_singleton.mpr ?_⟩
    · exact @readsBack_of 0.5 (.decimal false ⟨5, -1⟩) (by decide +kernel) rfl
    · exact @readsBack_of 1.25 (.decimal false ⟨125, -2⟩) (by decide +kernel) rfl
  have hfinite : ∀ x ∈ RecordKind.order.floats halfLot, x.isFinite = true := by
    refine List.forall_mem_cons.mpr ⟨rfl, List.forall_mem_singleton.mpr rfl⟩
  obtain ⟨hwritten, hread⟩ := (read_as_written .order halfLot hback).1 hfinite
  refine ⟨hback, hfinite, hwritten, hread _ _ ?_ (spelled_ofMembers ?_)⟩
  · refine @Presents.object _ _ [("note", .bool true)] ["stop_loss"] ?_ ?_
      ((List.Perm.of_eq ?_).trans (List.reverse_perm _))
    · simp [Form.slots, Order.form, halfLot, optionalField, Datum.ofFloat?]
    · simp [Form.slots, Order.form, optionalField]
    · rfl
  · simp only [List.forall_mem_cons]
    exact ⟨Spells.true, spelled_whole _ _, spelled_floatJson _, spelled_floatJson _,
      spelled_text _, spelled_text _, spelled_text _, spelled_text _, List.forall_mem_nil _⟩

def noMargin : Failure :=
  { kind := .margin, disposition := .permanent, reason := "no margin" }

/-- **No stranger stands beside a variant.** A failure is read from its text, and not from the
text with another member next to the one that names it. -/
theorem stranger_beside_variant :
    decodeText Outcome.decode ("\x7b\"Failed\":\x7b\"kind\":\"Margin\",\"disposition\":" ++
        "\"Permanent\",\"reason\":\"no margin\"\x7d\x7d") = .ok (.failed noMargin) ∧
      decodeText Outcome.decode ("\x7b\"Failed\":\x7b\"kind\":\"Margin\",\"disposition\":" ++
        "\"Permanent\",\"reason\":\"no margin\"\x7d,\"note\":1\x7d") =
          .error (.badText .malformed) := by
  let named : String × Json := ("Failed", Failure.form.encode floatJson noMargin)
  let stranger : String × Json := ("note", .number (.whole false 1))
  have hnamed : Spelled named.2 := Shape.spelled_encode _ _
  have halone : Spelled (ofMembers [named]) :=
    spelled_ofMembers (List.forall_mem_singleton.mpr hnamed)
  have hbeside : Spelled (ofMembers [named, stranger]) :=
    spelled_ofMembers (List.forall_mem_cons.mpr
      ⟨hnamed, List.forall_mem_singleton.mpr (spelled_whole false 1)⟩)
  constructor
  · show decodeText Outcome.decode (ofMembers [named]).toText = _
    exact (decodeText_of_spells halone).trans rfl
  · show decodeText Outcome.decode (ofMembers [named, stranger]).toText = _
    exact (decodeText_of_spells hbeside).trans rfl

end DealDesk
