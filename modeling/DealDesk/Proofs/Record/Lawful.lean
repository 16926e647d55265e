import DealDesk.Proofs.Record.Shapes
import DealDesk.Record.Forms

/-!
# Forms that lose nothing

* `Form.Lawful` — the data of a value fit the fields of its form, and the value is made of them
  again.
* `Form.Lawful.decode_of_presents` — a tree that presents a value is decoded to the value.
* `Form.Lawful.decode_finite` — a value that is decoded has finite doubles only.

The seven forms are lawful, one lemma each.
-/

namespace DealDesk

open Json

/-- There is no double in the first datum that is not in the second. -/
def Datum.Within (d d' : Datum) : Prop := d.floats ⊆ d'.floats

theorem Datum.Within.refl (d : Datum) : d.Within d := List.Subset.refl _

namespace Form

variable {α : Type} {f : Form α} {a : α} {j : Json}

def slots (f : Form α) (a : α) : List Slot := f.shape.fields.zip (f.data a)

/-- The doubles in a value. -/
def floats (f : Form α) (a : α) : List Float := (f.data a).flatMap Datum.floats

structure Lawful (f : Form α) : Prop where
  names : (f.shape.fields.map Field.name).Nodup
  settled : ∀ field ∈ f.shape.fields, field.Settled
  fits : ∀ a, List.Forall₂ (fun field d => Datum.Fits field.kind d) f.shape.fields (f.data a)
  ofData : ∀ a, f.ofData? (f.data a) = some a
  /-- No double is in a value that is not in what it is made of. -/
  floats : ∀ data a, f.ofData? data = some a →
    List.Forall₂ Datum.Within (f.data a) data

namespace Lawful

theorem slots_fst (h : f.Lawful) (a : α) : (f.slots a).map Prod.fst = f.shape.fields :=
  List.map_fst_zip (h.fits a).length_eq.le

theorem slots_snd (h : f.Lawful) (a : α) : (f.slots a).map Prod.snd = f.data a :=
  List.map_snd_zip (h.fits a).length_eq.ge

/-- What the fields of a value hold is sound, if its doubles are finite and read back. -/
theorem sound (h : f.Lawful) (hfinite : ∀ x ∈ f.floats a, x.isFinite = true)
    (hback : ∀ x ∈ f.floats a, ReadsBack x) : ∀ p ∈ f.slots a, p.Sound := by
  intro p hp
  have hdata : p.2 ∈ f.data a := (List.of_mem_zip hp).2
  have hmem : ∀ x ∈ p.2.floats, x ∈ f.floats a := fun x hx => List.mem_flatMap.mpr ⟨_, hdata, hx⟩
  exact ⟨(List.forall₂_iff_zip.mp (h.fits a)).2 hp, fun x hx => hfinite x (hmem x hx),
    fun x hx => hback x (hmem x hx)⟩

/-- **A tree that presents a value is decoded to the value.** -/
theorem decode_of_presents (h : f.Lawful) (hfinite : ∀ x ∈ f.floats a, x.isFinite = true)
    (hback : ∀ x ∈ f.floats a, ReadsBack x) (hj : Presents (f.slots a) j)
    (hskip : skipFault j = none) : f.decode j = .ok a := by
  have hnames : ((f.slots a).map fun p => p.1.name).Nodup := by
    have hmap : (f.slots a).map (fun p => p.1.name) = f.shape.fields.map Field.name := by
      rw [← h.slots_fst a, List.map_map]
      rfl
    exact hmap ▸ h.names
  have hdecode := Shape.decode_of_presents (h.slots_fst a).symm hnames (h.sound hfinite hback)
    hj hskip
  simp only [decode, hdecode, h.slots_snd, h.ofData]

theorem floats_subset {ds ds' : List Datum} (h : List.Forall₂ Datum.Within ds ds') :
    ds.flatMap Datum.floats ⊆ ds'.flatMap Datum.floats := by
  induction h with
  | nil => exact fun _ => id
  | cons hd _ ih =>
    rw [List.flatMap_cons, List.flatMap_cons]
    exact List.append_subset.mpr ⟨List.subset_append_of_subset_left _ hd,
      List.subset_append_of_subset_right _ ih⟩

/-- **A value that is decoded has finite doubles only.** -/
theorem decode_finite (h : f.Lawful) (hdecode : f.decode j = .ok a) :
    ∀ x ∈ f.floats a, x.isFinite = true := by
  intro x hx
  unfold decode at hdecode
  split at hdecode
  · cases hdecode
  · next data hdata =>
    split at hdecode
    · next b hb =>
      cases hdecode
      obtain ⟨d, hd, hxd⟩ := List.mem_flatMap.mp (floats_subset (h.floats data a hb) hx)
      exact Shape.decode_finite h.settled hdata d hd x hxd
    · cases hdecode

end Lawful

end Form

/-! ## What the kinds of fields hold -/

theorem fits_u32 (n : UInt32) : Datum.Fits .u32 (.int n.toNat) := by
  have hn := n.toNat_lt
  show (0 ≤ (n.toNat : Int) ∧ (n.toNat : Int) ≤ 2 ^ 32 - 1) ∧
    -2 ^ 63 ≤ (n.toNat : Int) ∧ (n.toNat : Int) < 2 ^ 64
  omega

theorem fits_u64 (n : UInt64) (name : String) :
    Datum.Fits (.int 0 (Int.pow 2 64 - 1) name) (.int n.toNat) := by
  have hn := n.toNat_lt
  show (0 ≤ (n.toNat : Int) ∧ (n.toNat : Int) ≤ 2 ^ 64 - 1) ∧
    -2 ^ 63 ≤ (n.toNat : Int) ∧ (n.toNat : Int) < 2 ^ 64
  omega

theorem fits_i64 (n : Int64) : Datum.Fits .i64 (.int n.toInt) := by
  have hlow := n.le_toInt
  have hhigh := n.toInt_lt
  show (-2 ^ 63 ≤ n.toInt ∧ n.toInt ≤ 2 ^ 63 - 1) ∧ -2 ^ 63 ≤ n.toInt ∧ n.toInt < 2 ^ 64
  omega

theorem fits_ofFloat? (x : Option Float) : Datum.Fits (.optional .float) (.ofFloat? x) := by
  cases x with
  | none => trivial
  | some x => exact ⟨nofun, trivial⟩

theorem fits_ofText? (s : Option String) : Datum.Fits (.optional .text) (.ofText? s) := by
  cases s with
  | none => trivial
  | some s => exact ⟨nofun, trivial⟩

theorem fits_side (s : Side) : Datum.Fits sideKind (.choice s.variant) := by
  show s.variant ∈ ["Buy", "Sell"]
  cases s <;> decide

theorem fits_status (s : Status) : Datum.Fits statusKind (.choice s.variant) := by
  show s.variant ∈ Status.all.map Status.variant
  cases s <;> decide

theorem fits_failureKind (k : FailureKind) :
    Datum.Fits (.choice (FailureKind.all.map FailureKind.variant)) (.choice k.variant) := by
  show k.variant ∈ FailureKind.all.map FailureKind.variant
  cases k <;> decide

theorem fits_disposition (d : Disposition) :
    Datum.Fits (.choice ["Transient", "Permanent"]) (.choice d.label) := by
  show d.label ∈ ["Transient", "Permanent"]
  cases d <;> decide

@[simp] theorem Datum.float?_ofFloat? (x : Option Float) : (Datum.ofFloat? x).float? = x := by
  cases x <;> rfl

@[simp] theorem Datum.text?_ofText? (s : Option String) : (Datum.ofText? s).text? = s := by
  cases s <;> rfl

@[simp] theorem Side.ofVariant?_variant (s : Side) : Side.ofVariant? s.variant = some s := by
  cases s <;> decide

@[simp] theorem Status.ofVariant?_variant (s : Status) :
    Status.ofVariant? s.variant = some s := by
  cases s <;> decide

@[simp] theorem FailureKind.ofVariant?_variant (k : FailureKind) :
    FailureKind.ofVariant? k.variant = some k := by
  cases k <;> decide

@[simp] theorem Disposition.ofVariant?_label (d : Disposition) :
    Disposition.ofVariant? d.label = some d := by
  cases d <;> decide

/-- Taking an optional double brings no new one in. -/
theorem Datum.within_ofFloat? (d : Datum) : (Datum.ofFloat? d.float?).Within d := by
  unfold float?
  split
  · exact .refl _
  · nofun

theorem Datum.within_ofText? (s : Option String) (d : Datum) :
    (Datum.ofText? s).Within d := by
  cases s <;> nofun

/-! ## The forms -/

theorem Order.form_lawful : Order.form.Lawful where
  names := by decide
  settled := by simp [Order.form, optionalField, Field.Settled, Datum.floats]
  fits o := .cons trivial (.cons trivial (.cons (fits_side _) (.cons trivial (.cons trivial
    (.cons (fits_ofFloat? _) (.cons (fits_ofFloat? _) (.cons (fits_i64 _) .nil)))))))
  ofData o := by simp [Order.form]
  floats data o h := by
    simp only [Order.form] at h
    split at h
    · obtain ⟨side, -, rfl⟩ := Option.map_eq_some_iff.mp h
      exact .cons nofun (.cons nofun (.cons nofun (.cons nofun (.cons (.refl _)
        (.cons (Datum.within_ofFloat? _) (.cons (Datum.within_ofFloat? _) (.cons nofun .nil)))))))
    · cases h

theorem Settlement.form_lawful : Settlement.form.Lawful where
  names := by decide
  settled := by simp [Settlement.form, optionalField, Field.Settled, Datum.floats]
  fits s := .cons trivial (.cons trivial (.cons (fits_status _) (.cons (fits_ofText? _)
    (.cons (fits_ofFloat? _) (.cons (fits_ofText? _) (.cons (fits_u32 _) (.cons (fits_u64 _ _)
      (.cons (fits_i64 _) .nil))))))))
  ofData s := by simp [Settlement.form]
  floats data s h := by
    simp only [Settlement.form] at h
    split at h
    · obtain ⟨status, -, rfl⟩ := Option.map_eq_some_iff.mp h
      exact .cons nofun (.cons nofun (.cons nofun (.cons (Datum.within_ofText? _ _)
        (.cons (Datum.within_ofFloat? _) (.cons (Datum.within_ofText? _ _) (.cons nofun
          (.cons nofun (.cons nofun .nil))))))))
    · cases h

theorem Instrument.form_lawful : Instrument.form.Lawful where
  names := by decide
  settled := by simp [Instrument.form, Field.Settled]
  fits i := .cons trivial (.cons trivial (.cons trivial (.cons trivial (.cons trivial
    (.cons trivial (.cons (fits_u32 _) (.cons trivial .nil)))))))
  ofData i := by simp [Instrument.form]
  floats data i h := by
    simp only [Instrument.form] at h
    split at h
    · cases h
      exact .cons nofun (.cons (.refl _) (.cons (.refl _) (.cons (.refl _) (.cons (.refl _)
        (.cons (.refl _) (.cons nofun (.cons nofun .nil)))))))
    · cases h

theorem Account.form_lawful : Account.form.Lawful where
  names := by decide
  settled := by simp [Account.form, Field.Settled]
  fits a := .cons (fits_u64 _ _) (.cons trivial (.cons trivial (.cons trivial (.cons trivial
    (.cons trivial .nil)))))
  ofData a := by simp [Account.form]
  floats data a h := by
    simp only [Account.form] at h
    split at h
    · cases h
      exact .cons nofun (.cons (.refl _) (.cons (.refl _) (.cons (.refl _)
        (.cons (.refl _) (.cons nofun .nil)))))
    · cases h

theorem Fill.form_lawful : Fill.form.Lawful where
  names := by decide
  settled := by simp [Fill.form, Field.Settled]
  fits f := .cons trivial (.cons trivial (.cons trivial (.cons (fits_side _) (.cons trivial
    (.cons trivial (.cons (fits_i64 _) .nil))))))
  ofData f := by simp [Fill.form]
  floats data f h := by
    simp only [Fill.form] at h
    split at h
    · obtain ⟨side, -, rfl⟩ := Option.map_eq_some_iff.mp h
      exact .cons nofun (.cons nofun (.cons nofun (.cons nofun (.cons (.refl _)
        (.cons (.refl _) (.cons nofun .nil))))))
    · cases h

theorem Failure.form_lawful : Failure.form.Lawful where
  names := by decide
  settled := by simp [Failure.form, Field.Settled]
  fits f := .cons (fits_failureKind _) (.cons (fits_disposition _) (.cons trivial .nil))
  ofData f := by simp [Failure.form]
  floats data f h := by
    simp only [Failure.form] at h
    split at h
    · split at h
      · cases h
        exact .cons nofun (.cons nofun (.cons nofun .nil))
      · cases h
    · cases h

theorem Settings.form_lawful : Settings.form.Lawful where
  names := by decide
  settled := by simp [Settings.form, settledField, Field.Settled, Datum.floats]
  fits s := .cons (fits_u64 _ _) (.cons (fits_u32 _) (.cons (fits_u64 _ _) (.cons (fits_u64 _ _)
    (.cons trivial .nil))))
  ofData s := by simp [Settings.form]
  floats data s h := by
    simp only [Settings.form] at h
    split at h
    · cases h
      exact .cons nofun (.cons nofun (.cons nofun (.cons nofun (.cons nofun .nil))))
    · cases h

end DealDesk
