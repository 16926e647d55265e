import DealDesk.Proofs.Decimal.Digits

/-!
# Finite doubles

* `ofFloat?_of_isFinite` — a finite double is written as a normal decimal.
* `isNaN_toFloat` — a numeral is read as a number, though perhaps as one that is too large.
-/

namespace DealDesk

open Float.Model

/-! ## Writing -/

/-- The field of the exponent, as the bits have it. -/
theorem toNat_unpackExponent (bits : BitVec 64) :
    (@UnpackedFloat.unpackExponent Format.binary64 bits).toNat =
      bits.toNat / 2 ^ 52 % 2048 := by
  simp only [UnpackedFloat.unpackExponent, BitVec.toNat_cast, BitVec.extractLsb_toNat,
    Nat.shiftRight_eq_div_pow]

/-- The parts of a finite double are those of a number. -/
theorem Decimal.Parts.ofFloat_of_isFinite {x : Float} (h : x.isFinite = true) :
    ∃ negative mantissa exponent, Parts.ofFloat x = .finite negative mantissa exponent := by
  have hfield : x.toBits.toNat / 2 ^ 52 % 2048 ≠ 2047 := by
    intro hf
    have hones : @UnpackedFloat.unpackExponent Format.binary64 x.toBits.toBitVec = -1#11 := by
      rw [← BitVec.toNat_inj, toNat_unpackExponent]
      exact hf
    have hnot : x.isFinite = false := by
      show (UnpackedFloat.unpack Format.binary64 x.toBits.toBitVec).isFinite = false
      unfold UnpackedFloat.unpack
      rw [if_pos hones]
      split <;> rfl
    rw [hnot] at h
    cases h
  unfold Parts.ofFloat Parts.ofBits
  dsimp only
  rw [if_neg (show ¬x.toBits.toNat / Nat.pow 2 52 % 2048 = 2047 from hfield)]
  split
  · exact ⟨_, _, _, rfl⟩
  · exact ⟨_, _, _, rfl⟩

/-- **A finite double is written as a normal decimal.** -/
theorem Numeral.ofFloat?_of_isFinite {x : Float} (h : x.isFinite = true) :
    ∃ negative value, ofFloat? x = some (.decimal negative value) ∧ value.Normal := by
  obtain ⟨negative, mantissa, exponent, hparts⟩ := Decimal.Parts.ofFloat_of_isFinite h
  unfold ofFloat?
  rw [hparts]
  cases mantissa with
  | zero => exact ⟨negative, _, rfl, .inl rfl⟩
  | succ m => exact ⟨negative, _, rfl, Decimal.normal_isNormal _⟩

theorem isInf_of_isFinite {x : Float} (h : x.isFinite = true) : x.isInf = false := by
  have hmodel : x.toModel.unpack.isFinite = true := h
  show x.toModel.unpack.isInf = false
  cases hx : x.toModel.unpack with
  | infinity sign => rw [hx] at hmodel; cases hmodel
  | _ => rfl

/-- What is neither infinite nor no number is finite. -/
theorem isFinite_of_not {x : Float} (hinf : x.isInf = false) (hnan : x.isNaN = false) :
    x.isFinite = true := by
  have hinf : x.toModel.unpack.isInf = false := hinf
  have hnan : x.toModel.unpack.isNaN = false := hnan
  show x.toModel.unpack.isFinite = true
  cases hx : x.toModel.unpack with
  | infinity sign => rw [hx] at hinf; cases hinf
  | notANumber => rw [hx] at hnan; cases hnan
  | zero sign => rfl
  | finite sign mantissa exponent hpos => rfl

/-! ## Reading -/

theorem isNaN_dite {p : Prop} [Decidable p] {f : p → UnpackedFloat} {g : ¬p → UnpackedFloat}
    (hf : ∀ h, (f h).isNaN = false) (hg : ∀ h, (g h).isNaN = false) :
    (dite p f g).isNaN = false := by
  by_cases h : p
  · rw [dif_pos h]
    exact hf h
  · rw [dif_neg h]
    exact hg h

/-- Bits stand for no number only if their exponent is all ones and their fraction is not zero. -/
theorem isNaN_unpack (bits : BitVec Format.binary64.numBits)
    (h : UnpackedFloat.unpackExponent bits = -1#11 → UnpackedFloat.unpackMantissa bits = 0#52) :
    (UnpackedFloat.unpack Format.binary64 bits).isNaN = false := by
  unfold UnpackedFloat.unpack
  by_cases hones : UnpackedFloat.unpackExponent bits = -1#11
  · rw [if_pos hones, if_pos (h hones)]
    rfl
  · rw [if_neg hones]
    by_cases hzero : UnpackedFloat.unpackExponent bits = 0#11
    · rw [if_pos hzero]
      exact isNaN_dite (fun _ => rfl) (fun _ => rfl)
    · rw [if_neg hzero]
      rfl

/-- Packing makes nothing into no number. -/
theorem isNaN_unpack_pack {f : UnpackedFloat} (h : f.isNaN = false) :
    (Float.Model.pack f).unpack.isNaN = false := by
  refine isNaN_unpack (UnpackedFloat.pack Format.binary64 f) fun hones => ?_
  revert hones
  unfold UnpackedFloat.pack
  cases f with
  | notANumber => cases h
  | infinity s => simp [UnpackedFloat.packedInfinity]
  | zero s => simp [UnpackedFloat.packedZero]
  | finite s m e hm =>
    dsimp only
    split
    · simp [UnpackedFloat.packedInfinity]
    · next hlarge =>
      split
      · -- the exponent is too small to be all ones
        intro hones
        rw [UnpackedFloat.unpackExponent_packComponents, ← BitVec.toNat_inj,
          BitVec.toNat_ofNat] at hones
        have hlt := Nat.not_le.1 hlarge
        rw [Nat.mod_eq_of_lt (by omega)] at hones
        have hmax : (-1#11).toNat = 2047 := rfl
        omega
      · intro hones
        rw [UnpackedFloat.unpackExponent_packComponents] at hones
        cases hones

/-- Rounding gives a number. -/
theorem isNaN_roundWithAccuracy (sign : UnpackedFloat.Sign) (mantissa : Nat) (exponent : Int)
    (accuracy : UnpackedFloat.Accuracy) :
    (UnpackedFloat.roundWithAccuracy Format.binary64 sign mantissa exponent accuracy).isNaN =
      false := by
  unfold UnpackedFloat.roundWithAccuracy
  exact isNaN_dite (fun _ => rfl) (fun _ => rfl)

/-- Is it a finite number other than zero? -/
def isProper : UnpackedFloat → Bool
  | .finite .. => true
  | _ => false

/-- A number times or over a finite one other than zero is a number. -/
theorem isNaN_mul {f g : UnpackedFloat} (hf : f.isNaN = false) (hg : isProper g = true) :
    (UnpackedFloat.mul Format.binary64 f g).isNaN = false := by
  cases g with
  | finite sign mantissa exponent hpos =>
    cases f with
    | notANumber => cases hf
    | finite s m e hm => exact isNaN_roundWithAccuracy ..
    | _ => rfl
  | _ => cases hg

theorem isNaN_div {f g : UnpackedFloat} (hf : f.isNaN = false) (hg : isProper g = true) :
    (UnpackedFloat.div Format.binary64 f g).isNaN = false := by
  cases g with
  | finite sign mantissa exponent hpos =>
    cases f with
    | notANumber => cases hf
    | finite s m e hm => exact isNaN_roundWithAccuracy ..
    | _ => rfl
  | _ => cases hg

theorem isNaN_ofScientific_unpacked (m : Nat) (e : Int) :
    (UnpackedFloat.ofScientific Format.binary64 m e).isNaN = false := by
  unfold UnpackedFloat.ofScientific
  refine isNaN_dite (fun _ => rfl) fun hm => ?_
  by_cases hlarge : e > 2 ^ Format.binary64.exponentBits
  · rw [if_pos hlarge]
    rfl
  rw [if_neg hlarge]
  by_cases hsmall : e < -((2 ^ Format.binary64.exponentBits : Int) + m.log2)
  · rw [if_pos hsmall]
    rfl
  rw [if_neg hsmall]
  by_cases hwhole : 0 ≤ e
  · rw [if_pos hwhole]
    exact isNaN_mul rfl rfl
  · rw [if_neg hwhole]
    exact isNaN_div rfl rfl

theorem isNaN_ofNat (n : Nat) : (UnpackedFloat.ofNat Format.binary64 n).isNaN = false := by
  unfold UnpackedFloat.ofNat UnpackedFloat.ofInt UnpackedFloat.normalize UnpackedFloat.round
  split
  · exact isNaN_roundWithAccuracy ..
  · rfl
  · exact isNaN_roundWithAccuracy ..

/-- The small powers of ten are finite, and none is zero. -/
theorem isProper_powerOfTen (e : Nat) (he : e < Float.exactlyRepresentablePowersOfTen.size) :
    isProper (Float.exactlyRepresentablePowersOfTen[e].toModel.unpack) = true := by
  have hall : ∀ x ∈ Float.exactlyRepresentablePowersOfTen.toList,
      isProper x.toModel.unpack = true := by
    decide +kernel
  exact hall _ (Array.getElem_mem_toList he)

/-- **A decimal is read as a number**, though perhaps as one that is too large. -/
theorem isNaN_ofScientific (m : Nat) (down : Bool) (e : Nat) :
    (Float.ofScientific m down e).isNaN = false := by
  unfold Float.ofScientific
  split
  · rename_i hsmall
    have hm : (m.toUInt64.toFloat).toModel.unpack.isNaN = false :=
      isNaN_unpack_pack (isNaN_ofNat _)
    have hten := isProper_powerOfTen e (by simp [Float.exactlyRepresentablePowersOfTen]; omega)
    split
    · exact isNaN_unpack_pack (isNaN_div hm hten)
    · exact isNaN_unpack_pack (isNaN_mul hm hten)
  · exact isNaN_unpack_pack (isNaN_ofScientific_unpacked _ _)

theorem isNaN_neg {x : Float} (h : x.isNaN = false) : (-x).isNaN = false := by
  have hmodel : x.toModel.unpack.isNaN = false := h
  refine isNaN_unpack_pack ?_
  show x.toModel.unpack.neg.isNaN = false
  cases hx : x.toModel.unpack with
  | notANumber => rw [hx] at hmodel; cases hmodel
  | _ => rfl

theorem Decimal.Scientific.isNaN_toFloat (d : Scientific) : d.toFloat.isNaN = false := by
  unfold toFloat
  dsimp only
  split
  · decide
  · split
    · decide
    · exact isNaN_ofScientific _ _ _

theorem Decimal.Literal.isNaN_toFloat (l : Literal) : l.toFloat.isNaN = false := by
  unfold toFloat
  split
  · exact isNaN_neg l.value.isNaN_toFloat
  · exact l.value.isNaN_toFloat

/-- **A numeral that is not too large is read as a finite double.** -/
theorem Numeral.isFinite_toFloat {n : Numeral} (h : n.toFloat.isInf = false) :
    n.toFloat.isFinite = true := by
  refine isFinite_of_not h ?_
  cases n <;> exact Decimal.Literal.isNaN_toFloat _

end DealDesk
