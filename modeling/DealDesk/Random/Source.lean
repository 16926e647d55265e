/-!
# Random draws

* `Source` — whatever yields 32-bit words, one after the other.
* `wide`, `uniform`, `coin`, `between` — the draws made from these words.
* `Tape` — a source that reads an arbitrary sequence of words from a position on.

A draw from a range multiplies a word by the size of the range and keeps the high half. Words whose
low half falls beyond the last whole zone are passed over, so that every number is equally likely.
-/

namespace DealDesk.Random

class Source (ρ : Type) where
  word : ρ → UInt32 × ρ

/-- An arbitrary sequence of words, read from `position` on. -/
structure Tape where
  words : Nat → UInt32
  position : Nat

instance : Source Tape where
  word t := (t.words t.position, { t with position := t.position + 1 })

variable {ρ : Type} [Source ρ]

/-- Sixty-four bits; the first word drawn is the low half. -/
def wide (r : ρ) : UInt64 × ρ :=
  let (low, r) := Source.word r
  let (high, r) := Source.word r
  (high.toUInt64 <<< 32 ||| low.toUInt64, r)

/-- `2 ^ -53`, the gap between the values of `uniform`. -/
def uniformStep : Float := Float.ofBits 0x3CA0000000000000

/-- Uniform in `[0, 1)`. -/
def uniform (r : ρ) : Float × ρ :=
  let (n, r) := wide r
  ((n >>> 11).toFloat * uniformStep, r)

/-- True half of the time. -/
def coin (r : ρ) : Bool × ρ :=
  let (n, r) := wide r
  (n < 0x8000000000000000, r)

/-- The widths of word from which a number in a range is drawn. -/
inductive Width
  | narrow
  | broad
  deriving DecidableEq

def Width.bits : Width → Nat
  | .narrow => 32
  | .broad => 64

def Width.draw (w : Width) (r : ρ) : Nat × ρ :=
  match w with
  | .narrow => let (n, r) := Source.word r; (n.toNat, r)
  | .broad => let (n, r) := wide r; (n.toNat, r)

/-- The last low half that is not passed over, for a range of `size` numbers. -/
def zone (bits size : Nat) : Nat := size * Nat.pow 2 (bits - 1 - size.log2) - 1

/-- Fewer than half of all words are passed over; after `tries` of them the next one is taken as it
is. -/
def below (w : Width) (size : Nat) : Nat → ρ → Nat × ρ
  | 0, r =>
    let (n, r) := w.draw r
    (n * size / Nat.pow 2 w.bits, r)
  | tries + 1, r =>
    let (n, r) := w.draw r
    if n * size % Nat.pow 2 w.bits ≤ zone w.bits size then (n * size / Nat.pow 2 w.bits, r)
    else below w size tries r

/-- A number from `low` to `high`, both included. -/
def between (w : Width) (low high : Nat) (r : ρ) : Nat × ρ :=
  let (n, r) := below w (high + 1 - low) 256 r
  (low + n, r)

end DealDesk.Random
