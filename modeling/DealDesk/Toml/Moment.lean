import DealDesk.Decimal.Literal

/-!
# Dates and times of day

* `Moment` — a date, a time of day or both, the latter with an offset if there is one.
* `Moment.ofText?` reads `1979-05-27T07:32:00.5-07:00` and its parts; `Moment.text` writes one.
-/

namespace DealDesk.Toml

structure Date where
  year : Nat
  month : Nat
  day : Nat
  deriving DecidableEq, Repr

structure Clock where
  hour : Nat
  minute : Nat
  second : Nat
  /-- Digits after the point, without zeros at the end; nine at most. -/
  fraction : List Char
  deriving DecidableEq, Repr

inductive Offset
  | universal
  | hours (west : Bool) (hours minutes : Nat)
  deriving DecidableEq, Repr

structure Moment where
  date : Option Date
  time : Option Clock
  offset : Option Offset
  deriving DecidableEq, Repr

namespace Moment

/-! ## Reading -/

/-- Exactly `n` digits. -/
def number (n : Nat) (cs : List Char) : Option (Nat × List Char) :=
  let digits := cs.take n
  if digits.length = n && digits.all Decimal.isDigit then
    some (Decimal.ofDigits digits, cs.drop n)
  else none

/-- Exactly `n` digits after a mark. -/
def numberAfter (mark : Char) (n : Nat) : List Char → Option (Nat × List Char)
  | c :: cs => if c = mark then number n cs else none
  | [] => none

def readDate (cs : List Char) : Option (Date × List Char) := do
  let (year, cs) ← number 4 cs
  let (month, cs) ← numberAfter '-' 2 cs
  let (day, cs) ← numberAfter '-' 2 cs
  if 1 ≤ month && month ≤ 12 && 1 ≤ day && day ≤ 31 then some (⟨year, month, day⟩, cs) else none

/-- Digits beyond the ninth are dropped. -/
def readFraction : List Char → Option (List Char × List Char)
  | '.' :: cs =>
    match Decimal.spanDigits cs with
    | ([], _) => none
    | (digits, cs) => some (((digits.take 9).reverse.dropWhile (· = '0')).reverse, cs)
  | cs => some ([], cs)

def readClock (cs : List Char) : Option (Clock × List Char) := do
  let (hour, cs) ← number 2 cs
  let (minute, cs) ← numberAfter ':' 2 cs
  let (second, cs) ← numberAfter ':' 2 cs
  let (fraction, cs) ← readFraction cs
  if hour ≤ 24 && minute ≤ 59 && second ≤ 59 then some (⟨hour, minute, second, fraction⟩, cs)
  else none

/-- The offset takes the rest of the text. -/
def readOffset : List Char → Option (Option Offset)
  | [] => some none
  | ['Z'] | ['z'] => some (some .universal)
  | c :: cs => do
    if c ≠ '+' ∧ c ≠ '-' then none
    let (hours, cs) ← number 2 cs
    let (minutes, cs) ← numberAfter ':' 2 cs
    if cs.isEmpty then some (some (.hours (c = '-') hours minutes)) else none

def ofText? (cs : List Char) : Option Moment :=
  if cs[2]? = some ':' then do
    let (time, rest) ← readClock cs
    if rest.isEmpty then some ⟨none, some time, none⟩ else none
  else do
    let (date, rest) ← readDate cs
    match rest with
    | [] => some ⟨some date, none, none⟩
    | c :: rest =>
      if c = 'T' ∨ c = 't' ∨ c = ' ' then
        let (time, rest) ← readClock rest
        let offset ← readOffset rest
        some ⟨some date, some time, offset⟩
      else none

/-! ## Writing -/

/-- At least `width` digits. -/
def padded (width n : Nat) : String :=
  let digits := toString n
  String.ofList (List.replicate (width - digits.length) '0') ++ digits

def dateText (d : Date) : String :=
  padded 4 d.year ++ "-" ++ padded 2 d.month ++ "-" ++ padded 2 d.day

def clockText (t : Clock) : String :=
  padded 2 t.hour ++ ":" ++ padded 2 t.minute ++ ":" ++ padded 2 t.second
    ++ if t.fraction.isEmpty then "" else "." ++ String.ofList t.fraction

/-- Only whole hours carry a sign: less than an hour to the west reads like so much to the east. -/
def offsetText : Offset → String
  | .universal => "Z"
  | .hours west hours minutes =>
    (if west && 0 < hours then "-" else "+") ++ padded 2 hours ++ ":" ++ padded 2 minutes

def text (m : Moment) : String :=
  let date := (m.date.map dateText).getD ""
  let mark := if m.date.isSome && m.time.isSome then "T" else ""
  date ++ mark ++ (m.time.map clockText).getD "" ++ (m.offset.map offsetText).getD ""

end Moment

end DealDesk.Toml
