/-!
# Texts in pieces

* `pieces` — the parts of a text between the places where a mark stands: one more than there are
  marks. `joined_splitChars` puts them together again.
-/

namespace DealDesk.Text

def splitChars (mark : Char) : List Char → List (List Char)
  | [] => [[]]
  | c :: cs =>
    if c = mark then [] :: splitChars mark cs
    else match splitChars mark cs with
      | [] => [[c]]
      | piece :: more => (c :: piece) :: more

def pieces (mark : Char) (s : String) : List String :=
  (splitChars mark s.toList).map String.ofList

/-- The pieces with the mark between them. -/
def joined (mark : Char) : List (List Char) → List Char
  | [] => []
  | [piece] => piece
  | piece :: more => piece ++ mark :: joined mark more

theorem splitChars_ne_nil (mark : Char) (cs : List Char) : splitChars mark cs ≠ [] := by
  cases cs with
  | nil => simp [splitChars]
  | cons c cs =>
    simp only [splitChars]
    split
    · simp
    · split <;> simp

theorem joined_splitChars (mark : Char) (cs : List Char) :
    joined mark (splitChars mark cs) = cs := by
  induction cs with
  | nil => simp [splitChars, joined]
  | cons c cs ih =>
    have h := splitChars_ne_nil mark cs
    simp only [splitChars]
    split
    · next hc =>
      subst hc
      cases hs : splitChars c cs with
      | nil => exact absurd hs h
      | cons piece more => rw [hs] at ih; simp [joined, ih]
    · cases hs : splitChars mark cs with
      | nil => exact absurd hs h
      | cons piece more =>
        rw [hs] at ih
        cases more with
        | nil => simpa [joined] using ih
        | cons next more => simpa [joined] using ih

end DealDesk.Text
