/-!
# Keyed lists

* `Table κ ν` — a list of keys with their values, in the order the keys came in.
* `Table.put` replaces the value of a key that is present and appends a key that is not.
* `Table.get?` — the value of a key. `get?_put_self` and `get?_put_of_ne` say what `put` does to it.
-/

namespace DealDesk

abbrev Table (κ ν : Type) := List (κ × ν)

namespace Table

variable {κ ν : Type} [DecidableEq κ]

def get? (t : Table κ ν) (k : κ) : Option ν :=
  match t with
  | [] => none
  | (k', v) :: rest => if k' = k then some v else get? rest k

def put (t : Table κ ν) (k : κ) (v : ν) : Table κ ν :=
  match t with
  | [] => [(k, v)]
  | (k', v') :: rest => if k' = k then (k, v) :: rest else (k', v') :: put rest k v

/-- The value of `k` after `f`, where an absent key counts as `dflt`. -/
def update (t : Table κ ν) (k : κ) (dflt : ν) (f : ν → ν) : Table κ ν :=
  put t k (f ((get? t k).getD dflt))

def keys (t : Table κ ν) : List κ := t.map Prod.fst

def values (t : Table κ ν) : List ν := t.map Prod.snd

theorem get?_put_self (t : Table κ ν) (k : κ) (v : ν) : (t.put k v).get? k = some v := by
  induction t with
  | nil => simp [put, get?]
  | cons e rest ih =>
    by_cases h : e.1 = k
    · simp [put, get?, h]
    · simp [put, get?, h, ih]

theorem get?_put_of_ne (t : Table κ ν) {k k' : κ} (v : ν) (h : k ≠ k') :
    (t.put k v).get? k' = t.get? k' := by
  induction t with
  | nil => simp [put, get?, h]
  | cons e rest ih =>
    by_cases he : e.1 = k
    · subst he; simp [put, get?, h]
    · simp [put, get?, he, ih]

end Table

end DealDesk
