import DealDesk.Random.Source

/-!
# Reproducible random words

* `Seeded.ofSeed` — the words of a 64-bit seed: ChaCha with twelve rounds under a key drawn from
  the seed by a permuted congruential generator.
* `block` — sixteen of these words.
-/

namespace DealDesk.Random

/-! ## Blocks -/

def rotateLeft (x : UInt32) (n : UInt32) : UInt32 := x <<< n ||| x >>> (32 - n)

/-- The quarter round on the words at four places. -/
def quarter (s : Vector UInt32 16) (a b c d : Fin 16) : Vector UInt32 16 :=
  let s := s.set a (s[a] + s[b])
  let s := s.set d (rotateLeft (s[d] ^^^ s[a]) 16)
  let s := s.set c (s[c] + s[d])
  let s := s.set b (rotateLeft (s[b] ^^^ s[c]) 12)
  let s := s.set a (s[a] + s[b])
  let s := s.set d (rotateLeft (s[d] ^^^ s[a]) 8)
  let s := s.set c (s[c] + s[d])
  s.set b (rotateLeft (s[b] ^^^ s[c]) 7)

/-- Four quarter rounds on the columns, then four on the diagonals. -/
def doubleRound (s : Vector UInt32 16) : Vector UInt32 16 :=
  let s := quarter s 0 4 8 12
  let s := quarter s 1 5 9 13
  let s := quarter s 2 6 10 14
  let s := quarter s 3 7 11 15
  let s := quarter s 0 5 10 15
  let s := quarter s 1 6 11 12
  let s := quarter s 2 7 8 13
  quarter s 3 4 9 14

def initial (key : Vector UInt32 8) (counter : UInt64) : Vector UInt32 16 :=
  #v[0x61707865, 0x3320646e, 0x79622d32, 0x6b206574,
    key[0], key[1], key[2], key[3], key[4], key[5], key[6], key[7],
    counter.toUInt32, (counter >>> 32).toUInt32, 0, 0]

/-- Six double rounds, added to the initial words. -/
def block (key : Vector UInt32 8) (counter : UInt64) : Vector UInt32 16 :=
  let start := initial key counter
  let mixed := Nat.repeat doubleRound 6 start
  start.zipWith (· + ·) mixed

/-! ## The words of a seed -/

structure Seeded where
  key : Vector UInt32 8
  /-- The block that comes after the ready words. -/
  counter : UInt64
  ready : List UInt32

instance : Source Seeded where
  word s :=
    match s.ready with
    | w :: rest => (w, { s with ready := rest })
    | [] =>
      let words := block s.key s.counter
      (words[0], { s with counter := s.counter + 1, ready := words.toList.tail })

/-- One step of the generator that spreads a seed over a key. -/
def spread (state : UInt64) : UInt32 × UInt64 :=
  let state := state * 6364136223846793005 + 11634580027462260723
  let x := (((state >>> 18) ^^^ state) >>> 27).toUInt32
  let turn := (state >>> 59).toUInt32
  (x >>> turn ||| x <<< ((32 - turn) % 32), state)

def keyWords : Nat → UInt64 → List UInt32
  | 0, _ => []
  | n + 1, state =>
    let (w, state) := spread state
    w :: keyWords n state

theorem length_keyWords (n : Nat) (state : UInt64) : (keyWords n state).length = n := by
  induction n generalizing state with
  | zero => rfl
  | succ n ih => simp [keyWords, ih]

def Seeded.ofSeed (seed : UInt64) : Seeded :=
  { key := ⟨(keyWords 8 seed).toArray, by simp [length_keyWords]⟩, counter := 0, ready := [] }

end DealDesk.Random
