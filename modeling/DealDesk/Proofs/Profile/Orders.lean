import DealDesk.LoadProfile
import Mathlib

/-!
# The orders of a client

* `Token` — the random part of an order's name; `Token.digits_injective`: its digits tell it.
* `OrderId.ofToken_inj` — a generated name tells the client and the token that it was made from, even
  if the name of one client begins with that of another.
* `LoadProfile.clientName_injective` — clients with different numbers have different names.
* `Client.tokens` — the tokens that a client draws from its source of names.
* `Client.ordersFor_spec` — the orders of a round: as many as planned, all of the client, each under a
  name made from the next token.
* `LoadProfile.ids_nodup` — no two orders of a profile share a name if no client draws a token twice.
-/

namespace DealDesk

open DealDesk.Random

/-! ## Names -/

theorem length_hexDigits (width n : Nat) : (hexDigits width n).length = width := by
  induction width generalizing n with
  | zero => rfl
  | succ width ih => rw [hexDigits, List.length_append, ih, List.length_singleton]

theorem digitChar_inj : ∀ m < 16, ∀ n < 16, Nat.digitChar m = Nat.digitChar n → m = n := by
  decide

theorem hexDigits_inj {width m n : Nat} (hm : m < 16 ^ width) (hn : n < 16 ^ width)
    (h : hexDigits width m = hexDigits width n) : m = n := by
  induction width generalizing m n with
  | zero => omega
  | succ width ih =>
    obtain ⟨hfront, hlast⟩ := List.append_inj' h rfl
    have hlow := digitChar_inj (m % 16) (by omega) (n % 16) (by omega) (List.singleton_inj.1 hlast)
    have hhigh := ih (m := m / 16) (n := n / 16) (by omega) (by omega) hfront
    omega

/-- A token: 128 bits, among them those for version and variant. -/
structure Token where
  high : UInt64
  low : UInt64
  deriving DecidableEq

namespace Token

/-- Random bits, with version and variant in their places. -/
def ofWords (high low : UInt64) : Token :=
  ⟨(high &&& 0xFFFFFFFFFFFF0FFF) ||| 0x4000, (low &&& 0x3FFFFFFFFFFFFFFF) ||| 0x8000000000000000⟩

def digits (t : Token) : List Char := hexDigits 16 t.high.toNat ++ hexDigits 16 t.low.toNat

theorem length_digits (t : Token) : t.digits.length = 32 := by
  rw [digits, List.length_append, length_hexDigits, length_hexDigits]

theorem digits_injective : Function.Injective digits := by
  intro t t' h
  obtain ⟨hhigh, hlow⟩ := List.append_inj' h (by rw [length_hexDigits, length_hexDigits])
  have hbound : ∀ n : UInt64, n.toNat < 16 ^ 16 := fun n => n.toNat_lt
  have hhigh := UInt64.toNat_inj.1 (hexDigits_inj (hbound _) (hbound _) hhigh)
  have hlow := UInt64.toNat_inj.1 (hexDigits_inj (hbound _) (hbound _) hlow)
  cases t
  cases t'
  cases hhigh
  cases hlow
  rfl

end Token

/-- The name of an order: that of its client, and a token. -/
def OrderId.ofToken (client : ClientId) (t : Token) : OrderId :=
  ⟨client.text ++ "-" ++ String.ofList t.digits⟩

/-- **A name tells client and token apart**, wherever the name of the client ends: all tokens have as
many digits. -/
theorem OrderId.ofToken_inj {c c' : ClientId} {t t' : Token} (h : ofToken c t = ofToken c' t') :
    c = c' ∧ t = t' := by
  have htext := congrArg String.toList (congrArg OrderId.text h)
  simp only [ofToken, String.toList_append, String.toList_ofList] at htext
  obtain ⟨hname, htoken⟩ := List.append_inj' htext (by rw [Token.length_digits, Token.length_digits])
  have hname := List.append_cancel_right hname
  refine ⟨?_, Token.digits_injective htoken⟩
  cases c
  cases c'
  exact congrArg ClientId.mk (String.toList_injective hname)

theorem LoadProfile.clientName_injective (p : LoadProfile) :
    Function.Injective p.clientName := by
  intro m n h
  have h := congrArg String.toList h
  simp only [clientName, String.toList_append] at h
  exact Nat.repr_injective (String.toList_injective (List.append_cancel_left h))

namespace Client

variable {ρ τ : Type} [Source ρ] [Source τ]

/-! ## The orders of a round -/

/-- A token, and the source of names after it. -/
def drawToken (r : τ) : Token × τ :=
  let (high, r) := wide r
  let (low, r) := wide r
  (.ofWords high low, r)

/-- The tokens that so many orders are named with. -/
def tokens : Nat → τ → List Token
  | 0, _ => []
  | n + 1, r => (drawToken r).1 :: tokens n (drawToken r).2

/-- `o` is an order of client `c` under the next token, and `c'` is the client after it. -/
structure Draws (c c' : Client ρ τ) (o : Order) : Prop where
  client : o.client = c.id
  id : o.id = .ofToken c.id (drawToken c.names).1
  plan : c'.plan = c.plan
  names : c'.names = (drawToken c.names).2

omit [Source ρ] in
theorem place_draws (c : Client ρ τ) (now : Int64) (side : Side) (symbol : String)
    (volume : Float) (levels : Option Float × Option Float) :
    Draws c (c.place now side symbol volume levels).2
      (c.place now side symbol volume levels).1 :=
  ⟨rfl, rfl, rfl, rfl⟩

omit [Source ρ] in
/-- Choices play no part in whose order it is and how it is named. -/
theorem Draws.of_choices {c c' : Client ρ τ} {o : Order} {choices : ρ}
    (h : Draws { c with choices := choices } c' o) : Draws c c' o :=
  ⟨h.client, h.id, h.plan, h.names⟩

theorem goodOrder_draws (c : Client ρ τ) (now : Int64) :
    Draws c (c.goodOrder now).2 (c.goodOrder now).1 :=
  ⟨rfl, rfl, rfl, rfl⟩

theorem badOrder_draws (c : Client ρ τ) (now : Int64) :
    Draws c (c.badOrder now).2 (c.badOrder now).1 := by
  unfold badOrder
  dsimp only
  split <;> exact (place_draws _ now _ _ _ _).of_choices

theorem nextOrder_draws (c : Client ρ τ) (now : Int64) :
    Draws c (c.nextOrder now).2 (c.nextOrder now).1 := by
  unfold nextOrder
  split
  · dsimp only
    split
    · exact (badOrder_draws _ now).of_choices
    · exact (goodOrder_draws _ now).of_choices
  · exact goodOrder_draws c now

/-- **Orders come as planned**, all of the client, each named with the next token. -/
theorem ordersFor_spec (now : Int64) (n : Nat) (c : Client ρ τ) :
    (∀ o ∈ (ordersFor now n c).1.map Prod.fst, o.client = c.id) ∧
    ((ordersFor now n c).1.map Prod.fst).map (·.id) =
      (tokens n c.names).map (OrderId.ofToken c.id) ∧
    ((ordersFor now n c).1.map Prod.fst).length = n := by
  induction n generalizing c with
  | zero => exact ⟨nofun, rfl, rfl⟩
  | succ n ih =>
    have hd := nextOrder_draws c now
    have hid : (c.nextOrder now).2.nextPause.2.id = c.id :=
      congrArg (fun plan => ClientId.mk plan.name) hd.plan
    have hnames : (c.nextOrder now).2.nextPause.2.names = (drawToken c.names).2 := hd.names
    obtain ⟨hclient, hids, hlen⟩ := ih (c.nextOrder now).2.nextPause.2
    rw [hid] at hclient hids
    rw [hnames] at hids
    simp only [ordersFor, List.map_cons, tokens, List.length_cons]
    refine ⟨?_, by rw [hd.id, hids], congrArg (· + 1) hlen⟩
    intro o ho
    rcases List.mem_cons.1 ho with rfl | ho
    · exact hd.client
    · exact hclient o ho

end Client

/-! ## The orders of a profile -/

namespace LoadProfile

variable {ρ : Type} [Source ρ] (p : LoadProfile) (choices names : Nat → ρ)

/-- The orders of client `n`. -/
def ordersOf (n : Nat) : List Order :=
  ((Client.ofPlan (p.planFor n) (choices n) (names n)).orders 0).1.map Prod.fst

def clientId (n : Nat) : ClientId := ⟨p.clientName n⟩

/-- Clients are numbered from one. -/
def numbers : List Nat := (List.range p.clients.toNat).map (· + 1)

theorem callsFor_eq (n : Nat) :
    p.callsFor choices names n = submissions n (p.ordersOf choices names n) := rfl

theorem numbers_nodup : p.numbers.Nodup :=
  List.nodup_range.map fun _ _ h => Nat.succ.inj h

theorem clientId_injective : Function.Injective p.clientId :=
  fun _ _ h => p.clientName_injective (ClientId.mk.inj h)

variable {p choices names} {n : Nat}

theorem client_of_mem {o : Order} (h : o ∈ p.ordersOf choices names n) : o.client = p.clientId n :=
  (Client.ordersFor_spec 0 p.requests.toNat _).1 o h

theorem length_ordersOf : (p.ordersOf choices names n).length = p.requests.toNat :=
  (Client.ordersFor_spec 0 p.requests.toNat _).2.2

theorem ids_ordersOf : (p.ordersOf choices names n).map (·.id) =
    (Client.tokens p.requests.toNat (names n)).map (OrderId.ofToken (p.clientId n)) :=
  (Client.ordersFor_spec 0 p.requests.toNat _).2.1

/-- All orders of a run. -/
def allOrders (p : LoadProfile) (choices names : Nat → ρ) : List Order :=
  p.numbers.flatMap (p.ordersOf choices names)

theorem length_allOrders :
    (p.allOrders choices names).length = p.clients.toNat * p.requests.toNat := by
  rw [allOrders, List.length_flatMap]
  have hconst : p.numbers.map (fun n => (p.ordersOf choices names n).length) =
      List.replicate p.clients.toNat p.requests.toNat := by
    rw [numbers, List.map_map]
    refine List.eq_replicate_iff.2 ⟨by simp, fun k hk => ?_⟩
    obtain ⟨n, -, rfl⟩ := List.mem_map.1 hk
    exact length_ordersOf
  rw [hconst, List.sum_replicate_nat]

/-- **No two orders of a run share a name** if no client draws a token twice. -/
theorem ids_nodup (h : ∀ n ∈ p.numbers, (Client.tokens p.requests.toNat (names n)).Nodup) :
    ((p.allOrders choices names).map (·.id)).Nodup := by
  have hids : (p.allOrders choices names).map (·.id) = p.numbers.flatMap fun n =>
      (Client.tokens p.requests.toNat (names n)).map (OrderId.ofToken (p.clientId n)) := by
    rw [allOrders, List.map_flatMap]
    exact List.flatMap_congr fun n _ => ids_ordersOf
  rw [hids, List.nodup_flatMap]
  constructor
  · intro n hn
    exact (h n hn).map fun t t' he => (OrderId.ofToken_inj he).2
  · refine p.numbers_nodup.imp fun {m n} hne => ?_
    intro id hm hn
    obtain ⟨t, -, rfl⟩ := List.mem_map.1 hm
    obtain ⟨t', -, he⟩ := List.mem_map.1 hn
    exact hne (p.clientId_injective (OrderId.ofToken_inj he).1.symm)

end LoadProfile

end DealDesk
