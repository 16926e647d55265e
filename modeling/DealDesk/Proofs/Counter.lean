import Mathlib

/-!
# Counters that go round

* `counted` — the numbers that a 64-bit counter hands out, from the first one on.
* `counted_nodup` — none comes twice before the counter has gone round.
* `counted_increasing` — before it comes to its end, each is greater than those before.
-/

namespace DealDesk

/-- The numbers that a counter hands out in `n` draws. -/
def counted (first : UInt64) (n : Nat) : List UInt64 :=
  (List.range n).map fun i => first + UInt64.ofNat i

theorem counted_concat (first : UInt64) (n : Nat) :
    counted first (n + 1) = counted first n ++ [first + UInt64.ofNat n] := by
  rw [counted, List.range_succ, List.map_append]
  rfl

theorem counted_cons (first : UInt64) (n : Nat) :
    counted first (n + 1) = first :: counted (first + 1) n := by
  have hsucc : ∀ i, first + UInt64.ofNat (i + 1) = first + 1 + UInt64.ofNat i := by
    intro i
    rw [UInt64.ofNat_add, add_assoc, add_comm (UInt64.ofNat i)]
    rfl
  rw [counted, List.range_succ_eq_map, List.map_cons, List.map_map, counted]
  exact congrArg₂ _ (add_zero first) (List.map_congr_left fun i _ => hsucc i)

/-- The counter goes on from where it has come to. -/
theorem counted_append (first : UInt64) (m n : Nat) :
    counted first (m + n) = counted first m ++ counted (first + UInt64.ofNat m) n := by
  rw [counted, List.range_add, List.map_append, List.map_map, counted, counted]
  refine congrArg _ (List.map_congr_left fun i _ => ?_)
  rw [Function.comp_apply, UInt64.ofNat_add, add_assoc]

/-- **No number comes twice in one round.** -/
theorem counted_nodup (first : UInt64) {n : Nat} (hn : n ≤ UInt64.size) :
    (counted first n).Nodup := by
  refine List.Nodup.map_on (fun i hi j hj h => ?_) List.nodup_range
  rw [List.mem_range] at hi hj
  have h : (UInt64.ofNat i).toNat = (UInt64.ofNat j).toNat :=
    congrArg UInt64.toNat (add_left_cancel h)
  rwa [UInt64.toNat_ofNat_of_lt' (by omega), UInt64.toNat_ofNat_of_lt' (by omega)] at h

/-- **Before the counter comes to its end the numbers grow.** -/
theorem counted_increasing (first : UInt64) {n : Nat} (hn : first.toNat + n ≤ UInt64.size) :
    (counted first n).Pairwise (· < ·) := by
  have value : ∀ i < n, (first + UInt64.ofNat i).toNat = first.toNat + i := by
    intro i hi
    have hfirst := first.toNat_lt
    rw [UInt64.toNat_add, UInt64.toNat_ofNat_of_lt' (by omega)]
    exact Nat.mod_eq_of_lt (show first.toNat + i < UInt64.size by omega)
  refine List.pairwise_map.2 (List.pairwise_lt_range.imp_of_mem fun {i j} hi hj hij => ?_)
  rw [UInt64.lt_iff_toNat_lt, value i (List.mem_range.1 hi), value j (List.mem_range.1 hj)]
  omega

end DealDesk
