import DealDesk.Broker.Scripted

/-!
# How a script is played

* `Scripted.Unused` — a scripted broker that was not called before.
* `Scripted.Played` — where a scripted broker stands after so many execution calls and what it has
  answered: call number `k` takes failure number `k` of the script. Calls beyond the script fail
  with the fallback, or are filled if there is none.
* `Played.quote`, `Played.execute` — a question about a symbol leaves the script alone, and an
  execution call plays on.

`Played.consumed_eq`, `Played.scripted` and `Played.length_fills` draw the consequences: which failures
were played, to which calls, and how many calls were filled.
-/

namespace DealDesk

namespace Outcome

def failure? : Outcome → Option Failure
  | .failed failure => some failure
  | .filled _ => none

def fill? : Outcome → Option Fill
  | .filled fill => some fill
  | .failed _ => none

theorem eq_failed {outcome : Outcome} {failure : Failure} (h : outcome.failure? = some failure) :
    outcome = .failed failure := by
  cases outcome with
  | filled fill => cases h
  | failed f => cases h; rfl

theorem fill?_eq_none {outcome : Outcome} : outcome.fill? = none ↔ outcome.failure? ≠ none := by
  cases outcome <;> simp [fill?, failure?]

end Outcome

namespace Scripted

variable {s s' : Scripted} {outcomes : List Outcome}

/-- No call was made, and nothing is booked. -/
structure Unused (s : Scripted) : Prop where
  executions : s.executions = 0
  fills : s.fills = []
  nextTicket : s.nextTicket = 1

/-- Where broker `s` stands after execution calls with these outcomes. -/
structure Played (s : Scripted) (outcomes : List Outcome) (s' : Scripted) : Prop where
  executions : s'.executions = s.executions + outcomes.length
  script : s'.script = s.script.drop outcomes.length
  fallback : s'.fallback = s.fallback
  /-- Each call takes the failure of its number. -/
  answers : ∀ (k : Nat) (outcome : Outcome), outcomes[k]? = some outcome →
    outcome.failure? = s.script[k]?.or s.fallback

theorem nextFailure_eq (s : Scripted) :
    s.nextFailure = (s.script.head?.or s.fallback, s.script.tail) := by
  unfold nextFailure
  cases s.script <;> rfl

/-- An execution call takes the next failure, if it is not filled. -/
theorem execute_cases (s : Scripted) (now : Int64) (o : Order) :
    (s.execute now o).1.failure? = s.script.head?.or s.fallback ∧
      (s.execute now o).2.executions = s.executions + 1 ∧
      (s.execute now o).2.script = s.script.tail ∧
      (s.execute now o).2.fallback = s.fallback := by
  unfold execute
  rw [nextFailure_eq]
  dsimp only
  cases s.script.head?.or s.fallback <;> exact ⟨rfl, rfl, rfl, rfl⟩

namespace Played

theorem start (s : Scripted) : Played s [] s :=
  ⟨rfl, rfl, rfl, by simp⟩

theorem quote (h : Played s outcomes s') (symbol : String) :
    Played s outcomes (s'.quote symbol).2 :=
  ⟨h.executions, h.script, h.fallback, h.answers⟩

/-- **An execution call plays on.** -/
theorem execute (h : Played s outcomes s') (now : Int64) (o : Order) :
    Played s (outcomes ++ [(s'.execute now o).1]) (s'.execute now o).2 := by
  obtain ⟨hanswer, hexecutions, hscript, hfallback⟩ := s'.execute_cases now o
  refine ⟨?_, ?_, hfallback.trans h.fallback, fun k outcome hk => ?_⟩
  · rw [hexecutions, h.executions, List.length_append, List.length_singleton, Nat.add_assoc]
  · rw [hscript, h.script, List.tail_drop, List.length_append, List.length_singleton]
  · rw [List.getElem?_append] at hk
    split at hk
    · exact h.answers k outcome hk
    · obtain ⟨hlt, hget⟩ := List.getElem?_eq_some_iff.1 hk
      rw [List.length_singleton] at hlt
      rw [List.getElem_singleton] at hget
      obtain rfl : k = outcomes.length := by omega
      rw [← hget, hanswer, h.script, h.fallback, List.head?_drop]

/-- So many failures of the script were played as there were calls, as long as the script lasts. -/
theorem consumed_eq (h : Played s outcomes s') :
    s.script.length - s'.script.length = min s.script.length outcomes.length := by
  rw [h.script, List.length_drop]
  omega

/-- **The calls within the script fail with its failures, one after the other.** -/
theorem scripted (h : Played s outcomes s') :
    outcomes.take s.script.length = (s.script.take outcomes.length).map .failed := by
  refine List.ext_getElem? fun k => ?_
  rw [List.getElem?_map, List.getElem?_take, List.getElem?_take]
  by_cases hk : k < s.script.length
  · by_cases hk' : k < outcomes.length
    · have hanswer := h.answers k _ (List.getElem?_eq_getElem hk')
      rw [List.getElem?_eq_getElem hk, Option.some_or] at hanswer
      rw [if_pos hk, if_pos hk', List.getElem?_eq_getElem hk, List.getElem?_eq_getElem hk',
        Outcome.eq_failed hanswer]
      rfl
    · rw [if_pos hk, if_neg hk', List.getElem?_eq_none (by omega)]
      rfl
  · rw [if_neg hk, List.getElem?_eq_none (l := s.script) (by omega)]
    split <;> rfl

/-- The calls beyond the script fail with the fallback, or are filled if there is none. -/
theorem beyond (h : Played s outcomes s') :
    ∀ outcome ∈ outcomes.drop s.script.length, outcome.failure? = s.fallback := by
  intro outcome ho
  obtain ⟨k, hk⟩ := List.mem_iff_getElem?.1 ho
  rw [List.getElem?_drop] at hk
  rw [h.answers _ outcome hk, List.getElem?_eq_none (by omega), Option.none_or]

/-- **How many calls were filled.** -/
theorem length_fills (h : Played s outcomes s') : (outcomes.filterMap Outcome.fill?).length =
    if s.fallback.isSome then 0 else outcomes.length - min s.script.length outcomes.length := by
  have hscripted : (outcomes.take s.script.length).filterMap Outcome.fill? = [] := by
    rw [h.scripted, List.filterMap_map, List.filterMap_eq_nil_iff]
    intro failure _
    rfl
  rw [← List.take_append_drop s.script.length outcomes, List.filterMap_append, hscripted,
    List.nil_append, List.take_append_drop, List.length_filterMap_eq_countP]
  split
  · rename_i hsome
    refine List.countP_eq_zero.2 fun outcome ho => ?_
    have hnone := Outcome.fill?_eq_none.2 (by
      rw [h.beyond outcome ho]
      exact Option.isSome_iff_ne_none.1 hsome)
    rw [hnone]
    decide
  · rename_i hnone
    rw [List.countP_eq_length.2, List.length_drop]
    · omega
    · intro outcome ho
      have hfailure := h.beyond outcome ho
      rw [Option.not_isSome_iff_eq_none.1 hnone] at hfailure
      cases outcome with
      | filled fill => rfl
      | failed failure => cases hfailure

end Played

end Scripted

end DealDesk
