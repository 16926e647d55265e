import DealDesk.Settlement
import DealDesk.Span

/-!
# Trying again

* `RetryRule` — how often a failed order is tried again and how long to wait before each retry.
* `RetryRule.backoff` — the wait before a retry: the base, doubled for each earlier retry, up to a
  cap. The doublings stop at `2 ^ 31`.
* `RetryRule.retries` decides whether a failure is worth another call.
* `ordinal?` — the number of a call, as far as 32 bits have one.
* `RetryRule.next` — what one outcome leads to: a settlement, or another call.
-/

namespace DealDesk

structure RetryRule where
  maxRetries : UInt32
  base : Span
  cap : Span
  /-- Also retry what the broker turned down for good. -/
  retryRejections : Bool
  deriving DecidableEq

namespace RetryRule

/-- The rule whose cap is ten seconds and which takes a rejection for final. -/
def basic (maxRetries : UInt32) (base : Span) : RetryRule :=
  { maxRetries := maxRetries, base := base, cap := Span.ofSeconds 10, retryRejections := false }

def standard : RetryRule := basic 3 (Span.ofMillis 100)

/-- Calls in all, the first one included; stops at the largest 32-bit number. -/
def maxAttempts (r : RetryRule) : UInt32 :=
  if r.maxRetries = 0xFFFFFFFF then r.maxRetries else r.maxRetries + 1

/-- How many times the base is doubled before retry `attempt`, counted from one. -/
def doublings (attempt : UInt32) : Nat := min (attempt.toNat - 1) 31

def backoff (r : RetryRule) (attempt : UInt32) : Span :=
  (r.base.scale (Nat.pow 2 (doublings attempt))).shorter r.cap

def retries (r : RetryRule) (f : Failure) : Bool :=
  f.isTransient || (r.retryRejections && f.kind == .rejected)

/-! ## Numbers of calls -/

/-- The number, counted from one, of the call that comes after so many. Arithmetic is checked: after
`2 ^ 32 - 1` calls there is no such number. -/
def ordinal? (attempt : UInt32) : Option UInt32 :=
  if attempt = 0xFFFFFFFF then none else some (attempt + 1)

/-! ## One outcome -/

inductive Next
  | settle (s : Settlement)
  | again (failure : Failure)

/-- What follows when execution call `attempt`, counted from zero, has the given outcome. -/
def next (r : RetryRule) (now : Int64) (o : Order) (attempt : UInt32) : Outcome → Next
  | .filled fill => .settle ((Settlement.filled now o fill).withRetries attempt)
  | .failed failure =>
    if !r.retries failure then
      .settle ((Settlement.failed now o failure).withRetries attempt)
    else if r.maxRetries ≤ attempt then
      let error := "All " ++ toString r.maxAttempts.toNat ++ " attempts failed. Last error: "
        ++ failure.reason
      .settle ((Settlement.refused now o .retryExhausted error).withRetries attempt)
    else .again failure

end RetryRule

end DealDesk
