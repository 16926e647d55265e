/-!
# Spans of time

* `Span` — a length of time in whole nanoseconds, at most `Span.maxNanos`.
* `Span.scale` multiplies and stops at the longest span; `nanos_scale` is its exact law.
-/

namespace DealDesk

namespace Span

def nanosPerSecond : Nat := 1000000000

def nanosPerMilli : Nat := 1000000

/-- The longest span: 2 ^ 64 seconds less one nanosecond. -/
def maxNanos : Nat := Nat.pow 2 64 * nanosPerSecond - 1

end Span

structure Span where
  nanos : Nat
  nanos_le : nanos ≤ Span.maxNanos
  deriving DecidableEq

namespace Span

/-- So many nanoseconds, or the longest span if they are more. -/
def ofNanos (n : Nat) : Span := ⟨min n maxNanos, Nat.min_le_right ..⟩

def ofSeconds (n : Nat) : Span := ofNanos (n * nanosPerSecond)

def ofMillis (n : Nat) : Span := ofNanos (n * nanosPerMilli)

def seconds (s : Span) : Nat := s.nanos / nanosPerSecond

/-- The nanoseconds beyond the whole seconds. -/
def subsecond (s : Span) : Nat := s.nanos % nanosPerSecond

/-- Whole milliseconds. -/
def millis (s : Span) : Nat := s.nanos / nanosPerMilli

def scale (s : Span) (n : Nat) : Span := ofNanos (s.nanos * n)

/-- The shorter of two spans. -/
def shorter (a b : Span) : Span := if a.nanos ≤ b.nanos then a else b

/-- In seconds, as a double: the whole seconds and the rest are converted apart. -/
def toSeconds (s : Span) : Float :=
  Float.ofNat s.seconds + Float.ofNat s.subsecond / 1e9

theorem nanos_scale (s : Span) (n : Nat) : (s.scale n).nanos = min (s.nanos * n) maxNanos := rfl

theorem nanos_shorter (a b : Span) : (a.shorter b).nanos = min a.nanos b.nanos := by
  unfold shorter
  split <;> omega

end Span

end DealDesk
