/-
Spans of time with a resolution of one nanosecond.

The whole seconds of a span fit in a word of 64 bits.  What would be longer than
the longest span is taken for the longest one.
-/

namespace StubSync

/-- One past the most seconds of a span. -/
def Span.secondsLimit : Nat := Nat.pow 2 64

/-- The nanoseconds of a second. -/
def Span.nanosPerSecond : Nat := 1000000000

structure Span where
  seconds : Nat
  /-- What is left beside the whole seconds. -/
  nanos : Nat
  seconds_lt : seconds < Span.secondsLimit
  nanos_lt : nanos < Span.nanosPerSecond
deriving Repr, DecidableEq

namespace Span

def longest : Span :=
  ⟨secondsLimit - 1, nanosPerSecond - 1, by decide, by decide⟩

/-- The span of some seconds and nanoseconds, of which those that fill seconds
are carried over. -/
def carried (seconds nanos : Nat) : Span :=
  if h : seconds + nanos / nanosPerSecond < secondsLimit then
    ⟨seconds + nanos / nanosPerSecond, nanos % nanosPerSecond, h, Nat.mod_lt _ (by decide)⟩
  else longest

def ofMilliseconds (milliseconds : Nat) : Span :=
  carried (milliseconds / 1000) (milliseconds % 1000 * 1000000)

/-- The span in whole milliseconds. -/
def milliseconds (span : Span) : Nat :=
  span.seconds * 1000 + span.nanos / 1000000

/-- The span as many times as the factor says. -/
def times (span : Span) (factor : Nat) : Span :=
  carried (span.seconds * factor) (span.nanos * factor)

instance : LE Span where
  le left right :=
    left.seconds < right.seconds ∨ left.seconds = right.seconds ∧ left.nanos ≤ right.nanos

instance (left right : Span) : Decidable (left ≤ right) :=
  inferInstanceAs (Decidable (_ ∨ _))

instance : Min Span := minOfLe

/-- A bare number is one of milliseconds. -/
instance : Coe Nat Span := ⟨ofMilliseconds⟩

end Span

/-- How the length of a pause is told to those who make it: exactly, or in whole
milliseconds. -/
class Clock (τ : Type) where
  ofSpan : Span → τ

instance : Clock Span := ⟨id⟩

instance : Clock Nat := ⟨Span.milliseconds⟩

end StubSync
