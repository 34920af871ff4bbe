/-
Spans of time as numbers of nanoseconds.

A span is settled by its nanoseconds in all, and all that is done with spans is
arithmetic of natural numbers that stops at the longest span.
-/
import StubSync.Time.Span

namespace StubSync

namespace Span

/-- The span in nanoseconds. -/
def total (span : Span) : Nat :=
  span.seconds * nanosPerSecond + span.nanos

theorem le_iff_total {left right : Span} : left ≤ right ↔ left.total ≤ right.total := by
  have hleft := left.nanos_lt
  have hright := right.nanos_lt
  change left.seconds < right.seconds ∨ _ ↔ _
  unfold total
  unfold nanosPerSecond at *
  omega

theorem eq_of_total_eq {left right : Span} (htotal : left.total = right.total) :
    left = right := by
  have hleft := left.nanos_lt
  have hright := right.nanos_lt
  unfold total at htotal
  unfold nanosPerSecond at *
  have hseconds : left.seconds = right.seconds := by omega
  have hnanos : left.nanos = right.nanos := by omega
  cases left
  cases right
  cases hseconds
  cases hnanos
  rfl

theorem total_longest : longest.total + 1 = secondsLimit * nanosPerSecond := by
  decide

theorem total_min (left right : Span) : (min left right).total = min left.total right.total := by
  change (if left ≤ right then left else right).total = _
  split
  · rename_i hle
    rw [Nat.min_eq_left (le_iff_total.1 hle)]
  · rename_i hle
    rw [le_iff_total] at hle
    rw [Nat.min_eq_right (by omega)]

/-- Carrying seconds over is exact up to the longest span. -/
theorem total_carried (seconds nanos : Nat) :
    (carried seconds nanos).total = min (seconds * nanosPerSecond + nanos) longest.total := by
  have hlongest := total_longest
  have hsplit := Nat.div_add_mod nanos nanosPerSecond
  unfold carried
  split
  · rename_i hfits
    have htotal : (seconds + nanos / nanosPerSecond) * nanosPerSecond + nanos % nanosPerSecond =
        seconds * nanosPerSecond + nanos := by
      rw [Nat.add_mul, Nat.mul_comm (nanos / nanosPerSecond)]
      omega
    change (seconds + nanos / nanosPerSecond) * nanosPerSecond + nanos % nanosPerSecond = _
    rw [htotal, Nat.min_eq_left]
    unfold nanosPerSecond at *
    omega
  · rename_i hlong
    rw [Nat.min_eq_right]
    unfold nanosPerSecond at *
    omega

theorem total_times (span : Span) (factor : Nat) :
    (span.times factor).total = min (span.total * factor) longest.total := by
  unfold times total
  rw [← total, total_carried, Nat.add_mul, Nat.mul_right_comm]
  rfl

theorem total_ofMilliseconds (milliseconds : Nat) :
    (ofMilliseconds milliseconds).total = min (milliseconds * 1000000) longest.total := by
  have hsplit : milliseconds / 1000 * nanosPerSecond + milliseconds % 1000 * 1000000 =
      milliseconds * 1000000 := by
    unfold nanosPerSecond
    omega
  rw [ofMilliseconds, total_carried, hsplit]

theorem milliseconds_eq (span : Span) : span.milliseconds = span.total / 1000000 := by
  unfold milliseconds total nanosPerSecond
  omega

end Span

end StubSync
