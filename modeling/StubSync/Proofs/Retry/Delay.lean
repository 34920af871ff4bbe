/-
How long the pauses between attempts are.

Each pause is exactly twice as long as the one before it, up to the longest
pause.  The factor stops growing at the greatest 32-bit word and spans stop at
the longest one, but a millisecond that often is already longer than the longest
pause, so neither of the two limits is ever seen.
-/
import StubSync.Proofs.Time.Span
import StubSync.Retry
import Mathlib.Algebra.Group.Nat.Defs

namespace StubSync

namespace RetryPolicy

theorem factor_eq (repetition : Nat) : factor repetition = min (2 ^ repetition) (2 ^ 32 - 1) := by
  unfold factor
  split
  · rename_i hfew
    have hle : 2 ^ repetition ≤ 2 ^ 31 := Nat.pow_le_pow_right (by decide) (by omega)
    rw [Nat.min_eq_left (by omega)]
    rfl
  · rename_i hmany
    have hle : 2 ^ 32 ≤ 2 ^ repetition := Nat.pow_le_pow_right (by decide) (by omega)
    rw [Nat.min_eq_right (by omega)]
    rfl

theorem total_delayLimit : delayLimit.total = 10000 * 1000000 := by
  decide

/-- What is cut off of a number is not seen if the rest of it already leads
beyond the limit. -/
theorem min_cut_mul {base longest limit factor : Nat} (hlimit : limit ≤ longest * factor) :
    min (min base longest * factor) limit = min (base * factor) limit := by
  rcases Nat.le_total base longest with hle | hle
  · rw [Nat.min_eq_left hle]
  · have hbase : longest * factor ≤ base * factor := Nat.mul_le_mul_right factor hle
    rw [Nat.min_eq_right hle, Nat.min_eq_right hlimit,
      Nat.min_eq_right (Nat.le_trans hlimit hbase)]

/-- The factor has stopped growing only where the longest pause is exceeded
without it. -/
theorem min_mul_factor {total : Nat} (htotal : total = 0 ∨ 1000000 ≤ total) (repetition : Nat) :
    min (total * factor repetition) (10000 * 1000000) =
      min (total * 2 ^ repetition) (10000 * 1000000) := by
  rcases htotal with rfl | htotal
  · rw [Nat.zero_mul, Nat.zero_mul]
  · have hstopped : 10000 * 1000000 ≤ (2 ^ 32 - 1) * total :=
      Nat.le_trans (by decide) (Nat.mul_le_mul_left (2 ^ 32 - 1) htotal)
    rw [factor_eq, Nat.mul_comm, min_cut_mul hstopped, Nat.mul_comm]

theorem factor_le_factor {repetition later : Nat} (hle : repetition ≤ later) :
    factor repetition ≤ factor later := by
  have hpow : 2 ^ repetition ≤ 2 ^ later := Nat.pow_le_pow_right (by decide) hle
  rw [factor_eq, factor_eq]
  exact Nat.le_min.2 ⟨Nat.le_trans (Nat.min_le_left _ _) hpow, Nat.min_le_right _ _⟩

theorem total_backoff (base : Span) (repetition : Nat) :
    (backoff base repetition).total =
      min (base.total * factor repetition) (10000 * 1000000) := by
  have hlongest : 10000 * 1000000 ≤ Span.longest.total := by decide
  rw [backoff, Span.total_min, Span.total_times, total_delayLimit, Nat.min_assoc,
    Nat.min_eq_right hlongest]

theorem total_backoff_ofMilliseconds (milliseconds repetition : Nat) :
    (backoff (.ofMilliseconds milliseconds) repetition).total =
      min (milliseconds * 2 ^ repetition) 10000 * 1000000 := by
  have hlongest : 10000 * 1000000 ≤ Span.longest.total := by decide
  have hcut : 10000 * 1000000 ≤ Span.longest.total * 2 ^ repetition :=
    Nat.le_trans hlongest (Nat.le_mul_of_pos_right _ (Nat.two_pow_pos repetition))
  have hbase := Span.total_ofMilliseconds milliseconds
  have hwhole : (Span.ofMilliseconds milliseconds).total = 0 ∨
      1000000 ≤ (Span.ofMilliseconds milliseconds).total := by omega
  rw [total_backoff, min_mul_factor hwhole, hbase, min_cut_mul hcut, Nat.mul_right_comm,
    Nat.mul_min_mul_right]

theorem backoff_ofMilliseconds (milliseconds repetition : Nat) :
    backoff (.ofMilliseconds milliseconds) repetition =
      .ofMilliseconds (min (milliseconds * 2 ^ repetition) 10000) := by
  apply Span.eq_of_total_eq
  have hfits : min (milliseconds * 2 ^ repetition) 10000 * 1000000 ≤ Span.longest.total :=
    Nat.le_trans (Nat.mul_le_mul_right 1000000 (Nat.min_le_right _ _)) (by decide)
  rw [total_backoff_ofMilliseconds, Span.total_ofMilliseconds, Nat.min_eq_left hfits]

theorem backoff_le_backoff {base other : Span} {repetition later : Nat} (hbase : base ≤ other)
    (hle : repetition ≤ later) : backoff base repetition ≤ backoff other later := by
  rw [Span.le_iff_total] at hbase ⊢
  have hmul : base.total * factor repetition ≤ other.total * factor later :=
    Nat.mul_le_mul hbase (factor_le_factor hle)
  rw [total_backoff, total_backoff]
  exact Nat.le_min.2 ⟨Nat.le_trans (Nat.min_le_left _ _) hmul, Nat.min_le_right _ _⟩

theorem delay_le_delayLimit (policy : RetryPolicy) (repetition : Nat) :
    policy.delay repetition ≤ delayLimit := by
  rw [Span.le_iff_total, delay, total_backoff, total_delayLimit]
  exact Nat.min_le_right _ _

/-- Every pause is the first one times a power of two, up to ten seconds, if the
first one is a whole number of milliseconds.  No pause is shorter for a later
repetition or a longer first pause, whatever that is. -/
theorem delay_doubles (policy : RetryPolicy) (repetition : Nat) :
    (∀ milliseconds, policy.baseDelay = .ofMilliseconds milliseconds →
      policy.delay repetition = .ofMilliseconds (min (milliseconds * 2 ^ repetition) 10000) ∧
      policy.delayFor repetition = min (milliseconds * 2 ^ repetition) 10000) ∧
    (∀ later, repetition ≤ later → policy.delay repetition ≤ policy.delay later) ∧
    (∀ other : RetryPolicy, policy.baseDelay ≤ other.baseDelay →
      policy.delay repetition ≤ other.delay repetition) ∧
    policy.delay repetition ≤ .ofMilliseconds 10000 := by
  refine ⟨fun milliseconds hbase => ?_, fun later hlater => ?_, fun other hother => ?_,
    delay_le_delayLimit policy repetition⟩
  · rw [delayFor, Span.milliseconds_eq, delay, hbase, total_backoff_ofMilliseconds,
      Nat.mul_div_cancel _ (by decide)]
    exact ⟨backoff_ofMilliseconds milliseconds repetition, rfl⟩
  · exact backoff_le_backoff (Span.le_iff_total.2 (Nat.le_refl _)) hlater
  · exact backoff_le_backoff hother (Nat.le_refl repetition)

/-- The seventh pause of the usual policy is the last one that doubles. -/
theorem usual_delays :
    ({} : RetryPolicy).baseDelay = .ofMilliseconds 100 ∧
      ({} : RetryPolicy).delayFor 6 = 6400 ∧
      ({} : RetryPolicy).delayFor 7 = 10000 ∧
      ({} : RetryPolicy).delay 6 ≤ ({} : RetryPolicy).delay 7 :=
  ⟨rfl, ((delay_doubles {} 6).1 100 rfl).2, ((delay_doubles {} 7).1 100 rfl).2,
    (delay_doubles {} 6).2.1 7 (by decide)⟩

/-- Pauses do not double for all spans: of a nanosecond the factor stops growing
before the longest pause is reached. -/
example : (backoff (Span.carried 0 1) 34).total = 4294967295 := by
  decide

end RetryPolicy

end StubSync
