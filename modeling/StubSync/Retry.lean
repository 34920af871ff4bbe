/-
Attempts that are repeated while they fail in a passing way.

The pause before each repetition is twice as long as the one before it, up to
a limit.
-/
import StubSync.Time.Span

namespace StubSync

/-- How often an attempt is repeated, and how long the first pause is. -/
structure RetryPolicy where
  maxRetries : Nat := 3
  baseDelay : Span := .ofMilliseconds 100
deriving Repr, DecidableEq

/-- Why an attempt was given up. -/
structure RetryFailure (ε : Type) where
  error : ε
  /-- The attempts that were made, the first one included. -/
  attempts : Nat
  /-- The error is a passing one, and no repetition was left. -/
  exhausted : Bool
deriving Repr, DecidableEq

namespace RetryPolicy

/-- The longest pause. -/
def delayLimit : Span := .ofMilliseconds 10000

/-- How many times the first pause goes into the pause before a repetition:
twice as often each time, as far as a word of 32 bits goes. -/
def factor (repetition : Nat) : Nat :=
  if repetition < 32 then Nat.pow 2 repetition else Nat.pow 2 32 - 1

/-- The first pause made longer for a repetition, counted from zero. -/
def backoff (base : Span) (repetition : Nat) : Span :=
  min (base.times (factor repetition)) delayLimit

/-- The pause before a repetition. -/
def delay (policy : RetryPolicy) (repetition : Nat) : Span :=
  backoff policy.baseDelay repetition

/-- The pause before a repetition in whole milliseconds. -/
def delayFor (policy : RetryPolicy) (repetition : Nat) : Nat :=
  (policy.delay repetition).milliseconds

end RetryPolicy

section Retry

variable {m : Type → Type} [Monad m] {τ ε α : Type} [Clock τ]

/-- Attempt after `made` failed attempts, with `left` repetitions left. -/
def retryFrom (policy : RetryPolicy) (isTransient : ε → Bool) (pause : τ → m Unit)
    (attempt : m (Except ε α)) (made : Nat) : Nat → m (Except (RetryFailure ε) α)
  | 0 => do
      match ← attempt with
      | .ok result => return .ok result
      | .error error => return .error ⟨error, made + 1, isTransient error⟩
  | left + 1 => do
      match ← attempt with
      | .ok result => return .ok result
      | .error error =>
          if isTransient error then
            pause (Clock.ofSpan (policy.delay made))
            retryFrom policy isTransient pause attempt (made + 1) left
          else return .error ⟨error, made + 1, false⟩

/-- Attempt until there is a result, a lasting error, or no repetition
left. -/
def retry (policy : RetryPolicy) (isTransient : ε → Bool) (pause : τ → m Unit)
    (attempt : m (Except ε α)) : m (Except (RetryFailure ε) α) :=
  retryFrom policy isTransient pause attempt 0 policy.maxRetries

end Retry

end StubSync
