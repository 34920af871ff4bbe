/-
The attempts and pauses of a retry, in order.

A retry is carried out where every attempt and every pause is noted, and where a
script says how each attempt ends.  What it has noted before an attempt is
settled by the number of attempts that came before, so one round leads from the
schedule of some repetitions to that of one repetition more.
-/
import StubSync.Proofs.Retry
import StubSync.Proofs.Retry.Counter

namespace StubSync

namespace Retry

/-- What happens in a retry. -/
inductive Event where
  | attempt
  | pause (span : Span)
deriving Repr, DecidableEq

variable {ε α : Type}

/-- An attempt that is noted, and that ends as the script says for its number,
counted from zero. -/
def attempt (script : Nat → Except ε α) : StateM (List Event) (Except ε α) := do
  let log ← get
  set (log ++ [Event.attempt])
  return script (log.count .attempt)

/-- A pause that is noted. -/
def pause (span : Span) : StateM (List Event) Unit :=
  modify fun log => log ++ [.pause span]

/-- Attempts with the pauses behind them. -/
def repetitions (policy : RetryPolicy) (count : Nat) : List Event :=
  (List.range count).flatMap fun number => [.attempt, .pause (policy.delay number)]

/-- What happens up to the last attempt. -/
def schedule (policy : RetryPolicy) (last : Nat) : List Event :=
  repetitions policy last ++ [.attempt]

/-- The first attempt that is not followed by another one: it is no passing
failure, or no repetition is left. -/
structure IsLast (policy : RetryPolicy) (isTransient : ε → Bool) (script : Nat → Except ε α)
    (last : Nat) : Prop where
  passing : ∀ number < last, ∃ error, script number = .error error ∧ isTransient error = true
  bounded : last ≤ policy.maxRetries
  settled : last < policy.maxRetries →
    ∀ error, script last = .error error → isTransient error = false

section Run

variable {policy : RetryPolicy} {isTransient : ε → Bool} {script : Nat → Except ε α} {last : Nat}

theorem repetitions_succ (policy : RetryPolicy) (count : Nat) :
    repetitions policy (count + 1) =
      repetitions policy count ++ [.attempt] ++ [.pause (policy.delay count)] := by
  rw [repetitions, List.range_succ, List.flatMap_append, List.append_assoc]
  rfl

theorem count_repetitions (policy : RetryPolicy) (count : Nat) :
    (repetitions policy count).count .attempt = count := by
  induction count with
  | zero => rfl
  | succ count ih =>
      rw [repetitions_succ, List.count_append, List.count_append, ih]
      rfl

/-- What follows an attempt is told how it ended. -/
theorem run_attempt_bind {β : Type} (policy : RetryPolicy)
    (next : Except ε α → StateM (List Event) β) (made : Nat) :
    (attempt script >>= next).run (repetitions policy made) =
      (next (script made)).run (schedule policy made) := by
  change (next (script ((repetitions policy made).count .attempt))).run _ = _
  rw [count_repetitions]
  rfl

theorem exists_isLast (left : Nat) {made : Nat} (hmade : made + left = policy.maxRetries)
    (hpassing : ∀ number < made, ∃ error, script number = .error error ∧
      isTransient error = true) :
    ∃ last, IsLast policy isTransient script last := by
  induction left generalizing made with
  | zero => exact ⟨made, hpassing, by omega, by omega⟩
  | succ left ih =>
      by_cases hmore : ∃ error, script made = .error error ∧ isTransient error = true
      · refine ih (show made + 1 + left = policy.maxRetries by omega) fun number hnumber => ?_
        rcases Nat.lt_succ_iff_lt_or_eq.1 hnumber with hbefore | rfl
        · exact hpassing number hbefore
        · exact hmore
      · refine ⟨made, hpassing, by omega, fun _ error herror => ?_⟩
        exact Bool.eq_false_iff.2 fun htransient => hmore ⟨error, herror, htransient⟩

theorem IsLast.unique {other : Nat} (hlast : IsLast policy isTransient script last)
    (hother : IsLast policy isTransient script other) : last = other := by
  -- An attempt before a last one fails in a passing way, with repetitions left.
  have hnot {first second : Nat} (hfirst : IsLast policy isTransient script first)
      (hsecond : IsLast policy isTransient script second) : ¬first < second := by
    intro hlt
    obtain ⟨error, herror, htransient⟩ := hsecond.passing first hlt
    have hlasting := hfirst.settled (Nat.lt_of_lt_of_le hlt hsecond.bounded) error herror
    rw [htransient] at hlasting
    cases hlasting
  exact Nat.le_antisymm (Nat.not_lt.1 (hnot hother hlast)) (Nat.not_lt.1 (hnot hlast hother))

/-- A retry that has come to its last attempt makes of it what it says. -/
theorem retryFrom_last (hlast : IsLast policy isTransient script last) (left : Nat)
    (hleft : last + left = policy.maxRetries) :
    (retryFrom policy isTransient pause (attempt script) last left).run
        (repetitions policy last) =
      (concluded isTransient (last + 1) (script last), schedule policy last) := by
  cases left with
  | zero =>
      rw [retryFrom, run_attempt_bind]
      cases script last <;> rfl
  | succ left =>
      rw [retryFrom, run_attempt_bind]
      cases hresult : script last with
      | ok result => rfl
      | error error =>
          have hlasting := hlast.settled (by omega) error hresult
          simp only [hlasting, Bool.false_eq_true, ↓reduceIte, concluded]
          rfl

/-- A passing failure leads to the next attempt, with one repetition less. -/
theorem retryFrom_passing {made : Nat} {error : ε} (hmade : script made = .error error)
    (htransient : isTransient error = true) (left : Nat) :
    (retryFrom policy isTransient pause (attempt script) made (left + 1)).run
        (repetitions policy made) =
      (retryFrom policy isTransient pause (attempt script) (made + 1) left).run
        (repetitions policy (made + 1)) := by
  rw [retryFrom, run_attempt_bind, hmade, repetitions_succ]
  simp only [htransient, ↓reduceIte]
  rfl

theorem retryFrom_run (hlast : IsLast policy isTransient script last) (left : Nat) {made : Nat}
    (hmade : made ≤ last) (hleft : made + left = policy.maxRetries) :
    (retryFrom policy isTransient pause (attempt script) made left).run
        (repetitions policy made) =
      (concluded isTransient (last + 1) (script last), schedule policy last) := by
  induction left generalizing made with
  | zero =>
      have hbounded := hlast.bounded
      obtain rfl : made = last := by omega
      exact retryFrom_last hlast 0 hleft
  | succ left ih =>
      rcases Nat.eq_or_lt_of_le hmade with rfl | hbefore
      · exact retryFrom_last hlast (left + 1) hleft
      · obtain ⟨error, herror, htransient⟩ := hlast.passing made hbefore
        rw [retryFrom_passing herror htransient]
        exact ih hbefore (by omega)

theorem count_schedule (policy : RetryPolicy) (last : Nat) :
    (schedule policy last).count .attempt = last + 1 := by
  rw [schedule, List.count_append, count_repetitions]
  rfl

/-- A retry stops at the first attempt that is no passing failure or comes after
the last repetition, makes of it what it says, and keeps to the pauses of its
policy; a count of the attempts in 32 bits neither overflows nor falls below
zero. -/
theorem retry_keeps_schedule (hpolicy : policy.maxRetries < 2 ^ 32 - 1) (isTransient : ε → Bool)
    (script : Nat → Except ε α) :
    (∃ last, IsLast policy isTransient script last ∧
      (retry policy isTransient pause (attempt script)).run [] =
        (concluded isTransient (last + 1) (script last), schedule policy last) ∧
      (schedule policy last).count .attempt = last + 1) ∧
    ∀ {m : Type → Type} [Monad m] [LawfulMonad m] {τ : Type} [Clock τ] (pause : τ → m Unit)
      (attempt : m (Except ε α)),
      retryCounted policy isTransient pause attempt 0 =
        some <$> retry policy isTransient pause attempt := by
  refine ⟨?_, fun _ _ => retryCounted_eq hpolicy⟩
  have hexists : ∃ last, IsLast policy isTransient script last :=
    exists_isLast policy.maxRetries (Nat.zero_add _) nofun
  obtain ⟨last, hlast⟩ := hexists
  exact ⟨last, hlast, retryFrom_run hlast policy.maxRetries (Nat.zero_le last) (Nat.zero_add _),
    count_schedule policy last⟩

end Run

namespace ScheduleExample

def policy : RetryPolicy := ⟨5, .ofMilliseconds 4000⟩

/-- Two passing failures, a lasting one, and what would come after it. -/
def script : Nat → Except String Nat
  | 0 | 1 => .error "503"
  | 2 => .error "404"
  | _ => .ok 7

def isTransient (error : String) : Bool :=
  error == "503"

theorem lasting_failure_ends :
    policy.maxRetries < 2 ^ 32 - 1 ∧
      (retry policy isTransient pause (attempt script)).run [] =
        (.error ⟨"404", 3, false⟩,
          [.attempt, .pause (.ofMilliseconds 4000), .attempt, .pause (.ofMilliseconds 8000), .attempt]) ∧
      (retryCounted policy isTransient pause (attempt script) 0).run [] =
        (some (.error ⟨"404", 3, false⟩),
          [.attempt, .pause (.ofMilliseconds 4000), .attempt, .pause (.ofMilliseconds 8000), .attempt]) := by
  have hpolicy : policy.maxRetries < 2 ^ 32 - 1 := by decide
  obtain ⟨⟨last, hlast, hrun, _⟩, hcounted⟩ := retry_keeps_schedule hpolicy isTransient script
  have hthird : IsLast policy isTransient script 2 := by
    refine ⟨fun number hnumber => ?_, by decide, fun _ error herror => ?_⟩
    · obtain rfl | rfl : number = 0 ∨ number = 1 := by omega
      · exact ⟨"503", rfl, rfl⟩
      · exact ⟨"503", rfl, rfl⟩
    · cases herror
      rfl
  cases hlast.unique hthird
  rw [hcounted, StateT.run_map, hrun]
  exact ⟨hpolicy, rfl, rfl⟩

end ScheduleExample

end Retry

end StubSync
