/-
Attempts that are counted in a word of 32 bits.

A retry keeps a single count: one is added before an attempt, and one is taken
off again for the number of a repetition.  Either of them may leave the words,
in which case the counted loop has no result; as long as there are fewer than
2³² - 1 repetitions neither does, and the loop is the retry.
-/
import StubSync.Retry
import Mathlib.Algebra.Group.Nat.Defs

namespace StubSync

namespace Counter

/-- The count with one more, if a word holds it. -/
def next? (count : UInt32) : Option UInt32 :=
  if count.toNat + 1 < UInt32.size then some (count + 1) else none

/-- The count with one less, if there is one. -/
def previous? (count : UInt32) : Option UInt32 :=
  if 0 < count.toNat then some (count - 1) else none

theorem next?_eq_some_iff {count number : UInt32} :
    next? count = some number ↔ number.toNat = count.toNat + 1 := by
  have hbound := number.toNat_lt_size
  unfold next?
  split
  · rename_i hfits
    have hnext : (count + 1).toNat = count.toNat + 1 := by
      rw [UInt32.toNat_add]
      exact Nat.mod_eq_of_lt hfits
    rw [Option.some_inj, ← UInt32.toNat_inj, hnext]
    exact eq_comm
  · constructor
    · exact nofun
    · intro hnumber
      omega

theorem previous?_eq_some_iff {count number : UInt32} :
    previous? count = some number ↔ count.toNat = number.toNat + 1 := by
  unfold previous?
  split
  · rename_i hpos
    have hprevious : (count - 1).toNat = count.toNat - 1 :=
      UInt32.toNat_sub_of_le count 1 hpos
    rw [Option.some_inj, ← UInt32.toNat_inj, hprevious]
    omega
  · constructor
    · exact nofun
    · intro hnumber
      omega

/-- A count within a limit can go on if the limit is not the greatest word. -/
theorem exists_next? (count : UInt32) {limit : Nat} (hlimit : limit < 2 ^ 32 - 1)
    (hcount : count.toNat ≤ limit) :
    ∃ number, next? count = some number ∧ number.toNat = count.toNat + 1 := by
  have hfits : count.toNat + 1 < UInt32.size := by
    change count.toNat + 1 < 2 ^ 32
    omega
  have hnext : next? count = some (count + 1) := if_pos hfits
  exact ⟨count + 1, hnext, next?_eq_some_iff.1 hnext⟩

/-- What is added is taken off again. -/
theorem previous?_of_next? {count number : UInt32} (hnext : next? count = some number) :
    previous? number = some count := by
  rw [previous?_eq_some_iff, next?_eq_some_iff.1 hnext]

end Counter

section Retry

variable {m : Type → Type} [Monad m] {τ ε α : Type} [Clock τ]

/-- Attempt with a count of the attempts that were made, until there is a
result, a lasting error, or more attempts than repetitions were allowed. -/
def retryCounted (policy : RetryPolicy) (isTransient : ε → Bool) (pause : τ → m Unit)
    (attempt : m (Except ε α)) (made : UInt32) : m (Option (Except (RetryFailure ε) α)) :=
  match _hnext : Counter.next? made with
  | none => return none
  | some number => do
      match ← attempt with
      | .ok result => return some (.ok result)
      | .error error =>
          if !isTransient error then return some (.error ⟨error, number.toNat, false⟩)
          else if policy.maxRetries < number.toNat then
            return some (.error ⟨error, number.toNat, true⟩)
          else
            match Counter.previous? number with
            | none => return none
            | some repetition =>
                pause (Clock.ofSpan (policy.delay repetition.toNat))
                retryCounted policy isTransient pause attempt number
termination_by UInt32.size - made.toNat
decreasing_by
  have hnumber := Counter.next?_eq_some_iff.1 _hnext
  have hbound := number.toNat_lt_size
  omega

variable {policy : RetryPolicy} {isTransient : ε → Bool} {pause : τ → m Unit}
  {attempt : m (Except ε α)}

/-- One round of the loop whose count can go on. -/
theorem retryCounted_of_next? {made number : UInt32} (hnext : Counter.next? made = some number) :
    retryCounted policy isTransient pause attempt made = (do
      match ← attempt with
      | .ok result => return some (.ok result)
      | .error error =>
          if !isTransient error then return some (.error ⟨error, number.toNat, false⟩)
          else if policy.maxRetries < number.toNat then
            return some (.error ⟨error, number.toNat, true⟩)
          else
            pause (Clock.ofSpan (policy.delay made.toNat))
            retryCounted policy isTransient pause attempt number) := by
  have hprevious := Counter.previous?_of_next? hnext
  rw [retryCounted]
  split
  · rename_i hnone
    rw [hnext] at hnone
    cases hnone
  · rename_i other hother
    rw [hnext] at hother
    cases hother
    simp only [hprevious]

variable [LawfulMonad m]

/-- The loop after some attempts is the retry with the repetitions that are
left. -/
theorem retryCounted_eq_retryFrom (hpolicy : policy.maxRetries < 2 ^ 32 - 1) (left : Nat)
    {made : UInt32} (hmade : made.toNat + left = policy.maxRetries) :
    retryCounted policy isTransient pause attempt made =
      some <$> retryFrom policy isTransient pause attempt made.toNat left := by
  induction left generalizing made with
  | zero =>
      obtain ⟨number, hnext, hnumber⟩ := Counter.exists_next? made hpolicy (by omega)
      have hlast : policy.maxRetries < number.toNat := by omega
      rw [retryCounted_of_next? hnext, retryFrom, map_bind, ← hnumber]
      refine bind_congr fun last => ?_
      cases last with
      | ok result => exact (map_pure some (Except.ok result)).symm
      | error error =>
          cases htransient : isTransient error with
          | false => simp [htransient]
          | true => simp [htransient, hlast]
  | succ left ih =>
      obtain ⟨number, hnext, hnumber⟩ := Counter.exists_next? made hpolicy (by omega)
      have hmore : ¬policy.maxRetries < number.toNat := by omega
      have hrest := ih (show number.toNat + left = policy.maxRetries by omega)
      rw [retryCounted_of_next? hnext, retryFrom, map_bind, ← hnumber]
      refine bind_congr fun last => ?_
      cases last with
      | ok result => exact (map_pure some (Except.ok result)).symm
      | error error =>
          cases htransient : isTransient error with
          | false => simp [htransient]
          | true => simp [htransient, hmore, hrest, map_bind]

theorem retryCounted_eq (hpolicy : policy.maxRetries < 2 ^ 32 - 1) :
    retryCounted policy isTransient pause attempt 0 =
      some <$> retry policy isTransient pause attempt :=
  retryCounted_eq_retryFrom hpolicy policy.maxRetries (Nat.zero_add _)

end Retry

end StubSync
