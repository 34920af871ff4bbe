/-
What is seen of an attempt that is repeated.

Every attempt but the last one has failed in a passing way, and the last one
has only if no repetition was left.
-/
import StubSync.Proofs.Pacing
import StubSync.Retry

namespace StubSync

open Interaction (Paces)

variable {Q : Type} {R : Q → Type} {S τ ε α : Type} [Clock τ]

section Retry

variable {isTransient : ε → Bool} {shows : Except ε α → S → Prop}

/-- What attempts show that were all lost in a passing way, with repetitions
left. -/
structure AllPassing (isTransient : ε → Bool) (shows : Except ε α → S → Prop) (limit : Nat)
    (lost : List S) : Prop where
  passing : ∀ entry ∈ lost, ∃ error, shows (.error error) entry ∧ isTransient error = true
  bounded : lost.length ≤ limit

/-- What a retry makes of its last attempt. -/
def concluded (isTransient : ε → Bool) (attempts : Nat) :
    Except ε α → Except (RetryFailure ε) α
  | .ok result => .ok result
  | .error error => .error ⟨error, attempts, isTransient error⟩

/-- How a retry ends: its last attempt came after attempts that were lost, and
was lost itself only if no repetition was left. -/
def IsRetried (policy : RetryPolicy) (isTransient : ε → Bool) (shows : Except ε α → S → Prop)
    (history : List S) (result : Except (RetryFailure ε) α) (seen : List S) : Prop :=
  ∃ lost entry last, AllPassing isTransient shows policy.maxRetries lost ∧
    shows last entry ∧ seen = history ++ lost ++ [entry] ∧
    (∀ error, last = .error error → isTransient error = true →
      lost.length = policy.maxRetries) ∧
    result = concluded isTransient (lost.length + 1) last

variable {observe : (q : Q) → R q → Option S} {ready : List S → Q → Prop} {history : List S}
  {policy : RetryPolicy} {pause : τ → Interaction Q R Unit}
  {attempt : Interaction Q R (Except ε α)}
  (hpause : ∀ length history,
    (pause length).Paces observe ready (fun _ seen => seen = history) history)

include hpause

section Seen

variable
  (hattempt : ∀ lost, AllPassing isTransient shows policy.maxRetries lost →
    attempt.Paces observe ready
      (fun last seen => ∃ entry, shows last entry ∧ seen = history ++ lost ++ [entry])
      (history ++ lost))

include hattempt

theorem retryFrom_paces (made left : Nat) {lost : List S} (hmade : lost.length = made)
    (hleft : made + left = policy.maxRetries)
    (hlost : AllPassing isTransient shows policy.maxRetries lost) :
    (retryFrom policy isTransient pause attempt made left).Paces observe ready
      (IsRetried policy isTransient shows history)
      (history ++ lost) := by
  induction left generalizing made lost with
  | zero =>
      refine (hattempt lost hlost).bind ?_
      rintro last _ ⟨entry, hentry, rfl⟩
      cases last with
      | ok result => exact ⟨lost, entry, .ok result, hlost, hentry, rfl, nofun, rfl⟩
      | error error =>
          refine ⟨lost, entry, .error error, hlost, hentry, rfl, fun _ _ _ => by omega, ?_⟩
          rw [concluded, hmade]
  | succ left ih =>
      refine (hattempt lost hlost).bind ?_
      rintro last _ ⟨entry, hentry, rfl⟩
      cases last with
      | ok result => exact ⟨lost, entry, .ok result, hlost, hentry, rfl, nofun, rfl⟩
      | error error =>
          by_cases htransient : isTransient error = true
          · simp only [htransient, ↓reduceIte]
            refine (hpause _ _).bind ?_
            rintro _ _ rfl
            have hmore : AllPassing isTransient shows policy.maxRetries (lost ++ [entry]) := by
              refine ⟨fun other hother => ?_, ?_⟩
              · rcases List.mem_append.1 hother with hother | hother
                · exact hlost.passing other hother
                · rw [List.mem_singleton.1 hother]
                  exact ⟨error, hentry, htransient⟩
              · rw [List.length_append, List.length_singleton]
                omega
            rw [List.append_assoc]
            refine ih (made + 1) ?_ (by omega) hmore
            rw [List.length_append, List.length_singleton, hmade]
          · simp only [htransient, Bool.false_eq_true, ↓reduceIte]
            refine ⟨lost, entry, .error error, hlost, hentry, rfl,
              fun other hother hpassing => ?_, ?_⟩
            · cases hother
              exact absurd hpassing htransient
            · rw [concluded, hmade, Bool.eq_false_iff.2 htransient]

theorem retry_paces :
    (retry policy isTransient pause attempt).Paces observe ready
      (IsRetried policy isTransient shows history)
      history := by
  have hnone : AllPassing isTransient shows policy.maxRetries [] :=
    ⟨List.forall_mem_nil _, Nat.zero_le _⟩
  have hretry := retryFrom_paces hpause hattempt 0 policy.maxRetries rfl (Nat.zero_add _) hnone
  rwa [List.append_nil] at hretry

end Seen

/-- An attempt that fails by itself is repeated until no repetition is left. -/
theorem retryFrom_failing {error : ε} (htransient : isTransient error = true) (made left : Nat) :
    (retryFrom policy isTransient pause (pure (.error error : Except ε α)) made left).Paces
      observe ready
      (fun result seen => seen = history ∧ result = .error ⟨error, made + left + 1, true⟩)
      history := by
  induction left generalizing made with
  | zero =>
      refine ⟨rfl, ?_⟩
      rw [htransient]
  | succ left ih =>
      have hagain := ih (made + 1)
      rw [Nat.succ_add_eq_add_succ] at hagain
      change Paces _ _ (if isTransient error = true then _ else _) _ _
      rw [if_pos htransient]
      refine (hpause _ _).bind ?_
      rintro _ _ rfl
      exact hagain

end Retry

/-- Repeating an attempt asks nothing else than the attempt and the pauses. -/
theorem retry_onlyAsks {may : Q → Prop} {policy : RetryPolicy} {isTransient : ε → Bool}
    {pause : τ → Interaction Q R Unit} {attempt : Interaction Q R (Except ε α)}
    (hpause : ∀ length, (pause length).OnlyAsks may) (hattempt : attempt.OnlyAsks may) :
    (retry policy isTransient pause attempt).OnlyAsks may := by
  have hretry (made left : Nat) :
      (retryFrom policy isTransient pause attempt made left).OnlyAsks may := by
    induction left generalizing made with
    | zero =>
        refine hattempt.bind fun last => ?_
        cases last with
        | ok result => trivial
        | error error => trivial
    | succ left ih =>
        refine hattempt.bind fun last => ?_
        cases last with
        | ok result => trivial
        | error error =>
            change Interaction.OnlyAsks may (if isTransient error = true then _ else _)
            split
            · exact (hpause _).bind fun _ => ih (made + 1)
            · trivial
  exact hretry 0 policy.maxRetries

end StubSync
