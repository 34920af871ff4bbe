/-
What a call comes down to, given what each of its attempts may be answered.

A call that creates something is its only attempt.  A call that may be made
again is over with the first answer that is not a passing failure, as long as
such an answer comes before the repetitions run out.
-/
import StubSync.Hosting.Call
import StubSync.Proofs.Trace

namespace StubSync

namespace GitHub

open Interaction (Asked)

/-- No answer came, or one that tells nothing of what was done. -/
def IsLost (reply : Except HostingError Json) : Prop :=
  ∃ error, reply = .error error ∧ error.isTransient = true

theorem not_isLost_ok (value : Json) : ¬ IsLost (.ok value) :=
  fun ⟨_, herror, _⟩ => by cases herror

theorem isLost_error_iff {error : HostingError} :
    IsLost (.error error) ↔ error.isTransient = true :=
  ⟨fun ⟨_, herror, htransient⟩ => Except.error.inj herror ▸ htransient,
    fun htransient => ⟨error, rfl, htransient⟩⟩

/-- A failure after repetitions, without the account of them. -/
def plain : Except (RetryFailure HostingError) Json → Except HostingError Json
  | .ok value => .ok value
  | .error failure => .error failure.error

section Calls

variable {σ : Type} {allowed : (question : Question) → σ → Reply question → σ → Prop}
  {policy : RetryPolicy} {request : Call}

theorem attempt_always (request : Call) (state : σ) :
    (attempt request).Always allowed
      (fun reply later => allowed (.attempt request) state reply later) state :=
  fun _ _ hreply => hreply

theorem call_once_always (hmethod : request.method = .post) (state : σ) :
    (call policy request).Always allowed
      (fun reply later => allowed (.attempt request) state reply later) state := by
  simp only [call, hmethod, Http.Method.isRepeatable, Bool.false_eq_true, ↓reduceIte]
  exact attempt_always request state

/-- After `lost` attempts `inv lost` holds.  An attempt is lost while there are
repetitions left, or it ends the call with `post`. -/
def EndsInTime (allowed : (question : Question) → σ → Reply question → σ → Prop)
    (policy : RetryPolicy) (request : Call) (inv : Nat → σ → Prop)
    (post : Except HostingError Json → σ → Prop) : Prop :=
  ∀ lost state reply later, inv lost state → allowed (.attempt request) state reply later →
    (IsLost reply ∧ lost < policy.maxRetries ∧ inv (lost + 1) later) ∨
      (¬ IsLost reply ∧ post reply later)

variable {inv : Nat → σ → Prop} {post : Except HostingError Json → σ → Prop}

theorem retryFrom_always
    (hpause : ∀ span state reply later,
      allowed (.pause span) state reply later → later = state)
    (hattempt : EndsInTime allowed policy request inv post) (made : Nat) {left lost : Nat}
    {state : σ} (hstate : inv lost state) (hleft : lost + left = policy.maxRetries) :
    (retryFrom policy HostingError.isTransient pause (attempt request) made left).Always
      allowed (fun result later => post (plain result) later) state := by
  induction left generalizing made lost state with
  | zero =>
      refine (attempt_always request state).bind ?_
      intro reply later hreply
      rcases hattempt lost state reply later hstate hreply with ⟨_, hlost, _⟩ | ⟨_, hpost⟩
      · omega
      · cases reply with
        | ok value => exact hpost
        | error error => exact hpost
  | succ left ih =>
      refine (attempt_always request state).bind ?_
      intro reply later hreply
      rcases hattempt lost state reply later hstate hreply with ⟨hlost, _, hinv⟩ | ⟨hlost, hpost⟩
      · obtain ⟨error, rfl, htransient⟩ := hlost
        simp only [htransient, ↓reduceIte]
        refine Interaction.Always.query_bind ?_
        intro _ paused hpaused
        rw [hpause _ _ _ _ hpaused]
        exact ih (made + 1) hinv (by omega)
      · cases reply with
        | ok value => exact hpost
        | error error =>
            rw [isLost_error_iff, Bool.not_eq_true] at hlost
            simp only [hlost, Bool.false_eq_true, ↓reduceIte]
            exact hpost

theorem call_repeated_always
    (hpause : ∀ span state reply later,
      allowed (.pause span) state reply later → later = state)
    (hattempt : EndsInTime allowed policy request inv post)
    (hmethod : request.method ≠ .post) {state : σ} (hstate : inv 0 state) :
    (call policy request).Always allowed post state := by
  have hrepeatable : request.method.isRepeatable = true := by
    cases hname : request.method with
    | post => exact absurd hname hmethod
    | get => rfl
    | delete => rfl
  simp only [call, hrepeatable, ↓reduceIte]
  have hretry := retryFrom_always hpause hattempt 0 hstate (Nat.zero_add _)
  refine Interaction.Always.bind hretry ?_
  intro result later hresult
  cases result with
  | ok value => exact hresult
  | error failure => exact hresult

end Calls

section Traces

variable {σ : Type} {allowed : (question : Question) → σ → Reply question → σ → Prop}
  {policy : RetryPolicy} {request : Call} {inv : σ → Prop}

/-- What is asked for a call that is made again until it is answered: every
attempt but the answered one is lost. -/
structure IsCall (allowed : (question : Question) → σ → Reply question → σ → Prop)
    (inv : σ → Prop) (request : Call) (reply : Except HostingError Json)
    (asked : List (Asked Reply σ)) : Prop where
  answered : ∃ state later, inv state ∧ allowed (.attempt request) state reply later ∧
    ⟨.attempt request, state, reply⟩ ∈ asked
  attempts : ∀ entry ∈ asked, inv entry.state ∧
    ((∃ span, entry.question = .pause span) ∨
      ∃ other, entry = ⟨.attempt request, entry.state, other⟩ ∧ (other = reply ∨ IsLost other))

theorem IsCall.reply_of_mem {reply other : Except HostingError Json} {state : σ}
    {asked : List (Asked Reply σ)} (hcall : IsCall allowed inv request reply asked)
    (hmem : ⟨.attempt request, state, other⟩ ∈ asked) : other = reply ∨ IsLost other := by
  obtain ⟨_, ⟨_, hpause⟩ | ⟨found, hfound, hreply⟩⟩ := hcall.attempts _ hmem
  · cases hpause
  · cases hfound
    exact hreply

theorem attempt_traced (request : Call) (state : σ) :
    (attempt request).AlwaysTraced allowed
      (fun reply later asked => allowed (.attempt request) state reply later ∧
        asked = [⟨.attempt request, state, reply⟩]) state :=
  Interaction.alwaysTraced_query (Question.attempt request) state

theorem isCall_attempt {state later : σ} {reply : Except HostingError Json}
    (hstate : inv state) (hallowed : allowed (.attempt request) state reply later) :
    IsCall allowed inv request reply [⟨.attempt request, state, reply⟩] where
  answered := ⟨state, later, hstate, hallowed, List.mem_singleton_self _⟩
  attempts := by
    intro entry hentry
    rw [List.mem_singleton.1 hentry]
    exact ⟨hstate, Or.inr ⟨reply, rfl, Or.inl rfl⟩⟩

/-- A lost attempt and a pause may come before the rest of the call. -/
theorem IsCall.after_lost {state paused : σ} {lost reply : Except HostingError Json}
    {span : Span} {asked : List (Asked Reply σ)} (hstate : inv state)
    (hpaused : inv paused) (hlost : IsLost lost)
    (hcall : IsCall allowed inv request reply asked) :
    IsCall allowed inv request reply
      (⟨.attempt request, state, lost⟩ :: ⟨.pause span, paused, ()⟩ :: asked) where
  answered := by
    obtain ⟨last, later, hlast, hallowed, hmem⟩ := hcall.answered
    exact ⟨last, later, hlast, hallowed,
      List.mem_cons_of_mem _ (List.mem_cons_of_mem _ hmem)⟩
  attempts := by
    intro entry hentry
    rcases List.mem_cons.1 hentry with rfl | hentry
    · exact ⟨hstate, Or.inr ⟨lost, rfl, Or.inr hlost⟩⟩
    · rcases List.mem_cons.1 hentry with rfl | hentry
      · exact ⟨hpaused, Or.inl ⟨span, rfl⟩⟩
      · exact hcall.attempts entry hentry

variable
  (hpause : ∀ span state reply later, inv state →
    allowed (.pause span) state reply later → inv later)
  (hattempt : ∀ state reply later, inv state →
    allowed (.attempt request) state reply later → inv later)

include hpause hattempt

theorem retryFrom_traced (made left : Nat) {state : σ} (hstate : inv state) :
    (retryFrom policy HostingError.isTransient pause (attempt request) made left).AlwaysTraced
      allowed (fun result later asked =>
        inv later ∧ IsCall allowed inv request (plain result) asked) state := by
  induction left generalizing made state with
  | zero =>
      refine (attempt_traced request state).bind ?_
      rintro reply later asked ⟨hallowed, rfl⟩
      have hlater := hattempt state reply later hstate hallowed
      cases reply with
      | ok value => exact ⟨hlater, isCall_attempt hstate hallowed⟩
      | error error => exact ⟨hlater, isCall_attempt hstate hallowed⟩
  | succ left ih =>
      refine (attempt_traced request state).bind ?_
      rintro reply later asked ⟨hallowed, rfl⟩
      have hlater := hattempt state reply later hstate hallowed
      cases reply with
      | ok value => exact ⟨hlater, isCall_attempt hstate hallowed⟩
      | error error =>
          by_cases htransient : error.isTransient = true
          · simp only [htransient, ↓reduceIte]
            intro _ paused hpaused
            have hagain := hpause _ _ _ _ hlater hpaused
            refine (ih (made + 1) hagain).mono ?_
            rintro result last asked ⟨hlast, hcall⟩
            exact ⟨hlast, hcall.after_lost hstate hlater (isLost_error_iff.2 htransient)⟩
          · simp only [htransient, Bool.false_eq_true, ↓reduceIte]
            exact ⟨hlater, isCall_attempt hstate hallowed⟩

theorem call_traced {state : σ} (hstate : inv state) :
    (call policy request).AlwaysTraced allowed
      (fun reply later asked => inv later ∧ IsCall allowed inv request reply asked) state := by
  unfold call
  split
  · refine (retryFrom_traced hpause hattempt 0 policy.maxRetries hstate).bind ?_
    rintro result later asked hcall
    cases result with
    | ok value => simpa [plain] using hcall
    | error failure => simpa [plain] using hcall
  · refine (attempt_traced request state).mono ?_
    rintro reply later asked ⟨hallowed, rfl⟩
    exact ⟨hattempt state reply later hstate hallowed, isCall_attempt hstate hallowed⟩

end Traces

end GitHub

end StubSync
