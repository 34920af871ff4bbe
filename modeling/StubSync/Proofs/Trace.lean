/-
What a computation asks on its way to its result.

The trace of a run is the list of its questions with the states they were asked
in and the answers they got.  `AlwaysTraced` reasons about traces as `Always`
does about results: part by part, before the surroundings are known.
-/
import StubSync.Proofs.Interaction

namespace StubSync

namespace Interaction

variable {Q : Type} {R : Q → Type} {α β σ τ : Type}

/-- A question, the state it was asked in, and its answer. -/
structure Asked {Q : Type} (R : Q → Type) (σ : Type) where
  question : Q
  state : σ
  reply : R question

/-- The same with another view of the state. -/
def Asked.map (view : τ → σ) (asked : Asked R τ) : Asked R σ :=
  ⟨asked.question, view asked.state, asked.reply⟩

/-- Everything that is asked in a run, in order. -/
def trace (answer : (q : Q) → σ → R q × σ) : Interaction Q R α → σ → List (Asked R σ)
  | .done _, _ => []
  | .ask question next, state =>
      let (reply, later) := answer question state
      ⟨question, state, reply⟩ :: (next reply).trace answer later

/-- However the questions are answered within what is allowed, `post` holds of
the result, of the state at the end, and of everything that was asked. -/
def AlwaysTraced (allowed : (q : Q) → σ → R q → σ → Prop) :
    Interaction Q R α → (α → σ → List (Asked R σ) → Prop) → σ → Prop
  | .done result, post, state => post result state []
  | .ask question next, post, state =>
      ∀ reply later, allowed question state reply later →
        (next reply).AlwaysTraced allowed
          (fun result last asked => post result last (⟨question, state, reply⟩ :: asked)) later

variable {allowed : (q : Q) → σ → R q → σ → Prop} {state : σ}

@[simp]
theorem alwaysTraced_pure {post : α → σ → List (Asked R σ) → Prop} {result : α} :
    (pure result : Interaction Q R α).AlwaysTraced allowed post state ↔
      post result state [] :=
  Iff.rfl

theorem AlwaysTraced.mono {post weaker : α → σ → List (Asked R σ) → Prop}
    {first : Interaction Q R α} (hfirst : first.AlwaysTraced allowed post state)
    (himp : ∀ result later asked, post result later asked → weaker result later asked) :
    first.AlwaysTraced allowed weaker state := by
  induction first generalizing state post weaker with
  | done result => exact himp result state [] hfirst
  | ask question follow ih =>
      intro reply later hreply
      exact ih reply (hfirst reply later hreply)
        fun result last asked => himp result last (⟨question, state, reply⟩ :: asked)

/-- The trace of a bound computation is that of its parts, one after the
other. -/
theorem AlwaysTraced.bind {mid : α → σ → List (Asked R σ) → Prop}
    {post : β → σ → List (Asked R σ) → Prop} {first : Interaction Q R α}
    {next : α → Interaction Q R β} (hfirst : first.AlwaysTraced allowed mid state)
    (hnext : ∀ result later asked, mid result later asked →
      (next result).AlwaysTraced allowed
        (fun last final more => post last final (asked ++ more)) later) :
    (first >>= next).AlwaysTraced allowed post state := by
  change (first.bind next).AlwaysTraced allowed post state
  induction first generalizing state mid post with
  | done result => exact hnext result state [] hfirst
  | ask question follow ih =>
      intro reply later hreply
      refine ih reply (hfirst reply later hreply) ?_
      intro result last asked hmid
      exact hnext result last (⟨question, state, reply⟩ :: asked) hmid

theorem alwaysTraced_query (question : Q) (state : σ) :
    (query question : Interaction Q R (R question)).AlwaysTraced allowed
      (fun reply later asked =>
        allowed question state reply later ∧ asked = [⟨question, state, reply⟩]) state :=
  fun _ _ hreply => ⟨hreply, rfl⟩

/-- Surroundings whose states are only seen through `view`, and whose answers
are allowed by what is seen, run to what always holds. -/
theorem AlwaysTraced.run {answer : (q : Q) → τ → R q × τ} {view : τ → σ}
    {post : α → σ → List (Asked R σ) → Prop} {first : Interaction Q R α} {start : τ}
    (hanswer : ∀ question state,
      allowed question (view state) (answer question state).1
        (view (answer question state).2))
    (hfirst : first.AlwaysTraced allowed post (view start)) :
    post (first.run answer start).1 (view (first.run answer start).2)
      ((first.trace answer start).map (Asked.map view)) := by
  induction first generalizing start post with
  | done result => exact hfirst
  | ask question follow ih =>
      exact ih _ (hfirst _ _ (hanswer question start))

theorem trace_bind (answer : (q : Q) → σ → R q × σ) (first : Interaction Q R α)
    (next : α → Interaction Q R β) (state : σ) :
    (first >>= next).trace answer state =
      first.trace answer state ++
        (next (first.run answer state).1).trace answer (first.run answer state).2 := by
  change (first.bind next).trace answer state = _
  induction first generalizing state with
  | done result => rfl
  | ask question follow ih => exact congrArg _ (ih _ _)

/-- What is noted in a trace was answered so. -/
theorem reply_of_mem_trace {answer : (q : Q) → σ → R q × σ} {first : Interaction Q R α}
    {state : σ} {asked : Asked R σ} (hasked : asked ∈ first.trace answer state) :
    (answer asked.question asked.state).1 = asked.reply := by
  induction first generalizing state with
  | done result => cases hasked
  | ask question next ih =>
      rcases List.mem_cons.1 hasked with rfl | hlater
      · rfl
      · exact ih _ hlater

section Interpreted

variable {Q' : Type} {R' : Q' → Type} (say : (q : Q) → Interaction Q' R' (R q))
  (answer : (q : Q') → σ → R' q × σ)

/-- The surroundings that answer a question by asking it in other words. -/
def answering (question : Q) (state : σ) : R question × σ :=
  (say question).run answer state

theorem run_interpret (first : Interaction Q R α) (state : σ) :
    (first.interpret say).run answer state = first.run (answering say answer) state := by
  induction first generalizing state with
  | done result => rfl
  | ask question next ih =>
      change ((say question) >>= fun reply => (next reply).interpret say).run answer state = _
      rw [run_bind, ih]
      rfl

variable (sayFrom : (q : Q) → τ → Interaction Q' R' (R q × τ))

/-- The surroundings that remember something from one question to the next. -/
def answeringFrom (question : Q) (state : τ × σ) : R question × (τ × σ) :=
  let spoken := (sayFrom question state.1).run answer state.2
  (spoken.1.1, (spoken.1.2, spoken.2))

theorem run_interpretFrom (first : Interaction Q R α) (known : τ) (state : σ) :
    (first.interpretFrom sayFrom known).run answer state =
      let ended := first.run (answeringFrom answer sayFrom) (known, state)
      ((ended.1, ended.2.1), ended.2.2) := by
  induction first generalizing known state with
  | done result => rfl
  | ask question next ih =>
      change ((sayFrom question known) >>= fun spoken =>
        (next spoken.1).interpretFrom sayFrom spoken.2).run answer state = _
      rw [run_bind, ih]
      rfl

end Interpreted

end Interaction

end StubSync
