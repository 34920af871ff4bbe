/-
What holds of a computation before its surroundings are known.

`Always` is told only which answers are allowed, and what the state may be
after each of them.  A bound computation is reasoned about part by part, and
what holds always holds of every run whose answers keep to what is allowed.
-/
import StubSync.Interaction

namespace StubSync

namespace Interaction

variable {Q : Type} {R : Q → Type} {α β σ τ : Type}

@[simp]
theorem run_pure (answer : (q : Q) → σ → R q × σ) (result : α) (state : σ) :
    (pure result : Interaction Q R α).run answer state = (result, state) :=
  rfl

@[simp]
theorem run_query (answer : (q : Q) → σ → R q × σ) (question : Q) (state : σ) :
    (query question : Interaction Q R (R question)).run answer state =
      answer question state :=
  rfl

@[simp]
theorem run_bind (answer : (q : Q) → σ → R q × σ) (first : Interaction Q R α)
    (next : α → Interaction Q R β) (state : σ) :
    (first >>= next).run answer state =
      (next (first.run answer state).1).run answer (first.run answer state).2 := by
  change (first.bind next).run answer state = _
  induction first generalizing state with
  | done result => rfl
  | ask question follow ih => exact ih _ _

/-- However the questions are answered within what is allowed, the computation
ends with a result and a state of which `post` holds. -/
def Always (allowed : (q : Q) → σ → R q → σ → Prop) (post : α → σ → Prop) :
    Interaction Q R α → σ → Prop
  | .done result, state => post result state
  | .ask question next, state =>
      ∀ reply later, allowed question state reply later →
        (next reply).Always allowed post later

section Always

variable {allowed : (q : Q) → σ → R q → σ → Prop} {state : σ}

@[simp]
theorem always_pure {post : α → σ → Prop} {result : α} :
    (pure result : Interaction Q R α).Always allowed post state ↔ post result state :=
  Iff.rfl

theorem Always.mono {post weaker : α → σ → Prop} {first : Interaction Q R α}
    (hfirst : first.Always allowed post state)
    (himp : ∀ result later, post result later → weaker result later) :
    first.Always allowed weaker state := by
  induction first generalizing state with
  | done result => exact himp result state hfirst
  | ask question follow ih =>
      intro reply later hreply
      exact ih reply (hfirst reply later hreply)

theorem Always.bind {mid : α → σ → Prop} {post : β → σ → Prop}
    {first : Interaction Q R α} {next : α → Interaction Q R β}
    (hfirst : first.Always allowed mid state)
    (hnext : ∀ result later, mid result later → (next result).Always allowed post later) :
    (first >>= next).Always allowed post state := by
  change (first.bind next).Always allowed post state
  induction first generalizing state with
  | done result => exact hnext result state hfirst
  | ask question follow ih =>
      intro reply later hreply
      exact ih reply (hfirst reply later hreply)

/-- A question that comes first may be reasoned about answer by answer. -/
theorem Always.query_bind {question : Q} {post : β → σ → Prop}
    {next : R question → Interaction Q R β}
    (hnext : ∀ reply later, allowed question state reply later →
      (next reply).Always allowed post later) :
    (query question >>= next).Always allowed post state :=
  hnext

/-- Surroundings whose states are only seen through `view`, and whose answers
are allowed by what is seen, end in what always holds. -/
theorem Always.run {answer : (q : Q) → τ → R q × τ} {view : τ → σ}
    {post : α → σ → Prop} {first : Interaction Q R α} {start : τ}
    (hanswer : ∀ question state,
      allowed question (view state) (answer question state).1
        (view (answer question state).2))
    (hfirst : first.Always allowed post (view start)) :
    post (first.run answer start).1 (view (first.run answer start).2) := by
  induction first generalizing start with
  | done result => exact hfirst
  | ask question follow ih =>
      exact ih _ (hfirst _ _ (hanswer question start))

end Always

end Interaction

end StubSync
