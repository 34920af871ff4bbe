/-
Computations that put questions to their surroundings.

A computation is a finite tree: it is done, or it asks one question and goes
on with whatever answer comes back.  What the surroundings are is decided by
`run`, so one computation serves a live service, a model of it in memory, and
any script of answers.
-/

namespace StubSync

/-- A computation that asks questions of type `Q`; the answer to `q` is of
type `R q`. -/
inductive Interaction (Q : Type) (R : Q → Type) (α : Type) : Type where
  | done (result : α)
  | ask (question : Q) (next : R question → Interaction Q R α)

namespace Interaction

variable {Q : Type} {R : Q → Type} {α β σ : Type}

/-- Ask one question and return its answer. -/
def query (question : Q) : Interaction Q R (R question) :=
  .ask question .done

def bind : Interaction Q R α → (α → Interaction Q R β) → Interaction Q R β
  | .done result, next => next result
  | .ask question follow, next => .ask question fun answer => (follow answer).bind next

instance : Monad (Interaction Q R) where
  pure := .done
  bind := bind

/-- Answer every question in turn; `answer` may change the state that the
later answers depend on. -/
def run (answer : (q : Q) → σ → R q × σ) : Interaction Q R α → σ → α × σ
  | .done result, state => (result, state)
  | .ask question next, state =>
      let (reply, later) := answer question state
      (next reply).run answer later

/-- Put each question in other words, asked of other surroundings. -/
def interpret {Q' : Type} {R' : Q' → Type}
    (say : (q : Q) → Interaction Q' R' (R q)) :
    Interaction Q R α → Interaction Q' R' α
  | .done result => .done result
  | .ask question next => (say question).bind fun answer => (next answer).interpret say

/-- Put each question in other words, which may depend on what is remembered
from the questions before it. -/
def interpretFrom {Q' : Type} {R' : Q' → Type}
    (say : (q : Q) → σ → Interaction Q' R' (R q × σ)) :
    Interaction Q R α → σ → Interaction Q' R' (α × σ)
  | .done result, state => .done (result, state)
  | .ask question next, state =>
      (say question state).bind fun (answer, later) => (next answer).interpretFrom say later

end Interaction

end StubSync
