/-
How much of a report is shown, and in which form.
-/

namespace StubSync

inductive Verbosity where
  /-- The summary and what needs attention. -/
  | quiet
  | normal
  /-- Every package. -/
  | verbose
deriving Repr, DecidableEq

inductive Format where
  | text
  | json
  | diff
deriving Repr, DecidableEq

/-- The look of texts: with the marks of a plain terminal, or with those of a
rich one, which may show escape codes. -/
inductive Look where
  | plain
  | rich (escapes : Bool)
deriving Repr, DecidableEq

namespace Look

def escapes : Look → Bool
  | .plain => false
  | .rich escapes => escapes

/-- The arrow from a version to the next one. -/
def arrow : Look → String
  | .plain => "->"
  | .rich _ => "→"

end Look

structure Layout where
  format : Format := .text
  verbosity : Verbosity := .normal
  look : Look := .plain
deriving Repr, DecidableEq

end StubSync
