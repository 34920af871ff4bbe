/-
Action levels: how far a run may go.
-/

namespace StubSync

/-- From the least to the most permissive level. -/
inductive Level where
  | obsoleteOnly
  | newReleases
  | everything
deriving Repr, DecidableEq

namespace Level

def all : List Level :=
  [.obsoleteOnly, .newReleases, .everything]

def name : Level → String
  | .obsoleteOnly => "obsolete-only"
  | .newReleases => "new-releases"
  | .everything => "everything"

def ofName? (text : String) : Option Level :=
  all.find? fun level => level.name == text

def rank : Level → Nat
  | .obsoleteOnly => 0
  | .newReleases => 1
  | .everything => 2

/-- An action that requires `required` may run at this level. -/
def permits (level required : Level) : Bool :=
  required.rank ≤ level.rank

instance : LE Level := ⟨fun low high => low.rank ≤ high.rank⟩

instance : ToString Level := ⟨name⟩

end Level

end StubSync
