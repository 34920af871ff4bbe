/-
The minimum version that a stub package declares.
-/
import StubSync.Version.Printer
import StubSync.Version.Reader

namespace StubSync

/-- A declared minimum version; with `wildcard` it stands for the whole series
that its release segments name. -/
structure Constraint where
  raw : String
  version : Version
  wildcard : Bool
deriving Repr, DecidableEq

namespace Constraint

/-- The text before a final `.*`. -/
def series? (text : List Char) : Option (List Char) :=
  match text.reverse with
  | '*' :: '.' :: rest => some rest.reverse
  | _ => none

/-- A wildcard needs a base that is no pre-release. -/
def parse (text : String) : Except VersionError Constraint := do
  let raw := Text.trim text.toList
  match series? raw with
  | none => return ⟨String.ofList raw, ← Version.parse (String.ofList raw), false⟩
  | some base =>
      let version ← Version.parse (String.ofList base)
      if version.isPrerelease then throw ⟨text⟩
      return ⟨String.ofList raw, version, true⟩

/-- The candidate is not newer than what is declared. -/
def covers (constraint : Constraint) (candidate : Version) : Bool :=
  candidate ≤ constraint.version ||
    constraint.wildcard && candidate.isInSeries constraint.version

/-- The text of the constraint raised to `target`; a wildcard keeps its number
of segments. -/
def bumpedTo (constraint : Constraint) (target : Version) : String :=
  if constraint.wildcard then
    toString (target.truncated constraint.version.release.length) ++ ".*"
  else toString target

instance : ToString Constraint := ⟨Constraint.raw⟩

end Constraint

end StubSync
