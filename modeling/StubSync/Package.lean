/-
Stub packages that are tracked.
-/
import StubSync.Constraint
import StubSync.Path

namespace StubSync

structure Package where
  name : String
  /-- The distribution that the stubs are for. -/
  distribution : String
  minVersion : Constraint
  /-- An upper bound that is itself excluded. -/
  maxVersion : Option Version := none
  /-- The version at which the stubs were marked obsolete, as written. -/
  obsoleteSince : Option String := none
  noLongerUpdated : Bool := false
  /-- Pre-releases are followed too. -/
  prerelease : Bool := false
  metadataPath : String := Path.metadata name
  metadataSource : String := ""
  /-- The commit that the checkout was read at. -/
  lastKnownGood : Option String := none
deriving Repr, DecidableEq

namespace Package

def isObsolete (package : Package) : Bool :=
  package.obsoleteSince.isSome

/-- The distribution that stubs of this name are for: the name without one
leading `types-` and one trailing `-stubs`. -/
def defaultDistribution (name : String) : String :=
  let bare := (Text.after? "types-".toList name.toList).getD name.toList
  let bare := ((Text.after? "-stubs".toList.reverse bare.reverse).map List.reverse).getD bare
  String.ofList bare

instance : ToString Package where
  toString package :=
    let bound :=
      match package.maxVersion with
      | some version => s!",<{version}"
      | none => ""
    let mark := if package.isObsolete then " [obsolete]" else ""
    s!"{package.name} ({package.distribution}>={package.minVersion}{bound}){mark}"

end Package

end StubSync
