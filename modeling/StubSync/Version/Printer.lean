/-
The canonical spelling of a version.
-/
import StubSync.Text.Decimal
import StubSync.Version.Basic

namespace StubSync

namespace Version

def Phase.label : Phase → List Char
  | .alpha => ['a']
  | .beta => ['b']
  | .candidate => ['r', 'c']

/-- Segments in decimal digits with points between them. -/
def spellSegments : List Nat → List Char
  | [] => []
  | [n] => Decimal.digits n
  | n :: others => Decimal.digits n ++ '.' :: spellSegments others

def spellEpoch (version : Version) : List Char :=
  if version.epoch = 0 then [] else Decimal.digits version.epoch ++ ['!']

def spellPre (version : Version) : List Char :=
  match version.pre with
  | none => []
  | some (phase, n) => Phase.label phase ++ Decimal.digits n

def spellPost (version : Version) : List Char :=
  match version.post with
  | none => []
  | some n => ".post".toList ++ Decimal.digits n

def spellDev (version : Version) : List Char :=
  match version.dev with
  | none => []
  | some n => ".dev".toList ++ Decimal.digits n

def spellLocal (version : Version) : List Char :=
  match version.localLabel with
  | none => []
  | some label => '+' :: label.toList

/-- The one spelling that a version is shown in. -/
def spell (version : Version) : List Char :=
  version.spellEpoch ++ spellSegments version.release ++ version.spellPre ++
    version.spellPost ++ version.spellDev ++ version.spellLocal

instance : ToString Version := ⟨fun version => String.ofList version.spell⟩

end Version

end StubSync
