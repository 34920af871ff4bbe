/-
Reading a version from any of its spellings.

A spelling is, after blank ends are removed and letters are put in lower case:
an optional `v`, an optional epoch, release segments, and then optional parts
for a pre-release, a post-release, a development release and a local label, in
this order.  The parts can be told apart by their first characters, so each is
read once and none is given up again.
-/
import StubSync.Text.Blank
import StubSync.Text.Pieces
import StubSync.Text.Decimal
import StubSync.Version.Basic

namespace StubSync

/-- A text that is no version. -/
structure VersionError where
  value : String
deriving Repr, DecidableEq

def VersionError.message (error : VersionError) : String :=
  "invalid version '" ++ error.value ++ "'"

namespace Version

def isSeparator (c : Char) : Bool :=
  c == '-' || c == '_' || c == '.'

def skipSeparator : List Char → List Char
  | [] => []
  | c :: rest => if isSeparator c then rest else c :: rest

/-- The labels of pre-releases; no label is tried before a longer one that
starts with it. -/
def preLabels : List (List Char × Phase) :=
  [("alpha".toList, .alpha), ("beta".toList, .beta), ("preview".toList, .candidate),
    ("pre".toList, .candidate), ("rc".toList, .candidate), ("a".toList, .alpha),
    ("b".toList, .beta), ("c".toList, .candidate)]

def postLabels : List (List Char × Unit) :=
  [("post".toList, ()), ("rev".toList, ()), ("r".toList, ())]

def devLabels : List (List Char × Unit) :=
  [("dev".toList, ())]

def label? {α : Type} (labels : List (List Char × α)) (text : List Char) :
    Option (α × List Char) :=
  labels.findSome? fun (label, meaning) =>
    (Text.after? label text).map fun rest => (meaning, rest)

/-- An optional separator, a label, an optional separator and an optional
number, which is zero when it is missing. -/
def labelled? {α : Type} (labels : List (List Char × α)) (text : List Char) :
    Option ((α × Nat) × List Char) := do
  let (meaning, rest) ← label? labels (skipSeparator text)
  let rest := skipSeparator rest
  match Decimal.number? rest with
  | some (n, rest) => some ((meaning, n), rest)
  | none => some ((meaning, 0), rest)

/-- An optional part of the spelling: what it says if it is there, and what
follows. -/
def optional {α : Type} (read : List Char → Option (α × List Char))
    (text : List Char) : Option α × List Char :=
  match read text with
  | some (found, rest) => (some found, rest)
  | none => (none, text)

/-- A post-release, which may also be written as a hyphen and a number. -/
def post? : List Char → Option (Nat × List Char)
  | '-' :: rest =>
      match Decimal.number? rest with
      | some found => some found
      | none => (labelled? postLabels ('-' :: rest)).map fun (part, rest) => (part.2, rest)
  | text => (labelled? postLabels text).map fun (part, rest) => (part.2, rest)

def dev? (text : List Char) : Option (Nat × List Char) :=
  (labelled? devLabels text).map fun (part, rest) => (part.2, rest)

def epoch? (text : List Char) : Option (Nat × List Char) :=
  match Decimal.number? text with
  | some (n, '!' :: rest) => some (n, rest)
  | _ => none

/-- The release segments from the middle of one on, `current` being the value
of its digits so far.  A point belongs to the release if a digit follows. -/
def segments (current : Nat) : List Char → List Nat × List Char
  | [] => ([current], [])
  | '.' :: c :: rest =>
      if c.isDigit then
        let (others, rest) := segments (Decimal.digitValue c) rest
        (current :: others, rest)
      else ([current], '.' :: c :: rest)
  | c :: rest =>
      if c.isDigit then segments (10 * current + Decimal.digitValue c) rest
      else ([current], c :: rest)

def release? : List Char → Option (List Nat × List Char)
  | c :: rest =>
      if c.isDigit then some (segments (Decimal.digitValue c) rest) else none
  | [] => none

def isLabelChar (c : Char) : Bool :=
  c.isDigit || c.isLower

/-- Groups of letters and digits with one separator between two groups. -/
def isLocalLabel : List Char → Bool :=
  Text.isGrouped isLabelChar isSeparator

/-- The local label that ends a spelling; nothing may follow it. -/
def ending? : List Char → Option (Option String)
  | [] => some none
  | '+' :: label => if isLocalLabel label then some (some (String.ofList label)) else none
  | _ => none

/-- The version that a normalised text spells, numbers of any size allowed. -/
def ofSpelling? (text : List Char) : Option Version := do
  let text :=
    match text with
    | 'v' :: rest => rest
    | _ => text
  let (epoch, text) := optional epoch? text
  let (release, text) ← release? text
  let (pre, text) := optional (labelled? preLabels) text
  let (post, text) := optional post? text
  let (dev, text) := optional dev? text
  let localLabel ← ending? text
  return { epoch := epoch.getD 0, release, pre, post, dev, localLabel }

/-- Every number of the version fits in a 64-bit word. -/
def fits (version : Version) : Bool :=
  version.epoch < Decimal.wordLimit && version.release.all (· < Decimal.wordLimit) &&
    version.pre.all (·.2 < Decimal.wordLimit) && version.post.all (· < Decimal.wordLimit) &&
    version.dev.all (· < Decimal.wordLimit)

/-- A spelling without blank ends and in lower case. -/
def normalise (text : String) : List Char :=
  Text.lowerAscii (Text.trim text.toList)

def read? (text : String) : Option Version :=
  (ofSpelling? (normalise text)).filter fits

def parse (text : String) : Except VersionError Version :=
  match read? text with
  | some version => .ok version
  | none => .error ⟨text⟩

end Version

end StubSync
