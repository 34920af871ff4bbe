/-
Editing the metadata of a stub package to carry out an action.

Only lines before the first table header are touched.  A line that gives a key
its value keeps everything but the value; the edited text is read again
before it is handed out.
-/
import StubSync.Action
import StubSync.Metadata.Reader

namespace StubSync

namespace Metadata

def isLineBlank (c : Char) : Bool :=
  c == ' ' || c == '\t'

def isQuote (c : Char) : Bool :=
  c == '"' || c == '\''

/-- A line whose first character after blanks is an opening bracket. -/
def isTableHeader (line : List Char) : Bool :=
  (line.dropWhile isLineBlank).head? == some '['

/-- A line that gives a key a value in quotes.  The closing quote may differ
from the opening one. -/
structure Assignment where
  /-- The text up to the opening quote. -/
  lead : List Char
  quote : Char
  value : List Char
  /-- The text from the closing quote on, without it. -/
  trail : List Char
deriving Repr, DecidableEq

/-- The line, if it assigns a value in quotes to `key`. -/
def Assignment.ofLine? (key : List Char) (line : List Char) : Option Assignment := do
  let rest ← Text.after? key (line.dropWhile isLineBlank)
  let rest ← Text.after? ['='] (rest.dropWhile isLineBlank)
  let rest := rest.dropWhile isLineBlank
  let lead := line.take (line.length - rest.length)
  match rest with
  | [] => none
  | quote :: rest =>
      if !isQuote quote then none
      let plain := fun c => !isQuote c && c != '\n'
      let value := rest.takeWhile plain
      match rest.dropWhile plain with
      | [] => none
      | close :: trail => if isQuote close then some ⟨lead, quote, value, trail⟩ else none

/-- The line with a new value, both quotes being the opening one. -/
def Assignment.withValue (assignment : Assignment) (value : List Char) : List Char :=
  assignment.lead ++ assignment.quote :: value ++ assignment.quote :: assignment.trail

/-- The lines with a new value in the first one that assigns to `key`. -/
def replaceValue? (key value : List Char) : List (List Char) → Option (List (List Char))
  | [] => none
  | line :: others =>
      match Assignment.ofLine? key line with
      | some assignment => some (assignment.withValue value :: others)
      | none => (replaceValue? key value others).map (line :: ·)

/-- A line with a line feed at its end. -/
def ended (line : List Char) : List Char :=
  if line.getLast? = some '\n' then line else line ++ ['\n']

/-- The lines with a new one right after the first that assigns to `key`. -/
def insertAfter? (key added : List Char) : List (List Char) → Option (List (List Char))
  | [] => none
  | line :: others =>
      match Assignment.ofLine? key line with
      | some _ => some (ended line :: (added ++ ['\n']) :: others)
      | none => (insertAfter? key added others).map (line :: ·)

def versionKey : List Char := "version".toList

def obsoleteKey : List Char := "obsolete_since".toList

/-- The lines before the first table header, with the action carried out. -/
def editHead (package : Package) (action : Action) (head : List (List Char)) :
    Except String (List (List Char)) :=
  match action with
  | .update _ target =>
      match replaceValue? versionKey (package.minVersion.bumpedTo target).toList head with
      | some head => .ok head
      | none => .error "no top-level 'version' key to update"
  | .markObsolete since =>
      let since := (toString since).toList
      match replaceValue? obsoleteKey since head with
      | some head => .ok head
      | none =>
          let added := "obsolete_since = \"".toList ++ since ++ ['"']
          match insertAfter? versionKey added head with
          | some head => .ok head
          | none => .error "no top-level 'version' key"
  | .rest _ | .review _ => .error s!"'{action.kind}' does not change metadata"

/-- The edited metadata says what the action wants it to say. -/
def isCarriedOut (package : Package) (action : Action) (edited : Package) : Bool :=
  match action with
  | .update _ target => edited.minVersion.raw == package.minVersion.bumpedTo target
  | .markObsolete since => edited.obsoleteSince == some (toString since)
  | .rest _ | .review _ => false

/-- The text of the metadata with the action carried out. -/
def edit (package : Package) (action : Action) : Except MetadataError String := do
  let path := package.metadataPath
  let lines := Text.lines package.metadataSource.toList
  let inHead := fun line => !isTableHeader line
  let head ← (editHead package action (lines.takeWhile inHead)).mapError
    (.unchangeable path)
  let rendered := String.ofList (head.flatten ++ (lines.dropWhile inHead).flatten)
  let edited ← parse package.name path rendered
  if isCarriedOut package action edited then return rendered
  else throw (.unchangeable path "rewritten metadata does not round-trip")

end Metadata

end StubSync
