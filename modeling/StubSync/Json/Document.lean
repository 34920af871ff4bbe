/-
Reading a JSON document.

The tokens of a document are put together on a stack of lists and objects that
are still open, so no nesting is too deep.
-/
import StubSync.Json.Magnitude
import StubSync.Json.Token

namespace StubSync

namespace Json

/-- A number taken apart.  It may start with a minus, and its whole part has
no zero in front. -/
def scientific? (spelling : List Char) : Option Decimal.Scientific := do
  let spelling :=
    match spelling with
    | '-' :: rest => rest
    | _ => spelling
  let whole := spelling.takeWhile Char.isDigit
  if whole.isEmpty || whole.length != 1 && whole.head? == some '0' then none
  let (fraction, rest) ←
    match spelling.dropWhile Char.isDigit with
    | '.' :: rest => digits? rest
    | rest => some ([], rest)
  match rest with
  | [] => some { whole, fraction }
  | e :: rest => do
      if e ≠ 'e' ∧ e ≠ 'E' then none
      return { whole, fraction, exponent := ← exponent? rest }
where
  digits? (text : List Char) : Option (List Char × List Char) :=
    match text.takeWhile Char.isDigit with
    | [] => none
    | run => some (run, text.dropWhile Char.isDigit)
  exponent? : List Char → Option Int
    | '+' :: run => (Decimal.whole? run).map fun n => (n : Int)
    | '-' :: run => (Decimal.whole? run).map fun n => -(n : Int)
    | run => (Decimal.whole? run).map fun n => (n : Int)

/-- The value of a word. -/
def ofWord? (spelling : String) : Option Json :=
  if spelling = "null" then some .null
  else if spelling = "true" then some (.flag true)
  else if spelling = "false" then some (.flag false)
  else (scientific? spelling.toList).map fun _ => .number spelling

/-- A list or an object that is open, with what it holds in reverse; an
object also has the key of the next value. -/
inductive Frame where
  | list (earlier : List Json)
  | object (earlier : List (Option String × Json)) (key : Option String)
deriving Repr

/-- What may come next; after `item` or `key` the frame may also be closed if
it is still empty. -/
inductive Expected where
  | value
  | item
  | key
  | otherKey
  | colon
  | comma
  | nothing (document : Json)
deriving Repr

/-- A document on its way, the innermost open frame first. -/
structure Assembly where
  frames : List Frame := []
  expected : Expected := .value
deriving Repr

namespace Assembly

/-- The object of entries in reverse. -/
def closedObject (earlier : List (Option String × Json)) : Json :=
  let entries := earlier.reverse
  if entries.all (·.1.isSome) then
    .object (entries.map fun entry => (entry.1.getD "", entry.2))
  else .damaged

/-- A complete value at the place where one may stand. -/
def place (frames : List Frame) (value : Json) : Assembly :=
  match frames with
  | [] => ⟨[], .nothing value⟩
  | .list earlier :: outer => ⟨.list (value :: earlier) :: outer, .comma⟩
  | .object earlier key :: outer => ⟨.object ((key, value) :: earlier) none :: outer, .comma⟩

def close? (token : Token) (frames : List Frame) : Option Assembly :=
  match token, frames with
  | .closeList, .list earlier :: outer => some (place outer (.list earlier.reverse))
  | .closeObject, .object earlier _ :: outer => some (place outer (closedObject earlier))
  | _, _ => none

/-- A token that starts a value. -/
def start? (token : Token) (frames : List Frame) : Option Assembly :=
  match token with
  | .openList => some ⟨.list [] :: frames, .item⟩
  | .openObject => some ⟨.object [] none :: frames, .key⟩
  | .text none => some (place frames .damaged)
  | .text (some content) => some (place frames (.text content))
  | .word spelling => (ofWord? spelling).map (place frames)
  | _ => none

def key? (token : Token) (frames : List Frame) : Option Assembly :=
  match token, frames with
  | .text key, .object earlier _ :: outer => some ⟨.object earlier key :: outer, .colon⟩
  | _, _ => none

def step? (assembly : Assembly) (token : Token) : Option Assembly :=
  let frames := assembly.frames
  match assembly.expected with
  | .value => start? token frames
  | .item => if token = .closeList then close? token frames else start? token frames
  | .key => if token = .closeObject then close? token frames else key? token frames
  | .otherKey => key? token frames
  | .colon => if token = .colon then some ⟨frames, .value⟩ else none
  | .comma =>
      match token, frames with
      | .comma, .list _ :: _ => some ⟨frames, .value⟩
      | .comma, .object .. :: _ => some ⟨frames, .otherKey⟩
      | _, _ => close? token frames
  | .nothing _ => none

end Assembly

/-- The value that a whole text spells. -/
def read? (text : String) : Option Json := do
  let assembly ← (← tokens? text.toList).foldlM Assembly.step? {}
  match assembly.expected with
  | .nothing document => some document
  | _ => none

/-- The greatest depth of lists and objects that a value may have to be
kept. -/
def depthLimit : Nat := 127

mutual

/-- The value if all of it can be kept: it has no damaged parts, its numbers
are in the range of doubles, and at most `depth` lists and objects are within each
other.  The last value of a repeated key is kept. -/
def kept? (depth : Nat) : Json → Option Json
  | .null => some .null
  | .flag truth => some (.flag truth)
  | .text content => some (.text content)
  | .number spelling =>
      match scientific? spelling.toList with
      | some parts => if isOutOfRange parts then none else some (.number spelling)
      | none => none
  | .list items =>
      if depth = 0 then none else (keptItems? (depth - 1) items).map .list
  | .object entries =>
      if depth = 0 then none
      else (keptEntries? (depth - 1) entries).map fun entries => .object (lastOfEach entries)
  | .damaged => none

def keptItems? (depth : Nat) : List Json → Option (List Json)
  | [] => some []
  | item :: others => do
      let item ← kept? depth item
      return item :: (← keptItems? depth others)

def keptEntries? (depth : Nat) : List (String × Json) → Option (List (String × Json))
  | [] => some []
  | (key, value) :: others => do
      let value ← kept? depth value
      return (key, value) :: (← keptEntries? depth others)

end

/-- The value that a text spells, if all of it can be kept. -/
def readKept? (text : String) : Option Json :=
  (read? text).bind (kept? depthLimit)

end Json

end StubSync
