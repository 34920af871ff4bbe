/-
Values of a JSON document.
-/
import StubSync.Text.Decimal

namespace StubSync

/-- A value.  Numbers keep their spelling, and objects keep the order of their
entries and every entry of a repeated key.

A text may have escapes that denote no character.  Such a text is `damaged`,
and so is an object with such a key: a reader may pass over it, but it cannot
be read. -/
inductive Json where
  | null
  | flag (truth : Bool)
  | number (spelling : String)
  | text (content : String)
  | list (items : List Json)
  | object (entries : List (String × Json))
  | damaged
deriving Repr, Inhabited

namespace Json

def natural (n : Nat) : Json :=
  .number (String.ofList (Decimal.digits n))

def natural? : Json → Option Nat
  | .number spelling => Decimal.whole? spelling.toList
  | _ => none

def text? : Json → Option String
  | .text content => some content
  | _ => none

def flag? : Json → Option Bool
  | .flag truth => some truth
  | _ => none

def items? : Json → Option (List Json)
  | .list items => some items
  | _ => none

/-- The value of a key of an object. -/
def get? (key : String) : Json → Option Json
  | .object entries => (entries.find? fun entry => entry.1 == key).map Prod.snd
  | _ => none

/-- The value that a path of keys leads to. -/
def at? : List String → Json → Option Json
  | [], value => some value
  | key :: path, value => (value.get? key).bind (at? path)

/-- An object of the entries that have a value. -/
def ofFields (entries : List (String × Option Json)) : Json :=
  .object <| entries.filterMap fun entry => entry.2.map fun value => (entry.1, value)

/-- The entries without those whose key comes again later; a later value
stands at the first place of its key. -/
def lastOfEach {α : Type} (entries : List (String × α)) : List (String × α) :=
  entries.foldl put []
where
  put : List (String × α) → String × α → List (String × α)
    | [], entry => [entry]
    | earlier :: others, entry =>
        if earlier.1 = entry.1 then entry :: others else earlier :: put others entry

end Json

end StubSync
