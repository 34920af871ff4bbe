/-
Reading records from JSON values.

A record is an object of its fields, in which unknown fields are passed over
and a known field is given once, or a list of its fields in order.
-/
import StubSync.Json.Value

namespace StubSync

namespace Json

/-- The fields of a record that have a value.  In a positional record a field
without a value is left out at the end. -/
structure Record where
  fields : List (String × Json)
  isPositional : Bool
deriving Repr

namespace Record

/-- A record with the given field names. -/
def ofJson? (names : List String) : Json → Option Record
  | .object entries =>
      if names.all fun name => (entries.filter (·.1 == name)).length ≤ 1 then
        some ⟨entries, false⟩
      else none
  | .list items =>
      if items.length ≤ names.length then some ⟨names.zip items, true⟩ else none
  | _ => none

def find? (record : Record) (name : String) : Option Json :=
  (record.fields.find? fun field => field.1 == name).map Prod.snd

variable {α : Type}

/-- A field that has to be there. -/
def required (record : Record) (name : String) (read : Json → Option α) : Option α :=
  (record.find? name).bind read

/-- A field that may be left out. -/
def defaulted (record : Record) (name : String) (default : α) (read : Json → Option α) :
    Option α :=
  match record.find? name with
  | none => some default
  | some value => read value

/-- A field that may be null, and may be left out of an object. -/
def optional (record : Record) (name : String) (read : Json → Option α) :
    Option (Option α) :=
  match record.find? name with
  | none => if record.isPositional then none else some none
  | some .null => some none
  | some value => (read value).map some

end Record

/-- A list, each item read alike. -/
def listOf? {α : Type} (read : Json → Option α) (value : Json) : Option (List α) :=
  value.items?.bind fun items => items.mapM read

/-- The name of a case: as it is, or by its place among the cases. -/
def caseName? (names : List String) : Json → Option String
  | .text name => some name
  | value => value.natural?.bind fun place => names[place]?

/-- A choice among cases of which each has fields of its own: the name of the
case stands in the field `tag` of an object or first in a list. -/
def tagged? (tag : String) (name? : Json → Option String) : Json → Option (String × Json)
  | .object entries =>
      match entries.filter (·.1 == tag) with
      | [(_, value)] =>
          (name? value).map fun name => (name, .object (entries.filter (·.1 != tag)))
      | _ => none
  | .list (value :: items) => (name? value).map fun name => (name, .list items)
  | _ => none

/-- A choice among cases of which some have a value: a name, or an object
with the name as its only key. -/
def variant? : Json → Option (String × Option Json)
  | .text name => some (name, none)
  | .object [(name, value)] => some (name, some value)
  | _ => none

/-- The name of a case that has no value, where `isNothing` tells which values
may stand for none. -/
def bareName? (isNothing : Json → Bool) (value : Json) : Option String := do
  let (name, given) ← variant? value
  if given.all isNothing then some name else none

def isNull : Json → Bool
  | .null => true
  | _ => false

/-- Within a record that is a choice itself, an empty object stands for no
value too. -/
def isEmpty : Json → Bool
  | .null | .object [] => true
  | _ => false

end Json

end StubSync
