/-
Values of a TOML document, and tables as lists of entries.
-/

namespace StubSync

namespace Toml

/-- How a table came into its document: by a header of its own, on the way to
another header, by a dotted key, or in braces. -/
inductive Origin where
  | header
  | implied
  | dotted
  | inline
deriving Repr, DecidableEq

/-- A value.  Floats and moments keep their spelling; `tables` is an array
whose tables have headers in double brackets. -/
inductive Value where
  | text (content : String)
  | integer (number : Int)
  | float (spelling : String)
  | flag (truth : Bool)
  | moment (spelling : String)
  | array (items : List Value)
  | table (origin : Origin) (entries : List (String × Value))
  | tables (items : List (List (String × Value)))
deriving Repr

abbrev Entries := List (String × Value)

namespace Entries

def get? (entries : Entries) (key : String) : Option Value :=
  (entries.find? fun entry => entry.1 == key).map Prod.snd

/-- The entries with a new value for `key`; a key that is new comes last. -/
def put (key : String) (value : Value) : Entries → Entries
  | [] => [(key, value)]
  | entry :: others =>
      if entry.1 = key then (key, value) :: others else entry :: put key value others

/-- Change the table that `path` leads to.

A step goes through a table that is open, or through the last table of an
array of tables, and it opens the tables that are missing.  Tables in braces
are closed.  A dotted key goes through tables without a header only. -/
def change (byDottedKey : Bool) (edit : Origin → Entries → Option (Origin × Entries)) :
    List String → Origin → Entries → Option (Origin × Entries)
  | [], origin, entries => edit origin entries
  | key :: path, origin, entries =>
      match entries.get? key with
      | none => do
          let opened := if byDottedKey then Origin.dotted else Origin.implied
          let (opened, inner) ← change byDottedKey edit path opened []
          return (origin, entries.put key (.table opened inner))
      | some (.table inner nested) => do
          if inner = .inline then none
          if byDottedKey && inner = .header then none
          let (inner, nested) ← change byDottedKey edit path inner nested
          return (origin, entries.put key (.table inner nested))
      | some (.tables items) =>
          match items.reverse with
          | [] => none
          | last :: earlier => do
              let (_, last) ← change byDottedKey edit path .header last
              return (origin, entries.put key (.tables (last :: earlier).reverse))
      | some _ => none

/-- Give a value to a key that has none.  A key with dots ends in a table that
dotted keys have made, a key without dots in one that they have not. -/
def define (path : List String) (key : String) (value : Value) (origin : Origin)
    (entries : Entries) : Option (Origin × Entries) :=
  change (!path.isEmpty) (fun origin entries => do
    if (origin == .dotted) != !path.isEmpty then none
    if (entries.get? key).isSome then none
    return (origin, entries.put key value)) path origin entries

/-- Open the table of a header; only a table that was implied may be there. -/
def openTable (key : String) (origin : Origin) (entries : Entries) :
    Option (Origin × Entries) :=
  match entries.get? key with
  | none => some (origin, entries.put key (.table .header []))
  | some (.table .implied nested) => some (origin, entries.put key (.table .header nested))
  | some _ => none

/-- Open one more table of an array of tables. -/
def openElement (key : String) (origin : Origin) (entries : Entries) :
    Option (Origin × Entries) :=
  match entries.get? key with
  | none => some (origin, entries.put key (.tables [[]]))
  | some (.tables items) => some (origin, entries.put key (.tables (items ++ [[]])))
  | some _ => none

end Entries

end Toml

end StubSync
