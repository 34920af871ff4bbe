/-
Reading the metadata of a stub package.
-/
import StubSync.Metadata.Error
import StubSync.Package
import StubSync.Toml.Document

namespace StubSync

namespace Metadata

/-- The keys that are looked at; all others are passed over. -/
structure Fields where
  version : Option String := none
  distribution : Option String := none
  maxVersion : Option String := none
  obsoleteSince : Option String := none
  noLongerUpdated : Bool := false
  prerelease : Bool := false
deriving Repr, DecidableEq

/-- The text of a key that may be missing. -/
def textField? (entries : Toml.Entries) (key : String) :
    Except String (Option String) :=
  match entries.get? key with
  | none => .ok none
  | some (.text content) => .ok (some content)
  | some _ => .error s!"the value of {key} is no text"

/-- The truth value of a key, which is false if the key is missing. -/
def flagField? (entries : Toml.Entries) (key : String) : Except String Bool :=
  match entries.get? key with
  | none => .ok false
  | some (.flag truth) => .ok truth
  | some _ => .error s!"the value of {key} is no truth value"

def Fields.ofEntries (entries : Toml.Entries) : Except String Fields := do
  return {
    version := ← textField? entries "version"
    distribution := ← textField? entries "upstream"
    maxVersion := ← textField? entries "max_version"
    obsoleteSince := ← textField? entries "obsolete_since"
    noLongerUpdated := ← flagField? entries "no_longer_updated"
    prerelease := ← flagField? entries "prerelease" }

def Fields.parse (source : String) : Except String Fields :=
  match Toml.read source with
  | .error problem => .error (problem.describe source)
  | .ok entries => Fields.ofEntries entries

/-- The stub package `name` whose metadata file at `path` holds `source`. -/
def parse (name path source : String) : Except MetadataError Package := do
  let fields ← (Fields.parse source).mapError (.malformed path)
  let version ←
    match fields.version with
    | some version => pure version
    | none => throw (.invalidVersion path "version" "" "missing required key")
  let minVersion ← (Constraint.parse version).mapError fun error =>
    .invalidVersion path "version" version error.message
  let maxVersion ←
    match fields.maxVersion with
    | none => pure none
    | some bound => do
        let version ← (Version.parse bound).mapError fun error =>
          .invalidVersion path "max_version" bound error.message
        pure (some version)
  return {
    name
    distribution := fields.distribution.getD (Package.defaultDistribution name)
    minVersion
    maxVersion
    obsoleteSince := fields.obsoleteSince.map Text.trimmed
    noLongerUpdated := fields.noLongerUpdated
    prerelease := fields.prerelease
    metadataPath := path
    metadataSource := source }

end Metadata

end StubSync
