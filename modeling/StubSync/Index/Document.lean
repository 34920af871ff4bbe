/-
The document in which a package index describes a distribution.
-/
import StubSync.Json.Document
import StubSync.Json.Record
import StubSync.Release
import StubSync.Time.Reader

namespace StubSync

/-- A file of a release. -/
structure ReleaseFile where
  uploadTime : Option String
  yanked : Bool
deriving Repr, DecidableEq

/-- A distribution: its newest version with the classifiers of that version,
and the files of each release. -/
structure IndexDocument where
  version : String
  classifiers : List String
  releases : List (String × List ReleaseFile)
deriving Repr, DecidableEq

namespace ReleaseFile

def ofJson? (value : Json) : Option ReleaseFile := do
  let record ← Json.Record.ofJson? ["upload_time_iso_8601", "yanked"] value
  return {
    uploadTime := ← record.optional "upload_time_iso_8601" Json.text?
    yanked := ← record.defaulted "yanked" false Json.flag? }

/-- The earliest of the times that can be read. -/
def earliest? (files : List ReleaseFile) : Option Instant :=
  (files.filterMap fun file => file.uploadTime.bind Instant.read?).foldl sooner none
where
  sooner : Option Instant → Instant → Option Instant
    | none, later => some later
    | some first, later => if (Instant.cmp later first).isLT then some later else some first

end ReleaseFile

namespace IndexDocument

/-- The classifier of distributions that ship their own types. -/
def typedClassifier : String := "Typing :: Typed"

/-- Releases by their keys; of a repeated key the last value counts. -/
def releases? : Json → Option (List (String × List ReleaseFile))
  | .object entries => do
      let releases ← entries.mapM fun (key, value) => do
        return (key, ← Json.listOf? ReleaseFile.ofJson? value)
      return Json.lastOfEach releases
  | _ => none

def info? (value : Json) : Option (String × List String) := do
  let record ← Json.Record.ofJson? ["version", "classifiers"] value
  let version ← record.required "version" Json.text?
  let classifiers ← record.defaulted "classifiers" [] (Json.listOf? Json.text?)
  return (version, classifiers)

def ofJson? (value : Json) : Option IndexDocument := do
  let record ← Json.Record.ofJson? ["info", "releases"] value
  let (version, classifiers) ← record.required "info" info?
  let releases ← record.defaulted "releases" [] releases?
  return { version, classifiers, releases }

def read? (body : String) : Option IndexDocument :=
  (Json.read? body).bind ofJson?

/-- The newest version of the distribution ships types. -/
def isTyped (document : IndexDocument) : Bool :=
  document.classifiers.contains typedClassifier

/-- The release of a key, if it has files and its key is a version. -/
def release? (document : IndexDocument) (key : String) (files : List ReleaseFile) :
    Option Release := do
  if files.isEmpty then none
  let version ← Version.read? key
  return {
    version
    raw := key
    releasedAt := ReleaseFile.earliest? files
    prerelease := version.isPrerelease
    yanked := files.all (·.yanked)
    typed := document.isTyped && key == document.version }

/-- The releases of the distribution, newest first. -/
def collect (document : IndexDocument) : List Release :=
  Release.newestFirst <| document.releases.filterMap fun (key, files) =>
    document.release? key files

end IndexDocument

end StubSync
