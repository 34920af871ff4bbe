/-
The checkout of a repository, and the stub packages in it.
-/
import StubSync.Files
import StubSync.Metadata.Reader

namespace StubSync

structure Checkout where
  files : Files
  /-- The path of the checkout. -/
  root : String
  /-- The commit that the checkout is at, if that is known. -/
  commit : Option String := none

namespace Checkout

/-- The path of the directory of all stub packages. -/
def stubsPath (checkout : Checkout) : String :=
  Path.join checkout.root Path.stubsDirectory

/-- The path of the metadata file of a stub package. -/
def metadataPath (checkout : Checkout) (name : String) : String :=
  Path.join checkout.root (Path.metadata name)

/-- A name in the directory of stub packages under which there is a metadata
file. -/
def isStub (checkout : Checkout) (name : String) : Bool :=
  checkout.files.isFile (Path.join (Path.join checkout.stubsPath name) Path.metadataFile)

/-- Names in the order of their bytes. -/
def sortNames (names : List String) : List String :=
  names.mergeSort fun left right => (compare left right).isLE

/-- The names of all stub packages, in order.  Names that are no texts are passed
over. -/
def names (checkout : Checkout) : Except MetadataError (List String) :=
  match checkout.files.node? checkout.stubsPath with
  | none =>
      let tooLong := checkout.files.isTooLong checkout.stubsPath
      .error (.unreadable checkout.stubsPath (if tooLong then .tooLong else .missing))
  | some (.file _) | some (.locked _) => .error (.unreadable checkout.stubsPath .notDirectory)
  | some (.directory entries) =>
      .ok (sortNames ((entries.filterMap fun entry => entry.1.text?).filter checkout.isStub))

/-- The stub package of a name. -/
def load (checkout : Checkout) (name : String) : Except MetadataError Package := do
  let path := checkout.metadataPath name
  match checkout.files.node? path with
  | some (.file contents) =>
      match String.fromUTF8? contents with
      | none => throw (.unreadable path .notText)
      | some source =>
          let package ← Metadata.parse name (Path.metadata name) source
          return { package with lastKnownGood := checkout.commit }
  | some (.locked reason) => throw (.unreadable path (.refused reason))
  | _ => throw (.notFound name checkout.root)

/-- All stub packages in the order of their names, or the error of the first
one that cannot be loaded. -/
def packages (checkout : Checkout) : Except MetadataError (List Package) := do
  (← checkout.names).mapM checkout.load

end Checkout

end StubSync
