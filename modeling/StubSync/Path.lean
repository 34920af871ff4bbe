/-
Paths as texts with slashes between their parts.
-/
import StubSync.Text.Pieces

namespace StubSync

namespace Path

/-- One path continued by another.  An absolute continuation replaces the
path, and no slash is written twice. -/
def join (path more : String) : String :=
  if more.startsWith "/" then more
  else if path.isEmpty || path.endsWith "/" then path ++ more
  else path ++ "/" ++ more

/-- The parts of a path between its slashes, without empty parts and `.`. -/
def parts (path : String) : List String :=
  (Text.split '/' path.toList).map String.ofList |>.filter fun part =>
    !part.isEmpty && part != "."

/-- The parts of a path after every pair of dots has taken away the part
before it. -/
def resolved (parts : List String) : List String :=
  (parts.foldl step []).reverse
where
  step (earlier : List String) (part : String) : List String :=
    if part = ".." then earlier.drop 1 else part :: earlier

/-- The path with slashes in place of backslashes. -/
def withSlashes (path : String) : String :=
  path.map fun c => if c = '\\' then '/' else c

/-- The name of the metadata file in the directory of each stub package. -/
def metadataFile : String := "METADATA.toml"

/-- The directory that holds one directory for each stub package. -/
def stubsDirectory : String := "stubs"

/-- The metadata file of a stub package, from the root of the checkout. -/
def metadata (name : String) : String :=
  join (join stubsDirectory name) metadataFile

end Path

end StubSync
