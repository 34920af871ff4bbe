/-
What can be wrong with the metadata of a stub package.
-/

namespace StubSync

/-- The system's reason for refusing to read a file or a directory. -/
inductive ReadFault where
  | missing
  | notDirectory
  | isDirectory
  | tooLong
  | notText
  | refused (reason : String)
deriving Repr, DecidableEq

def ReadFault.message : ReadFault → String
  | .missing => "No such file or directory (os error 2)"
  | .notDirectory => "Not a directory (os error 20)"
  | .isDirectory => "Is a directory (os error 21)"
  | .tooLong => "File name too long (os error 36)"
  | .notText => "stream did not contain valid UTF-8"
  | .refused reason => reason

inductive MetadataError where
  | notFound (name root : String)
  | unreadable (path : String) (fault : ReadFault)
  | malformed (path reason : String)
  | invalidVersion (path field value reason : String)
  | unchangeable (path reason : String)
deriving Repr, DecidableEq

def MetadataError.message : MetadataError → String
  | .notFound name root => s!"stub package '{name}' not found in {root}"
  | .unreadable path fault => s!"failed to read metadata file {path}: " ++ fault.message
  | .malformed path reason => s!"failed to parse TOML in {path}: {reason}"
  | .invalidVersion path field value reason =>
      s!"invalid version '{value}' for '{field}' in {path}: {reason}"
  | .unchangeable path reason => s!"cannot update {path}: {reason}"

end StubSync
