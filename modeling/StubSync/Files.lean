/-
Trees of files and directories, and what a path in them leads to.
-/
import StubSync.Path

namespace StubSync

/-- The name of an entry in a directory.  Its bytes need not be a text. -/
structure FileName where
  bytes : ByteArray

namespace FileName

instance : DecidableEq FileName
  | ⟨left⟩, ⟨right⟩ =>
      match ByteArray.decEq left right with
      | isTrue heq => isTrue (congrArg mk heq)
      | isFalse hne => isFalse fun heq => hne (mk.inj heq)

def ofText (text : String) : FileName :=
  ⟨text.toUTF8⟩

/-- The name as a text, if it is one. -/
def text? (name : FileName) : Option String :=
  String.fromUTF8? name.bytes

instance : Coe String FileName := ⟨ofText⟩

end FileName

inductive FileNode where
  | file (contents : ByteArray)
  /-- A file that the system refuses to read, with its reason. -/
  | locked (reason : String)
  | directory (entries : List (FileName × FileNode))

namespace FileNode

instance : Inhabited FileNode := ⟨directory []⟩

def isFile : FileNode → Bool
  | .file _ | .locked _ => true
  | .directory _ => false

def isDirectory (node : FileNode) : Bool :=
  !node.isFile

def entries : FileNode → List (FileName × FileNode)
  | .file _ | .locked _ => []
  | .directory entries => entries

/-- The node of a name in a directory. -/
def child? (node : FileNode) (name : String) : Option FileNode :=
  (node.entries.find? fun entry => entry.1 == FileName.ofText name).map Prod.snd

/-- The directory with a node of a name put in. -/
def withChild (node : FileNode) (name : String) (child : FileNode) : FileNode :=
  .directory (node.entries.filter (·.1 != FileName.ofText name) ++ [(FileName.ofText name, child)])

/-- The tree with a node put at the end of a path; directories that are
missing on the way are made. -/
def insert (added : FileNode) : List String → FileNode → FileNode
  | [], _ => added
  | name :: path, node =>
      node.withChild name (insert added path ((node.child? name).getD (.directory [])))

/-- The tree with the directories of a path; those that are there stay as they
are. -/
def withDirectories : List String → FileNode → FileNode
  | [], node => node
  | name :: path, node =>
      node.withChild name (withDirectories path ((node.child? name).getD (.directory [])))

/-- The node that a path leads to from `node`, which has the directories
`above` it, the nearest first.  Two dots lead one directory up. -/
def walk (above : List FileNode) (node : FileNode) : List String → Option FileNode
  | [] => some node
  | name :: path =>
      if name = ".." then
        if node.isFile then none
        else
          match above with
          | [] => walk [] node path
          | parent :: others => walk others parent path
      else
        match node.child? name with
        | none => none
        | some child => walk (node :: above) child path

end FileNode

/-- A tree of files, and the directory that relative paths start from. -/
structure Files where
  top : FileNode := .directory []
  here : List String := []
  /-- The number of bytes that a path may have to be followed at all. -/
  longest : Nat := 4095

namespace Files

def isTooLong (files : Files) (path : String) : Bool :=
  files.longest < path.utf8ByteSize

/-- The node that a path leads to; a path that is too long leads nowhere. -/
def node? (files : Files) (path : String) : Option FileNode :=
  let start := if path.startsWith "/" then [] else files.here
  if files.isTooLong path then none
  else FileNode.walk [] files.top (start ++ Path.parts path)

def isFile (files : Files) (path : String) : Bool :=
  (files.node? path).any FileNode.isFile

def isDirectory (files : Files) (path : String) : Bool :=
  (files.node? path).any FileNode.isDirectory

end Files

end StubSync
