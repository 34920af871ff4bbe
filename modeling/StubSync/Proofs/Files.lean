/-
What a path that is continued leads to.

Continuing paths is associative, and a continued path has the parts of both.  From
the node that a path leads to, a continuation without two dots goes down child by
child, whatever directories are above.
-/
import Mathlib.Data.List.Nodup
import StubSync.Files
import StubSync.Proofs.Text.Bytes
import StubSync.Proofs.Text.Pieces

namespace StubSync

namespace Path

/-- The path starts at the top of the tree. -/
def IsAbsolute (path : String) : Prop :=
  path.startsWith "/" = true

theorem isAbsolute_iff {path : String} :
    IsAbsolute path ↔ path.toList.head? = some '/' := by
  rw [IsAbsolute, String.startsWith_string_iff, List.head?_eq_some_iff]
  exact exists_congr fun rest => eq_comm

theorem endsWith_slash_iff {path : String} :
    path.endsWith "/" = true ↔ path.toList.getLast? = some '/' := by
  rw [String.endsWith, String.Slice.endsWith_string_iff, String.copy_toSlice,
    List.getLast?_eq_some_iff]
  exact exists_congr fun front => eq_comm

section Join

/-- The characters before a continuation: a slash is added, unless one is there. -/
def lead (path : List Char) : List Char :=
  if path = [] ∨ path.getLast? = some '/' then path else path ++ ['/']

theorem lead_lead (path : List Char) : lead (lead path) = lead path := by
  by_cases hpath : path = [] ∨ path.getLast? = some '/'
  · rw [lead, lead, if_pos hpath, if_pos hpath]
  · rw [lead, lead, if_neg hpath, if_pos (Or.inr List.getLast?_concat)]

theorem lead_append (path more : List Char) :
    lead (lead path ++ more) = lead path ++ lead more := by
  by_cases hmore : more = []
  · rw [hmore, List.append_nil, lead_lead]
    exact (List.append_nil _).symm
  · have hended : lead path ++ more = [] ∨ (lead path ++ more).getLast? = some '/' ↔
        more = [] ∨ more.getLast? = some '/' := by
      rw [List.getLast?_append_of_ne_nil _ hmore, List.append_eq_nil_iff]
      simp only [hmore, and_false]
    generalize lead path = front at hended ⊢
    simp only [lead, hended]
    split
    · rfl
    · rw [List.append_assoc]

variable {path more : String}

theorem join_toList (hmore : ¬IsAbsolute more) :
    (join path more).toList = lead path.toList ++ more.toList := by
  have hended : (path.isEmpty || path.endsWith "/") = true ↔
      path.toList = [] ∨ path.toList.getLast? = some '/' := by
    rw [Bool.or_eq_true, endsWith_slash_iff, String.isEmpty_iff, String.toList_eq_nil_iff]
  rw [IsAbsolute] at hmore
  rw [join, if_neg hmore, lead]
  simp only [hended]
  split
  · rw [String.toList_append]
  · rw [String.toList_append, String.toList_append]
    rfl

theorem join_not_isAbsolute (hpath : ¬IsAbsolute path) (hmore : ¬IsAbsolute more) :
    ¬IsAbsolute (join path more) := by
  rw [isAbsolute_iff] at hpath ⊢
  rw [join_toList hmore]
  rw [isAbsolute_iff] at hmore
  cases hchars : path.toList with
  | nil => exact hmore
  | cons c rest =>
      rw [hchars] at hpath
      rw [lead]
      split
      · exact hpath
      · exact hpath

theorem join_assoc {last : String} (hmore : ¬IsAbsolute more) (hlast : ¬IsAbsolute last) :
    join (join path more) last = join path (join more last) := by
  apply String.toList_injective
  rw [join_toList hlast, join_toList hmore, lead_append,
    join_toList (join_not_isAbsolute hmore hlast), join_toList hlast, List.append_assoc]

/-- A path starts where it started before it was continued. -/
theorem isAbsolute_join_iff (hmore : ¬IsAbsolute more) :
    IsAbsolute (join path more) ↔ IsAbsolute path := by
  constructor
  · intro hjoin
    exact Classical.not_not.1 fun hpath => join_not_isAbsolute hpath hmore hjoin
  · intro hpath
    rw [isAbsolute_iff] at hpath ⊢
    obtain ⟨rest, hrest⟩ := List.head?_eq_some_iff.1 hpath
    rw [join_toList hmore, hrest, lead]
    split
    · rfl
    · rfl

/-- The parts of a path of these characters. -/
def partsOf (path : List Char) : List String :=
  ((Text.split '/' path).map String.ofList).filter fun part => !part.isEmpty && part != "."

theorem partsOf_append (path more : List Char) :
    partsOf (path ++ '/' :: more) = partsOf path ++ partsOf more := by
  rw [partsOf, Text.split_append_mark, List.map_append, List.filter_append]
  rfl

theorem partsOf_lead_append (path more : List Char) :
    partsOf (lead path ++ more) = partsOf path ++ partsOf more := by
  rw [lead]
  split
  · rename_i hended
    rcases hended with rfl | hslash
    · rfl
    · obtain ⟨front, rfl⟩ := List.getLast?_eq_some_iff.1 hslash
      have hnone : partsOf [] = [] := rfl
      rw [List.append_assoc, List.singleton_append, partsOf_append, partsOf_append, hnone,
        List.append_nil]
  · rw [List.append_assoc, List.singleton_append, partsOf_append]

theorem parts_join (hmore : ¬IsAbsolute more) : parts (join path more) = parts path ++ parts more := by
  change partsOf (join path more).toList = partsOf path.toList ++ partsOf more.toList
  rw [join_toList hmore, partsOf_lead_append]

end Join

end Path

namespace FileName

theorem text?_eq_some_iff {name : FileName} {text : String} :
    name.text? = some text ↔ name = ofText text := by
  rw [text?, String.fromUTF8?]
  constructor
  · intro htext
    split at htext
    · cases htext
      rfl
    · cases htext
  · rintro rfl
    have hvalid : (ofText text).bytes.IsValidUTF8 := text.isValidUTF8
    exact dif_pos hvalid

/-- A name that an entry of a directory may have: one part of a path, which leads
neither to the directory itself nor to the one above it. -/
structure IsProper (name : FileName) : Prop where
  slashless : '/'.toUInt8 ∉ name.bytes.data.toList
  named : name ∉ [ofText "", ofText ".", ofText ".."]

variable {name : String}

theorem IsProper.not_mem (hproper : (ofText name).IsProper) : '/' ∉ name.toList := by
  intro hslash
  have hbyte : '/'.toUInt8 ∈ Text.bytes name := by
    rw [Text.bytes_eq_flatMap]
    exact List.mem_flatMap_of_mem hslash (by decide)
  exact hproper.slashless hbyte

theorem IsProper.ne (hproper : (ofText name).IsProper) : name ≠ "" ∧ name ≠ "." ∧ name ≠ ".." := by
  have hnamed := hproper.named
  simp only [List.mem_cons, List.not_mem_nil, or_false, not_or] at hnamed
  obtain ⟨hempty, hdot, hdots⟩ := hnamed
  exact ⟨fun heq => hempty (congrArg ofText heq), fun heq => hdot (congrArg ofText heq),
    fun heq => hdots (congrArg ofText heq)⟩

theorem IsProper.not_isAbsolute (hproper : (ofText name).IsProper) : ¬Path.IsAbsolute name := by
  rw [Path.isAbsolute_iff]
  exact fun hhead => hproper.not_mem (List.mem_of_head? hhead)

/-- A proper name is the one part of itself. -/
theorem IsProper.parts (hproper : (ofText name).IsProper) : Path.parts name = [name] := by
  obtain ⟨hempty, hdot, _⟩ := hproper.ne
  rw [Path.parts, Text.split_of_not_mem hproper.not_mem, List.map_singleton, String.ofList_toList]
  simp [hempty, hdot]

end FileName

namespace FileNode

variable {node reached : FileNode} {above : List FileNode} {path : List String}

/-- What a path leads to is where its continuation starts. -/
theorem walk_append (hwalk : walk above node path = some reached) :
    ∃ higher, ∀ more, walk above node (path ++ more) = walk higher reached more := by
  induction path generalizing above node with
  | nil =>
      cases hwalk
      exact ⟨above, fun more => rfl⟩
  | cons name path ih =>
      by_cases hdots : name = ".."
      · cases hfile : node.isFile with
        | true =>
            simp only [walk, hdots, hfile, ↓reduceIte] at hwalk
            cases hwalk
        | false =>
            simp only [List.cons_append, walk, hdots, hfile, Bool.false_eq_true, ↓reduceIte]
              at hwalk ⊢
            cases above with
            | nil => exact ih hwalk
            | cons parent others => exact ih hwalk
      · simp only [List.cons_append, walk, hdots, ↓reduceIte] at hwalk ⊢
        cases hchild : node.child? name with
        | none =>
            rw [hchild] at hwalk
            cases hwalk
        | some child =>
            rw [hchild] at hwalk
            exact ih hwalk

/-- A path without two dots leads down from child to child. -/
theorem walk_eq_foldlM (hpath : ".." ∉ path) :
    walk above node path = path.foldlM child? node := by
  induction path generalizing above node with
  | nil => rfl
  | cons name path ih =>
      rw [List.mem_cons, not_or] at hpath
      simp only [walk, if_neg (Ne.symm hpath.1), List.foldlM_cons]
      cases node.child? name with
      | none => rfl
      | some child => exact ih hpath.2

/-- Where no name is given twice, the child of a name is the node that has it. -/
theorem child?_eq_some_iff {entries : List (FileName × FileNode)} {name : String}
    (hdistinct : (entries.map Prod.fst).Nodup) :
    (directory entries).child? name = some node ↔ (FileName.ofText name, node) ∈ entries := by
  have hfind (found : FileName × FileNode)
      (hfound : entries.find? (fun entry => entry.1 == FileName.ofText name) = some found) :
      found ∈ entries ∧ found.1 = FileName.ofText name := by
    have hname := List.find?_some hfound
    exact ⟨List.mem_of_find?_eq_some hfound, beq_iff_eq.1 hname⟩
  rw [child?, FileNode.entries, Option.map_eq_some_iff]
  constructor
  · rintro ⟨found, hfound, rfl⟩
    obtain ⟨hmem, hname⟩ := hfind found hfound
    rw [← hname]
    exact hmem
  · intro hmem
    have hsome : (entries.find? fun entry => entry.1 == FileName.ofText name).isSome = true :=
      List.find?_isSome.2 ⟨_, hmem, beq_self_eq_true _⟩
    obtain ⟨found, hfound⟩ := Option.isSome_iff_exists.1 hsome
    obtain ⟨hfoundMem, hname⟩ := hfind found hfound
    have hsame : found = (FileName.ofText name, node) :=
      List.inj_on_of_nodup_map hdistinct hfoundMem hmem hname
    exact ⟨found, hfound, congrArg Prod.snd hsame⟩

end FileNode

namespace Files

variable {files : Files} {path more : String}

/-- A continued path goes down from where the path led, unless it is too long. -/
theorem node?_join {node : FileNode} (hnode : files.node? path = some node)
    (hmore : ¬Path.IsAbsolute more) (hdown : ".." ∉ Path.parts more) :
    files.node? (Path.join path more) =
      if files.isTooLong (Path.join path more) then none
      else (Path.parts more).foldlM FileNode.child? node := by
  have hstart : (Path.join path more).startsWith "/" = path.startsWith "/" :=
    Bool.eq_iff_iff.2 (Path.isAbsolute_join_iff hmore)
  unfold node? at hnode ⊢
  dsimp only at hnode ⊢
  rw [hstart]
  split at hnode
  · cases hnode
  · split
    · rfl
    · obtain ⟨higher, hwalk⟩ := FileNode.walk_append hnode
      rw [Path.parts_join hmore, ← List.append_assoc, hwalk, FileNode.walk_eq_foldlM hdown]

end Files

end StubSync
