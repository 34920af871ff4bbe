/-
Loading the stub packages of a checkout.

The names are put in the order of their bytes before any package is loaded, and the
first package that cannot be loaded ends it.  So neither the names nor the packages
nor the error depend on the order in which the system lists a directory.
-/
import Mathlib.Data.List.Forall2
import StubSync.Checkout
import StubSync.Proofs.Files

namespace StubSync

namespace Checkout

section Traversal

variable {α β ε : Type} {read : α → Except ε β} {items : List α}

/-- Reading ends well if every item is read, and gives what is read, in order. -/
theorem mapM_eq_ok_iff {results : List β} :
    items.mapM read = .ok results ↔
      List.Forall₂ (fun item result => read item = .ok result) items results := by
  induction items generalizing results with
  | nil =>
      rw [List.mapM_nil, List.forall₂_nil_left_iff]
      exact ⟨fun hread => (Except.ok.inj hread).symm, fun hnil => hnil ▸ rfl⟩
  | cons item items ih =>
      rw [List.mapM_cons, List.forall₂_cons_left_iff]
      simp only [← ih]
      cases read item with
      | error error => exact ⟨nofun, nofun⟩
      | ok first =>
          cases items.mapM read with
          | error error => exact ⟨nofun, nofun⟩
          | ok others =>
              constructor
              · intro hread
                cases hread
                exact ⟨first, others, rfl, rfl, rfl⟩
              · rintro ⟨_, _, hfirst, hothers, rfl⟩
                cases hfirst
                cases hothers
                rfl

theorem mapM_cons_of_error {item : α} {error : ε} (hitem : read item = .error error) :
    (item :: items).mapM read = .error error := by
  rw [List.mapM_cons, hitem]
  rfl

theorem mapM_cons_eq_error_iff {item : α} {result : β} {error : ε}
    (hitem : read item = .ok result) :
    (item :: items).mapM read = .error error ↔ items.mapM read = .error error := by
  rw [List.mapM_cons, hitem]
  cases items.mapM read with
  | error last => exact ⟨fun hread => hread, fun hread => hread⟩
  | ok others => exact ⟨nofun, nofun⟩

/-- Reading ends with the error of the first item that is not read. -/
theorem mapM_eq_error_iff {error : ε} :
    items.mapM read = .error error ↔ ∃ before item after, items = before ++ item :: after ∧
      (∀ other ∈ before, ∃ result, read other = .ok result) ∧ read item = .error error := by
  constructor
  · intro hread
    induction items with
    | nil => cases hread
    | cons head items ih =>
        cases hhead : read head with
        | error first =>
            obtain rfl := Except.error.inj ((mapM_cons_of_error hhead).symm.trans hread)
            exact ⟨[], head, items, rfl, List.forall_mem_nil _, hhead⟩
        | ok first =>
            obtain ⟨before, item, after, rfl, hbefore, hitem⟩ :=
              ih ((mapM_cons_eq_error_iff hhead).1 hread)
            exact ⟨head :: before, item, after, rfl,
              List.forall_mem_cons.2 ⟨⟨first, hhead⟩, hbefore⟩, hitem⟩
  · rintro ⟨before, item, after, rfl, hbefore, hitem⟩
    induction before with
    | nil => exact mapM_cons_of_error hitem
    | cons head before ih =>
        obtain ⟨⟨first, hhead⟩, hothers⟩ := List.forall_mem_cons.1 hbefore
        exact (mapM_cons_eq_error_iff hhead).2 (ih hothers)

theorem mapM_congr {read' : α → Except ε β} (hread : ∀ item ∈ items, read item = read' item) :
    items.mapM read = items.mapM read' := by
  induction items with
  | nil => rfl
  | cons item items ih =>
      obtain ⟨hitem, hitems⟩ := List.forall_mem_cons.1 hread
      rw [List.mapM_cons, List.mapM_cons, hitem, ih hitems]

theorem exists_mapM_eq_ok_iff :
    (∃ results, items.mapM read = .ok results) ↔
      ∀ item ∈ items, ∃ result, read item = .ok result := by
  constructor
  · rintro ⟨results, hread⟩
    have hitems : List.Forall₂ (fun item result => (∃ result, read item = .ok result) ∧
        read item = .ok result) items results :=
      (mapM_eq_ok_iff.1 hread).imp fun item result hitem => ⟨⟨result, hitem⟩, hitem⟩
    exact ((List.forall₂_and_left _ _).1 hitems).1
  · intro hitems
    cases hread : items.mapM read with
    | ok results => exact ⟨results, rfl⟩
    | error error =>
        obtain ⟨before, item, after, rfl, _, hitem⟩ := mapM_eq_error_iff.1 hread
        obtain ⟨result, hresult⟩ := hitems item (List.mem_append_right _ List.mem_cons_self)
        rw [hitem] at hresult
        cases hresult

theorem exists_mapM_eq_error_iff :
    (∃ error, items.mapM read = .error error) ↔
      ∃ item ∈ items, ∃ error, read item = .error error := by
  constructor
  · rintro ⟨error, hread⟩
    obtain ⟨before, item, after, rfl, _, hitem⟩ := mapM_eq_error_iff.1 hread
    exact ⟨item, List.mem_append_right _ List.mem_cons_self, error, hitem⟩
  · rintro ⟨item, hmem, error, hitem⟩
    cases hread : items.mapM read with
    | error first => exact ⟨first, rfl⟩
    | ok results =>
        obtain ⟨result, hresult⟩ := exists_mapM_eq_ok_iff.1 ⟨results, hread⟩ item hmem
        rw [hitem] at hresult
        cases hresult

end Traversal

section Order

variable {left right : String} {names others : List String}

/-- The bytes of the one name come before those of the other. -/
def Precedes (left right : String) : Prop :=
  Text.bytes left < Text.bytes right

instance : DecidableRel Precedes :=
  fun left right => inferInstanceAs (Decidable (Text.bytes left < Text.bytes right))

theorem precedes_of_isLE (hle : (compare left right).isLE = true) (hne : left ≠ right) :
    Precedes left right := by
  change (compareOfLessAndEq left right).isLE = true at hle
  rw [compareOfLessAndEq, if_neg hne] at hle
  split at hle
  · rename_i hlt
    exact Text.lt_iff_bytes_lt.1 hlt
  · cases hle

/-- Names that are given once are put in the strict order of their bytes. -/
theorem sortNames_pairwise (hdistinct : names.Nodup) : (sortNames names).Pairwise Precedes := by
  have hsorted : (sortNames names).Pairwise fun left right => (compare left right).isLE = true := by
    apply List.pairwise_mergeSort
    · intro first second third hfirst hsecond
      exact Std.TransCmp.isLE_trans hfirst hsecond
    · intro first second
      rw [Bool.or_eq_true]
      by_cases hle : (compare first second).isLE = true
      · exact Or.inl hle
      · exact Or.inr (Ordering.isLE_of_eq_lt (Std.OrientedCmp.lt_of_not_isLE hle))
  have hnodup : (sortNames names).Nodup := (List.mergeSort_perm names _).nodup_iff.2 hdistinct
  exact (hsorted.and hnodup).imp fun ⟨hle, hne⟩ => precedes_of_isLE hle hne

/-- Names can be put in the order of their bytes in one way only. -/
theorem eq_of_pairwise (hnames : names.Pairwise Precedes) (hothers : others.Pairwise Precedes)
    (hmem : ∀ name, name ∈ names ↔ name ∈ others) : names = others := by
  have hne {left right : String} (hlt : Precedes left right) : left ≠ right := by
    rintro rfl
    exact List.lt_irrefl (Text.bytes left) hlt
  have hperm : names.Perm others :=
    (List.perm_ext_iff_of_nodup (hnames.imp hne) (hothers.imp hne)).2 hmem
  apply List.Perm.eq_of_pairwise _ hnames hothers hperm
  intro first second _ _ hlt hgt
  have hbytes : Text.bytes first < Text.bytes second := hlt
  exact absurd hgt (List.lt_asymm hbytes)

end Order

section Listing

/-- The directory of stub packages can be listed, and these are its entries, in the
order in which the system gives them: proper names, each of them once. -/
structure Lists (checkout : Checkout) (entries : List (FileName × FileNode)) : Prop where
  listed : checkout.files.node? checkout.stubsPath = some (.directory entries)
  proper : ∀ entry ∈ entries, entry.1.IsProper
  distinct : (entries.map Prod.fst).Nodup

/-- There is a metadata file under the name, which is a text. -/
def Holds (entries : List (FileName × FileNode)) (name : String) (file : FileNode) : Prop :=
  ∃ node, (FileName.ofText name, node) ∈ entries ∧
    node.child? Path.metadataFile = some file ∧ file.isFile = true

/-- The metadata file under the name can be read, is a text, and is accepted. -/
def IsSound (entries : List (FileName × FileNode)) (name : String) : Prop :=
  ∃ contents source package, Holds entries name (.file contents) ∧
    String.fromUTF8? contents = some source ∧
    Metadata.parse name (Path.metadata name) source = .ok package

variable {checkout : Checkout} {entries : List (FileName × FileNode)} {name : String}
  {file : FileNode}

theorem metadataFile_not_isAbsolute : ¬Path.IsAbsolute Path.metadataFile := by
  rw [Path.isAbsolute_iff]
  decide

theorem stubsDirectory_not_isAbsolute : ¬Path.IsAbsolute Path.stubsDirectory := by
  rw [Path.isAbsolute_iff]
  decide

theorem metadataPath_eq (checkout : Checkout) (hname : ¬Path.IsAbsolute name) :
    checkout.metadataPath name =
      Path.join checkout.stubsPath (Path.join name Path.metadataFile) := by
  have hmore : ¬Path.IsAbsolute (Path.join name Path.metadataFile) :=
    Path.join_not_isAbsolute hname metadataFile_not_isAbsolute
  rw [metadataPath, Path.metadata, Path.join_assoc hname metadataFile_not_isAbsolute,
    ← Path.join_assoc stubsDirectory_not_isAbsolute hmore]
  rfl

/-- What a name is told to be a stub package by is what is loaded under it. -/
theorem isStub_eq (checkout : Checkout) (hname : ¬Path.IsAbsolute name) :
    checkout.isStub name = checkout.files.isFile (checkout.metadataPath name) := by
  rw [isStub, Path.join_assoc hname metadataFile_not_isAbsolute, metadataPath_eq checkout hname]

theorem Lists.node?_metadataPath (hlists : checkout.Lists entries)
    (hproper : (FileName.ofText name).IsProper) :
    checkout.files.node? (checkout.metadataPath name) =
      if checkout.files.isTooLong (checkout.metadataPath name) then none
      else ((FileNode.directory entries).child? name).bind (·.child? Path.metadataFile) := by
  have hname := hproper.not_isAbsolute
  have hparts : Path.parts (Path.join name Path.metadataFile) = [name, Path.metadataFile] := by
    rw [Path.parts_join metadataFile_not_isAbsolute, hproper.parts]
    rfl
  have hdown : ".." ∉ Path.parts (Path.join name Path.metadataFile) := by
    rw [hparts]
    simp [Ne.symm hproper.ne.2.2, Path.metadataFile]
  rw [metadataPath_eq checkout hname, Files.node?_join hlists.listed
    (Path.join_not_isAbsolute hname metadataFile_not_isAbsolute) hdown, hparts]
  simp only [List.foldlM_cons, List.foldlM_nil, bind_pure]
  rfl

/-- What the path of a metadata file leads to, unless it is too long to be
followed. -/
theorem Lists.node?_eq_some_iff (hlists : checkout.Lists entries)
    (hproper : (FileName.ofText name).IsProper) (hfile : file.isFile = true) :
    checkout.files.node? (checkout.metadataPath name) = some file ↔
      checkout.files.isTooLong (checkout.metadataPath name) = false ∧ Holds entries name file := by
  rw [hlists.node?_metadataPath hproper]
  cases checkout.files.isTooLong (checkout.metadataPath name) with
  | true => exact ⟨nofun, nofun⟩
  | false =>
      simp only [Bool.false_eq_true, ↓reduceIte, Option.bind_eq_some_iff, true_and, Holds, hfile,
        and_true, FileNode.child?_eq_some_iff hlists.distinct]

/-- The names of the entries that are texts. -/
def texts (entries : List (FileName × FileNode)) : List String :=
  entries.filterMap fun entry => entry.1.text?

theorem mem_texts : name ∈ texts entries ↔ ∃ node, (FileName.ofText name, node) ∈ entries := by
  rw [texts, List.mem_filterMap]
  constructor
  · rintro ⟨⟨_, node⟩, hmem, htext⟩
    obtain rfl := FileName.text?_eq_some_iff.1 htext
    exact ⟨node, hmem⟩
  · rintro ⟨node, hmem⟩
    exact ⟨_, hmem, FileName.text?_eq_some_iff.2 rfl⟩

theorem Lists.nodup_texts (hlists : checkout.Lists entries) : (texts entries).Nodup := by
  have htexts : texts entries = (entries.map Prod.fst).filterMap FileName.text? := by
    rw [texts, List.filterMap_map]
    rfl
  rw [htexts]
  refine hlists.distinct.filterMap ?_
  intro first second text hfirst hsecond
  rw [FileName.text?_eq_some_iff.1 hfirst, FileName.text?_eq_some_iff.1 hsecond]

theorem Lists.isProper (hlists : checkout.Lists entries) {node : FileNode}
    (hmem : (FileName.ofText name, node) ∈ entries) : (FileName.ofText name).IsProper :=
  hlists.proper _ hmem

/-- The names are those of the entries with a metadata file, in the strict order of
their bytes. -/
theorem Lists.exists_names (hlists : checkout.Lists entries) :
    ∃ names, checkout.names = .ok names ∧ names.Pairwise Precedes ∧
      ∀ name, name ∈ names ↔
        checkout.files.isTooLong (checkout.metadataPath name) = false ∧
          ∃ file, Holds entries name file := by
  refine ⟨sortNames ((texts entries).filter checkout.isStub), ?_,
    sortNames_pairwise (hlists.nodup_texts.filter _), fun name => ?_⟩
  · rw [names, hlists.listed]
    rfl
  · rw [sortNames, List.mem_mergeSort, List.mem_filter, mem_texts]
    constructor
    · rintro ⟨⟨node, hmem⟩, hstub⟩
      have hproper := hlists.isProper hmem
      rw [isStub_eq checkout hproper.not_isAbsolute, Files.isFile, Option.any_eq_true] at hstub
      obtain ⟨file, hnode, hfile⟩ := hstub
      obtain ⟨hshort, hholds⟩ := (hlists.node?_eq_some_iff hproper hfile).1 hnode
      exact ⟨hshort, file, hholds⟩
    · rintro ⟨hshort, file, node, hmem, hchild, hfile⟩
      have hproper := hlists.isProper hmem
      refine ⟨⟨node, hmem⟩, ?_⟩
      rw [isStub_eq checkout hproper.not_isAbsolute, Files.isFile, Option.any_eq_true]
      exact ⟨file, (hlists.node?_eq_some_iff hproper hfile).2 ⟨hshort, node, hmem, hchild, hfile⟩,
        hfile⟩

/-- A file is loaded exactly if it can be read, is a text, and is accepted. -/
theorem exists_load_eq_ok_iff (hnode : checkout.files.node? (checkout.metadataPath name) = some file)
    (hfile : file.isFile = true) :
    (∃ package, checkout.load name = .ok package) ↔
      ∃ contents source package, file = .file contents ∧ String.fromUTF8? contents = some source ∧
        Metadata.parse name (Path.metadata name) source = .ok package := by
  cases file with
  | directory entries => cases hfile
  | locked reason =>
      have hload : checkout.load name =
          .error (.unreadable (checkout.metadataPath name) (.refused reason)) := by
        simp only [load, hnode]
        rfl
      simp [hload]
  | file contents =>
      cases htext : String.fromUTF8? contents with
      | none =>
          have hload : checkout.load name =
              .error (.unreadable (checkout.metadataPath name) .notText) := by
            simp only [load, hnode, htext]
            rfl
          simp [hload, htext]
      | some source =>
          have hload : checkout.load name = (do
              let package ← Metadata.parse name (Path.metadata name) source
              return { package with lastKnownGood := checkout.commit }) := by
            simp only [load, hnode, htext]
          cases hparse : Metadata.parse name (Path.metadata name) source with
          | error error =>
              have hfailed : checkout.load name = .error error := by
                rw [hload, hparse]
                rfl
              simp [hfailed, htext, hparse]
          | ok package =>
              have hread : checkout.load name =
                  .ok { package with lastKnownGood := checkout.commit } := by
                rw [hload, hparse]
                rfl
              simp [hread, htext, hparse]

/-- A stub package can be loaded exactly if its metadata file is sound. -/
theorem Lists.exists_load_eq_ok_iff (hlists : checkout.Lists entries)
    (hshort : checkout.files.isTooLong (checkout.metadataPath name) = false)
    (hholds : Holds entries name file) :
    (∃ package, checkout.load name = .ok package) ↔ IsSound entries name := by
  obtain ⟨node, hmem, hchild, hfile⟩ := hholds
  have hproper := hlists.isProper hmem
  have hnode : checkout.files.node? (checkout.metadataPath name) = some file :=
    (hlists.node?_eq_some_iff hproper hfile).2 ⟨hshort, node, hmem, hchild, hfile⟩
  rw [Checkout.exists_load_eq_ok_iff hnode hfile]
  refine exists_congr fun contents => exists_congr fun source => exists_congr fun package => ?_
  refine and_congr_left fun _ => ⟨?_, fun hcontents => ?_⟩
  · rintro rfl
    exact ⟨node, hmem, hchild, hfile⟩
  · have hsame := (hlists.node?_eq_some_iff hproper rfl).2 ⟨hshort, hcontents⟩
    exact Option.some.inj (hnode.symm.trans hsame)

/-- The least name, in the order of bytes, whose metadata file is not sound. -/
structure IsLeastBad (entries : List (FileName × FileNode)) (names : List String)
    (name : String) : Prop where
  mem : name ∈ names
  bad : ¬IsSound entries name
  least : ∀ other ∈ names, ¬IsSound entries other → Text.bytes name ≤ Text.bytes other

/-- Where names are in order, the first one that is not loaded is the least one that
is not sound. -/
theorem mapM_load_eq_error_iff {names : List String} (hordered : names.Pairwise Precedes)
    (hsound : ∀ name ∈ names, (∃ package, checkout.load name = .ok package) ↔
      IsSound entries name) {error : MetadataError} :
    names.mapM checkout.load = .error error ↔
      ∃ name, IsLeastBad entries names name ∧ checkout.load name = .error error := by
  rw [mapM_eq_error_iff]
  constructor
  · rintro ⟨before, name, after, rfl, hbefore, herror⟩
    have hmem : name ∈ before ++ name :: after := List.mem_append_right _ List.mem_cons_self
    refine ⟨name, ⟨hmem, fun hname => ?_, fun other hother hbad => ?_⟩, herror⟩
    · obtain ⟨package, hpackage⟩ := (hsound name hmem).2 hname
      rw [herror] at hpackage
      cases hpackage
    · rcases List.mem_append.1 hother with hearlier | hlater
      · exact absurd ((hsound other hother).1 (hbefore other hearlier)) hbad
      · rcases List.mem_cons.1 hlater with rfl | hafter
        · exact List.le_refl _
        · have hlt := List.rel_of_pairwise_cons (List.pairwise_append.1 hordered).2.1 hafter
          exact List.le_of_lt hlt
  · rintro ⟨name, hname, herror⟩
    obtain ⟨before, after, rfl⟩ := List.append_of_mem hname.mem
    refine ⟨before, name, after, rfl, fun other hother => ?_, herror⟩
    have hmem : other ∈ before ++ name :: after := List.mem_append_left _ hother
    have hlt : Precedes other name :=
      (List.pairwise_append.1 hordered).2.2 other hother name List.mem_cons_self
    refine (hsound other hmem).2 (Classical.not_not.1 fun hbad => ?_)
    exact hname.least other hmem hbad hlt

section Relisting

variable {other : Checkout} {shuffled : List (FileName × FileNode)}

/-- The other checkout is of the same root and commit, and its directory of stub
packages has the same entries, listed in any order. -/
structure IsRelisting (checkout other : Checkout) (entries shuffled : List (FileName × FileNode)) :
    Prop where
  root : other.root = checkout.root
  commit : other.commit = checkout.commit
  longest : other.files.longest = checkout.files.longest
  lists : other.Lists shuffled
  perm : entries.Perm shuffled

theorem holds_iff_of_perm (hperm : entries.Perm shuffled) :
    Holds shuffled name file ↔ Holds entries name file :=
  exists_congr fun _ => and_congr_left fun _ => hperm.mem_iff.symm

theorem IsRelisting.metadataPath_eq (hsame : IsRelisting checkout other entries shuffled)
    (name : String) : other.metadataPath name = checkout.metadataPath name := by
  rw [metadataPath, metadataPath, hsame.root]

theorem IsRelisting.isTooLong_eq (hsame : IsRelisting checkout other entries shuffled)
    (path : String) : other.files.isTooLong path = checkout.files.isTooLong path := by
  rw [Files.isTooLong, Files.isTooLong, hsame.longest]

theorem IsRelisting.load_eq (hsame : IsRelisting checkout other entries shuffled)
    (hlists : checkout.Lists entries)
    (hshort : checkout.files.isTooLong (checkout.metadataPath name) = false)
    (hholds : Holds entries name file) : other.load name = checkout.load name := by
  obtain ⟨node, hmem, hchild, hfile⟩ := hholds
  have hproper := hlists.isProper hmem
  have hnode : checkout.files.node? (checkout.metadataPath name) = some file :=
    (hlists.node?_eq_some_iff hproper hfile).2 ⟨hshort, node, hmem, hchild, hfile⟩
  have hnode' : other.files.node? (checkout.metadataPath name) = some file := by
    rw [← hsame.metadataPath_eq, hsame.lists.node?_eq_some_iff hproper hfile,
      holds_iff_of_perm hsame.perm, hsame.metadataPath_eq, hsame.isTooLong_eq]
    exact ⟨hshort, node, hmem, hchild, hfile⟩
  simp only [load, hnode, hnode', hsame.metadataPath_eq, hsame.root, hsame.commit]

/-- In whatever order the entries are listed, the same names and packages are found,
or the same error. -/
theorem IsRelisting.packages_eq (hsame : IsRelisting checkout other entries shuffled)
    (hlists : checkout.Lists entries) :
    other.names = checkout.names ∧ other.packages = checkout.packages := by
  obtain ⟨names, hnames, hordered, hmem⟩ := hlists.exists_names
  obtain ⟨names', hnames', hordered', hmem'⟩ := hsame.lists.exists_names
  have hmembers : ∀ name, name ∈ names' ↔ name ∈ names := by
    intro name
    rw [hmem, hmem', hsame.metadataPath_eq, hsame.isTooLong_eq]
    simp only [holds_iff_of_perm hsame.perm]
  obtain rfl := eq_of_pairwise hordered' hordered hmembers
  refine ⟨hnames'.trans hnames.symm, ?_⟩
  rw [packages, packages, hnames, hnames']
  refine mapM_congr fun name hname => ?_
  obtain ⟨hshort, file, hholds⟩ := (hmem name).1 hname
  exact hsame.load_eq hlists hshort hholds

end Relisting

/-- Loading the stub packages of a checkout is all or nothing, in the order of their
names.  The names are those of the entries with a metadata file, in the strict order
of their bytes.  There are packages exactly if all the files are sound, one for every
name; otherwise the error is the one of the least name whose file is not sound.  None
of it depends on the order of the entries. -/
theorem packages_all_or_nothing (hlists : checkout.Lists entries) :
    ∃ names, checkout.names = .ok names ∧ names.Pairwise Precedes ∧
      (∀ name, name ∈ names ↔ checkout.files.isTooLong (checkout.metadataPath name) = false ∧
        ∃ file, Holds entries name file) ∧
      ((∃ packages, checkout.packages = .ok packages) ↔ ∀ name ∈ names, IsSound entries name) ∧
      (∀ packages, checkout.packages = .ok packages →
        List.Forall₂ (fun name package => checkout.load name = .ok package) names packages) ∧
      (∀ error, checkout.packages = .error error ↔
        ∃ name, IsLeastBad entries names name ∧ checkout.load name = .error error) ∧
      ∀ other shuffled, IsRelisting checkout other entries shuffled →
        other.names = checkout.names ∧ other.packages = checkout.packages := by
  obtain ⟨names, hnames, hordered, hmem⟩ := hlists.exists_names
  have hpackages : checkout.packages = names.mapM checkout.load := by
    rw [packages, hnames]
    rfl
  have hsound : ∀ name ∈ names, (∃ package, checkout.load name = .ok package) ↔
      IsSound entries name := by
    intro name hname
    obtain ⟨hshort, file, hholds⟩ := (hmem name).1 hname
    exact hlists.exists_load_eq_ok_iff hshort hholds
  refine ⟨names, hnames, hordered, hmem, ?_, ?_, ?_, ?_⟩
  · rw [hpackages, exists_mapM_eq_ok_iff]
    exact forall₂_congr hsound
  · intro packages hread
    rw [hpackages] at hread
    exact mapM_eq_ok_iff.1 hread
  · intro error
    rw [hpackages]
    exact mapM_load_eq_error_iff hordered hsound
  · intro other shuffled hsame
    exact hsame.packages_eq hlists

end Listing

namespace ListingExample

/-- A directory with a metadata file. -/
def stub (file : FileNode) : FileNode :=
  .directory [(Path.metadataFile, file)]

/-- A file without a version, one that cannot be read, a directory without a metadata
file, a name that is no text, and a file that is sound. -/
def entries : List (FileName × FileNode) :=
  [("é", stub (.file "upstream = \"e\"\n".toUTF8)), ("zeta", stub (.locked "Permission denied")),
    ("@tests", .directory []), (⟨⟨#[255]⟩⟩, stub (.file "version = [\n".toUTF8)),
    ("Mid", stub (.file "version = \"3.0\"\n".toUTF8))]

/-- A checkout with entries of its directory of stub packages. -/
def checkoutOf (entries : List (FileName × FileNode)) : Checkout where
  files := { top := .directory [("checkout", .directory [("stubs", .directory entries)])] }
  root := "checkout"

def fault : MetadataError :=
  .unreadable "checkout/stubs/zeta/METADATA.toml" (.refused "Permission denied")

theorem node?_stubsPath (entries : List (FileName × FileNode)) :
    (checkoutOf entries).files.node? (checkoutOf entries).stubsPath =
      some (.directory entries) := by
  have hpath : Path.join "checkout" Path.stubsDirectory = "checkout/stubs" := by decide +kernel
  have hrelative : "checkout/stubs".startsWith "/" = false := by decide +kernel
  have hshort : ({} : Files).isTooLong "checkout/stubs" = false := by decide +kernel
  have hparts : Path.parts "checkout/stubs" = ["checkout", "stubs"] := by decide +kernel
  have hnode : (checkoutOf entries).files.node? "checkout/stubs" =
      FileNode.walk [] (checkoutOf entries).files.top ["checkout", "stubs"] := by
    unfold Files.node?
    rw [hrelative, hparts]
    exact if_neg (ne_true_of_eq_false hshort)
  change (checkoutOf entries).files.node? (Path.join "checkout" Path.stubsDirectory) = _
  rw [hpath, hnode]
  rfl

theorem checkoutOf_lists {shuffled : List (FileName × FileNode)} (hperm : entries.Perm shuffled) :
    (checkoutOf shuffled).Lists shuffled := by
  have hproper : ∀ name ∈ entries.map Prod.fst, '/'.toUInt8 ∉ name.bytes.data.toList ∧
      name ∉ [FileName.ofText "", FileName.ofText ".", FileName.ofText ".."] := by
    decide +kernel
  have hdistinct : (entries.map Prod.fst).Nodup := by decide +kernel
  refine ⟨node?_stubsPath shuffled, fun entry hentry => ?_,
    (hperm.map Prod.fst).nodup_iff.1 hdistinct⟩
  have hname := hproper entry.1 (List.mem_map_of_mem (hperm.mem_iff.2 hentry))
  exact ⟨hname.1, hname.2⟩

theorem names_eq : (checkoutOf entries).names = .ok ["Mid", "zeta", "é"] := by
  have hfound : (texts entries).filter (checkoutOf entries).isStub = ["é", "zeta", "Mid"] := by
    decide +kernel
  have hsorted : sortNames ["é", "zeta", "Mid"] = ["Mid", "zeta", "é"] := by
    apply eq_of_pairwise
    · exact sortNames_pairwise (by decide)
    · decide +kernel
    · intro name
      rw [sortNames, List.mem_mergeSort]
      exact (show ["é", "zeta", "Mid"].Perm ["Mid", "zeta", "é"] by decide).mem_iff
  rw [← hsorted, ← hfound, names, node?_stubsPath]
  rfl

/-- The file without a version comes first in the directory, but the one that cannot
be read has the lesser name. -/
theorem least_bad_name_decides :
    (checkoutOf entries).Lists entries ∧
      (checkoutOf entries).names = .ok ["Mid", "zeta", "é"] ∧
      (∃ name, IsLeastBad entries ["Mid", "zeta", "é"] name ∧
        (checkoutOf entries).load name = .error fault) ∧
      (checkoutOf entries).packages = .error fault ∧
      (checkoutOf entries.reverse).packages = .error fault := by
  have hlists := checkoutOf_lists (.refl entries)
  have hpackages : (checkoutOf entries).packages = .error fault := by
    rw [packages, names_eq]
    decide +kernel
  have hreversed : IsRelisting (checkoutOf entries) (checkoutOf entries.reverse) entries
      entries.reverse :=
    ⟨rfl, rfl, rfl, checkoutOf_lists (List.reverse_perm entries).symm,
      (List.reverse_perm entries).symm⟩
  obtain ⟨names, hnames, _, _, _, _, herror, hrelisted⟩ := packages_all_or_nothing hlists
  obtain rfl := Except.ok.inj (names_eq.symm.trans hnames)
  exact ⟨hlists, hnames, (herror fault).1 hpackages, hpackages,
    ((hrelisted _ _ hreversed).2).trans hpackages⟩

end ListingExample

end Checkout

end StubSync
