/-
Which arguments give settings, and which packages a run over them processes.

What is required of the arguments is checked in one order, and the first
requirement that is not met decides about the error.  That no name is both to
be processed and to be left out is one of them.  Only by it is no name that is
to be left out processed, since the filter itself looks at one of the two lists.
-/
import StubSync.Proofs.Text.Pieces
import StubSync.Settings

namespace StubSync

/-- Names to leave out count only where no names to process are given. -/
theorem RunFilter.processes_iff {filter : RunFilter} {name : String} :
    filter.processes name = true ↔
      name ∈ filter.only ∨ filter.only = [] ∧ name ∉ filter.exclude := by
  unfold processes
  cases honly : filter.only with
  | nil => simp
  | cons first others => simp

namespace Settings

section Texts

/-- An owner and a name with a slash between them; neither is empty, and
neither has a slash or a space in it. -/
def IsOwnerAndName (value : String) : Prop :=
  ∃ owner name : List Char, value.toList = owner ++ '/' :: name ∧ owner ≠ [] ∧ name ≠ [] ∧
    '/' ∉ owner ++ name ∧ ' ' ∉ owner ++ name

/-- What follows the scheme is not empty and does not start with a slash. -/
def IsWebAddress (value : String) : Prop :=
  ∃ scheme ∈ ["https://", "http://"], ∃ c rest,
    value.toList = scheme.toList ++ c :: rest ∧ c ≠ '/'

theorem isRepository_iff {value : String} :
    isRepository value = true ↔ IsOwnerAndName value := by
  unfold isRepository IsOwnerAndName
  cases hcut : Text.cutAt? '/' value.toList with
  | none =>
      have hslash := Text.cutAt?_eq_none_iff.1 hcut
      constructor
      · intro hvalid
        cases hvalid
      · rintro ⟨owner, name, hvalue, _⟩
        exact absurd (by simp [hvalue]) hslash
  | some parts =>
      obtain ⟨owner, name⟩ := parts
      obtain ⟨howner, hvalue⟩ := Text.cutAt?_eq_some_iff.1 hcut
      constructor
      · intro hvalid
        refine ⟨owner, name, hvalue, ?_⟩
        simpa [hvalue, howner, and_assoc] using hvalid
      · rintro ⟨owner', name', hvalue', hparts⟩
        have howner' : '/' ∉ owner' := fun hmem => hparts.2.2.1 (List.mem_append_left _ hmem)
        have hcut' := Text.cutAt?_eq_some_iff.2 ⟨howner', hvalue'⟩
        rw [hcut] at hcut'
        cases hcut'
        simpa [hvalue, howner, and_assoc] using hparts

theorem afterScheme?_eq_some_iff {value rest : List Char} :
    afterScheme? value = some rest ↔
      ∃ scheme ∈ ["https://", "http://"], value = scheme.toList ++ rest := by
  simp only [afterScheme?, Option.orElse_eq_orElse, Option.orElse_eq_or, Option.or_eq_some_iff,
    Text.after?_eq_some_iff, List.mem_cons, List.not_mem_nil, or_false, exists_eq_or_imp,
    exists_eq_left]
  refine or_congr_right ⟨And.right, fun hvalue => ⟨?_, hvalue⟩⟩
  -- No text starts with both schemes.
  rw [hvalue]
  rfl

theorem isUrl_iff {value : String} : isUrl value = true ↔ IsWebAddress value := by
  have hurl : isUrl value = true ↔
      ∃ c rest, afterScheme? value.toList = some (c :: rest) ∧ c ≠ '/' := by
    unfold isUrl
    cases afterScheme? value.toList with
    | none => simp
    | some rest => cases rest <;> simp
  simp only [hurl, afterScheme?_eq_some_iff, IsWebAddress]
  constructor
  · rintro ⟨c, rest, ⟨scheme, hscheme, hvalue⟩, hc⟩
    exact ⟨scheme, hscheme, c, rest, hvalue, hc⟩
  · rintro ⟨scheme, hscheme, c, rest, hvalue, hc⟩
    exact ⟨c, rest, ⟨scheme, hscheme, hvalue⟩, hc⟩

theorem meaningful?_eq_some_iff {text : Option String} {trimmed : String} :
    meaningful? text = some trimmed ↔
      (∃ given, text = some given ∧ Text.trimmed given = trimmed) ∧ trimmed ≠ "" := by
  simp [meaningful?, Option.filter_eq_some_iff, Option.map_eq_some_iff]

end Texts

theorem overlap_eq (arguments : Arguments) :
    overlap arguments = arguments.only.filter fun name => name ∈ arguments.exclude :=
  List.filter_congr fun name _ => List.contains_eq_mem name arguments.exclude

/-- What is required of arguments, in the order in which it is checked. -/
inductive Requirement where
  | token
  | repository
  | ownerAndName
  | apiUrl
  | indexUrl
  | runUrl
  | root
  | disjoint
deriving Repr, DecidableEq

namespace Requirement

def all : List Requirement :=
  [.token, .repository, .ownerAndName, .apiUrl, .indexUrl, .runUrl, .root, .disjoint]

variable (arguments : Arguments) (isDirectory : String → Bool)

/-- The arguments meet the requirement; `isDirectory` tells which paths are
directories. -/
def Holds : Requirement → Prop
  | .token => ∃ text, arguments.token = some text ∧ Text.trimmed text ≠ ""
  | .repository => ∃ text, arguments.repo = some text ∧ Text.trimmed text ≠ ""
  | .ownerAndName => ∃ text, arguments.repo = some text ∧ IsOwnerAndName (Text.trimmed text)
  | .apiUrl => IsWebAddress arguments.apiUrl
  | .indexUrl => IsWebAddress arguments.indexUrl
  | .runUrl => ∀ url, arguments.runUrl = some url → IsWebAddress url
  | .root => isDirectory arguments.root = true
  | .disjoint => ∀ name ∈ arguments.only, name ∉ arguments.exclude

/-- The error of arguments that do not meet the requirement. -/
def error : Requirement → SettingsError
  | .token => .missingToken
  | .repository => .missingRepository
  | .ownerAndName => .invalidRepository (Text.trimmed (arguments.repo.getD ""))
  | .apiUrl => .invalidUrl "--api-url" arguments.apiUrl
  | .indexUrl => .invalidUrl "--index-url" arguments.indexUrl
  | .runUrl => .invalidUrl "--run-url" (arguments.runUrl.getD "")
  | .root => .invalidPath arguments.root "not a directory"
  | .disjoint => .conflictingOptions ("packages both in --only and --exclude: " ++
      ", ".intercalate (arguments.only.filter fun name => name ∈ arguments.exclude))

/-- The check of the requirement. -/
def isMet : Requirement → Bool
  | .token => (meaningful? arguments.token).isSome
  | .repository => (meaningful? arguments.repo).isSome
  | .ownerAndName => (meaningful? arguments.repo).any isRepository
  | .apiUrl => isUrl arguments.apiUrl
  | .indexUrl => isUrl arguments.indexUrl
  | .runUrl => arguments.runUrl.all isUrl
  | .root => isDirectory arguments.root
  | .disjoint => (overlap arguments).isEmpty

variable {arguments isDirectory}

theorem isMet_iff {requirement : Requirement} :
    requirement.isMet arguments isDirectory = true ↔
      requirement.Holds arguments isDirectory := by
  have hmeaningful (text : Option String) :
      (meaningful? text).isSome = true ↔ ∃ given, text = some given ∧ Text.trimmed given ≠ "" := by
    simp only [Option.isSome_iff_exists, meaningful?_eq_some_iff]
    constructor
    · rintro ⟨_, ⟨given, hgiven, rfl⟩, hne⟩
      exact ⟨given, hgiven, hne⟩
    · rintro ⟨given, hgiven, hne⟩
      exact ⟨_, ⟨given, hgiven, rfl⟩, hne⟩
  cases requirement with
  | token => exact hmeaningful arguments.token
  | repository => exact hmeaningful arguments.repo
  | ownerAndName =>
      simp only [isMet, Holds, Option.any_eq_true, isRepository_iff, meaningful?_eq_some_iff]
      constructor
      · rintro ⟨_, ⟨⟨given, hgiven, rfl⟩, _⟩, hvalid⟩
        exact ⟨given, hgiven, hvalid⟩
      · rintro ⟨given, hgiven, hvalid⟩
        refine ⟨_, ⟨⟨given, hgiven, rfl⟩, fun hempty => ?_⟩, hvalid⟩
        obtain ⟨owner, name, hvalue, _⟩ := hvalid
        simp [hempty] at hvalue
  | apiUrl => exact isUrl_iff
  | indexUrl => exact isUrl_iff
  | runUrl => simp [isMet, Holds, Option.all_eq_true, isUrl_iff]
  | root => exact Iff.rfl
  | disjoint => simp [isMet, Holds, overlap, List.filter_eq_nil_iff]

end Requirement

/-- The settings that arguments give if they meet all that is required. -/
def granted (arguments : Arguments) : Settings :=
  let repository := Text.trimmed (arguments.repo.getD "")
  { root := arguments.root
    baseCommit := arguments.baseCommit.filter fun commit => !Text.isBlankText commit
    indexUrl := arguments.indexUrl
    run := {
      level := arguments.level
      dryRun := arguments.dryRun
      only := arguments.only
      exclude := arguments.exclude
      concurrency := arguments.concurrency
      showProgress := arguments.showProgress }
    hosting := {
      apiUrl := arguments.apiUrl
      repository
      token := Text.trimmed (arguments.token.getD "")
      baseBranch := arguments.baseBranch }
    alertOnFailure := arguments.alertOnFailure
    runUrl := runUrlOf arguments repository }

section Checks

/-- The first requirement that is not met decides. -/
theorem ofArguments_eq (arguments : Arguments) (isDirectory : String → Bool) :
    ofArguments arguments isDirectory =
      match Requirement.all.find? fun requirement => !requirement.isMet arguments isDirectory with
      | some requirement => .error (requirement.error arguments)
      | none => .ok (granted arguments) := by
  simp only [Requirement.all, List.find?_cons, Requirement.isMet]
  unfold ofArguments
  rcases htoken : meaningful? arguments.token with _ | token
  · rfl
  rcases hrepo : meaningful? arguments.repo with _ | repository
  · rfl
  obtain ⟨⟨given, hgiven, rfl⟩, _⟩ := meaningful?_eq_some_iff.1 htoken
  obtain ⟨⟨named, hnamed, rfl⟩, _⟩ := meaningful?_eq_some_iff.1 hrepo
  simp only [Option.isSome_some, Option.any_some, checkUrl]
  rcases isRepository (Text.trimmed named)
  · simp only [Requirement.error, hnamed]
    rfl
  rcases isUrl arguments.apiUrl
  · rfl
  rcases isUrl arguments.indexUrl
  · rfl
  rcases hrun : arguments.runUrl with _ | url
  · simp only [Option.all_none]
    rcases isDirectory arguments.root
    · rfl
    rcases (overlap arguments).isEmpty
    · simp only [Requirement.error, ← overlap_eq]
      rfl
    · simp only [granted, hgiven, hnamed]
      rfl
  simp only [Option.all_some]
  rcases isUrl url
  · simp only [Requirement.error, hrun]
    rfl
  rcases isDirectory arguments.root
  · rfl
  rcases (overlap arguments).isEmpty
  · simp only [Requirement.error, ← overlap_eq]
    rfl
  · simp only [granted, hgiven, hnamed]
    rfl

variable {arguments : Arguments} {isDirectory : String → Bool}

theorem ofArguments_eq_error_iff {error : SettingsError} :
    ofArguments arguments isDirectory = .error error ↔
      ∃ before requirement after, Requirement.all = before ++ requirement :: after ∧
        (∀ earlier ∈ before, earlier.Holds arguments isDirectory) ∧
        ¬ requirement.Holds arguments isDirectory ∧ error = requirement.error arguments := by
  rw [ofArguments_eq]
  constructor
  · intro herror
    split at herror
    · rename_i requirement hfind
      obtain ⟨hunmet, before, after, hall, hbefore⟩ := List.find?_eq_some_iff_append.1 hfind
      refine ⟨before, requirement, after, hall, fun earlier hearlier => ?_, ?_,
        (Except.error.inj herror).symm⟩
      · exact Requirement.isMet_iff.1 (by simpa using hbefore earlier hearlier)
      · rw [← Requirement.isMet_iff]
        simpa using hunmet
    · cases herror
  · rintro ⟨before, requirement, after, hall, hbefore, hunmet, rfl⟩
    have hfind : Requirement.all.find? (fun requirement =>
        !requirement.isMet arguments isDirectory) = some requirement := by
      refine List.find?_eq_some_iff_append.2 ⟨?_, before, after, hall, fun earlier hearlier => ?_⟩
      · rw [← Requirement.isMet_iff] at hunmet
        simpa using hunmet
      · simpa using Requirement.isMet_iff.2 (hbefore earlier hearlier)
    rw [hfind]

theorem ofArguments_eq_ok_iff {settings : Settings} :
    ofArguments arguments isDirectory = .ok settings ↔
      (∀ requirement : Requirement, requirement.Holds arguments isDirectory) ∧
        settings = granted arguments := by
  have hall (requirement : Requirement) : requirement ∈ Requirement.all := by
    cases requirement <;> decide
  have hnone : Requirement.all.find? (fun requirement =>
        !requirement.isMet arguments isDirectory) = none ↔
      ∀ requirement : Requirement, requirement.Holds arguments isDirectory := by
    simp [List.find?_eq_none, hall, Requirement.isMet_iff]
  rw [ofArguments_eq, ← hnone]
  split
  · simp_all
  · simp_all [eq_comm]

/-- The settings are fit for a run: it has a token, a repository, addresses to
speak to and a directory to read. -/
structure IsUsable (isDirectory : String → Bool) (settings : Settings) : Prop where
  token : settings.hosting.token ≠ ""
  repository : IsOwnerAndName settings.hosting.repository
  apiUrl : IsWebAddress settings.hosting.apiUrl
  indexUrl : IsWebAddress settings.indexUrl
  root : isDirectory settings.root = true

theorem granted_isUsable
    (hholds : ∀ requirement : Requirement, requirement.Holds arguments isDirectory) :
    IsUsable isDirectory (granted arguments) := by
  obtain ⟨token, htoken, hne⟩ := hholds .token
  obtain ⟨repository, hrepository, hnamed⟩ := hholds .ownerAndName
  constructor
  · rwa [granted, htoken]
  · rwa [granted, hrepository]
  · exact hholds .apiUrl
  · exact hholds .indexUrl
  · exact hholds .root

/-- Arguments give settings exactly if they meet all that is required, and the
first requirement that is not met is the error otherwise.  Settings that are
given are fit for a run, and they process a name exactly if it is not to be left
out and may be processed, although a filter with names to process does not look
at those to leave out. -/
theorem arguments_accepted (arguments : Arguments) (isDirectory : String → Bool) :
    ((∃ settings, ofArguments arguments isDirectory = .ok settings) ↔
      ∀ requirement : Requirement, requirement.Holds arguments isDirectory) ∧
    (∀ error, ofArguments arguments isDirectory = .error error ↔
      ∃ before requirement after, Requirement.all = before ++ requirement :: after ∧
        (∀ earlier ∈ before, earlier.Holds arguments isDirectory) ∧
        ¬ requirement.Holds arguments isDirectory ∧ error = requirement.error arguments) ∧
    (∀ settings, ofArguments arguments isDirectory = .ok settings →
      IsUsable isDirectory settings ∧
      ∀ name, settings.run.filter.processes name = true ↔
        name ∉ arguments.exclude ∧ (arguments.only = [] ∨ name ∈ arguments.only)) ∧
    ∀ filter : RunFilter, filter.only ≠ [] → ∀ exclude name,
      { filter with exclude }.processes name = filter.processes name := by
  refine ⟨?_, fun error => ofArguments_eq_error_iff, ?_, ?_⟩
  · simp only [ofArguments_eq_ok_iff, exists_and_left, exists_eq, and_true]
  · intro settings hsettings
    obtain ⟨hholds, rfl⟩ := ofArguments_eq_ok_iff.1 hsettings
    refine ⟨granted_isUsable hholds, fun name => ?_⟩
    have hdisjoint : name ∈ arguments.only → name ∉ arguments.exclude := hholds .disjoint name
    rw [RunFilter.processes_iff]
    change name ∈ arguments.only ∨ arguments.only = [] ∧ name ∉ arguments.exclude ↔ _
    constructor
    · rintro (honly | ⟨hnone, hexclude⟩)
      · exact ⟨hdisjoint honly, Or.inr honly⟩
      · exact ⟨hexclude, Or.inl hnone⟩
    · rintro ⟨hexclude, hnone | honly⟩
      · exact Or.inr ⟨hnone, hexclude⟩
      · exact Or.inl honly
  · intro filter honly exclude name
    rw [Bool.eq_iff_iff, RunFilter.processes_iff, RunFilter.processes_iff]
    simp [honly]

end Checks

namespace AcceptanceExample

def isDirectory (path : String) : Bool :=
  path == "."

/-- The blanks around the repository are not part of its name. -/
def arguments : Arguments where
  repo := some "\tocto/stubs\n"
  token := some "t0ken"
  only := ["foo", "bar"]
  exclude := ["baz"]

/-- Two names are in both lists, and the address of the index has no host. -/
def faulty : Arguments :=
  { arguments with exclude := ["bar", "baz", "foo"], indexUrl := "https:///simple" }

/-- The address comes before the names, and the names come in the order in which
they are to be processed. -/
theorem arguments_accepted_or_refused :
    (∀ name, (granted arguments).run.filter.processes name = true ↔
      name ∉ ["baz"] ∧ (["foo", "bar"] = [] ∨ name ∈ ["foo", "bar"])) ∧
    faulty.only ≠ [] ∧ faulty.exclude.contains "foo" = true ∧
    RunFilter.processes ⟨.everything, faulty.only, faulty.exclude⟩ "foo" = true ∧
    ofArguments faulty isDirectory = .error (.invalidUrl "--index-url" "https:///simple") ∧
    ofArguments { faulty with indexUrl := arguments.indexUrl } isDirectory =
      .error (.conflictingOptions "packages both in --only and --exclude: foo, bar") := by
  have hsettings : ofArguments arguments isDirectory = .ok (granted arguments) := by rfl
  have honly : faulty.only ≠ [] := by decide
  have hignored := (arguments_accepted faulty isDirectory).2.2.2
    ⟨.everything, faulty.only, []⟩ honly faulty.exclude "foo"
  exact ⟨((arguments_accepted arguments isDirectory).2.2.1 _ hsettings).2, honly, by decide,
    hignored.trans (by decide), by rfl, by rfl⟩

end AcceptanceExample

end Settings

end StubSync
