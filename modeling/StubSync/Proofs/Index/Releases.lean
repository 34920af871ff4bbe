/-
The releases that a package index describes.

A description may give a key more than once, and of each key the last value counts.
Every key that has files and spells a version stands for one release.  Which
releases there are fixes their order, so the order of a description is of no
consequence.
-/
import Mathlib.Data.List.Forall2
import Mathlib.Data.List.Sort
import StubSync.Index.Client
import StubSync.Proofs.Json.Repeated
import StubSync.Proofs.Release.Sorted
import StubSync.Proofs.Version.RoundTrip

namespace StubSync

namespace Index

section Times

variable {times left right : List Instant} {first other : Option Instant}
  {files files' : List ReleaseFile}

/-- The upload times that can be read. -/
def uploadTimes (files : List ReleaseFile) : List Instant :=
  files.filterMap fun file => file.uploadTime.bind Instant.read?

/-- The time is one of the times and none is before it; there is no time only if
there are none. -/
def IsEarliest (times : List Instant) : Option Instant → Prop
  | none => times = []
  | some first => first ∈ times ∧ ∀ time ∈ times, (Instant.cmp first time).isLE = true

theorem IsEarliest.concat (hfirst : IsEarliest times first) (time : Instant) :
    IsEarliest (times ++ [time]) (ReleaseFile.earliest?.sooner first time) := by
  cases first with
  | none =>
      rw [IsEarliest] at hfirst
      rw [hfirst]
      refine ⟨List.mem_singleton_self time, ?_⟩
      exact List.forall_mem_singleton.2 Std.ReflCmp.isLE_rfl
  | some first =>
      obtain ⟨hmem, hle⟩ := hfirst
      rw [ReleaseFile.earliest?.sooner]
      split
      · rename_i hlt
        refine ⟨List.mem_append_right times (List.mem_singleton_self time), ?_⟩
        rw [List.forall_mem_append, List.forall_mem_singleton]
        refine ⟨?_, Std.ReflCmp.isLE_rfl⟩
        intro earlier hearlier
        have hsooner := Ordering.isLE_of_eq_lt (Ordering.isLT_iff_eq_lt.1 hlt)
        exact Std.TransCmp.isLE_trans hsooner (hle earlier hearlier)
      · rename_i hnot
        refine ⟨List.mem_append_left [time] hmem, ?_⟩
        rw [List.forall_mem_append, List.forall_mem_singleton]
        refine ⟨hle, ?_⟩
        rw [Ordering.isLT_iff_eq_lt, ← Ordering.isGE_iff_ne_lt] at hnot
        exact Std.OrientedCmp.isLE_of_isGE hnot

theorem isEarliest_earliest? (files : List ReleaseFile) :
    IsEarliest (uploadTimes files) (ReleaseFile.earliest? files) := by
  have hrun : ∀ times : List Instant,
      IsEarliest times (times.foldl ReleaseFile.earliest?.sooner none) := by
    intro times
    induction times using List.reverseRecOn with
    | nil => rfl
    | append_singleton times time ih =>
        rw [List.foldl_concat]
        exact ih.concat time
  exact hrun (uploadTimes files)

theorem IsEarliest.unique (hfirst : IsEarliest left first) (hother : IsEarliest right other)
    (hmem : ∀ time, time ∈ left ↔ time ∈ right) : first = other := by
  cases first with
  | none =>
      cases other with
      | none => rfl
      | some time =>
          rw [IsEarliest] at hfirst
          rw [hfirst] at hmem
          exact absurd ((hmem time).2 hother.1) List.not_mem_nil
  | some first =>
      cases other with
      | none =>
          rw [IsEarliest] at hother
          rw [hother] at hmem
          exact absurd ((hmem first).1 hfirst.1) List.not_mem_nil
      | some time =>
          have hle := hfirst.2 time ((hmem time).2 hother.1)
          have hge := hother.2 first ((hmem first).1 hfirst.1)
          rw [Std.LawfulEqCmp.eq_of_compare (Std.OrientedCmp.isLE_antisymm hle hge)]

theorem mem_uploadTimes_congr (hmem : ∀ file, file ∈ files ↔ file ∈ files') (time : Instant) :
    time ∈ uploadTimes files ↔ time ∈ uploadTimes files' := by
  simp only [uploadTimes, List.mem_filterMap, hmem]

end Times

section Releases

variable {version key : String} {classifiers : List String} {files files' : List ReleaseFile}
  {document : IndexDocument} {release other : Release}

/-- What a release says of a key that is listed with these files. -/
structure IsRelease (version : String) (classifiers : List String) (files : List ReleaseFile)
    (release : Release) : Prop where
  files_ne_nil : files ≠ []
  spelled : Version.parse release.raw = .ok release.version
  releasedAt : IsEarliest (uploadTimes files) release.releasedAt
  prerelease : release.prerelease = release.version.isPrerelease
  yanked : release.yanked = true ↔ ∀ file ∈ files, file.yanked = true
  typed : release.typed = true ↔
    IndexDocument.typedClassifier ∈ classifiers ∧ release.raw = version

/-- Nothing but the key and the files tells a release, and the order of the files
does not. -/
theorem IsRelease.unique (hrelease : IsRelease version classifiers files release)
    (hother : IsRelease version classifiers files' other)
    (hmem : ∀ file, file ∈ files ↔ file ∈ files') (hraw : release.raw = other.raw) :
    release = other := by
  have hversion : release.version = other.version := by
    have hspelled := hrelease.spelled
    rw [hraw, hother.spelled] at hspelled
    exact (Except.ok.inj hspelled).symm
  have hreleasedAt := hrelease.releasedAt.unique hother.releasedAt (mem_uploadTimes_congr hmem)
  have hprerelease : release.prerelease = other.prerelease := by
    rw [hrelease.prerelease, hother.prerelease, hversion]
  have hyanked : release.yanked = other.yanked := by
    rw [Bool.eq_iff_iff, hrelease.yanked, hother.yanked]
    simp only [hmem]
  have htyped : release.typed = other.typed := by
    rw [Bool.eq_iff_iff, hrelease.typed, hother.typed, hraw]
  cases release
  cases other
  congr

/-- A key that has files and spells a version stands for a release. -/
theorem exists_release? (document : IndexDocument) {found : Version} (hfiles : files ≠ [])
    (hparse : Version.parse key = .ok found) :
    ∃ release, document.release? key files = some release := by
  have hread := Version.parse_eq_ok_iff_read?.1 hparse
  have hempty := List.isEmpty_eq_false_iff.2 hfiles
  simp [IndexDocument.release?, hread, hempty]

theorem isRelease_of_release? (hrelease : document.release? key files = some release) :
    release.raw = key ∧ IsRelease document.version document.classifiers files release := by
  rw [IndexDocument.release?] at hrelease
  split at hrelease
  · cases hrelease
  · rename_i hempty
    obtain ⟨found, hfound, hrelease⟩ := Option.bind_eq_some_iff.1 hrelease
    cases hrelease
    refine ⟨rfl, ?_⟩
    exact
      { files_ne_nil := by
          rintro rfl
          exact hempty rfl
        spelled := Version.parse_eq_ok_iff_read?.2 hfound
        releasedAt := isEarliest_earliest? files
        prerelease := rfl
        yanked := List.all_eq_true
        typed := by
          rw [Bool.and_eq_true, beq_iff_eq, IndexDocument.isTyped, List.contains_iff_mem] }

end Releases

section Order

variable {left right : Release} {releases others : List Release}

/-- The first release has a later version, or the same one in a later spelling. -/
def IsNewer (left right : Release) : Prop :=
  right.version < left.version ∨
    Version.cmp right.version left.version = .eq ∧ right.raw < left.raw

theorem IsNewer.cmp_eq_lt (hnewer : IsNewer left right) : Release.cmp right left = .lt := by
  rw [Release.cmp, Ordering.then_eq_lt]
  rcases hnewer with hlt | ⟨heq, hraw⟩
  · exact Or.inl hlt
  · refine Or.inr ⟨heq, ?_⟩
    rw [Ordering.then_eq_lt]
    exact Or.inl (compareOfLessAndEq_eq_lt.2 hraw)

instance : Std.Asymm IsNewer where
  asymm left right hleft hright := by
    have hlt := Std.OrientedCmp.gt_of_lt hright.cmp_eq_lt
    rw [hleft.cmp_eq_lt] at hlt
    contradiction

theorem isNewer_of_isLE (hle : (Release.cmp right left).isLE = true)
    (hraw : right.raw ≠ left.raw) : IsNewer left right := by
  rw [Release.cmp, Ordering.isLE_then_iff_or] at hle
  rcases hle with hlt | ⟨heq, hle⟩
  · exact Or.inl hlt
  · rw [Ordering.isLE_then_iff_or] at hle
    rcases hle with hlt | ⟨hsame, _⟩
    · exact Or.inr ⟨heq, compareOfLessAndEq_eq_lt.1 hlt⟩
    · exact absurd (Std.LawfulEqCmp.eq_of_compare hsame) hraw

/-- Releases whose published texts differ are sorted strictly. -/
theorem newestFirst_isNewer (hnodup : (releases.map Release.raw).Nodup) :
    (Release.newestFirst releases).Pairwise IsNewer := by
  have hsorted := Release.newestFirst_pairwise releases
  have hperm := (Release.newestFirst_perm releases).map Release.raw
  have hdistinct := List.pairwise_map.1 (hperm.nodup_iff.2 hnodup)
  apply (hsorted.and hdistinct).imp
  rintro newer older ⟨hle, hraw⟩
  exact isNewer_of_isLE hle hraw.symm

end Order

section Listings

variable {version : String} {classifiers : List String}
  {listing listing' : List (String × List ReleaseFile)} {releases releases' : List Release}

/-- The releases of a listing, in which a key may be repeated: one for each key whose
last files are some and that spells a version, from the newest to the oldest. -/
structure Lists (version : String) (classifiers : List String)
    (listing : List (String × List ReleaseFile)) (releases : List Release) : Prop where
  sound : ∀ release ∈ releases, ∃ files,
    Json.IsLast release.raw files listing ∧ IsRelease version classifiers files release
  complete : ∀ key files found, Json.IsLast key files listing → files ≠ [] →
    Version.parse key = .ok found → ∃ release ∈ releases, release.raw = key
  unrepeated : (releases.map Release.raw).Nodup
  decreasing : releases.Pairwise IsNewer
  typed : ∀ release ∈ releases, ∀ other ∈ releases,
    release.typed = true → other.typed = true → release = other

/-- The releases of a document, and the files that they stand for. -/
theorem mem_collect_iff {document : IndexDocument} {release : Release} :
    release ∈ document.collect ↔ ∃ files, (release.raw, files) ∈ document.releases ∧
      document.release? release.raw files = some release := by
  rw [IndexDocument.collect, Release.mem_newestFirst, List.mem_filterMap]
  constructor
  · rintro ⟨⟨key, files⟩, hlisted, hrelease⟩
    obtain ⟨rfl, _⟩ := isRelease_of_release? hrelease
    exact ⟨files, hlisted, hrelease⟩
  · rintro ⟨files, hlisted, hrelease⟩
    exact ⟨(release.raw, files), hlisted, hrelease⟩

theorem map_raw_filterMap_sublist (document : IndexDocument)
    (listed : List (String × List ReleaseFile)) :
    ((listed.filterMap fun (key, files) => document.release? key files).map Release.raw).Sublist
      (listed.map Prod.fst) := by
  induction listed with
  | nil => exact List.Sublist.slnil
  | cons entry listed ih =>
      obtain ⟨key, files⟩ := entry
      cases hrelease : document.release? key files with
      | none =>
          simp only [List.filterMap_cons, hrelease]
          exact ih.cons key
      | some release =>
          simp only [List.filterMap_cons, hrelease, List.map_cons,
            (isRelease_of_release? hrelease).1]
          exact ih.cons_cons key

/-- At most one release of a listing is the version that the document is about. -/
theorem eq_of_typed (hunrepeated : (releases.map Release.raw).Nodup)
    (hsound : ∀ release ∈ releases, ∃ files, Json.IsLast release.raw files listing ∧
      IsRelease version classifiers files release) :
    ∀ release ∈ releases, ∀ other ∈ releases,
      release.typed = true → other.typed = true → release = other := by
  intro release hrelease other hother htyped htyped'
  obtain ⟨_, _, hfiles⟩ := hsound release hrelease
  obtain ⟨_, _, hfiles'⟩ := hsound other hother
  have hraw : release.raw = other.raw := by
    rw [(hfiles.typed.1 htyped).2, (hfiles'.typed.1 htyped').2]
  exact List.inj_on_of_nodup_map hunrepeated hrelease hother hraw

theorem lists_collect (version : String) (classifiers : List String)
    (listing : List (String × List ReleaseFile)) :
    Lists version classifiers listing
      (IndexDocument.collect ⟨version, classifiers, Json.lastOfEach listing⟩) := by
  generalize hdocument : IndexDocument.mk version classifiers (Json.lastOfEach listing) = document
  have hlisted : ∀ key files, (key, files) ∈ document.releases ↔ Json.IsLast key files listing := by
    intro key files
    rw [← hdocument, Json.mem_lastOfEach_iff]
  have hkeys : (document.releases.map Prod.fst).Nodup := by
    rw [← hdocument]
    exact Json.nodup_lastOfEach listing
  have hfound := hkeys.sublist (map_raw_filterMap_sublist document document.releases)
  have hunrepeated : (document.collect.map Release.raw).Nodup :=
    ((Release.newestFirst_perm _).map Release.raw).nodup_iff.2 hfound
  have hsound : ∀ release ∈ document.collect, ∃ files,
      Json.IsLast release.raw files listing ∧ IsRelease version classifiers files release := by
    intro release hrelease
    obtain ⟨files, hfiles, hrelease⟩ := mem_collect_iff.1 hrelease
    obtain ⟨_, hrelease⟩ := isRelease_of_release? hrelease
    rw [← hdocument] at hrelease
    exact ⟨files, (hlisted _ _).1 hfiles, hrelease⟩
  refine ⟨hsound, ?_, hunrepeated, newestFirst_isNewer hfound, eq_of_typed hunrepeated hsound⟩
  intro key files found hlast hfiles hparse
  obtain ⟨release, hrelease⟩ := exists_release? document hfiles hparse
  obtain ⟨rfl, _⟩ := isRelease_of_release? hrelease
  exact ⟨release, mem_collect_iff.2 ⟨files, (hlisted _ _).2 hlast, hrelease⟩, rfl⟩

/-- The last files of each key are the same in both listings, but for their order. -/
def SameFiles (listing listing' : List (String × List ReleaseFile)) : Prop :=
  ∀ key files, Json.IsLast key files listing →
    ∃ files', Json.IsLast key files' listing' ∧ files.Perm files'

theorem Lists.mem_of_sameFiles (hreleases : Lists version classifiers listing releases)
    (hreleases' : Lists version classifiers listing' releases')
    (hsame : SameFiles listing listing') : ∀ release ∈ releases, release ∈ releases' := by
  intro release hrelease
  obtain ⟨files, hlast, hfiles⟩ := hreleases.sound release hrelease
  obtain ⟨files', hlast', hperm⟩ := hsame _ _ hlast
  have hne : files' ≠ [] := by
    rintro rfl
    exact hfiles.files_ne_nil hperm.eq_nil
  -- The key stands for some release of the other list, which the same files tell.
  obtain ⟨other, hother, hraw⟩ := hreleases'.complete _ _ _ hlast' hne hfiles.spelled
  obtain ⟨files'', hlast'', hfiles'⟩ := hreleases'.sound other hother
  rw [hraw] at hlast''
  obtain rfl := hlast'.unique hlast''
  rw [hfiles.unique hfiles' (fun file => hperm.mem_iff) hraw.symm]
  exact hother

/-- A listing has one list of releases. -/
theorem Lists.unique (hreleases : Lists version classifiers listing releases)
    (hreleases' : Lists version classifiers listing' releases')
    (hsame : SameFiles listing listing') (hsame' : SameFiles listing' listing) :
    releases = releases' := by
  apply hreleases.decreasing.eq_of_mem_iff hreleases'.decreasing
  intro release
  constructor
  · exact hreleases.mem_of_sameFiles hreleases' hsame release
  · exact hreleases'.mem_of_sameFiles hreleases hsame' release

end Listings

end Index

end StubSync
