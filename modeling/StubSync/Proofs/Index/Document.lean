/-
Documents in which a package index describes a distribution.

A document is read as its listing of releases, key by key and file by file.  Neither
the order of the keys nor the order of the files comes through to the releases.
-/
import Mathlib.Data.List.Perm.Basic
import StubSync.Proofs.Index.Releases
import StubSync.Proofs.Json.Document
import StubSync.Proofs.Json.Record

namespace StubSync

namespace Index

section Lists

variable {α β : Type} {read : α → Option β} {items items' : List α} {values : List β}

/-- Items in another order are read as the same values in another order. -/
theorem exists_mapM_of_perm (hread : items.mapM read = some values) (hperm : items.Perm items') :
    ∃ values', items'.mapM read = some values' ∧ values.Perm values' := by
  obtain ⟨values', hread', hvalues⟩ :=
    List.perm_comp_forall₂ hperm.symm (Json.mapM_eq_some_iff.1 hread)
  exact ⟨values', Json.mapM_eq_some_iff.2 hread', hvalues.symm⟩

theorem map_fst_eq {left : List (String × α)} {right : List (String × β)}
    {related : String × α → String × β → Prop} (hrelated : List.Forall₂ related left right)
    (hkey : ∀ {entry other}, related entry other → entry.1 = other.1) :
    left.map Prod.fst = right.map Prod.fst := by
  induction hrelated with
  | nil => rfl
  | cons hentry hrelated ih => rw [List.map_cons, List.map_cons, hkey hentry, ih]

end Lists

section Listings

variable {entries entries' : List (String × Json)} {value value' : Json}
  {listing listing' : List (String × List ReleaseFile)}

/-- The files of each key, which may be repeated. -/
def listing? : Json → Option (List (String × List ReleaseFile))
  | .object entries => entries.mapM fun (key, value) => do
      return (key, ← Json.listOf? ReleaseFile.ofJson? value)
  | _ => none

theorem releases?_eq (value : Json) :
    IndexDocument.releases? value = (listing? value).map Json.lastOfEach := by
  cases value with
  | object entries =>
      rw [IndexDocument.releases?, listing?, Option.map_eq_bind]
      rfl
  | null | flag | number | text | list | damaged => rfl

/-- The entry is listed with the files that it has. -/
def IsListedAs (entry : String × Json) (listed : String × List ReleaseFile) : Prop :=
  entry.1 = listed.1 ∧ Json.listOf? ReleaseFile.ofJson? entry.2 = some listed.2

theorem listing?_eq_some_iff : listing? (.object entries) = some listing ↔
    List.Forall₂ IsListedAs entries listing := by
  have hread : ∀ (entry : String × Json) (listed : String × List ReleaseFile),
      ((Json.listOf? ReleaseFile.ofJson? entry.2).bind fun files => some (entry.1, files)) =
        some listed ↔ IsListedAs entry listed := by
    rintro entry ⟨key, files⟩
    rw [Option.bind_eq_some_iff]
    constructor
    · rintro ⟨found, hfound, heq⟩
      cases heq
      exact ⟨rfl, hfound⟩
    · rintro ⟨rfl, hfound⟩
      exact ⟨files, hfound, rfl⟩
  rw [listing?, Json.mapM_eq_some_iff]
  constructor
  · exact List.Forall₂.imp fun entry listed => (hread entry listed).1
  · exact List.Forall₂.imp fun entry listed => (hread entry listed).2

/-- The entries have the same keys, and the same lists of files but for their order. -/
def SameItems (entry entry' : String × Json) : Prop :=
  entry.1 = entry'.1 ∧ ∃ items items', entry.2 = .list items ∧ entry'.2 = .list items' ∧
    items.Perm items'

/-- The releases are given in another order, no key being repeated, or the files of
each of them are. -/
inductive Rearranges : Json → Json → Prop where
  | entries {entries entries' : List (String × Json)}
      (unrepeated : (entries.map Prod.fst).Nodup) (perm : entries.Perm entries') :
      Rearranges (.object entries) (.object entries')
  | files {entries entries' : List (String × Json)}
      (same : List.Forall₂ SameItems entries entries') :
      Rearranges (.object entries) (.object entries')

theorem Rearranges.symm (hrearranges : Rearranges value value') : Rearranges value' value := by
  cases hrearranges with
  | entries hunrepeated hperm =>
      exact .entries ((hperm.map Prod.fst).nodup_iff.1 hunrepeated) hperm.symm
  | files hsame =>
      apply Rearranges.files
      apply hsame.flip.imp
      rintro entry entry' ⟨hkey, items, items', hitems, hitems', hperm⟩
      exact ⟨hkey.symm, items', items, hitems', hitems, hperm.symm⟩

theorem sameFiles_of_perm (hunrepeated : (listing.map Prod.fst).Nodup)
    (hperm : listing.Perm listing') : SameFiles listing listing' := by
  intro key files hlast
  have hunrepeated' := (hperm.map Prod.fst).nodup_iff.1 hunrepeated
  refine ⟨files, ?_, List.Perm.rfl⟩
  rw [Json.isLast_iff_mem hunrepeated']
  exact hperm.mem_iff.1 hlast.mem

/-- The files are listed under the same key, in whatever order. -/
def SameListed (listed listed' : String × List ReleaseFile) : Prop :=
  listed.1 = listed'.1 ∧ listed.2.Perm listed'.2

theorem sameFiles_of_sameListed (hsame : List.Forall₂ SameListed listing listing') :
    SameFiles listing listing' := by
  intro key files hlast
  induction hsame with
  | nil => cases hlast
  | cons hlisted hsame ih =>
      rename_i listed listed' listing listing'
      rcases Json.isLast_cons_iff.1 hlast with hlater | ⟨hunrepeated, rfl⟩
      · obtain ⟨files', hlast', hperm⟩ := ih hlater
        exact ⟨files', .later hlast', hperm⟩
      · obtain ⟨key', files'⟩ := listed'
        obtain ⟨rfl, hperm⟩ := hlisted
        rw [map_fst_eq hsame And.left] at hunrepeated
        exact ⟨files', .here hunrepeated, hperm⟩

theorem IsListedAs.exists_sameListed {entry entry' : String × Json}
    {listed : String × List ReleaseFile} (hlisted : IsListedAs entry listed)
    (hsame : SameItems entry entry') :
    ∃ listed', IsListedAs entry' listed' ∧ SameListed listed listed' := by
  obtain ⟨hkey, hfiles⟩ := hlisted
  obtain ⟨hkey', items, items', hitems, hitems', hperm⟩ := hsame
  rw [hitems] at hfiles
  obtain ⟨files', hfiles', hlisted⟩ := exists_mapM_of_perm hfiles hperm
  refine ⟨(entry'.1, files'), ⟨rfl, ?_⟩, hkey.symm.trans hkey', hlisted⟩
  rw [hitems']
  exact hfiles'

theorem exists_sameListed (hsame : List.Forall₂ SameItems entries entries')
    (hlisting : List.Forall₂ IsListedAs entries listing) :
    ∃ listing', List.Forall₂ IsListedAs entries' listing' ∧
      List.Forall₂ SameListed listing listing' := by
  induction hsame generalizing listing with
  | nil =>
      cases hlisting
      exact ⟨[], .nil, .nil⟩
  | cons hentry hsame ih =>
      cases hlisting with
      | cons hlisted hlisting =>
          obtain ⟨listed', hlisted', hsameListed⟩ := hlisted.exists_sameListed hentry
          obtain ⟨listing', hlisting', hsameListing⟩ := ih hlisting
          exact ⟨listed' :: listing', .cons hlisted' hlisting', .cons hsameListed hsameListing⟩

/-- Rearranged releases are listed with the same files. -/
theorem Rearranges.sameFiles (hrearranges : Rearranges value value')
    (hlisting : listing? value = some listing) :
    ∃ listing', listing? value' = some listing' ∧ SameFiles listing listing' := by
  cases hrearranges with
  | entries hunrepeated hperm =>
      obtain ⟨listing', hlisting', hlisted⟩ := exists_mapM_of_perm hlisting hperm
      refine ⟨listing', hlisting', sameFiles_of_perm ?_ hlisted⟩
      rw [← map_fst_eq (listing?_eq_some_iff.1 hlisting) And.left]
      exact hunrepeated
  | files hsame =>
      rw [listing?_eq_some_iff] at hlisting
      obtain ⟨listing', hlisting', hlisted⟩ := exists_sameListed hsame hlisting
      exact ⟨listing', listing?_eq_some_iff.2 hlisting', sameFiles_of_sameListed hlisted⟩

end Listings

section Documents

variable {body body' package version : String} {classifiers : List String}
  {listing : List (String × List ReleaseFile)} {document : IndexDocument}
  {releases : List Release} {info : Option Json} {value value' : Json}

/-- What a body says of the newest version, and of the releases. -/
def parts? (body : String) : Option (Option Json × Option Json) := do
  let record ← (Json.read? body).bind (Json.Record.ofJson? ["info", "releases"])
  return (record.find? "info", record.find? "releases")

/-- The body describes a distribution: its newest version with the classifiers of that
version, and the listing of its releases, which may be left out. -/
def Describes (body version : String) (classifiers : List String)
    (listing : List (String × List ReleaseFile)) : Prop :=
  ∃ info releases, parts? body = some (some info, releases) ∧
    IndexDocument.info? info = some (version, classifiers) ∧
    releases.elim (some []) listing? = some listing

/-- Releases that are left out are listed as none. -/
theorem defaulted_releases (record : Json.Record) :
    record.defaulted "releases" [] IndexDocument.releases? =
      ((record.find? "releases").elim (some []) listing?).map Json.lastOfEach := by
  rw [Json.Record.defaulted]
  cases record.find? "releases" with
  | none => rfl
  | some releases => exact releases?_eq releases

theorem read?_of_describes (hdescribes : Describes body version classifiers listing) :
    IndexDocument.read? body = some ⟨version, classifiers, Json.lastOfEach listing⟩ := by
  obtain ⟨info, releases, hparts, hinfo, hlisting⟩ := hdescribes
  obtain ⟨record, hrecord, hparts⟩ := Option.bind_eq_some_iff.1 hparts
  obtain ⟨value, hvalue, hrecord⟩ := Option.bind_eq_some_iff.1 hrecord
  obtain ⟨hfound, rfl⟩ := Prod.mk.inj (Option.some.inj hparts)
  have hrequired : record.required "info" IndexDocument.info? = some (version, classifiers) := by
    rw [Json.Record.required, hfound, Option.bind_some, hinfo]
  have hdefaulted := defaulted_releases record
  rw [hlisting] at hdefaulted
  rw [IndexDocument.read?, hvalue, Option.bind_some, IndexDocument.ofJson?, hrecord]
  simp only [Option.bind_eq_bind, Option.bind_some, hrequired, hdefaulted]
  rfl

theorem describes_of_read? (hread : IndexDocument.read? body = some document) :
    ∃ listing, Describes body document.version document.classifiers listing := by
  obtain ⟨value, hvalue, hread⟩ := Option.bind_eq_some_iff.1 hread
  obtain ⟨record, hrecord, hread⟩ := Option.bind_eq_some_iff.1 hread
  obtain ⟨⟨version, classifiers⟩, hrequired, hread⟩ := Option.bind_eq_some_iff.1 hread
  obtain ⟨releases, hdefaulted, hread⟩ := Option.bind_eq_some_iff.1 hread
  cases hread
  obtain ⟨info, hfound, hinfo⟩ := Option.bind_eq_some_iff.1 hrequired
  rw [defaulted_releases] at hdefaulted
  obtain ⟨listing, hlisting, _⟩ := Option.map_eq_some_iff.1 hdefaulted
  refine ⟨listing, info, record.find? "releases", ?_, hinfo, hlisting⟩
  rw [parts?, hvalue, Option.bind_some, hrecord, ← hfound]
  rfl

theorem parseReleases_of_describes (hdescribes : Describes body version classifiers listing)
    (package : String) : ∃ releases, parseReleases body package = .ok releases ∧
      Lists version classifiers listing releases := by
  refine ⟨_, ?_, lists_collect version classifiers listing⟩
  rw [parseReleases, read?_of_describes hdescribes]

theorem describes_of_parseReleases (hparse : parseReleases body package = .ok releases) :
    ∃ version classifiers listing, Describes body version classifiers listing := by
  rw [parseReleases] at hparse
  split at hparse
  · rename_i document hread
    obtain ⟨listing, hdescribes⟩ := describes_of_read? hread
    exact ⟨document.version, document.classifiers, listing, hdescribes⟩
  · cases hparse

/-- Bodies without a description are refused alike. -/
theorem parseReleases_of_not_describes
    (hnot : ∀ version classifiers listing, ¬ Describes body version classifiers listing)
    (package : String) : parseReleases body package = .error (.invalid package registryName
      "failed to parse JSON: no description of a distribution") := by
  cases hread : IndexDocument.read? body with
  | none => rw [parseReleases, hread]
  | some document =>
      obtain ⟨listing, hdescribes⟩ := describes_of_read? hread
      exact absurd hdescribes (hnot _ _ listing)

/-- A description whose releases are rearranged is a description still. -/
theorem Describes.rearrange (hdescribes : Describes body version classifiers listing)
    (hparts : parts? body = some (info, some value))
    (hparts' : parts? body' = some (info, some value')) (hrearranges : Rearranges value value') :
    ∃ listing', Describes body' version classifiers listing' ∧ SameFiles listing listing' ∧
      SameFiles listing' listing := by
  obtain ⟨found, releases, hfound, hinfo, hlisting⟩ := hdescribes
  rw [hparts] at hfound
  cases hfound
  -- Rearranged back, the listing is the one that was there before.
  obtain ⟨listing', hlisting', hsame⟩ := hrearranges.sameFiles hlisting
  obtain ⟨back, hback, hsame'⟩ := hrearranges.symm.sameFiles hlisting'
  obtain rfl : back = listing := Option.some.inj (hback.symm.trans hlisting)
  exact ⟨listing', ⟨found, some value', hparts', hinfo, hlisting'⟩, hsame, hsame'⟩

theorem parseReleases_eq_of_rearranges (package : String)
    (hparts : parts? body = some (info, some value))
    (hparts' : parts? body' = some (info, some value')) (hrearranges : Rearranges value value') :
    parseReleases body' package = parseReleases body package := by
  by_cases hdescribes : ∃ version classifiers listing, Describes body version classifiers listing
  · obtain ⟨version, classifiers, listing, hdescribes⟩ := hdescribes
    obtain ⟨listing', hdescribes', hsame, hsame'⟩ :=
      hdescribes.rearrange hparts hparts' hrearranges
    obtain ⟨releases, hparse, hlists⟩ := parseReleases_of_describes hdescribes package
    obtain ⟨releases', hparse', hlists'⟩ := parseReleases_of_describes hdescribes' package
    rw [hparse, hparse', hlists.unique hlists' hsame hsame']
  · have hnot : ∀ version classifiers listing, ¬ Describes body version classifiers listing := by
      intro version classifiers listing hfound
      exact hdescribes ⟨version, classifiers, listing, hfound⟩
    have hnot' : ∀ version classifiers listing, ¬ Describes body' version classifiers listing := by
      intro version classifiers listing hfound
      obtain ⟨listing', hfound, _⟩ := hfound.rearrange hparts' hparts hrearranges.symm
      exact hnot version classifiers listing' hfound
    rw [parseReleases_of_not_describes hnot, parseReleases_of_not_describes hnot']

/-- The releases of a document are read exactly, and only from a document: every key
with files that spells a version stands for one release, they come from the newest to
the oldest, and the order in which the document gives them does not matter. -/
theorem parseReleases_exact (package : String) :
    (∀ body, (∃ releases, parseReleases body package = .ok releases) ↔
      ∃ version classifiers listing, Describes body version classifiers listing) ∧
    (∀ body version classifiers listing, Describes body version classifiers listing →
      ∃ releases, parseReleases body package = .ok releases ∧
        Lists version classifiers listing releases) ∧
    ∀ body body' info value value', parts? body = some (info, some value) →
      parts? body' = some (info, some value') → Rearranges value value' →
        parseReleases body' package = parseReleases body package := by
  refine ⟨?_, ?_, ?_⟩
  · intro body
    constructor
    · rintro ⟨releases, hparse⟩
      exact describes_of_parseReleases hparse
    · rintro ⟨version, classifiers, listing, hdescribes⟩
      obtain ⟨releases, hparse, _⟩ := parseReleases_of_describes hdescribes package
      exact ⟨releases, hparse⟩
  · intro body version classifiers listing hdescribes
    exact parseReleases_of_describes hdescribes package
  · intro body body' info value value' hparts hparts' hrearranges
    exact parseReleases_eq_of_rearranges package hparts hparts' hrearranges

end Documents

namespace DocumentExample

open Json (IsWhole)

def info : Json :=
  .object [("version", .text "2.0"), ("classifiers", .list [.text "Typing :: Typed"])]

def fresh : Json := .object []

def yanked : Json := .object [("yanked", .flag true)]

/-- A key that is repeated, two spellings of one version, and a key that is none. -/
def listed (files : List Json) : Json :=
  .object [("1.0", .list []), ("2.0", .list files), ("v2", .list [fresh]),
    ("latest", .list [fresh]), ("1.0", .list [fresh])]

def body (files : List Json) : String :=
  Json.pretty (.object [("info", info), ("releases", listed files)]) ++ "\n"

theorem parts?_body {files : List Json} (hfiles : ∀ file ∈ files, IsWhole file) :
    parts? (body files) = some (some info, some (listed files)) := by
  have hfresh : IsWhole (.list [fresh]) := .list (List.forall_mem_singleton.2 (.object nofun))
  have hlisted : IsWhole (listed files) := by
    refine .object ?_
    simp only [List.forall_mem_cons]
    exact ⟨.list nofun, .list hfiles, hfresh, hfresh, hfresh, nofun⟩
  have hinfo : IsWhole info := by
    refine .object ?_
    rw [List.forall_mem_cons, List.forall_mem_singleton]
    exact ⟨.text _, .list (List.forall_mem_singleton.2 (.text _))⟩
  have hwhole : IsWhole (.object [("info", info), ("releases", listed files)]) := by
    refine .object ?_
    rw [List.forall_mem_cons, List.forall_mem_singleton]
    exact ⟨hinfo, hlisted⟩
  rw [parts?, body, Json.read?_pretty hwhole (List.all_eq_true.1 rfl)]
  rfl

def listing : List (String × List ReleaseFile) :=
  [("1.0", []), ("2.0", [⟨none, true⟩, ⟨none, false⟩]), ("v2", [⟨none, false⟩]),
    ("latest", [⟨none, false⟩]), ("1.0", [⟨none, false⟩])]

theorem parseReleases_listed :
    Describes (body [yanked, fresh]) "2.0" ["Typing :: Typed"] listing ∧
      ∃ releases, parseReleases (body [yanked, fresh]) "left" = .ok releases ∧
        Lists "2.0" ["Typing :: Typed"] listing releases ∧
        parseReleases (body [fresh, yanked]) "left" = .ok releases := by
  have hfresh : IsWhole fresh := .object nofun
  have hyanked : IsWhole yanked := .object (List.forall_mem_singleton.2 (.flag true))
  have hparts := parts?_body (List.forall_mem_cons.2 ⟨hyanked, List.forall_mem_singleton.2 hfresh⟩)
  have hparts' := parts?_body (List.forall_mem_cons.2 ⟨hfresh, List.forall_mem_singleton.2 hyanked⟩)
  have hdescribes : Describes (body [yanked, fresh]) "2.0" ["Typing :: Typed"] listing :=
    ⟨_, _, hparts, rfl, rfl⟩
  have hsame : ∀ {key items items'}, items.Perm items' →
      SameItems (key, .list items) (key, .list items') :=
    fun hperm => ⟨rfl, _, _, rfl, rfl, hperm⟩
  have hrearranges : Rearranges (listed [yanked, fresh]) (listed [fresh, yanked]) := by
    refine .files (.cons (hsame .rfl) (.cons (hsame (.swap _ _ _)) ?_))
    exact .cons (hsame .rfl) (.cons (hsame .rfl) (.cons (hsame .rfl) .nil))
  obtain ⟨releases, hparse, hlists⟩ := (parseReleases_exact "left").2.1 _ _ _ _ hdescribes
  refine ⟨hdescribes, releases, hparse, hlists, ?_⟩
  rw [(parseReleases_exact "left").2.2 _ _ _ _ _ hparts hparts' hrearranges, hparse]

end DocumentExample

end Index

end StubSync
