/-
Metadata with an action carried out.

An edit changes or adds one line, which it finds without reading the text as a
document.  Where the text before that line is a document of its own, the line
stands between the lines of the document, and then the edit changes the value
of one key at the top level and nothing else.
-/
import StubSync.Proofs.Metadata.Edits
import StubSync.Proofs.Metadata.Line
import StubSync.Proofs.Settling

namespace StubSync

namespace Metadata

open Toml (isHeadless isBlankChar expressions)
open Toml.Entries (SetsText)

section Reading

variable {kept before after : List (List Char)} {line key lead : List Char}

theorem dropWhile_head_of_isTableHeader {content : List Char} (rest : List Char)
    (hheader : isTableHeader (content ++ rest) = false) :
    (content.dropWhile isBlankChar).head? ≠ some '[' := by
  intro hbracket
  have hne : content.dropWhile isBlankChar ≠ [] := by
    intro hnil
    rw [hnil] at hbracket
    cases hbracket
  have hwhole : (content ++ rest).dropWhile isLineBlank = content.dropWhile isBlankChar ++ rest := by
    have hsame : content.dropWhile isLineBlank = content.dropWhile isBlankChar := rfl
    rw [List.dropWhile_append, hsame, if_neg (by simpa using hne)]
  rw [isTableHeader, hwhole, Toml.head?_append hne, hbracket] at hheader
  cases hheader

theorem isHeadless_flatten (hheader : ∀ line ∈ kept, isTableHeader line = false)
    (hlines : ∀ before line after, kept = before ++ line :: after →
      Text.IsFullLine line ∨ Text.IsOpenLine line ∧ after = []) :
    isHeadless true kept.flatten = true := by
  induction kept with
  | nil => rfl
  | cons line kept ih =>
      obtain ⟨hline, hheader⟩ := List.forall_mem_cons.1 hheader
      have hkept : isHeadless true kept.flatten = true := by
        apply ih hheader
        intro before other after hsplit
        exact hlines (line :: before) other after (congrArg (line :: ·) hsplit)
      rw [List.flatten_cons]
      rcases hlines [] line kept rfl with ⟨content, hcontent, rfl⟩ | ⟨⟨_, hopen⟩, rfl⟩
      · rw [List.append_assoc, Toml.isHeadless_line true hcontent (Or.inr rfl)
          fun _ => dropWhile_head_of_isTableHeader _ hline]
        exact hkept
      · have hstart : isTableHeader (line ++ []) = false := by
          rw [List.append_nil]
          exact hline
        rw [List.flatten_nil, Toml.isHeadless_line true hopen (Or.inl rfl)
          fun _ => dropWhile_head_of_isTableHeader _ hstart]
        rfl

theorem parted_append (hline : Text.IsFullLine line) (front tail : List Char) :
    Toml.Parted (front ++ line) tail := by
  obtain ⟨content, _, rfl⟩ := hline
  left
  rw [← List.append_assoc, List.getLast?_concat]

theorem parted_flatten (hfull : ∀ line ∈ kept, Text.IsFullLine line) (tail : List Char)
    (hne : kept.flatten ≠ []) : Toml.Parted kept.flatten tail := by
  rcases List.eq_nil_or_concat kept with rfl | ⟨others, line, rfl⟩
  · exact absurd rfl hne
  · rw [List.concat_eq_append] at hfull ⊢
    rw [List.flatten_concat]
    apply parted_append
    exact hfull line (List.mem_append_right _ (List.mem_singleton.2 rfl))

theorem withoutOrderMark_cons {c : Char} (hc : isBlankChar c = true ∨ Toml.isBareKeyChar c = true)
    (rest : List Char) : Text.withoutOrderMark (c :: rest) = c :: rest := by
  rw [Text.withoutOrderMark, if_neg]
  intro hmark
  have hc' : c = Char.ofNat 0xFEFF := by
    rw [← hmark, Char.ofNat_toNat]
  rw [hc'] at hc
  revert hc
  decide

theorem withoutOrderMark_lead (hkey : Toml.IsBareKey key) (hlead : Toml.IsKeyLead key lead)
    (rest : List Char) : Text.withoutOrderMark (lead ++ rest) = lead ++ rest := by
  obtain ⟨before, between, blanks, rfl, hbefore, -, -⟩ := hlead
  obtain ⟨c, others, rfl⟩ := List.exists_cons_of_ne_nil hkey.1
  cases before with
  | nil => exact withoutOrderMark_cons (Or.inr (List.forall_mem_cons.1 hkey.2).1) _
  | cons d before => exact withoutOrderMark_cons (Or.inl (List.forall_mem_cons.1 hbefore).1) _

end Reading

section Agreement

variable {package : Package} {action : Action} {out text : String} {kept rest : List (List Char)}
  {before after : List (List Char)} {line : List Char} {root left right : Toml.Entries}

theorem isBareKey_changedKey (action : Action) : Toml.IsBareKey (changedKey action) := by
  cases action with
  | update current target => exact isBareKey_versionKey
  | markObsolete since => exact isBareKey_obsoleteKey
  | rest reason => exact isBareKey_versionKey
  | review reason => exact isBareKey_versionKey

theorem eq_ofList_of_lines (hlines : Text.lines text.toList = kept ++ rest) :
    text = String.ofList (kept.flatten ++ rest.flatten) := by
  rw [← List.flatten_append, ← hlines, Text.lines_flatten, String.ofList_toList]

theorem isHeadless_of_lines (hlines : Text.lines text.toList = kept ++ rest)
    (hheader : ∀ line ∈ kept, isTableHeader line = false) :
    isHeadless true kept.flatten = true := by
  apply isHeadless_flatten hheader
  rintro before line after rfl
  rw [List.append_assoc] at hlines
  rcases Text.isFullLine_of_lines hlines with hfull | ⟨hopen, hnil⟩
  · exact Or.inl hfull
  · exact Or.inr ⟨hopen, (List.append_eq_nil_iff.1 hnil).1⟩

/-- A value that is replaced in a line behind a document is the only one that
changes. -/
theorem setsText_of_replaced {key value : List Char} {assignment : Assignment}
    (hkey : Toml.IsBareKey key) (hvalue : IsSimple value)
    (hlines : Text.lines text.toList = before ++ line :: after)
    (hheader : ∀ other ∈ before, isTableHeader other = false)
    (hassigned : Assignment.ofLine? key line = some assignment)
    (hkept : Toml.read (String.ofList before.flatten) = .ok root)
    (hleft : Toml.read text = .ok left)
    (hright : Toml.read (String.ofList (before.flatten ++
      (assignment.withValue value ++ after.flatten))) = .ok right)
    (htext : left.HasText "version") (htext' : right.HasText "version") :
    SetsText (String.ofList key) (String.ofList value) left right := by
  have hassignment := Assignment.isAt_of_ofLine? hassigned
  have hfull := Text.isFullLine_of_mem hlines
  have hheadless := isHeadless_of_lines hlines hheader
  have hstart : Text.withoutOrderMark (line ++ after.flatten) = line ++ after.flatten := by
    obtain ⟨close, _, hline⟩ := hassignment.line
    rw [hline, List.append_assoc, List.append_assoc]
    exact withoutOrderMark_lead hkey hassignment.lead _
  have hstart' : Text.withoutOrderMark (assignment.withValue value ++ after.flatten) =
      assignment.withValue value ++ after.flatten := by
    rw [Assignment.withValue, List.append_assoc, List.append_assoc]
    exact withoutOrderMark_lead hkey hassignment.lead _
  rw [eq_ofList_of_lines hlines, List.flatten_cons] at hleft
  obtain ⟨fuel, hleft⟩ := Toml.exists_read_behind (parted_flatten hfull _) hheadless htext
    (fun _ => hstart) hkept hleft
  obtain ⟨fuel', hright⟩ := Toml.exists_read_behind (parted_flatten hfull _) hheadless htext'
    (fun _ => hstart') hkept hright
  have hlast : Text.IsFullLine line ∨ Text.IsOpenLine line ∧ after.flatten = [] := by
    rcases Text.isFullLine_of_lines hlines with hline | ⟨hopen, rfl⟩
    · exact Or.inl hline
    · exact Or.inr ⟨hopen, rfl⟩
  exact setsText_of_withValue hkey hassignment hlast hvalue hleft hright

/-- A value in a line that is added behind a document is the only one that is
new. -/
theorem setsText_of_inserted {key value : List Char} (hkey : Toml.IsBareKey key)
    (hvalue : IsSimple value) (hlines : Text.lines text.toList = before ++ line :: after)
    (hheader : ∀ other ∈ before ++ [line], isTableHeader other = false)
    (hkept : Toml.read (String.ofList (before.flatten ++ line)) = .ok root)
    (hleft : Toml.read text = .ok left)
    (hright : Toml.read (String.ofList (before.flatten ++ (ended line ++
      (key ++ " = \"".toList ++ value ++ ['"'] ++ '\n' :: after.flatten)))) = .ok right)
    (htext : left.HasText "version") (htext' : right.HasText "version") :
    SetsText (String.ofList key) (String.ofList value) left right := by
  have hlines' : Text.lines text.toList = (before ++ [line]) ++ after := by
    rw [hlines]
    simp
  have hheadless := isHeadless_of_lines hlines' hheader
  have hne : before.flatten ++ line ≠ [] := by
    rcases Text.isFullLine_of_lines hlines with ⟨content, _, rfl⟩ | ⟨hopen, _⟩
    · simp
    · exact List.append_ne_nil_of_right_ne_nil _ hopen.1
  rw [eq_ofList_of_lines hlines'] at hleft
  rw [List.flatten_concat] at hleft hheadless
  rcases Text.isFullLine_of_lines hlines with hline | ⟨hopen, rfl⟩
  · have hparted := parted_append hline before.flatten
    rw [ended_of_isFullLine hline, ← List.append_assoc] at hright
    obtain ⟨fuel, hleft⟩ := Toml.exists_read_behind (fun _ => hparted _) hheadless htext
      (fun hnil => absurd hnil hne) hkept hleft
    obtain ⟨fuel', hright⟩ := Toml.exists_read_behind (fun _ => hparted _) hheadless htext'
      (fun hnil => absurd hnil hne) hkept hright
    exact setsText_of_added hkey hvalue hleft hright
  · rw [List.flatten_nil, List.append_nil, hkept] at hleft
    cases hleft
    rw [ended_of_isOpenLine hopen, List.append_assoc line, List.singleton_append,
      ← List.append_assoc] at hright
    obtain ⟨fuel, hright⟩ := Toml.exists_read_behind (fun _ => Or.inr rfl) hheadless htext'
      (fun hnil => absurd hnil hne) hkept hright
    have hnothing : expressions 1 ⟨root, []⟩ [] = .ok root := rfl
    exact setsText_of_added hkey hvalue hnothing
      (Toml.expressions_congr (Toml.skipLayout_feed _) hright)

theorem Edits.setsText (hedits : Edits package action out)
    (hvalue : IsSimple (writtenValue package action))
    (hkept : Toml.read (textBefore package action) = .ok root)
    (hleft : Toml.read package.metadataSource = .ok left) (hright : Toml.read out = .ok right)
    (htext : left.HasText "version") (htext' : right.HasText "version") :
    SetsText (String.ofList (changedKey action))
      (String.ofList (writtenValue package action)) left right := by
  have hkey := isBareKey_changedKey action
  cases hedits with
  | replaced hlines hheader hassigned hbefore hout =>
      rw [hbefore] at hkept
      rw [hout] at hright
      exact setsText_of_replaced hkey hvalue hlines hheader hassigned hkept hleft hright
        htext htext'
  | added hlines hheader hbefore hout =>
      rw [hbefore] at hkept
      rw [hout] at hright
      exact setsText_of_inserted hkey hvalue hlines hheader hkept hleft hright htext htext'

end Agreement

section Written

variable {package : Package} {action : Action} {target : Version} {value : List Char}

theorem isSimple_of_isPlain (hne : value ≠ [])
    (hvalue : ∀ c ∈ value, Version.isPlain c = true ∨ c = '*') : IsSimple value := by
  refine ⟨hne, ?_⟩
  intro c hc
  rcases hvalue c hc with hplain | rfl
  · obtain ⟨hlow, hhigh, _⟩ := Version.toNat_of_isPlain hplain
    have hmark : ∀ d, Version.isPlain d = false → c ≠ d := by
      rintro d hd rfl
      rw [hplain] at hd
      cases hd
    refine ⟨?_, ?_, hmark '\\' (by decide)⟩
    · simp only [Toml.isPlainChar, Bool.or_eq_true, Bool.and_eq_true, decide_eq_true_eq,
        bne_iff_ne]
      exact Or.inr ⟨hlow.le, hhigh.ne⟩
    · simp [isQuote, hmark '"' (by decide), hmark '\'' (by decide)]
  · decide

/-- What an action writes needs no escapes. -/
theorem isSimple_writtenValue (hminimum : package.minVersion.version.WellFormed)
    (htarget : action.target? = some target) (hwell : target.WellFormed) :
    IsSimple (writtenValue package action) := by
  have hspell : ∀ {version : Version}, version.WellFormed →
      ∀ c ∈ (toString version).toList, Version.isPlain c = true ∨ c = '*' := by
    intro version hversion c hc
    change c ∈ (String.ofList version.spell).toList at hc
    rw [String.toList_ofList] at hc
    exact Or.inl (Version.isPlain_of_mem_spell hversion c hc)
  have hne : (toString target).toList ≠ [] := by
    change (String.ofList target.spell).toList ≠ []
    rw [String.toList_ofList]
    exact Version.spell_ne_nil hwell
  cases action with
  | update current =>
      cases htarget
      rw [writtenValue, Constraint.bumpedTo]
      split
      · have hlength := List.length_pos_iff.2 hminimum.release_ne_nil
        rw [String.toList_append]
        refine isSimple_of_isPlain (by simp) (List.forall_mem_append.2 ⟨?_, ?_⟩)
        · exact hspell (hwell.truncated hlength)
        · have hstar : ∀ c ∈ ['.', '*'], Version.isPlain c = true ∨ c = '*' := by
            rw [List.forall_mem_cons, List.forall_mem_singleton]
            decide
          exact hstar
      · exact isSimple_of_isPlain hne (hspell hwell)
  | markObsolete since =>
      cases htarget
      exact isSimple_of_isPlain hne (hspell hwell)
  | rest reason => cases htarget
  | review reason => cases htarget

end Written

section Meaning

variable {package edited : Package} {action : Action} {target : Version}
  {name path source out : String} {releases : List Release}

/-- The package that an action leads to, with the new text of its metadata. -/
def carriedOut (package : Package) (out : String) : Action → Package
  | .update _ target =>
      { package with minVersion := package.minVersion.raisedTo target, metadataSource := out }
  | .markObsolete since =>
      { package with obsoleteSince := some (toString since), metadataSource := out }
  | .rest _ | .review _ => package

theorem isSpelled_minVersion (hparse : parse name path source = .ok package) :
    package.minVersion.IsSpelled := by
  obtain ⟨entries, fields, _, _, hpackage⟩ := exists_fields hparse
  obtain ⟨version, _, hversion⟩ := hpackage.minVersion
  exact Constraint.isSpelled_of_parse hversion

theorem hasText_version {entries : Toml.Entries} (hparse : parse name path source = .ok package)
    (hread : Toml.read source = .ok entries) : entries.HasText "version" := by
  obtain ⟨found, fields, hfound, hfields, hpackage⟩ := exists_fields hparse
  rw [hread] at hfound
  cases hfound
  obtain ⟨version, hversion, _⟩ := hpackage.minVersion
  have hfield := (ofEntries_eq_ok_iff.1 hfields).1
  rw [hversion] at hfield
  exact hasText_of_textField? hfield

/-- Where an action changes the value of its key only, the text is read as the
package that the action leads to. -/
theorem eq_carriedOut {before after : Toml.Entries} {content : String}
    (hparse : parse name path source = .ok package) (hedited : parse name path out = .ok edited)
    (hbefore : Toml.read source = .ok before) (hafter : Toml.read out = .ok after)
    (hsets : SetsText (String.ofList (changedKey action)) content before after)
    (hcarried : isCarriedOut package action edited = true)
    (htarget : action.target? = some target) (hwell : target.WellFormed) :
    edited = carriedOut package out action := by
  have hspelled := isSpelled_minVersion hparse
  have hspelled' := isSpelled_minVersion hedited
  obtain ⟨before', fields, hread, hfields, hpackage⟩ := exists_fields hparse
  obtain ⟨after', fields', hread', hfields', hpackage'⟩ := exists_fields hedited
  rw [hbefore] at hread
  cases hread
  rw [hafter] at hread'
  cases hread'
  have hsame := sameBut_of_agreeBut hsets.others hfields hfields'
  cases action with
  | update current =>
      cases htarget
      have hraised := Constraint.isSpelled_of_parse
        (Constraint.parse_bumpedTo hspelled.wellFormed hwell)
      have hminVersion : edited.minVersion = package.minVersion.raisedTo target :=
        Constraint.eq_of_raw hspelled' hraised (eq_of_beq hcarried)
      have heq := hpackage.eq_of_sameBut hpackage' hsame (Or.inl rfl)
      rw [hminVersion, hpackage.obsoleteSince_eq hpackage' hsame] at heq
      exact heq
  | markObsolete since =>
      have hobsoleteSince : edited.obsoleteSince = some (toString since) := eq_of_beq hcarried
      have heq := hpackage.eq_of_sameBut hpackage' hsame (Or.inr rfl)
      rw [hobsoleteSince, hpackage.minVersion_eq hpackage' hsame] at heq
      exact heq
  | rest reason => cases htarget
  | review reason => cases htarget

/-- An edit whose place stands behind a document changes one key. -/
theorem edit_setsText (hparse : parse name path source = .ok package)
    (htarget : action.target? = some target) (hwell : target.WellFormed)
    (hedit : edit package action = .ok out)
    (hkept : ∃ kept, Toml.read (textBefore package action) = .ok kept) :
    ∃ before after, Toml.read source = .ok before ∧ Toml.read out = .ok after ∧
      SetsText (String.ofList (changedKey action)) (String.ofList (writtenValue package action))
        before after ∧
      parse name path out = .ok (carriedOut package out action) := by
  obtain ⟨kept, hkept⟩ := hkept
  obtain ⟨before, fields, hbefore, hfields, hpackage⟩ := exists_fields hparse
  obtain ⟨hedits, edited, hedited, hcarried⟩ := edits_of_edit hedit
  have hname : package.name = name := congrArg Package.name hpackage.rest
  have hpath : package.metadataPath = path := congrArg Package.metadataPath hpackage.rest
  have hsource : package.metadataSource = source :=
    congrArg Package.metadataSource hpackage.rest
  rw [hname, hpath] at hedited
  obtain ⟨after, fields', hafter, _, _⟩ := exists_fields hedited
  have hvalue := isSimple_writtenValue (isSpelled_minVersion hparse).wellFormed htarget hwell
  have hsets := hedits.setsText hvalue hkept (by rw [hsource, hbefore]) hafter
    (hasText_version hparse hbefore) (hasText_version hedited hafter)
  rw [← eq_carriedOut hparse hedited hbefore hafter hsets hcarried htarget hwell]
  exact ⟨before, after, hbefore, hafter, hsets, hedited⟩

theorem exists_target_of_isCarriedOut (hcarried : isCarriedOut package action edited = true) :
    ∃ target, action.target? = some target := by
  cases action with
  | update current target => exact ⟨target, rfl⟩
  | markObsolete since => exact ⟨since, rfl⟩
  | rest reason => cases hcarried
  | review reason => cases hcarried

/-- Where the text before the line that is changed or added is a document of its
own, an edit gives one key at the top level the value that the verdict asks for.
No other key changes its value, and the text is read as the package that was
edited, but for what that key says. -/
theorem edit_changes_one_key (hparse : parse name path source = .ok package)
    (hreleases : ∀ release ∈ releases,
      ∃ spelling, Version.parse spelling = .ok release.version)
    (hedit : edit package (classify package releases) = .ok out)
    (hkept : ∃ kept, Toml.read (textBefore package (classify package releases)) = .ok kept) :
    ∃ before after, Toml.read source = .ok before ∧ Toml.read out = .ok after ∧
      SetsText (String.ofList (changedKey (classify package releases)))
        (String.ofList (writtenValue package (classify package releases))) before after ∧
      parse name path out = .ok (carriedOut package out (classify package releases)) := by
  obtain ⟨_, edited, _, hcarried⟩ := edits_of_edit hedit
  obtain ⟨target, htarget⟩ := exists_target_of_isCarriedOut hcarried
  obtain ⟨release, hrelease, rfl⟩ := exists_release_of_target htarget
  have hwell := Version.wellFormed_iff.2 (hreleases release hrelease)
  exact edit_setsText hparse htarget hwell hedit hkept

end Meaning

namespace RewriteExample

def path : String := "stubs/left/METADATA.toml"

def released : List Release :=
  [{ version := ⟨0, [1, 1], none, none, none, none⟩, raw := "1.1", prerelease := false }]

def stubs (distribution source : String) : Package where
  name := "left"
  distribution := distribution
  minVersion := ⟨"1.0", ⟨0, [1, 0], none, none, none, none⟩, false⟩
  metadataPath := path
  metadataSource := source

/-- A version that stands behind a text of two lines, in front of a comment and of
a table with a version of its own. -/
def source : String :=
  "upstream = \"\"\"\nleft\"\"\"\nversion = '1.0' # declared\n[tool]\nversion = \"9\"\n"

def rewritten : String :=
  "upstream = \"\"\"\nleft\"\"\"\nversion = '1.1' # declared\n[tool]\nversion = \"9\"\n"

theorem edit_changes_version :
    parse "left" path source = .ok (stubs "left" source) ∧
      edit (stubs "left" source) (classify (stubs "left" source) released) = .ok rewritten ∧
      ∃ before after, Toml.read source = .ok before ∧ Toml.read rewritten = .ok after ∧
        SetsText "version" "1.1" before after ∧
        parse "left" path rewritten = .ok (carriedOut (stubs "left" source) rewritten
          (classify (stubs "left" source) released)) := by
  have hparse : parse "left" path source = .ok (stubs "left" source) := by decide +kernel
  have hedit : edit (stubs "left" source) (classify (stubs "left" source) released) =
      .ok rewritten := by decide +kernel
  have hkept : ∃ kept, Toml.read (textBefore (stubs "left" source)
      (classify (stubs "left" source) released)) = .ok kept := by
    have hok : (Toml.read (textBefore (stubs "left" source)
        (classify (stubs "left" source) released))).isOk = true := by decide +kernel
    cases hkept : Toml.read (textBefore (stubs "left" source)
        (classify (stubs "left" source) released)) with
    | error problem =>
        rw [hkept] at hok
        cases hok
    | ok kept => exact ⟨kept, rfl⟩
  have hread : ∀ release ∈ released,
      ∃ spelling, Version.parse spelling = .ok release.version := by
    intro release hrelease
    rw [List.mem_singleton.1 hrelease]
    exact ⟨"1.1", by rfl⟩
  exact ⟨hparse, hedit, edit_changes_one_key hparse hread hedit hkept⟩

/-- The first line that looks like a version stands inside of a text, and the
marks around its value are not alike. -/
def hidden : String :=
  "upstream = \"\"\"\nversion = \"x'\"\"\nb = \"\"\"\nversion = \"1.0\"\nc = \"\"\"\n" ++
    "version = \"1.1\"\nd = \"\"\"\n# \"\"\"\n"

/-- The mark that opens the value closes the text, once it closes the value too. -/
def torn : String :=
  "upstream = \"\"\"\nversion = \"1.1\"\"\"\nb = \"\"\"\nversion = \"1.0\"\nc = \"\"\"\n" ++
    "version = \"1.1\"\nd = \"\"\"\n# \"\"\"\n"

theorem edit_changes_others :
    parse "left" path hidden = .ok (stubs "version = \"x'\"\"\nb = " hidden) ∧
      edit (stubs "version = \"x'\"\"\nb = " hidden)
        (classify (stubs "version = \"x'\"\"\nb = " hidden) released) = .ok torn ∧
      (parse "left" path torn).map Package.distribution = .ok "version = \"1.1" ∧
      (Toml.read hidden).toOption.map (textField? · "c") =
        some (.ok (some "version = \"1.1\"\nd = ")) ∧
      (Toml.read torn).toOption.map (textField? · "c") = some (.ok none) := by
  refine ⟨?_, ?_, ?_, ?_, ?_⟩
  · decide +kernel
  · decide +kernel
  · decide +kernel
  · decide +kernel
  · decide +kernel

end RewriteExample

end Metadata

end StubSync
