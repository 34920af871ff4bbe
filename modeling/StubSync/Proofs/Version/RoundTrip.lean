/-
Versions that have been read are spelled by texts that are read as the same
versions.
-/
import StubSync.Proofs.Text.Blank
import StubSync.Proofs.Version.Spelling

namespace StubSync

namespace Version

section Plain

/-- The characters of canonical spellings. -/
def isPlain (c : Char) : Bool :=
  isLabelChar c || isSeparator c || c == '!' || c == '+'

theorem toNat_of_isLabelChar {c : Char} (hlabel : isLabelChar c = true) :
    48 ≤ c.toNat ∧ c.toNat ≤ 57 ∨ 97 ≤ c.toNat ∧ c.toNat ≤ 122 := by
  have hranges : (decide (48 ≤ c.toNat) && decide (c.toNat ≤ 57) ||
      decide (97 ≤ c.toNat) && decide (c.toNat ≤ 122)) = true := hlabel
  simpa only [Bool.or_eq_true, Bool.and_eq_true, decide_eq_true_eq] using hranges

theorem toNat_of_isPlain {c : Char} (hplain : isPlain c = true) :
    0x20 < c.toNat ∧ c.toNat < 0x7F ∧ ¬ (65 ≤ c.toNat ∧ c.toNat ≤ 90) := by
  simp only [isPlain, isSeparator, Bool.or_eq_true, beq_iff_eq] at hplain
  rcases hplain with ((hlabel | (rfl | rfl) | rfl) | rfl) | rfl
  · have hrange := toNat_of_isLabelChar hlabel
    omega
  all_goals decide

theorem isBlank_of_isPlain {c : Char} (hplain : isPlain c = true) :
    Text.isBlank c = false :=
  Text.isBlank_eq_false_of_visible (toNat_of_isPlain hplain).1 (toNat_of_isPlain hplain).2.1

theorem toLower_of_isPlain {c : Char} (hplain : isPlain c = true) : c.toLower = c := by
  have hupper := (toNat_of_isPlain hplain).2.2
  unfold Char.toLower
  split
  · rename_i hrange
    exact absurd hrange hupper
  · rfl

theorem isPlain_of_isLocalLabel {text : List Char} (hlabel : isLocalLabel text = true) :
    ∀ c ∈ text, isPlain c = true := by
  unfold isLocalLabel at hlabel
  fun_induction Text.isGrouped isLabelChar isSeparator text with
  | case1 => cases hlabel
  | case2 c => simp [isPlain, hlabel]
  | case3 c d rest ihnext ihlater =>
      rw [Bool.and_eq_true, Bool.or_eq_true, Bool.and_eq_true] at hlabel
      obtain ⟨hc, hnext | ⟨hd, hlater⟩⟩ := hlabel
      · exact List.forall_mem_cons.2 ⟨by simp [isPlain, hc], ihnext hnext⟩
      · exact List.forall_mem_cons.2 ⟨by simp [isPlain, hc],
          List.forall_mem_cons.2 ⟨by simp [isPlain, hd], ihlater hlater⟩⟩

variable {version : Version}

/-- What a version is spelled as without its local label. -/
def front (version : Version) : List Char :=
  version.spellEpoch ++ spellSegments version.release ++ version.spellPre ++
    version.spellPost ++ version.spellDev

theorem spell_eq (version : Version) : version.spell = version.front ++ version.spellLocal :=
  rfl

/-- The characters that stand in front of a local label. -/
def isFront (c : Char) : Bool :=
  isLabelChar c || c == '.' || c == '!'

theorem isPlain_of_isFront {c : Char} (hfront : isFront c = true) : isPlain c = true := by
  simp only [isFront, Bool.or_eq_true, beq_iff_eq] at hfront
  rcases hfront with (hlabel | rfl) | rfl
  · simp [isPlain, hlabel]
  · decide
  · decide

theorem isFront_of_all {text : List Char} (htext : text.all isFront = true) :
    ∀ c ∈ text, isFront c = true :=
  List.all_eq_true.1 htext

theorem isFront_of_mem_digits (n : Nat) : ∀ c ∈ Decimal.digits n, isFront c = true := by
  intro c hc
  simp [isFront, isLabelChar, Decimal.isDigit_of_mem_digits hc]

theorem isFront_of_mem_spellSegments (release : List Nat) :
    ∀ c ∈ spellSegments release, isFront c = true := by
  fun_induction spellSegments release with
  | case1 => simp
  | case2 n => exact isFront_of_mem_digits n
  | case3 n others _ ih =>
      exact List.forall_mem_append.2
        ⟨isFront_of_mem_digits n, List.forall_mem_cons.2 ⟨by decide, ih⟩⟩

theorem isFront_of_mem_front (version : Version) : ∀ c ∈ version.front, isFront c = true := by
  have hepoch : ∀ c ∈ version.spellEpoch, isFront c = true := by
    unfold spellEpoch
    split
    · simp
    · exact List.forall_mem_append.2 ⟨isFront_of_mem_digits _, isFront_of_all rfl⟩
  have hpre : ∀ c ∈ version.spellPre, isFront c = true := by
    unfold spellPre
    split
    · simp
    · rename_i phase n hpart
      refine List.forall_mem_append.2 ⟨?_, isFront_of_mem_digits n⟩
      cases phase <;> exact isFront_of_all rfl
  have hpost : ∀ c ∈ version.spellPost, isFront c = true := by
    unfold spellPost
    split
    · simp
    · exact List.forall_mem_append.2 ⟨isFront_of_all rfl, isFront_of_mem_digits _⟩
  have hdev : ∀ c ∈ version.spellDev, isFront c = true := by
    unfold spellDev
    split
    · simp
    · exact List.forall_mem_append.2 ⟨isFront_of_all rfl, isFront_of_mem_digits _⟩
  simp only [front, List.forall_mem_append]
  exact ⟨⟨⟨⟨hepoch, isFront_of_mem_spellSegments _⟩, hpre⟩, hpost⟩, hdev⟩

/-- A character of a spelling is plain, or it stands in the local label. -/
theorem isPlain_or_mem_label {c : Char} (hc : c ∈ version.spell) :
    isPlain c = true ∨ ∃ label ∈ version.localLabel, c ∈ label.toList := by
  rw [spell_eq, List.mem_append] at hc
  rcases hc with hfront | hlocal
  · exact Or.inl (isPlain_of_isFront (isFront_of_mem_front version c hfront))
  · unfold spellLocal at hlocal
    cases hlabel : version.localLabel with
    | none => simp [hlabel] at hlocal
    | some label =>
        rw [hlabel, List.mem_cons] at hlocal
        rcases hlocal with rfl | hmem
        · exact Or.inl (by decide)
        · exact Or.inr ⟨label, rfl, hmem⟩

theorem isPlain_of_mem_spell (hwell : version.WellFormed) :
    ∀ c ∈ version.spell, isPlain c = true := by
  intro c hc
  rcases isPlain_or_mem_label hc with hplain | ⟨label, hlabel, hmem⟩
  · exact hplain
  · exact isPlain_of_isLocalLabel (hwell.isLocalLabel label hlabel) c hmem

theorem normalise_of_isPlain {text : List Char} (htext : ∀ c ∈ text, isPlain c = true) :
    normalise (String.ofList text) = text := by
  have hlower : text.map Char.toLower = text.map id :=
    List.map_congr_left fun c hc => toLower_of_isPlain (htext c hc)
  rw [normalise, String.toList_ofList,
    Text.trim_eq_self fun c hc => isBlank_of_isPlain (htext c hc), Text.lowerAscii, hlower,
    List.map_id]

theorem read?_toString (hwell : version.WellFormed) : read? (toString version) = some version := by
  change read? (String.ofList version.spell) = some version
  rw [read?, normalise_of_isPlain (isPlain_of_mem_spell hwell), ofSpelling?_spell hwell,
    Option.filter_some_pos hwell.fits]

/-- The spelling of a version is read as the version. -/
theorem parse_toString (hwell : version.WellFormed) :
    parse (toString version) = .ok version := by
  rw [parse, read?_toString hwell]

end Plain

section Read

variable {version : Version}

theorem parse_eq_ok_iff_read? {text : String} :
    parse text = .ok version ↔ read? text = some version := by
  rw [parse]
  cases read? text with
  | none => simp
  | some found => simp

/-- The numbers of a version that is read are bounded; its spelling need not be
canonical. -/
theorem parse_eq_ok_iff {text : String} :
    parse text = .ok version ↔ Spells (normalise text) version ∧ version.fits = true := by
  rw [parse_eq_ok_iff_read?, read?, Option.filter_eq_some_iff, ofSpelling?_iff]

theorem SpellsRelease.ne_nil {text : List Char} {release : List Nat}
    (hrelease : SpellsRelease text release) : release ≠ [] := by
  cases hrelease <;> exact List.cons_ne_nil _ _

theorem isLocalLabel_of_spellsLocal {text : List Char} {found : Option String}
    (hlabel : Optionally SpellsLocal text found) :
    ∀ label ∈ found, isLocalLabel label.toList = true := by
  cases hlabel with
  | missing => exact nofun
  | there htext =>
      obtain ⟨hlabel⟩ := htext
      rintro label ⟨rfl⟩
      rw [String.toList_ofList]
      exact Text.isGrouped_iff.2 hlabel

theorem Spells.wellFormed {text : List Char} (hspells : Spells text version)
    (hfits : version.fits = true) : version.WellFormed := by
  cases hspells with
  | parts _ _ hrelease _ _ _ hlabel _ =>
      exact
        { release_ne_nil := hrelease.ne_nil
          isLocalLabel := isLocalLabel_of_spellsLocal hlabel
          fits := hfits }

/-- Only well-formed versions are read. -/
theorem wellFormed_of_parse {text : String} (hparse : parse text = .ok version) :
    version.WellFormed := by
  obtain ⟨hspells, hfits⟩ := parse_eq_ok_iff.1 hparse
  exact hspells.wellFormed hfits

/-- A version can be read from some text exactly if it is well-formed. -/
theorem wellFormed_iff : version.WellFormed ↔ ∃ text, parse text = .ok version := by
  constructor
  · intro hwell
    exact ⟨toString version, parse_toString hwell⟩
  · rintro ⟨text, hparse⟩
    exact wellFormed_of_parse hparse

end Read

/-- What is read is what the grammar derives in bounded numbers, and it is read
again from the way it is shown. -/
theorem parse_accepts_grammar :
    (∀ text version, parse text = .ok version ↔
      Spells (normalise text) version ∧ version.fits = true) ∧
    ∀ text version, parse text = .ok version → parse (toString version) = .ok version := by
  constructor
  · intro text version
    exact parse_eq_ok_iff
  · intro text version hparse
    exact parse_toString (wellFormed_of_parse hparse)

namespace GrammarExample

/-- The first number behind the label belongs to the pre-release. -/
def version : Version where
  epoch := 1
  release := [1, 0]
  pre := some (.alpha, 5)
  post := some 2
  dev := some 0
  localLabel := some "ab.1"

theorem parse_spelling :
    parse "\u3000V01!1.00-Alpha-5-2_DEV.+Ab.1 " = .ok version ∧
      toString version = "1!1.0a5.post2.dev0+ab.1" ∧
      parse (toString version) = .ok version ∧
      Spells (normalise "\u3000V01!1.00-Alpha-5-2_DEV.+Ab.1 ") version := by
  have hparse : parse "\u3000V01!1.00-Alpha-5-2_DEV.+Ab.1 " = .ok version := by
    rfl
  exact ⟨hparse, by decide +kernel, parse_accepts_grammar.2 _ _ hparse,
    ((parse_accepts_grammar.1 _ _).1 hparse).1⟩

end GrammarExample

theorem WellFormed.truncated {version : Version} (hwell : version.WellFormed) {count : Nat}
    (hcount : 0 < count) : (version.truncated count).WellFormed where
  release_ne_nil := by
    intro hnil
    have hlength := congrArg List.length hnil
    simp only [Version.truncated, List.length_append, List.length_take, List.length_replicate,
      List.length_nil] at hlength
    omega
  isLocalLabel := nofun
  fits := by
    have hfits := hwell.fits
    simp only [Version.fits, Bool.and_eq_true, List.all_eq_true, decide_eq_true_eq] at hfits
    obtain ⟨⟨⟨⟨hepoch, hrelease⟩, _⟩, _⟩, _⟩ := hfits
    simp only [Version.fits, Version.truncated, Option.all_none, Bool.and_true,
      Bool.and_eq_true, List.all_eq_true, decide_eq_true_eq, List.mem_append,
      List.mem_replicate]
    refine ⟨decide_eq_true hepoch, ?_⟩
    rintro n (hn | ⟨_, rfl⟩)
    · exact hrelease n (List.mem_of_mem_take hn)
    · decide

end Version

end StubSync
