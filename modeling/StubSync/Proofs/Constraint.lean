/-
Minimum versions that are raised: the text of a raised constraint is read back,
and what it covers goes on from what was covered before.
-/
import StubSync.Constraint
import StubSync.Proofs.Version.RoundTrip
import StubSync.Proofs.Version.Series

namespace StubSync

namespace Constraint

section Reading

/-- The raw text of the constraint says what the other fields say. -/
def IsSpelled (constraint : Constraint) : Prop :=
  match series? constraint.raw.toList with
  | none => Version.parse constraint.raw = .ok constraint.version ∧
      constraint.wildcard = false
  | some base => Version.parse (String.ofList base) = .ok constraint.version ∧
      constraint.version.isPrerelease = false ∧ constraint.wildcard = true

theorem isSpelled_of_parse {text : String} {constraint : Constraint}
    (hparse : parse text = .ok constraint) : constraint.IsSpelled := by
  unfold parse at hparse
  cases hseries : series? (Text.trim text.toList) with
  | none =>
      simp only [hseries] at hparse
      cases hversion : Version.parse (String.ofList (Text.trim text.toList)) with
      | error error =>
          rw [hversion] at hparse
          cases hparse
      | ok version =>
          rw [hversion] at hparse
          cases hparse
          simp [IsSpelled, hseries, hversion]
  | some base =>
      simp only [hseries] at hparse
      cases hversion : Version.parse (String.ofList base) with
      | error error =>
          rw [hversion] at hparse
          cases hparse
      | ok version =>
          rw [hversion] at hparse
          cases hpre : version.isPrerelease with
          | true =>
              simp only [bind, Except.bind, hpre] at hparse
              cases hparse
          | false =>
              simp only [bind, Except.bind, hpre] at hparse
              cases hparse
              simp [IsSpelled, hseries, hversion, hpre]

/-- Constraints that have been read from one raw text are the same. -/
theorem eq_of_raw {left right : Constraint} (hleft : left.IsSpelled)
    (hright : right.IsSpelled) (hraw : left.raw = right.raw) : left = right := by
  obtain ⟨raw, version, wildcard⟩ := left
  obtain ⟨raw', version', wildcard'⟩ := right
  obtain rfl : raw = raw' := hraw
  unfold IsSpelled at hleft hright
  cases hseries : series? raw.toList with
  | none =>
      simp only [hseries] at hleft hright
      obtain ⟨hversion, rfl⟩ := hleft
      obtain ⟨hversion', rfl⟩ := hright
      rw [hversion] at hversion'
      cases hversion'
      rfl
  | some base =>
      simp only [hseries] at hleft hright
      obtain ⟨hversion, _, rfl⟩ := hleft
      obtain ⟨hversion', _, rfl⟩ := hright
      rw [hversion] at hversion'
      cases hversion'
      rfl

theorem IsSpelled.wellFormed {constraint : Constraint} (hspelled : constraint.IsSpelled) :
    constraint.version.WellFormed := by
  unfold IsSpelled at hspelled
  split at hspelled
  · exact Version.wellFormed_of_parse hspelled.1
  · exact Version.wellFormed_of_parse hspelled.1

theorem series?_append (base : List Char) : series? (base ++ ['.', '*']) = some base := by
  simp [series?]

theorem series?_eq_none {text : List Char} (htext : ∀ c ∈ text, c ≠ '*') :
    series? text = none := by
  unfold series?
  split
  · rename_i rest hreverse
    have hstar : '*' ∈ text := by
      rw [← List.mem_reverse, hreverse]
      exact List.mem_cons_self
    exact absurd rfl (htext '*' hstar)
  · rfl

end Reading

section Raising

variable {constraint : Constraint} {target : Version}

/-- The constraint raised to `target`. -/
def raisedTo (constraint : Constraint) (target : Version) : Constraint where
  raw := constraint.bumpedTo target
  version :=
    if constraint.wildcard then target.truncated constraint.version.release.length else target
  wildcard := constraint.wildcard

theorem toString_append_star (version : Version) :
    toString version ++ ".*" = String.ofList (version.spell ++ ['.', '*']) := by
  rw [String.ofList_append]
  rfl

theorem parse_spell {version : Version} (hwell : version.WellFormed) :
    parse (toString version) = .ok ⟨toString version, version, false⟩ := by
  have hplain := Version.isPlain_of_mem_spell hwell
  have htrim : Text.trim (toString version).toList = version.spell := by
    change Text.trim (String.ofList version.spell).toList = version.spell
    rw [String.toList_ofList]
    exact Text.trim_eq_self fun c hc => Version.isBlank_of_isPlain (hplain c hc)
  have hseries : series? version.spell = none := by
    apply series?_eq_none
    rintro c hc rfl
    exact absurd (hplain '*' hc) (by decide)
  have hread : Version.parse (String.ofList version.spell) = .ok version :=
    Version.parse_toString hwell
  simp only [parse, htrim, hseries, hread]
  rfl

theorem parse_spell_append_star {version : Version} (hwell : version.WellFormed)
    (hpre : version.isPrerelease = false) :
    parse (toString version ++ ".*") = .ok ⟨toString version ++ ".*", version, true⟩ := by
  have hplain := Version.isPlain_of_mem_spell hwell
  have hstar : ∀ c ∈ ['.', '*'], Text.isBlank c = false := by
    rw [List.forall_mem_cons, List.forall_mem_singleton]
    decide
  have hblank : ∀ c ∈ version.spell ++ ['.', '*'], Text.isBlank c = false :=
    List.forall_mem_append.2 ⟨fun c hc => Version.isBlank_of_isPlain (hplain c hc), hstar⟩
  have hread : Version.parse (String.ofList version.spell) = .ok version :=
    Version.parse_toString hwell
  rw [toString_append_star]
  simp only [parse, String.toList_ofList, Text.trim_eq_self hblank, series?_append, hread]
  simp only [bind, Except.bind, hpre]
  rfl

/-- The text of a raised constraint is read as the raised constraint. -/
theorem parse_bumpedTo (hconstraint : constraint.version.WellFormed)
    (htarget : target.WellFormed) :
    parse (constraint.bumpedTo target) = .ok (constraint.raisedTo target) := by
  unfold bumpedTo raisedTo bumpedTo
  split
  · rename_i hwildcard
    have hlength : 0 < constraint.version.release.length :=
      List.length_pos_iff.2 hconstraint.release_ne_nil
    rw [hwildcard]
    exact parse_spell_append_star (htarget.truncated hlength) rfl
  · rename_i hwildcard
    rw [Bool.not_eq_true] at hwildcard
    rw [hwildcard]
    exact parse_spell htarget

end Raising

section Coverage

variable {constraint : Constraint} {target version : Version}

theorem lt_of_not_covers (hnot : constraint.covers target = false) :
    constraint.version < target ∧
      (constraint.wildcard = true → target.isInSeries constraint.version = false) := by
  rw [covers, Bool.or_eq_false_iff, decide_eq_false_iff_not] at hnot
  obtain ⟨hle, hseries⟩ := hnot
  refine ⟨Version.lt_of_not_le hle, ?_⟩
  intro hwildcard
  rwa [hwildcard, Bool.true_and] at hseries

theorem covers_raisedTo (constraint : Constraint) (target : Version) :
    (constraint.raisedTo target).covers target = true := by
  rw [covers, Bool.or_eq_true, decide_eq_true_iff]
  cases hwildcard : constraint.wildcard with
  | true =>
      simp [raisedTo, hwildcard, Version.isInSeries_truncated]
  | false =>
      left
      simpa [raisedTo, hwildcard] using Version.le_refl target

/-- Whatever is covered is below the version of a constraint raised to what is
not covered. -/
theorem lt_raisedTo_of_covers (hnot : constraint.covers target = false)
    (hcovers : constraint.covers version = true) :
    version < (constraint.raisedTo target).version := by
  obtain ⟨hlt, hoff⟩ := lt_of_not_covers hnot
  rw [covers, Bool.or_eq_true, decide_eq_true_iff, Bool.and_eq_true] at hcovers
  cases hwildcard : constraint.wildcard with
  | true =>
      simp only [raisedTo, hwildcard, if_true]
      rcases hcovers with hle | ⟨_, hseries⟩
      · exact Version.lt_of_le_of_lt hle
          (Version.lt_truncated_of_isInSeries hlt (hoff hwildcard)
            (Version.isInSeries_self constraint.version))
      · exact Version.lt_truncated_of_isInSeries hlt (hoff hwildcard) hseries
  | false =>
      simp only [raisedTo, hwildcard]
      rcases hcovers with hle | ⟨hseries, _⟩
      · exact Version.lt_of_le_of_lt hle hlt
      · rw [hwildcard] at hseries
        cases hseries

theorem lt_raisedTo (hnot : constraint.covers target = false) :
    constraint.version < (constraint.raisedTo target).version := by
  apply lt_raisedTo_of_covers hnot
  rw [covers, Bool.or_eq_true, decide_eq_true_iff]
  exact Or.inl (Version.le_refl constraint.version)

theorem covers_raisedTo_of_covers (hnot : constraint.covers target = false)
    (hcovers : constraint.covers version = true) :
    (constraint.raisedTo target).covers version = true := by
  rw [covers, Bool.or_eq_true, decide_eq_true_iff]
  exact Or.inl (Version.le_of_lt (lt_raisedTo_of_covers hnot hcovers))

end Coverage

end Constraint

end StubSync
