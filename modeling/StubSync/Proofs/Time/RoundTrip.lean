/-
An instant is read from the text that shows it.
-/
import StubSync.Proofs.Text.Blank
import StubSync.Proofs.Text.Decimal
import StubSync.Proofs.Time.Calendar
import StubSync.Time.Reader
import Mathlib.Data.Option.Basic

namespace StubSync

namespace Instant

open Decimal (IsNumber NoDigitAhead padded)

section Numbers

variable {run rest : List Char} {n : Nat}

theorem trimStart_number (hrun : IsNumber run n) (rest : List Char) :
    Text.trimStart (run ++ rest) = run ++ rest := by
  obtain ⟨c, others, rfl, hc⟩ := hrun.exists_cons
  exact Text.trimStart_cons (Text.isBlank_eq_false_of_isDigit hc) _

theorem digits?_append {width : Nat} (hrun : IsNumber run n) (hlength : run.length ≤ width)
    (hrest : NoDigitAhead rest) : digits? width (run ++ rest) = some (n, rest) := by
  obtain ⟨htake, _⟩ := Decimal.split_append hrun.isDigit hrest
  have hdrop : (run ++ rest).drop run.length = rest := List.drop_left
  simp only [digits?, trimStart_number hrun, htake, List.take_of_length_le hlength]
  split
  · exact absurd rfl hrun.ne_nil
  · rw [hrun.value_eq, hdrop]

theorem digits?_padded {width : Nat} (hwidth : 0 < width) (hn : n < 10 ^ width)
    (hrest : NoDigitAhead rest) : digits? width (padded width n ++ rest) = some (n, rest) :=
  digits?_append (Decimal.isNumber_padded width n)
    (Nat.le_of_eq (Decimal.length_padded hwidth hn)) hrest

theorem mark?_cons {c : Char} (hc : Text.isBlank c = false) (rest : List Char) :
    mark? c (c :: rest) = some rest := by
  rw [mark?, Text.trimStart_cons hc]
  exact if_pos rfl

end Numbers

section Days

variable {rest : List Char}

theorem year?_of_isDigit {c : Char} (hc : c.isDigit = true) (rest : List Char) :
    year? (c :: rest) = (digits? 4 (c :: rest)).map fun (n, rest) => ((n : Int), rest) := by
  rw [year?, Text.trimStart_cons (Text.isBlank_eq_false_of_isDigit hc)]
  split
  · rename_i heq
    cases heq
    exact absurd hc (by decide)
  · rename_i heq
    cases heq
    exact absurd hc (by decide)
  · rfl

theorem year?_spellYear (year : Int) (hrest : NoDigitAhead rest) :
    year? (Day.spellYear year ++ rest) = some (year, rest) := by
  unfold Day.spellYear
  split
  · rename_i hyear
    obtain ⟨c, others, hcons, hc⟩ := (Decimal.isNumber_padded 4 year.toNat).exists_cons
    have hread : digits? 4 (padded 4 year.toNat ++ rest) = some (year.toNat, rest) :=
      digits?_padded (by decide) (by omega) hrest
    rw [hcons, List.cons_append] at hread ⊢
    rw [year?_of_isDigit hc, hread, Option.map_some]
    exact congrArg some (Prod.ext (Int.toNat_of_nonneg hyear.1) rfl)
  · have hnumber := Decimal.isNumber_padded 4 year.natAbs
    have hread : Decimal.number? (padded 4 year.natAbs ++ rest) = some (year.natAbs, rest) :=
      Decimal.number?_eq_some_iff.2 ⟨_, rfl, hnumber, hrest⟩
    split
    · have hminus : year? ('-' :: (padded 4 year.natAbs ++ rest)) =
          (Decimal.number? (padded 4 year.natAbs ++ rest)).map
            fun (n, rest) => (-(n : Int), rest) := rfl
      rw [List.cons_append, hminus, hread, Option.map_some]
      refine congrArg some (Prod.ext ?_ rfl)
      change -(year.natAbs : Int) = year
      omega
    · have hplus : year? ('+' :: (padded 4 year.natAbs ++ rest)) =
          (Decimal.number? (padded 4 year.natAbs ++ rest)).map
            fun (n, rest) => ((n : Int), rest) := rfl
      rw [List.cons_append, hplus, hread, Option.map_some]
      refine congrArg some (Prod.ext ?_ rfl)
      change (year.natAbs : Int) = year
      omega

theorem day?_spell {date : Day} (hvalid : date.isValid = true) (hrest : NoDigitAhead rest) :
    day? (date.spell ++ rest) = some (date, rest) := by
  have hdays : date.month ≤ 12 ∧ date.day ≤ 31 := by
    have hlimit := Day.daysInMonth_le date.year date.month
    simp only [Day.isValid, Bool.and_eq_true, decide_eq_true_eq] at hvalid
    omega
  have hmark : ∀ rest, NoDigitAhead ('-' :: rest) :=
    fun rest => Decimal.noDigitAhead_cons rest (by decide)
  have hyear : ∀ rest, year? (Day.spellYear date.year ++ '-' :: rest) =
      some (date.year, '-' :: rest) := fun rest => year?_spellYear _ (hmark rest)
  have hmonth : ∀ rest, digits? 2 (padded 2 date.month ++ '-' :: rest) =
      some (date.month, '-' :: rest) :=
    fun rest => digits?_padded (by decide) (by omega) (hmark rest)
  have hday : digits? 2 (padded 2 date.day ++ rest) = some (date.day, rest) :=
    digits?_padded (by decide) (by omega) hrest
  have hdash : ∀ rest, mark? '-' ('-' :: rest) = some rest := mark?_cons (by decide)
  simp only [day?, Day.spell, List.append_assoc, List.cons_append, hyear, hmonth, hday, hdash,
    Option.bind_eq_bind, Option.bind_some]
  rfl

end Days

section Clock

/-- Digits behind the point, with as many zeros as make up nine digits. -/
theorem fraction?_padded {width n : Nat} (hwidth : 0 < width) (hnine : width ≤ 9)
    (hn : n < 10 ^ width) (rest : List Char) :
    fraction? ('.' :: (padded width n ++ 'Z' :: rest)) =
      some (n * 10 ^ (9 - width), 'Z' :: rest) := by
  have hnumber := Decimal.isNumber_padded width n
  obtain ⟨htake, hdrop⟩ := Decimal.split_append hnumber.isDigit
    (Decimal.noDigitAhead_cons (c := 'Z') rest (by decide))
  have hlength := Decimal.length_padded hwidth hn
  have hkept : (padded width n).take 9 = padded width n :=
    List.take_of_length_le (by omega)
  simp only [fraction?, htake, hdrop]
  split
  · rename_i hnil
    exact absurd hnil hnumber.ne_nil
  · rw [hkept, hnumber.value_eq, hlength]
    rfl

theorem fraction?_spellFraction {nanos : Nat} (hnanos : nanos < 1000000000) (rest : List Char) :
    fraction? (spellFraction nanos ++ 'Z' :: rest) = some (nanos, 'Z' :: rest) := by
  unfold spellFraction
  split
  · rename_i hzero
    rw [hzero]
    rfl
  · split
    · rw [List.cons_append, fraction?_padded (by decide) (by decide) (by omega)]
      refine congrArg some (Prod.ext ?_ rfl)
      change nanos / 1000000 * 1000000 = nanos
      omega
    · split
      · rw [List.cons_append, fraction?_padded (by decide) (by decide) (by omega)]
        refine congrArg some (Prod.ext ?_ rfl)
        change nanos / 1000 * 1000 = nanos
        omega
      · rw [List.cons_append, fraction?_padded (by decide) (by decide) (by omega)]
        exact congrArg some (Prod.ext (Nat.mul_one nanos) rfl)

theorem noDigitAhead_spellFraction (nanos : Nat) (rest : List Char) :
    NoDigitAhead (spellFraction nanos ++ 'Z' :: rest) := by
  unfold spellFraction
  repeat' split
  all_goals exact Decimal.noDigitAhead_cons _ (by decide)

end Clock

/-- The instant lies in the range of years of the calendar, and only the last
second of a minute is a leap second. -/
structure IsProper (instant : Instant) : Prop where
  hasYearInRange : instant.hasYearInRange = true
  nanos_lt : instant.nanos < 2000000000
  leap : 1000000000 ≤ instant.nanos → instant.seconds % 60 = 59

section Reading

variable {instant : Instant}

/-- The seconds of a day that have passed. -/
def ofDay (instant : Instant) : Nat :=
  (Int.fmod instant.seconds secondsPerDay).toNat

/-- One in a leap second. -/
def leap (instant : Instant) : Nat :=
  if instant.nanos ≥ 1000000000 then 1 else 0

theorem seconds_eq (instant : Instant) :
    instant.day.count * secondsPerDay + instant.ofDay = instant.seconds ∧
      instant.ofDay < 86400 := by
  have hfdiv : Int.fdiv instant.seconds 86400 = instant.seconds / 86400 :=
    Int.fdiv_eq_ediv_of_nonneg _ (by decide)
  have hfmod : Int.fmod instant.seconds 86400 = instant.seconds % 86400 :=
    Int.fmod_eq_emod_of_nonneg _ (by decide)
  rw [ofDay, day, secondsPerDay, hfdiv, hfmod, Day.count_ofCount]
  omega

theorem toList_toString (instant : Instant) : (toString instant).toList =
    instant.day.spell ++ 'T' :: (padded 2 (instant.ofDay / 3600) ++ ':' ::
      (padded 2 (instant.ofDay / 60 % 60) ++ ':' ::
        (padded 2 (instant.ofDay % 60 + instant.leap) ++
          (spellFraction (instant.nanos % 1000000000) ++ ['Z'])))) := by
  change (String.ofList instant.spell).toList = _
  simp only [String.toList_ofList, spell, List.append_assoc, List.cons_append]
  rfl

/-- The second of a minute is shown as the 60th exactly in a leap second. -/
theorem IsProper.leap_cases (hproper : instant.IsProper) :
    instant.ofDay % 60 + instant.leap = 60 ∧ instant.ofDay % 60 = 59 ∧
        1000000000 ≤ instant.nanos ∨
      instant.ofDay % 60 + instant.leap = instant.ofDay % 60 ∧ instant.nanos < 1000000000 := by
  obtain ⟨hseconds, _⟩ := instant.seconds_eq
  unfold Instant.leap
  split
  · rename_i hlate
    have hlast := hproper.leap hlate
    rw [← hseconds, secondsPerDay] at hlast
    omega
  · omega

/-- The instant that the parts of a text put together. -/
theorem IsProper.ofParts (hproper : instant.IsProper) :
    (⟨instant.day.count * secondsPerDay +
        ((instant.ofDay / 3600 : Nat) * 3600 + (instant.ofDay / 60 % 60 : Nat) * 60 +
          (if instant.ofDay % 60 + instant.leap = 60 then 59
            else instant.ofDay % 60 + instant.leap : Nat)) - 0,
      if instant.ofDay % 60 + instant.leap = 60 then instant.nanos % 1000000000 + 1000000000
        else instant.nanos % 1000000000⟩ : Instant) = instant := by
  obtain ⟨hseconds, hofDay⟩ := instant.seconds_eq
  have hnanos := hproper.nanos_lt
  obtain ⟨seconds, nanos⟩ := instant
  rw [Instant.mk.injEq]
  rcases hproper.leap_cases with ⟨hsixty, hlast, hlate⟩ | ⟨hsame, hearly⟩
  · rw [if_pos hsixty, if_pos hsixty]
    simp only at *
    omega
  · rw [if_neg (by omega), if_neg (by omega), hsame]
    simp only at *
    omega

/-- An instant is read back from the text that shows it. -/
theorem read?_toString (hproper : instant.IsProper) :
    read? (toString instant) = some instant := by
  obtain ⟨_, hofDay⟩ := instant.seconds_eq
  have hsixty : instant.ofDay % 60 + instant.leap ≤ 60 := by
    rcases hproper.leap_cases with ⟨hsixty, _⟩ | ⟨hsame, _⟩ <;> omega
  have hcolon : ∀ rest, mark? ':' (':' :: rest) = some rest := mark?_cons (by decide)
  have hahead : ∀ rest, NoDigitAhead (':' :: rest) :=
    fun rest => Decimal.noDigitAhead_cons rest (by decide)
  have hdate : ∀ rest, day? (instant.day.spell ++ 'T' :: rest) =
      some (instant.day, 'T' :: rest) :=
    fun rest => day?_spell (Day.isValid_ofCount _) (Decimal.noDigitAhead_cons rest (by decide))
  have hseparator : ∀ rest, separator? ('T' :: rest) = some rest := fun _ => rfl
  have hhour : ∀ rest, digits? 2 (padded 2 (instant.ofDay / 3600) ++ ':' :: rest) =
      some (instant.ofDay / 3600, ':' :: rest) :=
    fun rest => digits?_padded (by decide) (by omega) (hahead rest)
  have hminute : ∀ rest, digits? 2 (padded 2 (instant.ofDay / 60 % 60) ++ ':' :: rest) =
      some (instant.ofDay / 60 % 60, ':' :: rest) :=
    fun rest => digits?_padded (by decide) (by omega) (hahead rest)
  have hsecond : digits? 2 (padded 2 (instant.ofDay % 60 + instant.leap) ++
      (spellFraction (instant.nanos % 1000000000) ++ ['Z'])) =
        some (instant.ofDay % 60 + instant.leap,
          spellFraction (instant.nanos % 1000000000) ++ ['Z']) :=
    digits?_padded (by decide) (by omega) (noDigitAhead_spellFraction _ [])
  have hfraction := fraction?_spellFraction
    (Nat.mod_lt instant.nanos (show 0 < 1000000000 by decide)) []
  have hoffset : offset? ['Z'] = some (0, []) := rfl
  have hvalid : (instant.day.isValid && decide (yearRange.1 ≤ instant.day.year) &&
      decide (instant.day.year ≤ yearRange.2)) = true := by
    have hyear : (decide (yearRange.1 ≤ instant.day.year) &&
      decide (instant.day.year ≤ yearRange.2)) = true := hproper.hasYearInRange
    rw [Bool.and_assoc, hyear, Bool.and_true]
    exact Day.isValid_ofCount _
  have hclock : (decide (instant.ofDay / 3600 < 24) && decide (instant.ofDay / 60 % 60 < 60) &&
      decide (instant.ofDay % 60 + instant.leap ≤ 60)) = true := by
    simp only [Bool.and_eq_true, decide_eq_true_eq]
    omega
  simp only [read?, toList_toString, hdate, hseparator, hhour, hminute, hsecond, hcolon,
    hfraction, hoffset, hvalid, hclock, hproper.ofParts, hproper.hasYearInRange,
    Option.bind_eq_bind, Option.bind_some]
  rfl

end Reading

end Instant

end StubSync
