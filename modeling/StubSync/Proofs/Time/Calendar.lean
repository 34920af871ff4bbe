/-
Days of the calendar and their counts.

A cycle of 400 years, counted from March, has 146097 days.  The year of a day in
a cycle is estimated by a quotient that never falls as the days go on, so it is
right on all days of a year if it is right on the first and the last one.
-/
import StubSync.Time.Instant

namespace StubSync

namespace Day

section Years

variable {day year : Int}

/-- The days of a cycle before one of its years. -/
def startOf (year : Int) : Int :=
  year * 365 + year / 4 - year / 100

/-- The year that a day of a cycle lies in. -/
def yearOf (day : Int) : Int :=
  (day - day / 1460 + day / 36524 - day / 146096) / 365

theorem yearOf_mono {later : Int} (hle : day ≤ later) : yearOf day ≤ yearOf later := by
  have hshare : day - day / 1460 + day / 36524 - day / 146096 ≤
      later - later / 1460 + later / 36524 - later / 146096 := by omega
  exact Int.ediv_le_ediv (by decide) hshare

theorem yearOf_edges : ∀ year < 400,
    yearOf (startOf (year : Nat)) = year ∧ yearOf (startOf ((year : Nat) + 1) - 1) = year := by
  decide +kernel

/-- A day of a year of a cycle; only leap years have the day 365. -/
structure InYear (year dayOfYear : Int) : Prop where
  year_nonneg : 0 ≤ year
  year_lt : year < 400
  day_nonneg : 0 ≤ dayOfYear
  day_le : dayOfYear ≤ 365
  leap : dayOfYear = 365 → (year + 1) % 4 = 0 ∧ ((year + 1) % 100 ≠ 0 ∨ year = 399)

theorem yearOf_startOf (hnonneg : 0 ≤ year) (hlt : year < 400) :
    yearOf (startOf year) = year ∧ yearOf (startOf (year + 1) - 1) = year := by
  have hedges := yearOf_edges year.toNat (by omega)
  rwa [Int.toNat_of_nonneg hnonneg] at hedges

theorem startOf_le_iff (hday : 0 ≤ day) (hnonneg : 0 ≤ year) (hlt : year < 400) :
    startOf year ≤ day ↔ year ≤ yearOf day := by
  constructor
  · intro hle
    have hyear := yearOf_mono hle
    rwa [(yearOf_startOf hnonneg hlt).1] at hyear
  · intro hle
    by_cases hzero : year = 0
    · rwa [hzero]
    · -- A day before the year would lie in the year before at the latest.
      refine Int.not_lt.1 fun hbefore => ?_
      obtain ⟨_, hlast⟩ := yearOf_startOf (show 0 ≤ year - 1 by omega) (by omega)
      have hmono : yearOf day ≤ yearOf (startOf (year - 1 + 1) - 1) :=
        yearOf_mono (by rw [Int.sub_add_cancel]; omega)
      omega

/-- The estimate of the year is right on every day of a cycle. -/
theorem inYear_yearOf (hday : 0 ≤ day) (hlast : day ≤ 146096) :
    InYear (yearOf day) (day - startOf (yearOf day)) := by
  have hnonneg : 0 ≤ yearOf day := yearOf_mono hday
  have hlt : yearOf day < 400 := by
    have hend : yearOf 146096 = 399 := by decide +kernel
    have hle := yearOf_mono hlast
    omega
  have hstart : startOf (yearOf day) ≤ day :=
    (startOf_le_iff hday hnonneg hlt).2 (Int.le_refl _)
  have hend : day < startOf (yearOf day + 1) ∨ yearOf day = 399 := by
    by_cases hyear : yearOf day = 399
    · exact Or.inr hyear
    · refine Or.inl (Int.not_le.1 fun hbehind => ?_)
      have hle := (startOf_le_iff hday (by omega) (by omega)).1 hbehind
      omega
  generalize yearOf day = year at *
  have hnext : startOf (year + 1) - startOf year =
      365 + ((year + 1) / 4 - year / 4) - ((year + 1) / 100 - year / 100) := by
    unfold startOf
    omega
  refine ⟨hnonneg, hlt, by omega, ?_, ?_⟩
  · rcases hend with hend | rfl
    · omega
    · have hyear : startOf 399 = 145731 := rfl
      omega
  · intro hleap
    rcases hend with hend | rfl
    · omega
    · exact ⟨rfl, Or.inr rfl⟩

end Years

section Months

/-- The month, counted from March, that a day of a year lies in, and its day
there. -/
def monthOf (dayOfYear : Int) : Int :=
  (5 * dayOfYear + 2) / 153

/-- The day of a year, of a cycle, as a day of the calendar. -/
def ofYear (era year dayOfYear : Int) : Day :=
  let month := if monthOf dayOfYear < 10 then monthOf dayOfYear + 3 else monthOf dayOfYear - 9
  ⟨year + era * 400 + (if month ≤ 2 then 1 else 0), month.toNat,
    (dayOfYear - (153 * monthOf dayOfYear + 2) / 5 + 1).toNat⟩

theorem exists_ofYear (count : Int) : ∃ era year dayOfYear, InYear year dayOfYear ∧
    count + 719468 = era * 146097 + startOf year + dayOfYear ∧
    ofCount count = ofYear era year dayOfYear := by
  have hera : Int.fdiv (count + 719468) 146097 = (count + 719468) / 146097 :=
    Int.fdiv_eq_ediv_of_nonneg _ (by decide)
  let era := (count + 719468) / 146097
  let day := count + 719468 - era * 146097
  refine ⟨era, yearOf day, day - startOf (yearOf day), ?_, ?_, ?_⟩
  · exact inYear_yearOf (by omega) (by omega)
  · omega
  · simp only [ofCount, hera]
    have hstart : startOf (yearOf day) = 365 * yearOf day + yearOf day / 4 - yearOf day / 100 := by
      unfold startOf
      omega
    rw [hstart]
    rfl

/-- Months are counted from March up to February. -/
theorem monthOf_bounds {dayOfYear : Int} (hday : 0 ≤ dayOfYear) (hlast : dayOfYear ≤ 365) :
    0 ≤ monthOf dayOfYear ∧ monthOf dayOfYear ≤ 11 ∧
      (153 * monthOf dayOfYear + 2) / 5 ≤ dayOfYear := by
  unfold monthOf
  omega

theorem count_eq {date : Day} {era year month : Int} (hnonneg : 0 ≤ year) (hlt : year < 400)
    (hyear : (if date.month ≤ 2 then date.year - 1 else date.year) = year + era * 400)
    (hmonth : ((date.month : Int) + 9) % 12 = month) :
    date.count = era * 146097 + startOf year + ((153 * month + 2) / 5 + date.day - 1) - 719468 := by
  have hera : Int.fdiv (year + era * 400) 400 = era := by
    rw [Int.fdiv_eq_ediv_of_nonneg _ (by decide)]
    omega
  simp only [count, hyear, hmonth, hera, Int.add_sub_cancel, startOf]
  omega

theorem count_ofYear {era year dayOfYear : Int} (hyear : InYear year dayOfYear) :
    (ofYear era year dayOfYear).count = era * 146097 + startOf year + dayOfYear - 719468 := by
  obtain ⟨hmarch, hfebruary, hfirst⟩ := monthOf_bounds hyear.day_nonneg hyear.day_le
  have hcount : (ofYear era year dayOfYear).count = era * 146097 + startOf year +
      ((153 * monthOf dayOfYear + 2) / 5 + (ofYear era year dayOfYear).day - 1) - 719468 := by
    by_cases hspring : monthOf dayOfYear < 10
    · have hlater : ¬ (monthOf dayOfYear + 3 ≤ 2) := by omega
      refine count_eq hyear.year_nonneg hyear.year_lt ?_ ?_
      · simp only [ofYear, if_pos hspring, if_neg hlater]
        rw [if_neg (by omega)]
        omega
      · simp only [ofYear, if_pos hspring]
        omega
    · have hnext : monthOf dayOfYear - 9 ≤ 2 := by omega
      refine count_eq hyear.year_nonneg hyear.year_lt ?_ ?_
      · simp only [ofYear, if_neg hspring, if_pos hnext]
        rw [if_pos (by omega)]
        omega
      · simp only [ofYear, if_neg hspring]
        omega
  have hday : (ofYear era year dayOfYear).day =
      (dayOfYear - (153 * monthOf dayOfYear + 2) / 5 + 1).toNat := rfl
  rw [hcount, hday]
  omega

/-- The day with a count is counted so. -/
theorem count_ofCount (count : Int) : (ofCount count).count = count := by
  obtain ⟨era, year, dayOfYear, hyear, hcount, hday⟩ := exists_ofYear count
  rw [hday, count_ofYear hyear]
  omega

/-- Every day but the 29th of February is one of a year that is no leap year. -/
theorem isValid_common : ∀ dayOfYear < 365,
    (ofYear 0 1 (dayOfYear : Nat)).isValid = true ∧
      isLeapYear (ofYear 0 1 (dayOfYear : Nat)).year = false := by
  decide +kernel

theorem daysInMonth_le (year : Int) (month : Nat) : daysInMonth year month ≤ 31 := by
  unfold daysInMonth
  split
  · cases isLeapYear year <;> decide
  all_goals decide

theorem isValid_congr {date other : Day} (hvalid : other.isValid = true)
    (hmonth : date.month = other.month) (hday : date.day = other.day)
    (hleap : isLeapYear other.year = true → isLeapYear date.year = true) :
    date.isValid = true := by
  have hdays : daysInMonth other.year other.month ≤ daysInMonth date.year other.month := by
    unfold daysInMonth
    split
    · cases hother : isLeapYear other.year with
      | false => cases isLeapYear date.year <;> decide
      | true => simp [hleap hother]
    all_goals exact Nat.le_refl _
  simp only [isValid, Bool.and_eq_true, decide_eq_true_eq, hmonth, hday] at hvalid ⊢
  exact ⟨hvalid.1, Nat.le_trans hvalid.2 hdays⟩

/-- The day with a count is one of the calendar. -/
theorem isValid_ofCount (count : Int) : (ofCount count).isValid = true := by
  obtain ⟨era, year, dayOfYear, hyear, _, hdate⟩ := exists_ofYear count
  rw [hdate]
  have hday := hyear.day_nonneg
  have hlast := hyear.day_le
  by_cases hcommon : dayOfYear < 365
  · obtain ⟨hvalid, hleap⟩ := isValid_common dayOfYear.toNat (by omega)
    rw [Int.toNat_of_nonneg hday] at hvalid hleap
    refine isValid_congr hvalid rfl rfl ?_
    rw [hleap]
    exact nofun
  · obtain rfl : dayOfYear = 365 := by omega
    obtain ⟨hfour, hcentury⟩ := hyear.leap rfl
    have hleap : isLeapYear (year + era * 400 + 1) = true := by
      simp only [isLeapYear, Bool.and_eq_true, Bool.or_eq_true, beq_iff_eq, bne_iff_ne]
      omega
    have hvalid : (⟨4, 2, 29⟩ : Day).isValid = true := rfl
    exact isValid_congr hvalid rfl rfl fun _ => hleap

end Months

end Day

end StubSync
