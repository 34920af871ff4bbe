/-
A number is read back from its decimal digits, whatever follows them that is no
digit.
-/
import StubSync.Text.Decimal
import Mathlib.Algebra.Group.Nat.Defs

namespace StubSync

namespace Decimal

/-- A run of digits cannot go on in this text. -/
def NoDigitAhead (text : List Char) : Prop :=
  ∀ c ∈ text.head?, c.isDigit = false

theorem noDigitAhead_nil : NoDigitAhead [] := by
  intro c hc
  cases hc

theorem noDigitAhead_cons {c : Char} (rest : List Char) (hc : c.isDigit = false) :
    NoDigitAhead (c :: rest) := by
  intro d hd
  cases hd
  exact hc

theorem value_digits (n : Nat) : value (digits n) = n := by
  have hfold := Nat.ofDigitChars_ten_toDigits (n := n)
  rw [Nat.ofDigitChars_eq_foldl] at hfold
  exact hfold

theorem isDigit_of_mem_digits {n : Nat} {c : Char} (hc : c ∈ digits n) :
    c.isDigit = true :=
  Nat.isDigit_of_mem_toDigits (by decide) (by decide) hc

theorem not_mem_digits {c : Char} (hc : c.isDigit = false) (n : Nat) : c ∉ digits n := by
  intro hmem
  rw [isDigit_of_mem_digits hmem] at hc
  cases hc

theorem digits_ne_nil (n : Nat) : digits n ≠ [] :=
  Nat.toDigits_ne_nil

/-- Only zero is written with a zero in front. -/
theorem head?_digits {n : Nat} (hn : n ≠ 0) : (digits n).head? ≠ some '0' := by
  unfold digits
  induction n using Nat.strongRecOn with
  | ind n ih =>
      by_cases hsmall : n < 10
      · rw [Nat.toDigits_of_lt_base hsmall]
        intro hhead
        exact hn (Nat.digitChar_eq_zero.1 (Option.some.inj hhead))
      · have hfewer := ih (n / 10) (by omega) (by omega)
        rw [Nat.toDigits_of_base_le (by decide) (by omega), List.head?_append,
          Option.or_of_isSome (by simp [Nat.toDigits_ne_nil])]
        exact hfewer

theorem toList_toString (n : Nat) : (toString n).toList = digits n := by
  rw [Nat.toString_eq_ofList_toDigits, String.toList_ofList]
  rfl

/-- Digits are taken off a text as far as they go. -/
theorem split_append {run rest : List Char} (hdigits : ∀ c ∈ run, c.isDigit = true)
    (hrest : NoDigitAhead rest) :
    (run ++ rest).takeWhile Char.isDigit = run ∧ (run ++ rest).dropWhile Char.isDigit = rest := by
  have hstop : rest.takeWhile Char.isDigit = [] ∧ rest.dropWhile Char.isDigit = rest := by
    cases rest with
    | nil => exact ⟨rfl, rfl⟩
    | cons c others =>
        have hc : c.isDigit = false := hrest c rfl
        simp [hc]
  rw [List.takeWhile_append_of_pos hdigits, List.dropWhile_append_of_pos hdigits, hstop.1,
    hstop.2, List.append_nil]
  exact ⟨rfl, rfl⟩

theorem number?_append {run rest : List Char} (hrun : run ≠ [])
    (hdigits : ∀ c ∈ run, c.isDigit = true) (hrest : NoDigitAhead rest) :
    number? (run ++ rest) = some (value run, rest) := by
  obtain ⟨htake, hdrop⟩ := split_append hdigits hrest
  simp only [number?, htake, hdrop]

/-- The run spells a number in decimal digits; it may start with zeros. -/
structure IsNumber (run : List Char) (n : Nat) : Prop where
  ne_nil : run ≠ []
  isDigit : ∀ c ∈ run, c.isDigit = true
  value_eq : value run = n

theorem isNumber_digits (n : Nat) : IsNumber (digits n) n :=
  ⟨digits_ne_nil n, fun _ => isDigit_of_mem_digits, value_digits n⟩

/-- Zeros in front of a number do not change it. -/
theorem isNumber_padded (width n : Nat) : IsNumber (padded width n) n where
  ne_nil := List.append_ne_nil_of_right_ne_nil _ (digits_ne_nil n)
  isDigit := by
    refine List.forall_mem_append.2 ⟨?_, fun _ => isDigit_of_mem_digits⟩
    intro c hc
    rw [List.eq_of_mem_replicate hc]
    decide
  value_eq := by
    have hzeros : ∀ count, (List.replicate count '0').foldl
        (fun n c => 10 * n + digitValue c) 0 = 0 := by
      intro count
      induction count with
      | zero => rfl
      | succ count ih => exact ih
    rw [padded, value, List.foldl_append, hzeros]
    exact value_digits n

theorem length_padded {width n : Nat} (hwidth : 0 < width) (hn : n < 10 ^ width) :
    (padded width n).length = width := by
  have hdigits : (digits n).length ≤ width :=
    (Nat.length_toDigits_le_iff (by decide) hwidth).2 hn
  rw [padded, List.length_append, List.length_replicate]
  omega

theorem IsNumber.exists_cons {run : List Char} {n : Nat} (hrun : IsNumber run n) :
    ∃ c others, run = c :: others ∧ c.isDigit = true := by
  obtain ⟨c, others, rfl⟩ := List.exists_cons_of_ne_nil hrun.ne_nil
  exact ⟨c, others, rfl, hrun.isDigit c List.mem_cons_self⟩

theorem number?_eq_none_iff {text : List Char} : number? text = none ↔ NoDigitAhead text := by
  cases text with
  | nil => exact ⟨fun _ => noDigitAhead_nil, fun _ => rfl⟩
  | cons c rest => by_cases hc : c.isDigit = true <;> simp [number?, NoDigitAhead, hc]

/-- A number is read exactly as far as its digits go. -/
theorem number?_eq_some_iff {text rest : List Char} {n : Nat} :
    number? text = some (n, rest) ↔
      ∃ run, text = run ++ rest ∧ IsNumber run n ∧ NoDigitAhead rest := by
  constructor
  · intro hread
    unfold number? at hread
    split at hread
    · cases hread
    · rename_i hne
      cases hread
      refine ⟨text.takeWhile Char.isDigit, List.takeWhile_append_dropWhile.symm,
        ⟨hne, ?_, rfl⟩, ?_⟩
      · exact List.all_eq_true.1 List.all_takeWhile
      · intro c hc
        have hstop := List.head?_dropWhile_not Char.isDigit text
        rw [hc] at hstop
        exact hstop
  · rintro ⟨run, rfl, hrun, hrest⟩
    rw [number?_append hrun.ne_nil hrun.isDigit hrest, hrun.value_eq]

/-- A text of digits alone is read as their number. -/
theorem whole?_eq_some_iff {text : List Char} {n : Nat} :
    whole? text = some n ↔ IsNumber text n := by
  have hwhole : whole? text = some n ↔ number? text = some (n, []) := by
    unfold whole?
    split <;> simp_all
  rw [hwhole, number?_eq_some_iff]
  simp [noDigitAhead_nil]

/-- Reading takes the digits of a number and nothing else. -/
theorem number?_digits (n : Nat) {rest : List Char} (hrest : NoDigitAhead rest) :
    number? (digits n ++ rest) = some (n, rest) := by
  rw [number?_append (digits_ne_nil n) (fun _ => isDigit_of_mem_digits) hrest, value_digits]

end Decimal

end StubSync
