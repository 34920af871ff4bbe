/-
Spellings of numbers: they are words, and natural numbers in decimal digits are
among them.
-/
import Mathlib.Data.List.TakeWhile
import StubSync.Json.Document
import StubSync.Proofs.Text.Decimal

namespace StubSync

namespace Json

section Words

variable {text : List Char}

theorem isWordChar_of_isDigit {c : Char} (hc : c.isDigit = true) : isWordChar c = true := by
  simp [isWordChar, Char.isAlphanum, hc]

theorem isWordChar_of_whole? {n : Nat} (hread : Decimal.whole? text = some n) :
    ∀ c ∈ text, isWordChar c = true :=
  fun c hc => isWordChar_of_isDigit ((Decimal.whole?_eq_some_iff.1 hread).isDigit c hc)

theorem isWordChar_of_exponent? {n : Int} (hread : scientific?.exponent? text = some n) :
    ∀ c ∈ text, isWordChar c = true := by
  unfold scientific?.exponent? at hread
  split at hread
  all_goals
    obtain ⟨_, hmap, _⟩ := Option.map_eq_some_iff.1 hread
    obtain ⟨_, hwhole, _⟩ := Option.bind_eq_some_iff.1 hmap
    have hrun := isWordChar_of_whole? hwhole
  · exact List.forall_mem_cons.2 ⟨by decide, hrun⟩
  · exact List.forall_mem_cons.2 ⟨by decide, hrun⟩
  · exact hrun

/-- Digits and what follows them. -/
theorem isWordChar_of_dropWhile
    (hrest : ∀ c ∈ text.dropWhile Char.isDigit, isWordChar c = true) :
    ∀ c ∈ text, isWordChar c = true := by
  have hdigits : ∀ c ∈ text.takeWhile Char.isDigit, isWordChar c = true :=
    fun c hc => isWordChar_of_isDigit (List.all_eq_true.1 List.all_takeWhile c hc)
  have happend := List.forall_mem_append.2 ⟨hdigits, hrest⟩
  rwa [List.takeWhile_append_dropWhile] at happend

theorem isWordChar_of_digits? {run rest : List Char}
    (hread : scientific?.digits? text = some (run, rest))
    (hrest : ∀ c ∈ rest, isWordChar c = true) : ∀ c ∈ text, isWordChar c = true := by
  unfold scientific?.digits? at hread
  split at hread
  · cases hread
  · cases hread
    exact isWordChar_of_dropWhile hrest

/-- What may stand behind the fraction of a number. -/
theorem isWordChar_of_tail {whole fraction : List Char} {parts : Decimal.Scientific}
    (hread : (match text with
      | [] => some { whole, fraction }
      | e :: rest => do
          if e ≠ 'e' ∧ e ≠ 'E' then none
          return { whole, fraction, exponent := ← scientific?.exponent? rest }) = some parts) :
    ∀ c ∈ text, isWordChar c = true := by
  split at hread
  · exact nofun
  · rename_i e rest
    split at hread
    · cases hread
    · rename_i hmark
      obtain ⟨_, hexponent, _⟩ := Option.bind_eq_some_iff.1 hread
      have he : isWordChar e = true := by
        by_cases hlower : e = 'e'
        · subst hlower
          decide
        · have hupper : e = 'E' := Classical.byContradiction fun hupper => hmark ⟨hlower, hupper⟩
          subst hupper
          decide
      exact List.forall_mem_cons.2 ⟨he, isWordChar_of_exponent? hexponent⟩

theorem isWordChar_of_unsigned {parts : Decimal.Scientific}
    (hminus : ∀ rest, text ≠ '-' :: rest) (hread : scientific? text = some parts) :
    text ≠ [] ∧ ∀ c ∈ text, isWordChar c = true := by
  unfold scientific? at hread
  simp only [Option.bind_eq_bind, Option.bind_none] at hread
  split at hread
  · cases hread
  · rename_i hwhole
    refine ⟨?_, isWordChar_of_dropWhile ?_⟩
    · rintro rfl
      exact hwhole rfl
    · split at hread
      · rename_i rest hdrop
        obtain ⟨⟨fraction, tail⟩, hdigits, htail⟩ := Option.bind_eq_some_iff.1 hread
        rw [hdrop]
        exact List.forall_mem_cons.2
          ⟨by decide, isWordChar_of_digits? hdigits (isWordChar_of_tail htail)⟩
      · exact isWordChar_of_tail hread

/-- A number with a minus is one without it, too. -/
theorem scientific?_of_minus {rest : List Char} {parts : Decimal.Scientific}
    (hread : scientific? ('-' :: rest) = some parts) :
    (∀ others, rest ≠ '-' :: others) ∧ scientific? rest = some parts := by
  have hminus : ∀ others, rest ≠ '-' :: others := by
    rintro others rfl
    cases hread
  refine ⟨hminus, ?_⟩
  rw [← hread, scientific?, scientific?]
  exact hminus

/-- A number is spelled as a word. -/
theorem isWordChar_of_scientific? {parts : Decimal.Scientific}
    (hread : scientific? text = some parts) :
    text ≠ [] ∧ ∀ c ∈ text, isWordChar c = true := by
  by_cases hminus : ∃ rest, text = '-' :: rest
  · obtain ⟨rest, rfl⟩ := hminus
    obtain ⟨hnone, hrest⟩ := scientific?_of_minus hread
    obtain ⟨_, hwords⟩ := isWordChar_of_unsigned hnone hrest
    exact ⟨List.cons_ne_nil _ _, List.forall_mem_cons.2 ⟨by decide, hwords⟩⟩
  · exact isWordChar_of_unsigned (fun rest heq => hminus ⟨rest, heq⟩) hread

end Words

/-- A natural number has no sign, no fraction and no exponent. -/
theorem scientific?_digits (n : Nat) :
    scientific? (Decimal.digits n) = some { whole := Decimal.digits n } := by
  have hdigits : ∀ c ∈ Decimal.digits n, c.isDigit = true :=
    fun _ => Decimal.isDigit_of_mem_digits
  have hminus : ∀ rest, Decimal.digits n = '-' :: rest → False := by
    intro rest heq
    exact Decimal.not_mem_digits (c := '-') (by decide) n (heq ▸ List.mem_cons_self)
  have hzero : ((Decimal.digits n).isEmpty ||
      (Decimal.digits n).length != 1 && (Decimal.digits n).head? == some '0') = false := by
    by_cases hn : n = 0
    · subst hn
      rfl
    · simp [Decimal.head?_digits hn, Decimal.digits_ne_nil]
  have htake := List.takeWhile_eq_self_iff.2 hdigits
  have hdrop := List.dropWhile_eq_nil_iff.2 hdigits
  simp only [scientific?, htake, hdrop, hzero]
  rfl

theorem natural?_natural (n : Nat) : (natural n).natural? = some n := by
  rw [natural, natural?, String.toList_ofList, Decimal.whole?_eq_some_iff]
  exact Decimal.isNumber_digits n

end Json

end StubSync
