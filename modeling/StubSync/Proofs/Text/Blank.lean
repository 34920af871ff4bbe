/-
Texts without blank characters.
-/
import StubSync.Text.Blank

namespace StubSync

namespace Text

theorem dropWhile_isBlank {text : List Char} (htext : ∀ c ∈ text, isBlank c = false) :
    text.dropWhile isBlank = text := by
  cases text with
  | nil => rfl
  | cons c rest => simp [htext c List.mem_cons_self]

theorem trim_eq_self {text : List Char} (htext : ∀ c ∈ text, isBlank c = false) :
    trim text = text := by
  have hreverse : ∀ c ∈ text.reverse, isBlank c = false :=
    fun c hc => htext c (List.mem_reverse.1 hc)
  rw [trim, trimStart, dropWhile_isBlank htext, trimEnd, dropWhile_isBlank hreverse,
    List.reverse_reverse]

/-- Blank characters in the range of ASCII are the space and five controls. -/
theorem isBlank_eq_false_of_visible {c : Char} (hlow : 0x20 < c.toNat)
    (hhigh : c.toNat < 0x7F) : isBlank c = false := by
  simp only [isBlank, blankRanges, List.any_cons, List.any_nil, Bool.or_false,
    Bool.or_eq_false_iff, Bool.and_eq_false_iff, decide_eq_false_iff_not]
  omega

theorem isBlank_eq_false_of_isDigit {c : Char} (hdigit : c.isDigit = true) :
    isBlank c = false := by
  simp only [Char.isDigit, Bool.and_eq_true, decide_eq_true_eq, ge_iff_le, UInt32.le_iff_toNat_le]
    at hdigit
  have hc : c.val.toNat = c.toNat := rfl
  have hzero : ('0' : Char).val.toNat = 48 := rfl
  have hnine : ('9' : Char).val.toNat = 57 := rfl
  exact isBlank_eq_false_of_visible (by omega) (by omega)

theorem trimStart_cons {c : Char} (hc : isBlank c = false) (rest : List Char) :
    trimStart (c :: rest) = c :: rest := by
  simp [trimStart, hc]

end Text

end StubSync
