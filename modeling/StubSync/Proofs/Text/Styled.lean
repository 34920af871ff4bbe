/-
Styled texts without their escape codes.

A text with escape codes is a sequence of characters and of whole codes, and it
shows the characters.  Switching a style on again behind a code only adds another
code, so a text shows the same in whatever styles it is put.
-/
import StubSync.Proofs.Text.Decimal
import StubSync.Text.Styled

namespace StubSync

namespace Style

/-- A character between the bracket and the end of an escape code. -/
def isCodeChar (c : Char) : Bool :=
  c.isDigit || c == ';'

/-- The number of characters of an escape code behind its first one. -/
def codeLength? : List Char → Option Nat
  | '[' :: rest =>
      let codes := rest.takeWhile isCodeChar
      if (rest.drop codes.length).head? = some 'm' then some (codes.length + 2) else none
  | _ => none

/-- The text without its escape codes, from the end of the one that is being
passed over. -/
def strippedFrom : Nat → List Char → List Char
  | _, [] => []
  | left + 1, _ :: rest => strippedFrom left rest
  | 0, c :: rest =>
      if c = escapeChar then
        match codeLength? rest with
        | some length => strippedFrom length rest
        | none => c :: strippedFrom 0 rest
      else c :: strippedFrom 0 rest

/-- The text with all escape codes taken out. -/
def withoutCodes (text : String) : String :=
  String.ofList (strippedFrom 0 text.toList)

/-- A text that consists of characters and of escape codes, and its characters. -/
inductive Shows : List Char → List Char → Prop
  | nil : Shows [] []
  | char {c : Char} {text shown : List Char} (hc : c ≠ escapeChar) (htext : Shows text shown) :
      Shows (c :: text) (c :: shown)
  | code {codes text shown : List Char} (hcodes : ∀ c ∈ codes, isCodeChar c = true)
      (htext : Shows text shown) :
      Shows (escapeChar :: '[' :: codes ++ 'm' :: text) shown

variable {text shown : List Char}

theorem strippedFrom_append (front rest : List Char) :
    strippedFrom front.length (front ++ rest) = strippedFrom 0 rest := by
  induction front with
  | nil => rfl
  | cons c front ih => exact ih

theorem codeLength?_append {codes : List Char} (hcodes : ∀ c ∈ codes, isCodeChar c = true)
    (behind : List Char) :
    codeLength? ('[' :: codes ++ 'm' :: behind) = some ('[' :: codes ++ ['m']).length := by
  have hmark : ¬isCodeChar 'm' = true := by decide
  have htake : (codes ++ 'm' :: behind).takeWhile isCodeChar = codes := by
    rw [List.takeWhile_append_of_pos hcodes, List.takeWhile_cons_of_neg hmark, List.append_nil]
  simp [codeLength?, htake]

theorem Shows.strippedFrom_eq (htext : Shows text shown) : strippedFrom 0 text = shown := by
  induction htext with
  | nil => rfl
  | char hc _ ih => rw [strippedFrom, if_neg hc, ih]
  | @code codes text shown hcodes _ ih =>
      have hskip := strippedFrom_append ('[' :: codes ++ ['m']) text
      rw [List.append_assoc] at hskip
      rw [List.cons_append, List.cons_append, strippedFrom, if_pos rfl, ← List.cons_append,
        codeLength?_append hcodes]
      exact hskip.trans ih

theorem shows_self (htext : escapeChar ∉ text) : Shows text text := by
  induction text with
  | nil => exact .nil
  | cons c rest ih =>
      rw [List.mem_cons, not_or] at htext
      exact .char (Ne.symm htext.1) (ih htext.2)

theorem Shows.append {more moreShown : List Char} (htext : Shows text shown)
    (hmore : Shows more moreShown) : Shows (text ++ more) (shown ++ moreShown) := by
  induction htext with
  | nil => exact hmore
  | char hc _ ih => exact .char hc ih
  | code hcodes _ ih =>
      simp only [List.append_assoc, List.cons_append]
      exact .code hcodes ih

theorem isCodeChar_of_isDigit {c : Char} (hc : c.isDigit = true) : isCodeChar c = true := by
  rw [isCodeChar, hc, Bool.true_or]

theorem isCodeChar_of_mem_codes (style : Style) :
    ∀ c ∈ (";".intercalate (style.map toString)).toList, isCodeChar c = true := by
  have hnumber (n : Nat) : ∀ c ∈ (toString n).toList, isCodeChar c = true := by
    intro c hc
    rw [Decimal.toList_toString] at hc
    exact isCodeChar_of_isDigit (Decimal.isDigit_of_mem_digits hc)
  have hmark : ∀ c ∈ ";".toList, isCodeChar c = true := List.forall_mem_singleton.2 (by decide)
  rw [String.toList_intercalate]
  induction style with
  | nil => exact List.forall_mem_nil _
  | cons n others ih =>
      cases others with
      | nil =>
          rw [List.map_singleton, List.map_singleton, List.intercalate_singleton]
          exact hnumber n
      | cons next others =>
          rw [List.map_cons, List.map_cons, List.map_cons, List.map_cons,
            List.intercalate_cons_cons, List.forall_mem_append, List.forall_mem_append]
          exact ⟨⟨hnumber n, hmark⟩, ih⟩

/-- A style is switched on by a code. -/
theorem Shows.switchOn (htext : Shows text shown) (style : Style) :
    Shows (style.switchOn ++ text) shown := by
  have hcode := Shows.code (isCodeChar_of_mem_codes style) htext
  rw [Style.switchOn, List.append_assoc]
  exact hcode

theorem reopen_cons {c : Char} (hc : c ≠ escapeChar) (style : Style) (rest : List Char) :
    reopen style (c :: rest) = c :: reopen style rest := by
  rw [reopen.eq_def]
  split
  · contradiction
  · rename_i heq
    cases heq
    rw [if_neg hc]
  · rename_i heq
    cases heq
    rfl

theorem reopen_append {front : List Char} (hfront : escapeChar ∉ front) (style : Style)
    (rest : List Char) : reopen style (front ++ rest) = front ++ reopen style rest := by
  induction front with
  | nil => rfl
  | cons c front ih =>
      rw [List.mem_cons, not_or] at hfront
      rw [List.cons_append, reopen_cons (Ne.symm hfront.1), ih hfront.2, List.cons_append]

theorem escapeChar_not_mem_codes {codes : List Char} (hcodes : ∀ c ∈ codes, isCodeChar c = true) :
    escapeChar ∉ codes := by
  intro hmem
  have hcode := hcodes escapeChar hmem
  exact absurd hcode (by decide)

/-- Only the code that switches everything off is spelled as it is. -/
theorem eq_off_of_append {codes rest others : List Char}
    (hcodes : ∀ c ∈ codes, isCodeChar c = true) (heq : codes ++ 'm' :: rest = '0' :: 'm' :: others) :
    codes = ['0'] := by
  rcases codes with _ | ⟨first, _ | ⟨second, codes⟩⟩
  · cases heq
  · cases heq
    rfl
  · cases heq
    exact absurd (hcodes 'm' (by simp)) (by decide)

/-- A code is left as it is, but that the style is switched on behind one that
switches everything off. -/
theorem reopen_code {codes : List Char} (hcodes : ∀ c ∈ codes, isCodeChar c = true)
    (style : Style) (rest : List Char) :
    reopen style (escapeChar :: '[' :: codes ++ 'm' :: rest) =
      escapeChar :: '[' :: codes ++ 'm' ::
        ((if codes = ['0'] then style.switchOn else []) ++ reopen style rest) := by
  by_cases hoff : codes = ['0']
  · rw [if_pos hoff, hoff]
    rfl
  · have hrest : reopen style ('[' :: codes ++ 'm' :: rest) =
        '[' :: codes ++ 'm' :: reopen style rest := by
      rw [List.cons_append, reopen_cons (by decide),
        reopen_append (escapeChar_not_mem_codes hcodes), reopen_cons (by decide), List.cons_append]
    rw [if_neg hoff, List.nil_append, List.cons_append, List.cons_append, reopen.eq_def]
    split
    · contradiction
    · rename_i heq
      exact absurd (eq_off_of_append hcodes (List.cons.inj (List.cons.inj heq).2).2) hoff
    · rename_i heq
      cases heq
      exact congrArg (escapeChar :: ·) hrest

theorem Shows.reopen (htext : Shows text shown) (style : Style) :
    Shows (style.reopen text) shown := by
  induction htext with
  | nil => exact .nil
  | char hc _ ih =>
      rw [reopen_cons hc]
      exact .char hc ih
  | code hcodes _ ih =>
      rw [reopen_code hcodes]
      apply Shows.code hcodes
      split
      · exact ih.switchOn style
      · exact ih

theorem Shows.wrap (htext : Shows text shown) (style : Style) :
    Shows (style.wrap text) shown := by
  have hoff : Shows switchOff [] := Shows.nil.switchOn [0]
  rw [Style.wrap, List.append_assoc, ← List.append_nil shown]
  exact ((htext.reopen style).append hoff).switchOn style

/-- The text has no escape character of its own. -/
def IsFree (text : String) : Prop :=
  escapeChar ∉ text.toList

instance (text : String) : Decidable (IsFree text) :=
  inferInstanceAs (Decidable (escapeChar ∉ text.toList))

@[simp]
theorem isFree_append {left right : String} : IsFree (left ++ right) ↔ IsFree left ∧ IsFree right := by
  rw [IsFree, String.toList_append, List.mem_append, not_or]
  rfl

end Style

namespace Styled

open Style

section Render

@[simp]
theorem render_plain (escapes : Bool) (content : String) :
    (plain content).render escapes = content.toList :=
  rfl

@[simp]
theorem render_append (escapes : Bool) (left right : Styled) :
    (left ++ right).render escapes = left.render escapes ++ right.render escapes :=
  rfl

@[simp]
theorem render_styled_false (style : Style) (inner : Styled) :
    (styled style inner).render false = inner.render false :=
  rfl

@[simp]
theorem render_ofText_false (style : Style) (content : String) :
    (ofText style content).render false = content.toList :=
  rfl

end Render

/-- No part of the text has an escape character of its own. -/
def IsClean : Styled → Prop
  | .plain content => IsFree content
  | .styled _ inner => inner.IsClean
  | .append left right => left.IsClean ∧ right.IsClean

@[simp]
theorem isClean_plain {content : String} :
    (plain content).IsClean ↔ IsFree content :=
  Iff.rfl

@[simp]
theorem isClean_append {left right : Styled} :
    (left ++ right).IsClean ↔ left.IsClean ∧ right.IsClean :=
  Iff.rfl

@[simp]
theorem isClean_styled {style : Style} {inner : Styled} :
    (styled style inner).IsClean ↔ inner.IsClean :=
  Iff.rfl

@[simp]
theorem isClean_ofText {style : Style} {content : String} :
    (ofText style content).IsClean ↔ IsFree content :=
  Iff.rfl

theorem shows_render {text : Styled} (hclean : text.IsClean) :
    Shows (text.render true) (text.render false) := by
  induction text with
  | plain content => exact shows_self hclean
  | styled style inner ih => exact (ih hclean).wrap style
  | append left right ihLeft ihRight => exact (ihLeft hclean.1).append (ihRight hclean.2)

end Styled

end StubSync
