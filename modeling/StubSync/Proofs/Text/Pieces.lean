/-
What the pieces of a text say about the text: what follows a lead, the parts
between marks, and groups with single separators.
-/
import StubSync.Text.Pieces

namespace StubSync

namespace Text

theorem after?_eq_some_iff {lead text rest : List Char} :
    after? lead text = some rest ↔ text = lead ++ rest := by
  induction lead generalizing text with
  | nil => simp [after?]
  | cons m lead ih =>
      cases text with
      | nil => simp [after?]
      | cons c text =>
          by_cases hmark : m = c
          · simp [after?, hmark, ih]
          · simp [after?, hmark, Ne.symm hmark]

@[simp]
theorem after?_append (lead rest : List Char) : after? lead (lead ++ rest) = some rest :=
  after?_eq_some_iff.2 rfl

theorem startsWith_iff {text lead : String} :
    startsWith text lead = true ↔ ∃ rest, text.toList = lead.toList ++ rest := by
  simp [startsWith, Option.isSome_iff_exists, after?_eq_some_iff]

theorem startsWith_append (lead rest : String) : startsWith (lead ++ rest) lead = true :=
  startsWith_iff.2 ⟨rest.toList, String.toList_append⟩

theorem mem_of_mem_dropTrailing {mark c : Char} {text : String}
    (hc : c ∈ (dropTrailing mark text).toList) : c ∈ text.toList := by
  rw [dropTrailing, String.toList_ofList, List.mem_reverse] at hc
  exact List.mem_reverse.1 ((List.dropWhile_suffix _).subset hc)

theorem toList_intercalate_empty (texts : List String) :
    ("".intercalate texts).toList = (texts.map String.toList).flatten := by
  rw [String.toList_intercalate]
  induction texts with
  | nil => rfl
  | cons text others ih =>
      cases others with
      | nil => simp
      | cons next others =>
          rw [List.map_cons, List.map_cons, List.intercalate_cons_cons, List.flatten_cons,
            ← List.map_cons, ih]
          simp

/-- Where texts without `mark` go on with one, the texts are the same. -/
theorem eq_of_append_mark {mark : Char} {left right before after : List Char}
    (hleft : mark ∉ left) (hright : mark ∉ right)
    (heq : left ++ mark :: before = right ++ mark :: after) : left = right := by
  induction left generalizing right with
  | nil =>
      cases right with
      | nil => rfl
      | cons c right =>
          have hhead : mark = c := (List.cons.inj heq).1
          exact absurd (by simp [hhead]) hright
  | cons c left ih =>
      cases right with
      | nil =>
          have hhead : c = mark := (List.cons.inj heq).1
          exact absurd (by simp [hhead]) hleft
      | cons d right =>
          simp only [List.mem_cons, not_or] at hleft hright
          obtain ⟨hhead, htail⟩ := List.cons.inj heq
          rw [hhead, ih hleft.2 hright.2 htail]

section Marks

variable {mark : Char} {text part before after : List Char}

theorem cutAt?_eq_none_iff : cutAt? mark text = none ↔ mark ∉ text := by
  induction text with
  | nil => simp [cutAt?]
  | cons c text ih =>
      by_cases hc : c = mark
      · simp [cutAt?, hc]
      · simp [cutAt?, hc, Ne.symm hc, ih]

theorem cutAt?_eq_some_iff :
    cutAt? mark text = some (before, after) ↔ mark ∉ before ∧ text = before ++ mark :: after := by
  induction text generalizing before with
  | nil => simp [cutAt?]
  | cons c text ih =>
      by_cases hc : c = mark
      · subst hc
        cases before with
        | nil => simp [cutAt?, eq_comm]
        | cons d before =>
            rw [cutAt?, if_pos rfl]
            constructor
            · intro hcut
              cases hcut
            · rintro ⟨hmark, hsame⟩
              rw [(List.cons.inj hsame).1] at hmark
              exact absurd List.mem_cons_self hmark
      · rw [cutAt?, if_neg hc, Option.map_eq_some_iff]
        constructor
        · rintro ⟨⟨front, rest⟩, hcut, hsame⟩
          cases hsame
          obtain ⟨hmark, rfl⟩ := ih.1 hcut
          exact ⟨by simp [Ne.symm hc, hmark], rfl⟩
        · rintro ⟨hmark, hsame⟩
          cases before with
          | nil => exact absurd (List.cons.inj hsame).1 hc
          | cons d before =>
              obtain ⟨rfl, rfl⟩ := List.cons.inj hsame
              have hrest : mark ∉ before := fun hmem => hmark (List.mem_cons_of_mem c hmem)
              exact ⟨(before, after), ih.2 ⟨hrest, rfl⟩, rfl⟩

theorem split_of_not_mem (hpart : mark ∉ part) : split mark part = [part] := by
  induction part with
  | nil => rfl
  | cons c part ih =>
      rw [List.mem_cons, not_or] at hpart
      rw [split, if_neg (Ne.symm hpart.1), ih hpart.2]

theorem split_ne_nil (mark : Char) (text : List Char) : split mark text ≠ [] := by
  fun_cases split mark text with
  | case1 => exact List.cons_ne_nil _ _
  | case2 => exact List.cons_ne_nil _ _
  | case3 => exact List.cons_ne_nil _ _
  | case4 => exact List.cons_ne_nil _ _

/-- A mark cuts a text into what is cut before it and after it. -/
theorem split_append_mark (text rest : List Char) :
    split mark (text ++ mark :: rest) = split mark text ++ split mark rest := by
  induction text with
  | nil => simp [split]
  | cons c text ih =>
      by_cases hc : c = mark
      · rw [List.cons_append, split, if_pos hc, ih, split, if_pos hc]
        rfl
      · rw [List.cons_append, split, if_neg hc, ih, split, if_neg hc]
        obtain ⟨part, others, htext⟩ := List.exists_cons_of_ne_nil (split_ne_nil mark text)
        rw [htext]
        rfl

theorem split_append (hpart : mark ∉ part) (rest : List Char) :
    split mark (part ++ mark :: rest) = part :: split mark rest := by
  rw [split_append_mark, split_of_not_mem hpart]
  rfl

end Marks

section Groups

variable {member separator : Char → Bool}

/-- Groups of members, with one separator between two groups. -/
inductive Grouped (member separator : Char → Bool) : List Char → Prop
  | last {group : List Char} (hne : group ≠ []) (hgroup : ∀ c ∈ group, member c = true) :
      Grouped member separator group
  | more {group rest : List Char} {mark : Char} (hne : group ≠ [])
      (hgroup : ∀ c ∈ group, member c = true) (hmark : separator mark = true)
      (hrest : Grouped member separator rest) :
      Grouped member separator (group ++ mark :: rest)

theorem Grouped.cons {c : Char} {text : List Char} (hc : member c = true)
    (htext : Grouped member separator text) : Grouped member separator (c :: text) := by
  cases htext with
  | last hne hgroup =>
      exact .last (List.cons_ne_nil c _) (List.forall_mem_cons.2 ⟨hc, hgroup⟩)
  | more hne hgroup hmark hrest =>
      exact .more (List.cons_ne_nil c _) (List.forall_mem_cons.2 ⟨hc, hgroup⟩) hmark hrest

theorem isGrouped_cons {c : Char} {text : List Char} (hc : member c = true)
    (htext : isGrouped member separator text = true) :
    isGrouped member separator (c :: text) = true := by
  cases text with
  | nil => cases htext
  | cons d rest => simp [isGrouped, hc, htext]

theorem isGrouped_append {group rest : List Char} (hgroup : ∀ c ∈ group, member c = true)
    (hrest : isGrouped member separator rest = true) :
    isGrouped member separator (group ++ rest) = true := by
  induction group with
  | nil => exact hrest
  | cons c group ih =>
      rw [List.forall_mem_cons] at hgroup
      exact isGrouped_cons hgroup.1 (ih hgroup.2)

theorem isGrouped_iff {text : List Char} :
    isGrouped member separator text = true ↔ Grouped member separator text := by
  constructor
  · intro htext
    fun_induction isGrouped member separator text with
    | case1 => cases htext
    | case2 c => exact .last (List.cons_ne_nil c []) (by simp [htext])
    | case3 c d rest ihnext ihlater =>
        rw [Bool.and_eq_true, Bool.or_eq_true, Bool.and_eq_true] at htext
        obtain ⟨hc, hnext | ⟨hd, hlater⟩⟩ := htext
        · exact (ihnext hnext).cons hc
        · exact .more (List.cons_ne_nil c []) (by simp [hc]) hd (ihlater hlater)
  · intro htext
    induction htext with
    | last hne hgroup =>
        obtain ⟨front, c, rfl⟩ := (List.eq_nil_or_concat _).resolve_left hne
        simp only [List.concat_eq_append, List.forall_mem_append] at hgroup ⊢
        exact isGrouped_append hgroup.1 (by simp [isGrouped, hgroup.2])
    | more hne hgroup hmark hrest ih =>
        obtain ⟨front, c, rfl⟩ := (List.eq_nil_or_concat _).resolve_left hne
        simp only [List.concat_eq_append, List.forall_mem_append, List.append_assoc]
          at hgroup ⊢
        refine isGrouped_append hgroup.1 ?_
        have hc : member c = true := hgroup.2 c List.mem_cons_self
        simp [isGrouped, hc, hmark, ih]

end Groups

end Text

end StubSync
