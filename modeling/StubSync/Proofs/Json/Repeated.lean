/-
Entries with repeated keys: of each key the last value is kept.
-/
import Mathlib.Data.List.Nodup
import StubSync.Json.Value

namespace StubSync

namespace Json

section Repeated

variable {α : Type} {key : String} {value other : α} {entry : String × α}
  {entries kept : List (String × α)}

/-- The value stands under the key, and no later entry has the key. -/
inductive IsLast (key : String) (value : α) : List (String × α) → Prop where
  | here {others : List (String × α)} (unrepeated : key ∉ others.map Prod.fst) :
      IsLast key value ((key, value) :: others)
  | later {entry : String × α} {others : List (String × α)} (last : IsLast key value others) :
      IsLast key value (entry :: others)

theorem isLast_cons_iff : IsLast key value (entry :: entries) ↔
    IsLast key value entries ∨ key ∉ entries.map Prod.fst ∧ (key, value) = entry := by
  constructor
  · intro hlast
    cases hlast with
    | here hunrepeated => exact Or.inr ⟨hunrepeated, rfl⟩
    | later hlast => exact Or.inl hlast
  · rintro (hlast | ⟨hunrepeated, rfl⟩)
    · exact .later hlast
    · exact .here hunrepeated

theorem IsLast.mem (hlast : IsLast key value entries) : (key, value) ∈ entries := by
  induction hlast with
  | here hunrepeated => exact List.mem_cons_self
  | later hlast ih => exact List.mem_cons_of_mem _ ih

/-- A key has one last value. -/
theorem IsLast.unique (hlast : IsLast key value entries) (hother : IsLast key other entries) :
    value = other := by
  induction hlast with
  | here hunrepeated =>
      cases hother with
      | here => rfl
      | later hother => exact absurd (List.mem_map_of_mem hother.mem) hunrepeated
  | later hlast ih =>
      cases hother with
      | here hunrepeated => exact absurd (List.mem_map_of_mem hlast.mem) hunrepeated
      | later hother => exact ih hother

/-- Where no key is repeated, every value is the last one of its key. -/
theorem isLast_iff_mem (hnodup : (entries.map Prod.fst).Nodup) :
    IsLast key value entries ↔ (key, value) ∈ entries := by
  constructor
  · exact IsLast.mem
  · intro hmem
    induction entries with
    | nil => contradiction
    | cons entry entries ih =>
        obtain ⟨hunrepeated, hnodup⟩ := List.nodup_cons.1 hnodup
        rcases List.mem_cons.1 hmem with rfl | hmem
        · exact .here hunrepeated
        · exact .later (ih hnodup hmem)

theorem mem_map_fst_put_iff :
    key ∈ (lastOfEach.put kept entry).map Prod.fst ↔ key = entry.1 ∨ key ∈ kept.map Prod.fst := by
  induction kept with
  | nil => exact List.mem_cons
  | cons earlier kept ih =>
      rw [lastOfEach.put]
      split
      · rename_i hsame
        rw [List.map_cons, List.map_cons, List.mem_cons, List.mem_cons, hsame, ← or_assoc,
          or_self_iff]
      · rw [List.map_cons, List.map_cons, List.mem_cons, List.mem_cons, ih, or_left_comm]

theorem nodup_put (hnodup : (kept.map Prod.fst).Nodup) (entry : String × α) :
    ((lastOfEach.put kept entry).map Prod.fst).Nodup := by
  induction kept with
  | nil => exact List.nodup_singleton entry.1
  | cons earlier kept ih =>
      obtain ⟨hunrepeated, hkept⟩ := List.nodup_cons.1 hnodup
      rw [lastOfEach.put]
      split
      · rename_i hsame
        rw [hsame] at hunrepeated
        exact List.nodup_cons.2 ⟨hunrepeated, hkept⟩
      · rename_i hother
        refine List.nodup_cons.2 ⟨?_, ih hkept⟩
        rw [mem_map_fst_put_iff, not_or]
        exact ⟨hother, hunrepeated⟩

theorem mem_put_iff (hnodup : (kept.map Prod.fst).Nodup) :
    (key, value) ∈ lastOfEach.put kept entry ↔
      (key, value) = entry ∨ key ≠ entry.1 ∧ (key, value) ∈ kept := by
  induction kept with
  | nil => simp [lastOfEach.put]
  | cons earlier kept ih =>
      obtain ⟨hunrepeated, hkept⟩ := List.nodup_cons.1 hnodup
      rw [lastOfEach.put]
      split
      · rename_i hsame
        -- No other entry has the key that is overwritten, so the rest keeps its members.
        have hother : (key, value) ∈ kept → key ≠ entry.1 := by
          intro hmem heq
          rw [hsame, ← heq] at hunrepeated
          exact hunrepeated (List.mem_map_of_mem hmem)
        have hnot : key ≠ entry.1 → (key, value) ≠ earlier := by
          rintro hne rfl
          exact hne hsame
        grind
      · rename_i hother
        have hne : (key, value) = earlier → key ≠ entry.1 := by
          rintro rfl
          exact hother
        rw [List.mem_cons, ih hkept, List.mem_cons]
        grind

theorem nodup_foldl_put (hnodup : (kept.map Prod.fst).Nodup) (entries : List (String × α)) :
    ((entries.foldl lastOfEach.put kept).map Prod.fst).Nodup := by
  induction entries generalizing kept with
  | nil => exact hnodup
  | cons entry entries ih => exact ih (nodup_put hnodup entry)

/-- Entries that are put in one by one leave the last value of their keys, and
what was kept under other keys. -/
theorem mem_foldl_put_iff (hnodup : (kept.map Prod.fst).Nodup) :
    (key, value) ∈ entries.foldl lastOfEach.put kept ↔
      IsLast key value entries ∨ key ∉ entries.map Prod.fst ∧ (key, value) ∈ kept := by
  induction entries generalizing kept with
  | nil =>
      constructor
      · exact fun hmem => Or.inr ⟨List.not_mem_nil, hmem⟩
      · rintro (hlast | ⟨_, hmem⟩)
        · cases hlast
        · exact hmem
  | cons entry entries ih =>
      rw [List.foldl_cons, ih (nodup_put hnodup entry), mem_put_iff hnodup, isLast_cons_iff,
        List.map_cons, List.mem_cons]
      grind

theorem nodup_lastOfEach (entries : List (String × α)) :
    ((lastOfEach entries).map Prod.fst).Nodup := by
  apply nodup_foldl_put
  exact List.nodup_nil

/-- What is kept of each key is its last value. -/
theorem mem_lastOfEach_iff : (key, value) ∈ lastOfEach entries ↔ IsLast key value entries := by
  rw [lastOfEach, mem_foldl_put_iff, or_iff_left]
  · rintro ⟨_, hmem⟩
    cases hmem
  · exact List.nodup_nil

end Repeated

end Json

end StubSync
