/-
Records of named fields: what is written under a name is read under it.
-/
import Mathlib.Data.List.Forall2
import Mathlib.Data.List.Nodup
import StubSync.Json.Record

namespace StubSync

namespace Json

section Fields

variable {fields : List (String × Option Json)} {name : String}

/-- The fields that have a value. -/
def given (fields : List (String × Option Json)) : List (String × Json) :=
  fields.filterMap fun field => field.2.map fun value => (field.1, value)

theorem mem_given_iff {value : Json} :
    (name, value) ∈ given fields ↔ (name, some value) ∈ fields := by
  simp [given, List.mem_filterMap]

theorem map_fst_given_sublist (fields : List (String × Option Json)) :
    ((given fields).map Prod.fst).Sublist (fields.map Prod.fst) := by
  induction fields with
  | nil => exact List.Sublist.slnil
  | cons first others ih =>
      obtain ⟨name, value⟩ := first
      cases value with
      | none => exact ih.cons name
      | some value => exact ih.cons_cons name

theorem not_mem_of_given (hname : name ∉ fields.map Prod.fst) :
    ∀ field ∈ given fields, field.1 ≠ name := by
  rintro ⟨_, value⟩ hfield rfl
  exact hname (List.mem_map_of_mem (mem_given_iff.1 hfield))

/-- A field has the value that was given to its name. -/
theorem find?_given (hnodup : (fields.map Prod.fst).Nodup) {value : Option Json}
    (hfield : (name, value) ∈ fields) :
    ((given fields).find? fun field => field.1 == name).map Prod.snd = value := by
  cases hfind : (given fields).find? fun field => field.1 == name with
  | none =>
      cases value with
      | none => rfl
      | some value =>
          have hgiven := List.find?_eq_none.1 hfind _ (mem_given_iff.2 hfield)
          exact absurd (beq_self_eq_true name) hgiven
  | some found =>
      obtain ⟨foundName, foundValue⟩ := found
      have hname := List.find?_some hfind
      rw [beq_iff_eq] at hname
      have hfound := mem_given_iff.1 (List.mem_of_find?_eq_some hfind)
      have hsame := List.inj_on_of_nodup_map hnodup hfound hfield hname
      exact congrArg Prod.snd hsame

theorem get?_ofFields (hnodup : (fields.map Prod.fst).Nodup) {value : Option Json}
    (hfield : (name, value) ∈ fields) : (ofFields fields).get? name = value :=
  find?_given hnodup hfield

end Fields

namespace Record

section Reading

variable {fields : List (String × Option Json)} {name : String} {names : List String}
variable {α : Type} {read : Json → Option α}

/-- No field is given twice, and those that are not asked for are passed over. -/
theorem ofJson?_ofFields (hnodup : (fields.map Prod.fst).Nodup) :
    ofJson? names (ofFields fields) = some ⟨given fields, false⟩ := by
  have honce : ∀ name, ((given fields).filter (·.1 == name)).length ≤ 1 := by
    intro name
    have hcount := List.nodup_iff_count_le_one.1
      (hnodup.sublist (map_fst_given_sublist fields)) name
    rwa [List.count_eq_countP, List.countP_map, List.countP_eq_length_filter] at hcount
  exact if_pos (List.all_eq_true.2 fun name _ => decide_eq_true (honce name))

theorem required_given (hnodup : (fields.map Prod.fst).Nodup) (name : String) (value : Json)
    (hfield : (name, some value) ∈ fields) (read : Json → Option α) :
    required ⟨given fields, false⟩ name read = read value := by
  rw [required, find?, find?_given hnodup hfield, Option.bind_some]

theorem optional_given (hnodup : (fields.map Prod.fst).Nodup) (name : String)
    (option : Option α) (write : α → Json) (hfield : (name, option.map write) ∈ fields)
    (hread : ∀ a ∈ option, (write a).isNull = false ∧ read (write a) = some a) :
    optional ⟨given fields, false⟩ name read = some option := by
  rw [optional, find?, find?_given hnodup hfield]
  cases option with
  | none => rfl
  | some a =>
      obtain ⟨hnull, ha⟩ := hread a rfl
      rw [Option.map_some]
      split
      · rename_i heq
        cases heq
      · rename_i heq
        rw [Option.some.inj heq] at hnull
        cases hnull
      · rename_i heq
        rw [← Option.some.inj heq, ha, Option.map_some]

end Reading

end Record

/-- The case of a choice is told by its tag. -/
theorem tagged?_ofFields {tag : String} {name? : Json → Option String} {value : Json}
    {fields : List (String × Option Json)} (htag : tag ∉ fields.map Prod.fst) :
    tagged? tag name? (ofFields ((tag, some value) :: fields)) =
      (name? value).map fun name => (name, ofFields fields) := by
  have hnone : (given fields).filter (fun field => field.1 == tag) = [] := by
    rw [List.filter_eq_nil_iff]
    intro field hfield heq
    exact not_mem_of_given htag field hfield (beq_iff_eq.1 heq)
  have hall : (given fields).filter (fun field => field.1 != tag) = given fields := by
    rw [List.filter_eq_self]
    intro field hfield
    exact bne_iff_ne.2 (not_mem_of_given htag field hfield)
  change tagged? tag name? (.object ((tag, value) :: given fields)) = _
  simp only [tagged?, List.filter_cons, beq_self_eq_true, bne_self_eq_false, if_true, hnone, hall]
  rfl

section Lists

variable {α β : Type}

/-- Items are read one by one. -/
theorem mapM_eq_some_iff {read : α → Option β} {items : List α} {values : List β} :
    items.mapM read = some values ↔
      List.Forall₂ (fun item value => read item = some value) items values := by
  induction items generalizing values with
  | nil =>
      rw [List.mapM_nil, List.forall₂_nil_left_iff]
      constructor
      · intro hread
        exact (Option.some.inj hread).symm
      · rintro rfl
        rfl
  | cons item items ih =>
      rw [List.mapM_cons, List.forall₂_cons_left_iff]
      constructor
      · intro hread
        obtain ⟨value, hvalue, hread⟩ := Option.bind_eq_some_iff.1 hread
        obtain ⟨others, hothers, hread⟩ := Option.bind_eq_some_iff.1 hread
        cases hread
        exact ⟨value, others, hvalue, ih.1 hothers, rfl⟩
      · rintro ⟨value, others, hvalue, hothers, rfl⟩
        rw [hvalue, ih.2 hothers]
        rfl

/-- A list that is written is read item by item. -/
theorem listOf?_map {write : α → Json} {read : Json → Option α} {values : List α}
    (hread : ∀ value ∈ values, read (write value) = some value) :
    listOf? read (.list (values.map write)) = some values := by
  change (values.map write).mapM read = some values
  rw [mapM_eq_some_iff, List.forall₂_map_left_iff, List.forall₂_same]
  exact hread

end Lists

end Json

end StubSync
