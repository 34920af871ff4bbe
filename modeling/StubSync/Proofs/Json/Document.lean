/-
A document that has been written is read as its value.
-/
import StubSync.Proofs.Json.Token

namespace StubSync

namespace Json

open Assembly (place closedObject)

section Assembling

variable {value : Json} {items : List Json} {entries : List (String × Json)}
variable {frames : List Frame}

/-- Wherever a value may stand, the tokens of this one put it there. -/
def Assembles (value : Json) : Prop :=
  ∀ frames, (tokens value).foldlM Assembly.step? ⟨frames, .value⟩ = some (place frames value)

theorem ofWord?_of_isSome {spelling : String} (hnumber : (scientific? spelling.toList).isSome) :
    ofWord? spelling = some (.number spelling) := by
  have hname : ∀ name : String, scientific? name.toList = none → spelling ≠ name := by
    rintro name hnone rfl
    rw [hnone] at hnumber
    cases hnumber
  obtain ⟨parts, hparts⟩ := Option.isSome_iff_exists.1 hnumber
  rw [ofWord?, if_neg (hname "null" rfl), if_neg (hname "true" rfl), if_neg (hname "false" rfl),
    hparts, Option.map_some]

theorem exists_first (value : Json) :
    ∃ first others, tokens value = first :: others ∧ first ≠ .closeList := by
  cases value with
  | flag truth => cases truth <;> exact ⟨_, _, rfl, nofun⟩
  | list items => cases items <;> exact ⟨_, _, rfl, nofun⟩
  | object entries => cases entries <;> exact ⟨_, _, rfl, nofun⟩
  | _ => exact ⟨_, _, rfl, nofun⟩

/-- The first item of a list is read as any value. -/
theorem foldlM_item (hvalue : Assembles value) :
    (tokens value).foldlM Assembly.step? ⟨frames, .item⟩ = some (place frames value) := by
  obtain ⟨first, others, hfirst, hne⟩ := exists_first value
  have hstep : Assembly.step? ⟨frames, .item⟩ first = Assembly.step? ⟨frames, .value⟩ first :=
    if_neg hne
  rw [← hvalue frames, hfirst, List.foldlM_cons, List.foldlM_cons, hstep]

theorem foldlM_itemTokens (hitems : ∀ item ∈ items, Assembles item) (earlier : List Json) :
    (itemTokens items).foldlM Assembly.step? ⟨.list earlier :: frames, .comma⟩ =
      some ⟨.list (items.reverse ++ earlier) :: frames, .comma⟩ := by
  induction items generalizing earlier with
  | nil => rfl
  | cons item others ih =>
      rw [List.forall_mem_cons] at hitems
      have hcomma : Assembly.step? ⟨.list earlier :: frames, .comma⟩ .comma =
          some ⟨.list earlier :: frames, .value⟩ := rfl
      rw [itemTokens, foldlM_cons_of_some hcomma, foldlM_append_of_some (hitems.1 _), place,
        ih hitems.2, List.reverse_cons, List.append_assoc, List.singleton_append]

/-- The key and the value of an entry, behind the token of the key. -/
theorem foldlM_entryToken {entry : String × Json} (hentry : Assembles entry.2)
    (earlier : List (Option String × Json)) (key : Option String) :
    (entryToken entry).foldlM Assembly.step? ⟨.object earlier key :: frames, .otherKey⟩ =
      some ⟨.object ((some entry.1, entry.2) :: earlier) none :: frames, .comma⟩ := by
  obtain ⟨name, value⟩ := entry
  have hkey : Assembly.step? ⟨.object earlier key :: frames, .otherKey⟩ (.text (some name)) =
      some ⟨.object earlier (some name) :: frames, .colon⟩ := rfl
  have hcolon : Assembly.step? ⟨.object earlier (some name) :: frames, .colon⟩ .colon =
      some ⟨.object earlier (some name) :: frames, .value⟩ := rfl
  rw [entryToken, foldlM_cons_of_some hkey, foldlM_cons_of_some hcolon, hentry]
  rfl

theorem foldlM_entryTokens (hentries : ∀ entry ∈ entries, Assembles entry.2)
    (earlier : List (Option String × Json)) :
    (entryTokens entries).foldlM Assembly.step? ⟨.object earlier none :: frames, .comma⟩ =
      some ⟨.object ((entries.map (Prod.map some id)).reverse ++ earlier) none :: frames,
        .comma⟩ := by
  induction entries generalizing earlier with
  | nil => rfl
  | cons entry others ih =>
      rw [List.forall_mem_cons] at hentries
      have hcomma : Assembly.step? ⟨.object earlier none :: frames, .comma⟩ .comma =
          some ⟨.object earlier none :: frames, .otherKey⟩ := rfl
      rw [entryTokens, foldlM_cons_of_some hcomma,
        foldlM_append_of_some (foldlM_entryToken hentries.1 _ _), ih hentries.2, List.map_cons,
        List.reverse_cons, List.append_assoc, List.singleton_append]
      rfl

theorem closedObject_reverse (entries : List (String × Json)) :
    closedObject (entries.map (Prod.map some id)).reverse = .object entries := by
  simp [closedObject, Function.comp_def]

theorem assembles_list (hitems : ∀ item ∈ items, Assembles item) : Assembles (.list items) := by
  intro frames
  cases items with
  | nil => rfl
  | cons item others =>
      rw [List.forall_mem_cons] at hitems
      have hopen : Assembly.step? ⟨frames, .value⟩ .openList =
          some ⟨.list [] :: frames, .item⟩ := rfl
      rw [tokens, foldlM_cons_of_some hopen, foldlM_append_of_some (foldlM_item hitems.1), place,
        foldlM_append_of_some (foldlM_itemTokens hitems.2 _)]
      simp [Assembly.step?, Assembly.close?]

theorem assembles_object (hentries : ∀ entry ∈ entries, Assembles entry.2) :
    Assembles (.object entries) := by
  intro frames
  cases entries with
  | nil => rfl
  | cons entry others =>
      rw [List.forall_mem_cons] at hentries
      have hopen : Assembly.step? ⟨frames, .value⟩ .openObject =
          some ⟨.object [] none :: frames, .key⟩ := rfl
      -- The first key may stand where the object may also end.
      have hfirst : (entryToken entry).foldlM Assembly.step? ⟨.object [] none :: frames, .key⟩ =
          some ⟨.object [(some entry.1, entry.2)] none :: frames, .comma⟩ := by
        rw [← foldlM_entryToken hentries.1 [] none]
        obtain ⟨_, _⟩ := entry
        rw [entryToken]
        rfl
      rw [tokens, foldlM_cons_of_some hopen, foldlM_append_of_some hfirst,
        foldlM_append_of_some (foldlM_entryTokens hentries.2 _), ← closedObject_reverse]
      simp [Assembly.step?, Assembly.close?, Prod.map]

theorem assembles (hwhole : IsWhole value) : Assembles value := by
  induction hwhole with
  | null => exact fun _ => rfl
  | flag truth => cases truth <;> exact fun _ => rfl
  | @number spelling hnumber =>
      intro frames
      have hstart : Assembly.step? ⟨frames, .value⟩ (.word spelling) =
          some (place frames (.number spelling)) := by
        simp [Assembly.step?, Assembly.start?, ofWord?_of_isSome hnumber]
      rw [tokens, foldlM_cons_of_some hstart]
      rfl
  | text content => exact fun _ => rfl
  | list hitems ih => exact assembles_list ih
  | object hentries ih => exact assembles_object ih

end Assembling

/-- A document reads as the value it was written for, whatever blanks its layout
puts between the parts, and behind them. -/
theorem read?_write {layout : Layout} {value : Json} (hlayout : layout.IsBlank)
    (hwhole : IsWhole value) {blank : List Char} (hblank : ∀ c ∈ blank, isSpace c = true) :
    read? (String.ofList (write layout 0 value ++ blank)) = some value := by
  have hplace : (tokens value).foldlM Assembly.step? {} = some ⟨[], .nothing value⟩ :=
    assembles hwhole []
  simp only [read?, String.toList_ofList, tokens?_write hlayout hwhole hblank, hplace,
    Option.bind_eq_bind, Option.bind_some]

theorem read?_compact {value : Json} (hwhole : IsWhole value) :
    read? value.compact = some value := by
  have hread := read?_write isBlank_compact hwhole (List.forall_mem_nil _)
  rwa [List.append_nil] at hread

theorem read?_pretty {value : Json} (hwhole : IsWhole value) {blank : String}
    (hblank : ∀ c ∈ blank.toList, isSpace c = true) :
    read? (value.pretty ++ blank) = some value := by
  have hread := read?_write isBlank_indented hwhole hblank
  rwa [String.ofList_append, String.ofList_toList] at hread

section Keeping

variable {depth : Nat}

theorem keptItems?_eq {items : List Json} (hitems : ∀ item ∈ items, kept? depth item = some item) :
    keptItems? depth items = some items := by
  induction items with
  | nil => rfl
  | cons item others ih =>
      rw [List.forall_mem_cons] at hitems
      rw [keptItems?, hitems.1, ih hitems.2]
      rfl

theorem keptEntries?_eq {entries : List (String × Json)}
    (hentries : ∀ entry ∈ entries, kept? depth entry.2 = some entry.2) :
    keptEntries? depth entries = some entries := by
  induction entries with
  | nil => rfl
  | cons entry others ih =>
      rw [List.forall_mem_cons] at hentries
      rw [keptEntries?, hentries.1, ih hentries.2]
      rfl

theorem kept?_list {items : List Json} (hitems : ∀ item ∈ items, kept? depth item = some item) :
    kept? (depth + 1) (.list items) = some (.list items) := by
  rw [kept?, if_neg (Nat.succ_ne_zero depth), Nat.add_sub_cancel, keptItems?_eq hitems]
  rfl

theorem kept?_object {entries : List (String × Json)}
    (hentries : ∀ entry ∈ entries, kept? depth entry.2 = some entry.2) :
    kept? (depth + 1) (.object entries) = some (.object (lastOfEach entries)) := by
  rw [kept?, if_neg (Nat.succ_ne_zero depth), Nat.add_sub_cancel, keptEntries?_eq hentries]
  rfl

end Keeping

end Json

end StubSync
