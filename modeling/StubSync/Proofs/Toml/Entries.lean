/-
Tables as lists of entries: what a key has, and which key an edit looks at.

Whatever a line of a document does to a table, it does to one key of it: it
looks at nothing but the value of that key, and no text is changed.
-/
import StubSync.Toml.Value

namespace StubSync

namespace Toml

namespace Entries

variable {entries root other : Entries} {key : String} {value : Value}

theorem get?_cons (entry : String × Value) (entries : Entries) (key : String) :
    get? (entry :: entries) key =
      if entry.1 = key then some entry.2 else entries.get? key := by
  unfold get?
  rw [List.find?_cons]
  split
  · rename_i heq
    rw [if_pos (eq_of_beq heq)]
    rfl
  · rename_i hne
    rw [if_neg (ne_of_beq_false hne)]

theorem get?_put (entries : Entries) (key : String) (value : Value) (other : String) :
    (entries.put key value).get? other =
      if key = other then some value else entries.get? other := by
  induction entries with
  | nil => rw [put, get?_cons]
  | cons entry entries ih =>
      rw [put]
      split
      · rename_i hkey
        rw [get?_cons, get?_cons, hkey]
        split <;> rfl
      · rename_i hkey
        rw [get?_cons, get?_cons, ih]
        by_cases hentry : entry.1 = other
        · rw [if_pos hentry, if_pos hentry, if_neg fun hother => hkey (hentry.trans hother.symm)]
        · rw [if_neg hentry, if_neg hentry]

/-- The key has a text. -/
def HasText (entries : Entries) (key : String) : Prop :=
  ∃ content, entries.get? key = some (.text content)

/-- The value is no text. -/
def IsCompound (value : Value) : Prop :=
  ∀ content, value ≠ .text content

/-- At the top level the edit gives one key a value, which depends on nothing but
the value that the key had; it does not take the place of a text. -/
def IsLocal (edit : Origin → Entries → Option (Origin × Entries)) (key : String)
    (allowed : Value → Prop) : Prop :=
  ∀ old : Option Value, ∃ value? : Option Value,
    (∀ entries, get? entries key = old →
      edit .header entries = value?.map fun value => (.header, entries.put key value)) ∧
    ∀ value, value? = some value → allowed value ∧ ∀ content, old ≠ some (.text content)

variable {edit : Origin → Entries → Option (Origin × Entries)} {allowed : Value → Prop}

theorem isCompound_of_map {α : Type} {read : Option α} {make : α → Value}
    (hmake : ∀ found, IsCompound (make found)) (hvalue : read.map make = some value) :
    IsCompound value := by
  obtain ⟨found, _, rfl⟩ := Option.map_eq_some_iff.1 hvalue
  exact hmake found

/-- A path starts with a step into the table of its first key. -/
theorem isLocal_change_cons (byDottedKey : Bool)
    (edit : Origin → Entries → Option (Origin × Entries)) (key : String) (path : List String) :
    IsLocal (change byDottedKey edit (key :: path)) key IsCompound := by
  intro old
  match old with
  | none =>
      let opened := if byDottedKey then Origin.dotted else Origin.implied
      refine ⟨(change byDottedKey edit path opened []).map fun after =>
        .table after.1 after.2, ?_, ?_⟩
      · intro entries hold
        simp only [change, hold]
        cases change byDottedKey edit path opened [] <;> rfl
      · intro value hvalue
        exact ⟨isCompound_of_map (by intro found; nofun) hvalue, nofun⟩
  | some (.table inner nested) =>
      by_cases hclosed : inner = .inline ∨ byDottedKey = true ∧ inner = .header
      · refine ⟨none, ?_, nofun⟩
        intro entries hold
        rcases hclosed with rfl | ⟨rfl, rfl⟩
        · simp [change, hold]
        · simp [change, hold]
      · refine ⟨(change byDottedKey edit path inner nested).map fun after =>
          .table after.1 after.2, ?_, ?_⟩
        · intro entries hold
          rw [not_or] at hclosed
          simp only [change, hold, hclosed.1, Bool.and_eq_true, decide_eq_true_eq, hclosed.2,
            if_false]
          cases change byDottedKey edit path inner nested <;> rfl
        · intro value hvalue
          exact ⟨isCompound_of_map (by intro found; nofun) hvalue, nofun⟩
  | some (.tables items) =>
      cases hitems : items.reverse with
      | nil =>
          refine ⟨none, ?_, nofun⟩
          intro entries hold
          simp only [change, hold, hitems]
          rfl
      | cons last earlier =>
          refine ⟨(change byDottedKey edit path .header last).map fun after =>
            .tables (after.2 :: earlier).reverse, ?_, ?_⟩
          · intro entries hold
            simp only [change, hold, hitems]
            cases change byDottedKey edit path .header last <;> rfl
          · intro value hvalue
            exact ⟨isCompound_of_map (by intro found; nofun) hvalue, nofun⟩
  | some (.text _) | some (.integer _) | some (.float _) | some (.flag _) | some (.moment _)
  | some (.array _) =>
      refine ⟨none, ?_, nofun⟩
      intro entries hold
      simp only [change, hold]
      rfl

theorem isLocal_openTable (key : String) : IsLocal (openTable key) key IsCompound := by
  intro old
  match old with
  | none =>
      refine ⟨some (.table .header []), ?_, ?_⟩
      · intro entries hold
        simp only [openTable, hold]
        rfl
      · rintro value ⟨⟩
        exact ⟨nofun, nofun⟩
  | some (.table .implied nested) =>
      refine ⟨some (.table .header nested), ?_, ?_⟩
      · intro entries hold
        simp only [openTable, hold]
        rfl
      · rintro value ⟨⟩
        exact ⟨nofun, nofun⟩
  | some (.table .header _) | some (.table .dotted _) | some (.table .inline _)
  | some (.text _) | some (.integer _) | some (.float _) | some (.flag _) | some (.moment _)
  | some (.array _) | some (.tables _) =>
      refine ⟨none, ?_, nofun⟩
      intro entries hold
      simp only [openTable, hold]
      rfl

theorem isLocal_openElement (key : String) : IsLocal (openElement key) key IsCompound := by
  intro old
  match old with
  | none =>
      refine ⟨some (.tables [[]]), ?_, ?_⟩
      · intro entries hold
        simp only [openElement, hold]
        rfl
      · rintro value ⟨⟩
        exact ⟨nofun, nofun⟩
  | some (.tables items) =>
      refine ⟨some (.tables (items ++ [[]])), ?_, ?_⟩
      · intro entries hold
        simp only [openElement, hold]
        rfl
      · rintro value ⟨⟩
        exact ⟨nofun, nofun⟩
  | some (.table _ _) | some (.text _) | some (.integer _) | some (.float _) | some (.flag _)
  | some (.moment _) | some (.array _) =>
      refine ⟨none, ?_, nofun⟩
      intro entries hold
      simp only [openElement, hold]
      rfl

/-- A key without dots is defined in the table itself. -/
theorem define_nil (key : String) (value : Value) (entries : Entries) :
    define [] key value .header entries =
      if (entries.get? key).isSome then none else some (.header, entries.put key value) := by
  cases hkey : entries.get? key <;> simp [define, change, hkey]

theorem IsLocal.mono {key : String} {weaker : Value → Prop} (hlocal : IsLocal edit key allowed)
    (hweaker : ∀ value, allowed value → weaker value) : IsLocal edit key weaker := by
  intro old
  obtain ⟨value?, hedit, hvalue⟩ := hlocal old
  refine ⟨value?, hedit, ?_⟩
  intro value hsome
  exact ⟨hweaker value (hvalue value hsome).1, (hvalue value hsome).2⟩

theorem isLocal_define (path : List String) (key : String) (value : Value) :
    ∃ first, IsLocal (define path key value) first fun _ => True := by
  cases path with
  | nil =>
      refine ⟨key, fun old => ?_⟩
      cases old with
      | none =>
          refine ⟨some value, ?_, ?_⟩
          · intro entries hold
            rw [define_nil, hold]
            rfl
          · rintro _ ⟨⟩
            exact ⟨trivial, nofun⟩
      | some old =>
          refine ⟨none, ?_, nofun⟩
          intro entries hold
          rw [define_nil, hold]
          rfl
  | cons first path =>
      exact ⟨first, (isLocal_change_cons true _ first path).mono fun _ _ => trivial⟩

/-- The tables have the same values but for one key. -/
def AgreeBut (key : String) (left right : Entries) : Prop :=
  ∀ other, other ≠ key → left.get? other = right.get? other

theorem AgreeBut.put {key : String} {left right : Entries} (hagree : AgreeBut key left right)
    (first : String) (value : Value) :
    AgreeBut key (left.put first value) (right.put first value) := by
  intro other hother
  rw [get?_put, get?_put, hagree other hother]

/-- The right table has the text for the key, and is like the left one but for
it. -/
structure SetsText (key content : String) (left right : Entries) : Prop where
  others : AgreeBut key left right
  text : right.get? key = some (.text content)

/-- An edit of both tables keeps to a key that is not the one that has a text. -/
theorem IsLocal.setsText {first content : String} (hlocal : IsLocal edit first allowed)
    {left left' right right' : Entries} {origin origin' : Origin}
    (hleft : edit .header left = some (origin, left'))
    (hright : edit .header right = some (origin', right'))
    (hsets : SetsText key content left right) : SetsText key content left' right' := by
  obtain ⟨value?, hedit, hvalue⟩ := hlocal (right.get? first)
  rw [hedit right rfl] at hright
  obtain ⟨value, hsome, hresult⟩ := Option.map_eq_some_iff.1 hright
  have hne : first ≠ key := by
    rintro rfl
    exact (hvalue value hsome).2 content hsets.text
  rw [hedit left (hsets.others first hne), hsome] at hleft
  cases hleft
  cases hresult
  refine ⟨hsets.others.put first value, ?_⟩
  rw [get?_put, if_neg hne, hsets.text]

/-- An edit that gives no key a text leaves no key with a new one. -/
theorem IsLocal.not_hasText {first : String} (hlocal : IsLocal edit first IsCompound)
    {entries after : Entries} {origin : Origin}
    (hedit : edit .header entries = some (origin, after)) (hnone : ¬ entries.HasText key) :
    ¬ after.HasText key := by
  obtain ⟨value?, hresult, hvalue⟩ := hlocal (entries.get? first)
  rw [hresult entries rfl] at hedit
  obtain ⟨value, hsome, hafter⟩ := Option.map_eq_some_iff.1 hedit
  cases hafter
  rintro ⟨content, hcontent⟩
  rw [get?_put] at hcontent
  split at hcontent
  · exact (hvalue value hsome).1 content (Option.some.inj hcontent)
  · exact hnone ⟨content, hcontent⟩

end Entries

end Toml

end StubSync
