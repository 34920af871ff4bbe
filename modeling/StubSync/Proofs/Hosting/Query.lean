/-
The query of a listing of pull requests.

A listing is asked for by names with values.  The names and the numbers among
the values have no character that is taken for another one in a query.
-/
import StubSync.Hosting.Pulls
import StubSync.Proofs.Http.Query
import StubSync.Proofs.Text.Decimal

namespace StubSync

namespace GitHub

open Http (IsPair blanked blanked_eq_self_iff isValueChar isValueChar_iff pairText queryText)

section Characters

/-- Letters, digits, and the marks in names. -/
def isNameChar (c : Char) : Bool :=
  c.isAlphanum || ['-', '_', '.'].contains c || 0x7F < c.toNat

/-- The characters of heads, apart from those of versions. -/
def isHeadChar (c : Char) : Bool :=
  isNameChar c || c == '/' || c == ':'

variable {c : Char}

theorem isHeadChar_of_isNameChar (hc : isNameChar c = true) : isHeadChar c = true := by
  simp [isHeadChar, hc]

theorem visible_of_isAlphanum (hc : c.isAlphanum = true) : 0x20 < c.toNat := by
  have hlow : ∀ n < 0x21, (Char.ofNat n).isAlphanum = false := by decide
  by_contra hblank
  have hnot := hlow c.toNat (by omega)
  rw [Char.ofNat_toNat, hc] at hnot
  cases hnot

theorem visible_of_isNameChar (hc : isNameChar c = true) : 0x20 < c.toNat := by
  simp only [isNameChar, Bool.or_eq_true, decide_eq_true_eq] at hc
  rcases hc with (hc | hc) | hc
  · exact visible_of_isAlphanum hc
  · simp only [List.contains_eq_mem, List.mem_cons, List.not_mem_nil, or_false,
      decide_eq_true_eq] at hc
    rcases hc with rfl | rfl | rfl
    all_goals decide
  · omega

theorem visible_of_isHeadChar (hc : isHeadChar c = true) : 0x20 < c.toNat := by
  simp only [isHeadChar, Bool.or_eq_true, beq_iff_eq] at hc
  rcases hc with (hc | rfl) | rfl
  · exact visible_of_isNameChar hc
  · decide
  · decide

theorem ne_of_isHeadChar {mark : Char} (hmark : isHeadChar mark = false)
    (hc : isHeadChar c = true) : c ≠ mark := by
  rintro rfl
  rw [hmark] at hc
  cases hc

/-- A kind of visible characters is one of values, if three characters are not of it. -/
theorem isValueChar_of {kind : Char → Bool} (hvisible : ∀ c, kind c = true → 0x20 < c.toNat)
    (hmarks : ['#', '%', '&'].any kind = false) (hc : kind c = true) : isValueChar c = true := by
  simp only [List.any_cons, List.any_nil, Bool.or_false, Bool.or_eq_false_iff] at hmarks
  rw [isValueChar_iff]
  refine ⟨hvisible c hc, ?_, ?_, ?_⟩
  all_goals
    rintro rfl
    simp_all

theorem isValueChar_of_isHeadChar (hc : isHeadChar c = true) : isValueChar c = true :=
  isValueChar_of (fun _ => visible_of_isHeadChar) (by decide) hc

end Characters

section Queries

/-- What the query of a listing is put together from. -/
def lookup (state head : String) (page : Nat) : List (String × String) :=
  [("state", state), ("per_page", toString perPage), ("page", toString page), ("head", head)]

theorem path_listPulls (state head : String) (page : Nat) :
    (Call.listPulls state (some head) page).path =
      "/pulls?state=" ++ state ++ "&per_page=" ++ toString perPage ++ "&page=" ++ toString page ++
        ("&head=" ++ head) :=
  rfl

theorem toList_path_listPulls (state head : String) (page : Nat) :
    (Call.listPulls state (some head) page).path.toList =
      '/' :: ("pulls".toList ++ '?' :: queryText (lookup state head page)) := by
  rw [path_listPulls]
  simp only [String.toList_append, lookup, Http.queryText_cons_cons, Http.queryText_singleton,
    pairText, List.append_assoc, List.cons_append]
  rfl

theorem isValueChar_of_mem_toString (n : Nat) :
    ∀ c ∈ (toString n).toList, isValueChar c = true := by
  intro c hc
  rw [Decimal.toList_toString] at hc
  have hdigit := Decimal.isDigit_of_mem_digits hc
  apply isValueChar_of_isHeadChar
  simp [isHeadChar, isNameChar, Char.isAlphanum, hdigit]

/-- Of a query, only the head may come to be another one. -/
theorem blanked_lookup {state : String} (hstate : '+' ∉ state.toList) (head : String)
    (page : Nat) :
    (lookup state head page).map (fun pair => (blanked pair.1, blanked pair.2)) =
      lookup state (blanked head) page := by
  have hpage : blanked (toString page) = toString page := by
    rw [blanked_eq_self_iff, Decimal.toList_toString]
    exact Decimal.not_mem_digits (by decide) page
  simp only [lookup, List.map_cons, List.map_nil, blanked_eq_self_iff.2 hstate, hpage]
  rfl

/-- The names and the values of a query end where they are meant to. -/
theorem isPair_of_mem_lookup {state head : String} {page : Nat}
    (hstate : ∀ c ∈ state.toList, isValueChar c = true)
    (hhead : ∀ c ∈ head.toList, isValueChar c = true) :
    ∀ pair ∈ lookup state head page, IsPair pair := by
  have hpair {name value : String} (hname : name.toList.all isHeadChar = true)
      (hvalue : ∀ c ∈ value.toList, isValueChar c = true) : IsPair (name, value) := by
    refine ⟨fun c hc => ?_, hvalue⟩
    have hhead := List.all_eq_true.1 hname c hc
    exact ⟨isValueChar_of_isHeadChar hhead, ne_of_isHeadChar (by decide) hhead⟩
  simp only [lookup, List.forall_mem_cons]
  exact ⟨hpair rfl hstate, hpair rfl (isValueChar_of_mem_toString _),
    hpair rfl (isValueChar_of_mem_toString _), hpair rfl hhead, List.forall_mem_nil _⟩

end Queries

end GitHub

end StubSync
