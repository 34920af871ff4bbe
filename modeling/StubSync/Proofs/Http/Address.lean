/-
Which service an address leads to.

The service is named by what stands before the path.  So of texts that differ
in their paths only, all are addresses of one service, or none is an address.
-/
import Mathlib.Data.List.TakeWhile
import StubSync.Http.Address

namespace StubSync

namespace Text

theorem takeWhile_eq_cutAt? (mark : Char) (text : List Char) :
    text.takeWhile (· != mark) = ((cutAt? mark text).map Prod.fst).getD text := by
  induction text with
  | nil => rfl
  | cons c text ih =>
      rw [cutAt?, List.takeWhile_cons]
      by_cases hc : c = mark
      · simp [hc]
      · rw [ih]
        cases cutAt? mark text <;> simp [hc]

theorem cutAt?_append (mark : Char) (text rest : List Char) :
    cutAt? mark (text ++ rest) =
      match cutAt? mark text with
      | some (before, after) => some (before, after ++ rest)
      | none => (cutAt? mark rest).map fun parts => (text ++ parts.1, parts.2) := by
  induction text with
  | nil => simp [cutAt?]
  | cons c text ih =>
      rw [List.cons_append, cutAt?, cutAt?, ih]
      by_cases hc : c = mark
      · simp [hc]
      · cases cutAt? mark text <;> simp [hc, Function.comp_def]

/-- A text stays in front of what goes on with a character that is not dropped. -/
theorem dropWhile_append_stop {drops : Char → Bool} {c : Char} (hc : drops c = false)
    (text rest : List Char) :
    (text ++ c :: rest).dropWhile drops = text.dropWhile drops ++ c :: rest := by
  induction text with
  | nil => simp [hc]
  | cons d text ih =>
      rw [List.cons_append, List.dropWhile_cons, List.dropWhile_cons]
      split
      · exact ih
      · rfl

theorem takeWhile_append_stop {takes : Char → Bool} {c : Char} (hc : takes c = false)
    (text rest : List Char) :
    (text ++ c :: rest).takeWhile takes = text.takeWhile takes := by
  induction text with
  | nil => simp [hc]
  | cons d text ih =>
      rw [List.cons_append, List.takeWhile_cons, List.takeWhile_cons, ih]

end Text

namespace Address

/-- What an address leads to, apart from what is asked for there. -/
def service (address : Address) : Bool × String × Option Nat :=
  (address.isSecure, address.host, address.servicePort)

/-- The part of an address that names the host, in the text after the scheme. -/
def authority (text : List Char) : List Char :=
  ((((text.takeWhile (· != '#')).takeWhile (· != '?')).dropWhile isSlash).takeWhile
    fun c => !isSlash c)

/-- The service of an authority. -/
def serviceAt? (isSecure : Bool) (authority : List Char) : Option (Bool × String × Option Nat) := do
  let parts := cutHost (withoutUser authority)
  return (isSecure, ← Host.read? parts.1, ← servicePort? isSecure parts.2)

theorem service_read? (text : String) :
    (read? text).map service =
      (scheme? (cleaned text.toList)).bind fun parts => serviceAt? parts.1 (authority parts.2) := by
  unfold read?
  rcases scheme? (cleaned text.toList) with _ | ⟨isSecure, rest⟩
  · rfl
  simp only [authority, serviceAt?, Text.takeWhile_eq_cutAt?, Option.bind_eq_bind,
    Option.bind_some]
  rcases Text.cutAt? '#' rest with _ | ⟨before, fragment⟩
  · simp only [Option.map_none, Option.getD_none]
    rcases Text.cutAt? '?' rest with _ | ⟨front, query⟩
    · simp only [Option.map_bind, Function.comp_def]
      rfl
    · simp only [Option.map_bind, Function.comp_def]
      rfl
  · simp only [Option.map_some, Option.getD_some]
    rcases Text.cutAt? '?' before with _ | ⟨front, query⟩
    · simp only [Option.map_bind, Function.comp_def]
      rfl
    · simp only [Option.map_bind, Function.comp_def]
      rfl

/-- The front of a text that goes on, as `cleaned` leaves it. -/
def cleanedFront (text : List Char) : List Char :=
  (text.dropWhile fun c => c.toNat ≤ 0x20).filter fun c => c != '\t' && c != '\n' && c != '\r'

/-- What follows, as `cleaned` leaves it. -/
def cleanedBack (text : List Char) : List Char :=
  (text.reverse.dropWhile fun c => c.toNat ≤ 0x20).reverse.filter
    fun c => c != '\t' && c != '\n' && c != '\r'

theorem cleanedFront_append (lead rest : List Char) :
    cleanedFront (lead ++ '/' :: rest) =
      cleanedFront lead ++ '/' :: rest.filter fun c => c != '\t' && c != '\n' && c != '\r' := by
  have hstop : decide ('/'.toNat ≤ 0x20) = false := by decide
  rw [cleanedFront, Text.dropWhile_append_stop hstop, List.filter_append]
  rfl

theorem cleaned_append (lead rest : List Char) :
    cleaned (lead ++ '/' :: rest) = cleanedFront lead ++ '/' :: cleanedBack rest := by
  have hstop : decide ('/'.toNat ≤ 0x20) = false := by decide
  simp only [cleaned]
  rw [Text.dropWhile_append_stop hstop, List.reverse_append, List.reverse_cons, List.append_assoc,
    List.singleton_append, Text.dropWhile_append_stop hstop]
  simp only [List.reverse_append, List.reverse_cons, List.reverse_reverse, List.append_assoc,
    List.singleton_append, List.filter_append]
  rfl

/-- No scheme has a slash in it, so what follows a slash is not looked at. -/
theorem scheme?_append (lead rest : List Char) :
    scheme? (lead ++ '/' :: rest) =
      (scheme? lead).map fun parts => (parts.1, parts.2 ++ '/' :: rest) := by
  unfold scheme?
  rw [Text.cutAt?_append]
  cases Text.cutAt? ':' lead with
  | some parts =>
      simp only [Option.bind_eq_bind, Option.bind_some]
      split <;> rfl
  | none =>
      rw [Text.cutAt?, if_neg (by decide)]
      cases Text.cutAt? ':' rest with
      | none => rfl
      | some parts =>
          have hslash : '/' ∈ Text.lowerAscii (lead ++ '/' :: parts.1) :=
            List.mem_map.2 ⟨'/', by simp, by decide⟩
          simp only [Option.bind_eq_bind, Option.map_some, Option.bind_some, Option.bind_none,
            Option.map_none]
          split
          · rename_i hname
            rw [← String.toList_inj, String.toList_ofList] at hname
            simp [hname] at hslash
          · rename_i hname
            rw [← String.toList_inj, String.toList_ofList] at hname
            simp [hname] at hslash
          · rfl

theorem authority_append {lead : List Char} (hlead : ∃ c ∈ lead, isSlash c = false)
    (rest : List Char) : authority (lead ++ '/' :: rest) = authority lead := by
  have hcut (mark : Char) (hmark : ('/' != mark) = true) (rest : List Char) :
      (lead ++ '/' :: rest).takeWhile (· != mark) = lead.takeWhile (· != mark) ∨
      lead.takeWhile (· != mark) = lead ∧
        ∃ more, (lead ++ '/' :: rest).takeWhile (· != mark) = lead ++ '/' :: more := by
    rw [List.takeWhile_append]
    split
    · rename_i hlength
      refine Or.inr ⟨(List.takeWhile_prefix _).eq_of_length hlength, ?_⟩
      exact ⟨rest.takeWhile (· != mark), by rw [List.takeWhile_cons, if_pos hmark]⟩
    · exact Or.inl rfl
  have hfront : (lead.dropWhile isSlash).isEmpty = false := by
    obtain ⟨c, hc, hslash⟩ := hlead
    rw [Bool.eq_false_iff, Ne, List.isEmpty_iff, List.dropWhile_eq_nil_iff]
    intro hslashes
    rw [hslashes c hc] at hslash
    cases hslash
  unfold authority
  rcases hcut '#' (by decide) rest with hsame | ⟨hlead, more, hmore⟩
  · rw [hsame]
  · rw [hlead, hmore]
    rcases hcut '?' (by decide) more with hsame | ⟨hlead, others, hothers⟩
    · rw [hsame]
    · rw [hlead, hothers, List.dropWhile_append, hfront, if_neg (by simp),
        Text.takeWhile_append_stop (by decide)]

/-- Texts that differ only after a slash behind the host are addresses of one
service, or none is an address. -/
theorem service_eq_of_lead (base more first second : List Char) :
    (read? (String.ofList (base ++ '/' :: 'r' :: more ++ '/' :: first))).map service =
      (read? (String.ofList (base ++ '/' :: 'r' :: more ++ '/' :: second))).map service := by
  have hservice (rest : List Char) :
      (read? (String.ofList (base ++ '/' :: 'r' :: more ++ '/' :: rest))).map service =
        (scheme? (cleanedFront (base ++ '/' :: 'r' :: more))).bind fun parts =>
          serviceAt? parts.1 (authority parts.2) := by
    rw [service_read?, String.toList_ofList, cleaned_append, scheme?_append, Option.bind_map]
    rw [cleanedFront_append, scheme?_append]
    cases scheme? (cleanedFront base) with
    | none => rfl
    | some parts =>
        simp only [Option.map_some, Option.bind_some, Function.comp_apply]
        rw [authority_append ⟨'r', by simp, by decide⟩]
  rw [hservice, hservice]

end Address

end StubSync
