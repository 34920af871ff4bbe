/-
What a server makes of the query of an address.

A server cuts a query at each `&`, and each part at its first `=`; then it takes
`+` for a blank and three characters from `%` on for a byte.  Encoding a query
leaves `+` as it is.  So what is put into a query is read back, but for blanks
that have come out of `+`.
-/
import StubSync.Http.Address
import StubSync.Proofs.Http.Address
import StubSync.Proofs.Text.Pieces

namespace StubSync

namespace Http

section Server

def blankFor (c : Char) : Char :=
  if c = '+' then ' ' else c

/-- The text with a blank for each `+`. -/
def blanked (text : String) : String :=
  String.ofList (text.toList.map blankFor)

/-- What a server takes a name or a value in a query for. -/
def meaning? (text : List Char) : Option String :=
  String.fromUTF8? (Host.decoded (text.map blankFor)).toByteArray

def parameter? (part : List Char) : Option (String × String) := do
  let (name, value) := (Text.cutAt? '=' part).getD (part, [])
  return (← meaning? name, ← meaning? value)

/-- The names and values that a server reads in a query. -/
def parameters? (query : String) : Option (List (String × String)) :=
  (Text.split '&' query.toList).mapM parameter?

end Server

section Blanks

theorem blankFor_eq_self_iff {c : Char} : blankFor c = c ↔ c ≠ '+' := by
  unfold blankFor
  split
  · rename_i hplus
    subst hplus
    decide
  · rename_i hother
    exact ⟨fun _ => hother, fun _ => rfl⟩

theorem blanked_append (first second : String) :
    blanked (first ++ second) = blanked first ++ blanked second := by
  simp only [blanked, String.toList_append, List.map_append, String.ofList_append]

theorem blanked_eq_self_iff {text : String} : blanked text = text ↔ '+' ∉ text.toList := by
  rw [blanked, ← String.toList_inj, String.toList_ofList]
  constructor
  · intro hsame hplus
    have hkept : ∀ c ∈ text.toList, blankFor c = c := by
      apply List.map_inj_left.1
      rw [hsame, List.map_id']
    exact blankFor_eq_self_iff.1 (hkept '+' hplus) rfl
  · intro hplus
    have hkept : text.toList.map blankFor = text.toList.map id := by
      apply List.map_congr_left
      intro c hc
      apply blankFor_eq_self_iff.2
      rintro rfl
      exact hplus hc
    rw [hkept, List.map_id]

end Blanks

section Encoding

open Address (encode encodeByte hexDigit inQuery isAlwaysEncoded)

theorem hexDigit?_hexDigit {n : Nat} (hn : n < 16) : Host.hexDigit? (hexDigit n) = some n := by
  decide +revert

theorem blankFor_hexDigit {n : Nat} (hn : n < 16) : blankFor (hexDigit n) = hexDigit n := by
  decide +revert

section Bytes

variable (byte : UInt8)

theorem high_lt : byte.toNat / 16 < 16 := by
  have hbyte := byte.toNat_lt
  omega

theorem low_lt : byte.toNat % 16 < 16 :=
  Nat.mod_lt _ (by decide)

theorem decoded_encodeByte (rest : List Char) :
    Host.decoded (encodeByte byte ++ rest) = byte :: Host.decoded rest := by
  simp only [encodeByte, List.cons_append, List.nil_append, Host.decoded,
    hexDigit?_hexDigit (high_lt byte), hexDigit?_hexDigit (low_lt byte), Nat.div_add_mod,
    UInt8.ofNat_toNat]

theorem decoded_flatMap_encodeByte (bytes : List UInt8) (rest : List Char) :
    Host.decoded (bytes.flatMap encodeByte ++ rest) = bytes ++ Host.decoded rest := by
  induction bytes with
  | nil => rfl
  | cons byte bytes ih =>
      rw [List.flatMap_cons, List.append_assoc, decoded_encodeByte, ih, List.cons_append]

theorem map_blankFor_encodeByte : (encodeByte byte).map blankFor = encodeByte byte := by
  simp only [encodeByte, List.map_cons, List.map_nil, blankFor_hexDigit (high_lt byte),
    blankFor_hexDigit (low_lt byte)]
  rfl

theorem map_blankFor_flatMap_encodeByte (bytes : List UInt8) :
    (bytes.flatMap encodeByte).map blankFor = bytes.flatMap encodeByte := by
  simp only [List.map_flatMap, map_blankFor_encodeByte]

theorem mem_encodeByte {c : Char} (hc : c ∈ encodeByte byte) :
    c = '%' ∨ ∃ n < 16, c = hexDigit n := by
  simp only [encodeByte, List.mem_cons, List.not_mem_nil, or_false] at hc
  rcases hc with hc | hc | hc
  · exact Or.inl hc
  · exact Or.inr ⟨_, high_lt byte, hc⟩
  · exact Or.inr ⟨_, low_lt byte, hc⟩

end Bytes

/-- Encoding puts `%` and hexadecimal digits into a text, and no other character. -/
theorem not_mem_encode {c : Char} (hpercent : c ≠ '%') (hdigit : ∀ n < 16, c ≠ hexDigit n)
    {mark : Char → Bool} {text : List Char} (hc : c ∉ text) : c ∉ encode mark text := by
  intro hmem
  obtain ⟨d, hd, hmem⟩ := List.mem_flatMap.1 hmem
  split at hmem
  · obtain ⟨byte, _, hbyte⟩ := List.mem_flatMap.1 hmem
    rcases mem_encodeByte byte hbyte with hsame | ⟨n, hn, hsame⟩
    · exact hpercent hsame
    · exact hdigit n hn hsame
  · rw [List.mem_singleton.1 hmem] at hc
    exact hc hd

theorem decoded_cons {c : Char} (hpercent : c ≠ '%') (rest : List Char) :
    Host.decoded (c :: rest) = String.utf8EncodeChar c ++ Host.decoded rest := by
  rw [Host.decoded]
  intro high low more hc
  exact absurd hc hpercent

/-- A server reads the bytes of a text that has been encoded, with blanks for
`+`. -/
theorem decoded_encode {text : List Char} (hpercent : '%' ∉ text) :
    Host.decoded ((encode inQuery text).map blankFor) =
      (text.map blankFor).flatMap String.utf8EncodeChar := by
  induction text with
  | nil => rfl
  | cons c text ih =>
      rw [List.mem_cons, not_or] at hpercent
      rw [encode, List.flatMap_cons, List.map_append, List.map_cons, List.flatMap_cons]
      change Host.decoded (_ ++ (encode inQuery text).map blankFor) = _
      split
      · rename_i hencoded
        have hplus : c ≠ '+' := by
          rintro rfl
          exact absurd hencoded (by decide)
        rw [map_blankFor_flatMap_encodeByte, decoded_flatMap_encodeByte, ih hpercent.2,
          blankFor_eq_self_iff.2 hplus]
      · have hother : blankFor c ≠ '%' := by
          unfold blankFor
          split
          · decide
          · exact Ne.symm hpercent.1
        rw [List.map_singleton, List.singleton_append, decoded_cons hother, ih hpercent.2]

theorem meaning?_encode {text : List Char} (hpercent : '%' ∉ text) :
    meaning? (encode inQuery text) = some (String.ofList (text.map blankFor)) := by
  rw [meaning?, decoded_encode hpercent]
  exact dif_pos ByteArray.isValidUTF8_utf8Encode

theorem encode_append (mark : Char → Bool) (first second : List Char) :
    encode mark (first ++ second) = encode mark first ++ encode mark second :=
  List.flatMap_append

end Encoding

section Pairs

open Address (encode inQuery)

/-- The characters that neither end a value in a query nor are taken for bytes
there. -/
def isValueChar (c : Char) : Bool :=
  0x20 < c.toNat && !(['#', '%', '&'].contains c)

theorem isValueChar_iff {c : Char} :
    isValueChar c = true ↔ 0x20 < c.toNat ∧ c ≠ '#' ∧ c ≠ '%' ∧ c ≠ '&' := by
  simp [isValueChar]

/-- A name and its value, as they stand in a query. -/
def pairText (pair : String × String) : List Char :=
  pair.1.toList ++ '=' :: pair.2.toList

/-- The name and the value may stand in a query, and the value starts where the name
ends. -/
structure IsPair (pair : String × String) : Prop where
  name : ∀ c ∈ pair.1.toList, isValueChar c = true ∧ c ≠ '='
  value : ∀ c ∈ pair.2.toList, isValueChar c = true

/-- A query put together from names and values. -/
def queryText (pairs : List (String × String)) : List Char :=
  ['&'].intercalate (pairs.map pairText)

@[simp]
theorem queryText_singleton (pair : String × String) : queryText [pair] = pairText pair :=
  List.intercalate_singleton

@[simp]
theorem queryText_cons_cons (pair next : String × String) (others : List (String × String)) :
    queryText (pair :: next :: others) = pairText pair ++ '&' :: queryText (next :: others) := by
  simp only [queryText, List.map_cons, List.intercalate_cons_cons, List.append_assoc,
    List.singleton_append]

variable {pair : String × String} {pairs : List (String × String)}

theorem not_mem_of_isValueChar {c : Char} {text : String} (hc : isValueChar c = false)
    (htext : ∀ c ∈ text.toList, isValueChar c = true) : c ∉ text.toList := by
  intro hmem
  rw [htext c hmem] at hc
  cases hc

theorem IsPair.not_mem_name {c : Char} (hpair : IsPair pair) (hc : isValueChar c = false) :
    c ∉ pair.1.toList :=
  not_mem_of_isValueChar hc fun c hmem => (hpair.name c hmem).1

theorem IsPair.not_mem_value {c : Char} (hpair : IsPair pair) (hc : isValueChar c = false) :
    c ∉ pair.2.toList :=
  not_mem_of_isValueChar hc hpair.value

theorem encode_pairText (pair : String × String) : encode inQuery (pairText pair) =
    encode inQuery pair.1.toList ++ '=' :: encode inQuery pair.2.toList :=
  encode_append _ _ ('=' :: pair.2.toList)

theorem IsPair.not_mem_encode (hpair : IsPair pair) : '&' ∉ encode inQuery (pairText pair) := by
  apply Http.not_mem_encode (by decide) (by decide)
  simp [pairText, hpair.not_mem_name, hpair.not_mem_value, isValueChar]

theorem parameter?_encode (hpair : IsPair pair) :
    parameter? (encode inQuery (pairText pair)) = some (blanked pair.1, blanked pair.2) := by
  have hname : '=' ∉ encode inQuery pair.1.toList :=
    not_mem_encode (by decide) (by decide) fun hmem => (hpair.name _ hmem).2 rfl
  have hcut := Text.cutAt?_eq_some_iff.2 ⟨hname, encode_pairText pair⟩
  rw [parameter?, hcut]
  simp only [Option.getD_some, meaning?_encode (hpair.not_mem_name (by decide)),
    meaning?_encode (hpair.not_mem_value (by decide))]
  rfl

/-- A server reads the names and the values that a query was put together from. -/
theorem parameters?_encode (hne : pairs ≠ []) (hpairs : ∀ pair ∈ pairs, IsPair pair) :
    parameters? (String.ofList (encode inQuery (queryText pairs))) =
      some (pairs.map fun pair => (blanked pair.1, blanked pair.2)) := by
  rw [parameters?, String.toList_ofList]
  induction pairs with
  | nil => exact absurd rfl hne
  | cons pair pairs ih =>
      rw [List.forall_mem_cons] at hpairs
      cases pairs with
      | nil =>
          rw [queryText_singleton, Text.split_of_not_mem hpairs.1.not_mem_encode, List.mapM_cons,
            parameter?_encode hpairs.1]
          rfl
      | cons next others =>
          have hsplit : encode inQuery (queryText (pair :: next :: others)) =
              encode inQuery (pairText pair) ++
                '&' :: encode inQuery (queryText (next :: others)) := by
            rw [queryText_cons_cons, encode_append]
            rfl
          rw [hsplit, Text.split_append hpairs.1.not_mem_encode, List.mapM_cons,
            parameter?_encode hpairs.1, ih (List.cons_ne_nil _ _) hpairs.2]
          rfl

theorem mem_queryText (hpairs : ∀ pair ∈ pairs, IsPair pair) :
    ∀ c ∈ queryText pairs, 0x20 < c.toNat ∧ c ≠ '#' := by
  have hpair {pair : String × String} (hpair : IsPair pair) :
      ∀ c ∈ pairText pair, 0x20 < c.toNat ∧ c ≠ '#' := by
    have hvalue {c : Char} (hc : isValueChar c = true) : 0x20 < c.toNat ∧ c ≠ '#' :=
      ⟨(isValueChar_iff.1 hc).1, (isValueChar_iff.1 hc).2.1⟩
    rw [pairText, List.forall_mem_append, List.forall_mem_cons]
    exact ⟨fun c hc => hvalue (hpair.name c hc).1, by decide,
      fun c hc => hvalue (hpair.value c hc)⟩
  induction pairs with
  | nil => exact List.forall_mem_nil _
  | cons pair pairs ih =>
      rw [List.forall_mem_cons] at hpairs
      cases pairs with
      | nil =>
          rw [queryText_singleton]
          exact hpair hpairs.1
      | cons next others =>
          rw [queryText_cons_cons, List.forall_mem_append, List.forall_mem_cons]
          exact ⟨hpair hpairs.1, by decide, ih hpairs.2⟩

end Pairs

end Http

namespace Address

section Reading

variable {lead part query text rest : List Char}

theorem cleanedBack_eq_self (htext : ∀ c ∈ text, 0x20 < c.toNat) : cleanedBack text = text := by
  have hreverse : text.reverse.dropWhile (fun c => c.toNat ≤ 0x20) = text.reverse := by
    cases hlast : text.reverse with
    | nil => rfl
    | cons c others =>
        have hc := htext c (List.mem_reverse.1 (by simp [hlast]))
        exact List.dropWhile_cons_of_neg (by simpa using hc)
  rw [cleanedBack, hreverse, List.reverse_reverse, List.filter_eq_self]
  intro c hc
  have hvisible := htext c hc
  simp only [Bool.and_eq_true, bne_iff_ne]
  refine ⟨⟨?_, ?_⟩, ?_⟩
  all_goals
    rintro rfl
    exact absurd hvisible (by decide)

theorem mem_of_scheme? {isSecure : Bool} (hscheme : scheme? text = some (isSecure, rest)) :
    ∀ c ∈ rest, c ∈ text := by
  simp only [scheme?, Option.bind_eq_bind, Option.bind_eq_some_iff] at hscheme
  obtain ⟨⟨name, behind⟩, hcut, hscheme⟩ := hscheme
  have hrest : behind = rest := by
    split at hscheme
    · exact congrArg Prod.snd (Option.some.inj hscheme)
    · exact congrArg Prod.snd (Option.some.inj hscheme)
    · cases hscheme
  obtain ⟨_, htext⟩ := Text.cutAt?_eq_some_iff.1 hcut
  intro c hc
  rw [htext, hrest]
  simp [hc]

theorem mem_of_cleanedFront {c : Char} (hc : c ∈ cleanedFront text) : c ∈ text :=
  (List.dropWhile_suffix _).subset (List.mem_filter.1 hc).1

/-- The query of an address is what follows the first `?`, if no fragment comes
before or behind it. -/
theorem query_read? {address : Address} (hlead : '#' ∉ lead ∧ '?' ∉ lead)
    (hpart : ∀ c ∈ part, 0x20 < c.toNat ∧ c ≠ '#' ∧ c ≠ '?')
    (hquery : ∀ c ∈ query, 0x20 < c.toNat ∧ c ≠ '#')
    (hread : read? (String.ofList (lead ++ '/' :: (part ++ '?' :: query))) = some address) :
    address.query = some (String.ofList (encode inQuery query)) := by
  have hvisible : ∀ c ∈ part ++ '?' :: query, 0x20 < c.toNat := by
    simp only [List.forall_mem_append, List.forall_mem_cons]
    exact ⟨fun c hc => (hpart c hc).1, by decide, fun c hc => (hquery c hc).1⟩
  rw [read?, String.toList_ofList, cleaned_append, cleanedBack_eq_self hvisible, scheme?_append]
    at hread
  cases hscheme : scheme? (cleanedFront lead) with
  | none =>
      rw [hscheme] at hread
      cases hread
  | some parts =>
      obtain ⟨isSecure, before⟩ := parts
      have hbefore {c : Char} (hc : c ∈ before) : c ∈ lead :=
        mem_of_cleanedFront (mem_of_scheme? hscheme c hc)
      have hfragment : Text.cutAt? '#' (before ++ '/' :: (part ++ '?' :: query)) = none := by
        rw [Text.cutAt?_eq_none_iff]
        simp only [List.mem_append, List.mem_cons, not_or]
        exact ⟨fun hc => hlead.1 (hbefore hc), by decide, fun hc => (hpart _ hc).2.1 rfl,
          by decide, fun hc => (hquery _ hc).2 rfl⟩
      have hcut : Text.cutAt? '?' (before ++ '/' :: (part ++ '?' :: query)) =
          some (before ++ '/' :: part, query) := by
        rw [Text.cutAt?_eq_some_iff, List.append_assoc, List.cons_append]
        refine ⟨?_, rfl⟩
        simp only [List.mem_append, List.mem_cons, not_or]
        exact ⟨fun hc => hlead.2 (hbefore hc), by decide, fun hc => (hpart _ hc).2.2 rfl⟩
      rw [hscheme] at hread
      simp only [Option.map_some, Option.bind_eq_bind, Option.bind_some, hfragment, hcut,
        Option.bind_eq_some_iff] at hread
      obtain ⟨host, _, service, _, hsame⟩ := hread
      rw [← Option.some.inj hsame]

/-- A server reads the names and the values that the query of an address was put
together from. -/
theorem parameters?_of_read? {address : Address} {pairs : List (String × String)}
    (hlead : '#' ∉ lead ∧ '?' ∉ lead) (hpart : ∀ c ∈ part, 0x20 < c.toNat ∧ c ≠ '#' ∧ c ≠ '?')
    (hne : pairs ≠ []) (hpairs : ∀ pair ∈ pairs, Http.IsPair pair)
    (hread : read? (String.ofList (lead ++ '/' :: (part ++ '?' :: Http.queryText pairs))) =
      some address) :
    address.query.bind Http.parameters? =
      some (pairs.map fun pair => (Http.blanked pair.1, Http.blanked pair.2)) := by
  rw [query_read? hlead hpart (Http.mem_queryText hpairs) hread, Option.bind_some,
    Http.parameters?_encode hne hpairs]

end Reading

end Address

end StubSync
