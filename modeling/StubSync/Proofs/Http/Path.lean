/-
What a server makes of the path of an address.

A server looks at the path below the root of its interface, and takes three
characters from `%` on for a byte.  A text that is put into a path is read back
as it is, unless it ends the path, has a part that stands for another place, or
has characters that are taken for other ones.
-/
import StubSync.Proofs.Http.Query

namespace StubSync

namespace Http

/-- What a server is asked for below the address of its interface, if it is
asked for something there. -/
def pathBelow? (interface address : Address) : Option String := do
  if address.service ≠ interface.service then none
  let rest ← Text.after? interface.spellPath.toList address.spellPath.toList
  String.fromUTF8? (Host.decoded rest).toByteArray

/-- The characters that stand for themselves in a path, the slash included. -/
def isPathChar (c : Char) : Bool :=
  0x20 < c.toNat && !(['#', '%', '?', '\\'].contains c)

theorem isPathChar_iff {c : Char} :
    isPathChar c = true ↔ 0x20 < c.toNat ∧ c ≠ '#' ∧ c ≠ '%' ∧ c ≠ '?' ∧ c ≠ '\\' := by
  simp [isPathChar]

/-- The text can be put into a path: its characters stand for themselves, and
its parts for places of these names. -/
structure IsPathText (text : List Char) : Prop where
  chars : ∀ c ∈ text, isPathChar c = true
  parts : ∀ part ∈ Text.split '/' text, part ≠ ['.'] ∧ part ≠ ['.', '.']

/-- The check of the characters and of the parts of a text. -/
def isPathText (text : List Char) : Bool :=
  text.all isPathChar &&
    (Text.split '/' text).all fun part => !([['.'], ['.', '.']].contains part)

theorem isPathText_iff {text : List Char} : isPathText text = true ↔ IsPathText text := by
  have hparts (part : List Char) :
      (!([['.'], ['.', '.']].contains part)) = true ↔ part ≠ ['.'] ∧ part ≠ ['.', '.'] := by
    simp
  rw [isPathText, Bool.and_eq_true, List.all_eq_true, List.all_eq_true]
  simp only [hparts]
  exact ⟨fun ⟨hchars, hparts⟩ => ⟨hchars, hparts⟩, fun htext => ⟨htext.chars, htext.parts⟩⟩

instance (text : List Char) : Decidable (IsPathText text) :=
  decidable_of_iff (isPathText text = true) isPathText_iff

theorem IsPathText.append {first second : List Char} (hfirst : IsPathText first)
    (hsecond : IsPathText second) : IsPathText (first ++ '/' :: second) where
  chars := by
    rw [List.forall_mem_append, List.forall_mem_cons]
    exact ⟨hfirst.chars, by decide, hsecond.chars⟩
  parts := by
    rw [Text.split_append_mark, List.forall_mem_append]
    exact ⟨hfirst.parts, hsecond.parts⟩

theorem IsPathText.visible {text : List Char} (htext : IsPathText text) :
    ∀ c ∈ text, 0x20 < c.toNat :=
  fun c hc => (isPathChar_iff.1 (htext.chars c hc)).1

theorem IsPathText.not_mem {text : List Char} (htext : IsPathText text) {c : Char}
    (hc : isPathChar c = false) : c ∉ text := by
  intro hmem
  rw [htext.chars c hmem] at hc
  cases hc

section Encoding

open Address (encode encodeByte)

/-- A server reads the bytes of a text that has been encoded. -/
theorem decoded_encode_of_not_mem {mark : Char → Bool} {text : List Char} (hpercent : '%' ∉ text) :
    Host.decoded (encode mark text) = text.flatMap String.utf8EncodeChar := by
  induction text with
  | nil => rfl
  | cons c text ih =>
      rw [List.mem_cons, not_or] at hpercent
      rw [encode, List.flatMap_cons, List.flatMap_cons]
      change Host.decoded (_ ++ encode mark text) = _
      split
      · rw [decoded_flatMap_encodeByte, ih hpercent.2]
      · rw [List.singleton_append, decoded_cons (Ne.symm hpercent.1), ih hpercent.2]

theorem fromUTF8?_flatMap (text : List Char) :
    String.fromUTF8? (text.flatMap String.utf8EncodeChar).toByteArray =
      some (String.ofList text) :=
  dif_pos ByteArray.isValidUTF8_utf8Encode

/-- No slash is encoded, so the parts of a path can be encoded one by one. -/
theorem flatMap_encode_split (text : List Char) :
    ((Text.split '/' text).flatMap fun part => '/' :: encode Address.inPath part) =
      '/' :: encode Address.inPath text := by
  induction text with
  | nil => rfl
  | cons c text ih =>
      rw [Text.split]
      split
      · rename_i hslash
        subst hslash
        rw [List.flatMap_cons, ih]
        rfl
      · obtain ⟨part, others, hsplit⟩ :=
          List.exists_cons_of_ne_nil (Text.split_ne_nil '/' text)
        rw [hsplit, List.flatMap_cons, List.cons_append, List.cons.injEq] at ih
        rw [hsplit]
        simp only [List.flatMap_cons, List.cons_append]
        rw [encode, List.flatMap_cons, List.append_assoc]
        change _ :: (_ ++ (encode Address.inPath part ++ _)) = _
        rw [ih.2]
        rfl

end Encoding

end Http

namespace Address

open Http (IsPathText)

section Resolving

open resolve (isDot isTwoDots)

/-- What is left of the parts before the last one, the nearest first. -/
def settled (earlier : List (List Char)) : List (List Char) → List (List Char)
  | [] => earlier
  | part :: others =>
      if isTwoDots part then settled (earlier.drop 1) others
      else if isDot part then settled earlier others
      else settled (part :: earlier) others

theorem go_append (earlier front : List (List Char)) {parts : List (List Char)}
    (hparts : parts ≠ []) :
    resolve.go earlier (front ++ parts) = resolve.go (settled earlier front) parts := by
  induction front generalizing earlier with
  | nil => rfl
  | cons part front ih =>
      have hne : front ++ parts ≠ [] := List.append_ne_nil_of_right_ne_nil front hparts
      obtain ⟨next, others, hnext⟩ := List.exists_cons_of_ne_nil hne
      rw [List.cons_append, settled, hnext, resolve.go, ← hnext, ih, ih, ih]
      · split
        · rfl
        · split <;> rfl
      · simp

theorem eq_of_toLower_eq {c d : Char} (hd : d.toNat < 'a'.toNat) (hlower : c.toLower = d) :
    c = d := by
  unfold Char.toLower at hlower
  split at hlower
  · rename_i hupper
    have hleast : 65 ≤ c.val.toNat := UInt32.le_iff_toNat_le.1 hupper.1
    have hmost : c.val.toNat ≤ 90 := UInt32.le_iff_toNat_le.1 hupper.2
    have hcode : c.val.toNat + 32 = d.toNat := by
      rw [← hlower]
      change _ = (c.val + ('a'.val - 'A'.val)).toNat
      rw [UInt32.toNat_add, show ('a'.val - 'A'.val).toNat = 32 from rfl]
      omega
    have hlimit : d.toNat < 97 := hd
    omega
  · exact hlower

theorem eq_of_lowerAscii_eq {part text : List Char} (htext : ∀ c ∈ text, c.toNat < 'a'.toNat)
    (hlower : Text.lowerAscii part = text) : part = text := by
  induction part generalizing text with
  | nil => exact hlower
  | cons c part ih =>
      subst hlower
      rw [Text.lowerAscii, List.map_cons, List.forall_mem_cons] at htext
      rw [Text.lowerAscii, List.map_cons, ← eq_of_toLower_eq htext.1 rfl]
      exact congrArg (c :: ·) (ih htext.2 rfl)

/-- A part without encoded characters is a place only if it is spelled by its
points. -/
theorem contains_eq_false {part : List Char} {dots : String} {encoded : List String}
    (hpercent : '%' ∉ part)
    (hdots : (dots.toList.all fun c => decide (c.toNat < 'a'.toNat)) = true)
    (hencoded : ∀ word ∈ encoded, '%' ∈ word.toList) (hne : part ≠ dots.toList) :
    (dots :: encoded).contains (String.ofList (Text.lowerAscii part)) = false := by
  rw [Bool.eq_false_iff, Ne, List.contains_iff_mem, List.mem_cons, not_or]
  constructor
  · intro hsame
    rw [← String.toList_inj, String.toList_ofList] at hsame
    have hbelow : ∀ c ∈ dots.toList, c.toNat < 'a'.toNat := by simpa using hdots
    exact hne (eq_of_lowerAscii_eq hbelow hsame)
  · intro hmem
    have hlower := hencoded _ hmem
    rw [String.toList_ofList] at hlower
    obtain ⟨c, hc, hsame⟩ := List.mem_map.1 hlower
    rw [eq_of_toLower_eq (by decide) hsame] at hc
    exact hpercent hc

theorem mem_of_mem_split {mark c : Char} {text part : List Char}
    (hpart : part ∈ Text.split mark text) (hc : c ∈ part) : c ∈ text := by
  induction text generalizing part with
  | nil =>
      rw [Text.split, List.mem_singleton] at hpart
      rw [hpart] at hc
      exact hc
  | cons d text ih =>
      obtain ⟨first, others, hsplit⟩ :=
        List.exists_cons_of_ne_nil (Text.split_ne_nil mark text)
      rw [hsplit] at ih
      rw [Text.split, hsplit] at hpart
      split at hpart
      · rcases List.mem_cons.1 hpart with rfl | hpart
        · cases hc
        · exact List.mem_cons_of_mem d (ih hpart hc)
      · rcases List.mem_cons.1 hpart with rfl | hpart
        · rcases List.mem_cons.1 hc with rfl | hc
          · exact List.mem_cons_self
          · exact List.mem_cons_of_mem d (ih List.mem_cons_self hc)
        · exact List.mem_cons_of_mem d (ih (List.mem_cons_of_mem first hpart) hc)

/-- No part of a text that can be put into a path stands for another place. -/
theorem not_dots_of_isPathText {text : List Char} (htext : IsPathText text) :
    ∀ part ∈ Text.split '/' text, isDot part = false ∧ isTwoDots part = false := by
  intro part hpart
  have hpercent : '%' ∉ part := fun hmem =>
    htext.not_mem (by decide) (mem_of_mem_split hpart hmem)
  exact ⟨contains_eq_false hpercent (by decide) (by decide) (htext.parts part hpart).1,
    contains_eq_false hpercent (by decide) (by decide) (htext.parts part hpart).2⟩

theorem go_of_plain {parts : List (List Char)}
    (hplain : ∀ part ∈ parts, isDot part = false ∧ isTwoDots part = false)
    (earlier : List (List Char)) : resolve.go earlier parts = earlier.reverse ++ parts := by
  induction parts generalizing earlier with
  | nil => simp [resolve.go]
  | cons part others ih =>
      rw [List.forall_mem_cons] at hplain
      cases others with
      | nil => simp [resolve.go, hplain.1]
      | cons next others =>
          rw [resolve.go, hplain.1.1, hplain.1.2]
          · simp [ih hplain.2]
          · simp

end Resolving

section Below

variable {lead : List Char} {interface : Address}

theorem takeWhile_ne_of_not_mem {mark : Char} {text : List Char} (hmark : mark ∉ text) :
    text.takeWhile (· != mark) = text := by
  rw [Text.takeWhile_eq_cutAt?, Text.cutAt?_eq_none_iff.2 hmark]
  rfl

theorem authority_slashes {text : List Char} (htext : ∀ c ∈ text, isSlash c = true) :
    authority text = [] := by
  have hnot {mark : Char} (hmark : isSlash mark = false) : mark ∉ text := by
    intro hmem
    rw [htext mark hmem] at hmark
    cases hmark
  rw [authority, takeWhile_ne_of_not_mem (hnot (by decide)),
    takeWhile_ne_of_not_mem (hnot (by decide)), List.dropWhile_eq_nil_iff.2 htext]
  rfl

/-- What stands before the slash behind an address, apart from the scheme, names a
host. -/
theorem exists_not_slash (hread : read? (String.ofList (lead ++ ['/'])) = some interface) :
    ∃ isSecure before, scheme? (cleanedFront lead) = some (isSecure, before) ∧
      ∃ c ∈ before, isSlash c = false := by
  have hservice := service_read? (String.ofList (lead ++ ['/']))
  rw [hread, String.toList_ofList, cleaned_append, scheme?_append] at hservice
  cases hscheme : scheme? (cleanedFront lead) with
  | none =>
      rw [hscheme] at hservice
      cases hservice
  | some parts =>
      refine ⟨parts.1, parts.2, rfl, ?_⟩
      by_contra hnone
      have hslashes : ∀ c ∈ parts.2, isSlash c = true := by
        intro c hc
        by_contra hslash
        exact hnone ⟨c, hc, Bool.eq_false_iff.2 hslash⟩
      have hauthority : authority (parts.2 ++ '/' :: cleanedBack []) = [] := by
        apply authority_slashes
        rw [List.forall_mem_append, List.forall_mem_cons]
        exact ⟨hslashes, by decide, List.forall_mem_nil _⟩
      simp only [hscheme, Option.map_some, Option.bind_some, hauthority] at hservice
      cases hservice

/-- An address that has its slash, as the text that others start with. -/
theorem append_slash_eq (lead : String) : lead ++ "/" = String.ofList (lead.toList ++ ['/']) := by
  have hslash : "/".toList = ['/'] := by decide
  rw [← String.toList_inj, String.toList_ofList, String.toList_append, hslash]

/-- Whatever follows the slash behind an address is at the same service. -/
theorem service_below (hread : read? (String.ofList (lead ++ ['/'])) = some interface)
    (rest : List Char) :
    (read? (String.ofList (lead ++ '/' :: rest))).map service = some interface.service := by
  obtain ⟨isSecure, before, hscheme, hhost⟩ := exists_not_slash hread
  have hservice (rest : List Char) :
      (read? (String.ofList (lead ++ '/' :: rest))).map service =
        serviceAt? isSecure (authority before) := by
    rw [service_read?, String.toList_ofList, cleaned_append, scheme?_append, hscheme,
      Option.map_some, Option.bind_some, authority_append hhost]
  rw [hservice, ← hservice [], hread, Option.map_some]

/-- The text behind the mark that starts a query, with the mark. -/
def marked : Option (List Char) → List Char
  | none => []
  | some query => '?' :: query

/-- The parts of the path in the text after a scheme. -/
def partsOf (text : List Char) : List (List Char) :=
  let path := ((text.dropWhile isSlash).dropWhile fun c => !isSlash c).map
    fun c => if c = '\\' then '/' else c
  Text.split '/' (path.drop 1)

theorem read?_of_scheme {text : String} {isSecure : Bool} {front : List Char}
    {query : Option (List Char)}
    (hscheme : scheme? (cleaned text.toList) = some (isSecure, front ++ marked query))
    (hfront : '#' ∉ front ∧ '?' ∉ front) (hquery : '#' ∉ marked query) :
    read? text = (serviceAt? isSecure (authority front)).map fun service =>
      { isSecure := service.1, host := service.2.1, servicePort := service.2.2,
        path := (resolve (partsOf front)).map fun part => String.ofList (encode inPath part),
        query := query.map fun query => String.ofList (encode inQuery query) } := by
  have hfragment : Text.cutAt? '#' (front ++ marked query) = none := by
    rw [Text.cutAt?_eq_none_iff, List.mem_append, not_or]
    exact ⟨hfront.1, hquery⟩
  have hauthority : authority front =
      (front.dropWhile isSlash).takeWhile fun c => !isSlash c := by
    rw [authority, takeWhile_ne_of_not_mem hfront.1, takeWhile_ne_of_not_mem hfront.2]
  have hcut : Text.cutAt? '?' (front ++ marked query) = query.map fun query => (front, query) := by
    cases query with
    | none =>
        rw [Option.map_none, Text.cutAt?_eq_none_iff, marked, List.append_nil]
        exact hfront.2
    | some query => exact Text.cutAt?_eq_some_iff.2 ⟨hfront.2, rfl⟩
  rw [read?, hscheme, hauthority]
  simp only [Option.bind_eq_bind, Option.bind_some, hfragment, hcut, serviceAt?]
  cases query with
  | none =>
      simp only [Option.map_none, marked, List.append_nil]
      generalize cutHost _ = host
      cases Host.read? host.1 <;> cases servicePort? isSecure host.2 <;> rfl
  | some query =>
      simp only [Option.map_some]
      generalize cutHost _ = host
      cases Host.read? host.1 <;> cases servicePort? isSecure host.2 <;> rfl

/-- The parts of a path that goes on behind a host are those before the last slash
and those after it. -/
theorem exists_partsOf_append {before : List Char} (hhost : ∃ c ∈ before, isSlash c = false) :
    ∃ above, ∀ rest : List Char, '\\' ∉ rest →
      partsOf (before ++ '/' :: rest) = above ++ Text.split '/' rest := by
  have hfront : (before.dropWhile isSlash).isEmpty = false := by
    obtain ⟨c, hc, hslash⟩ := hhost
    rw [Bool.eq_false_iff, Ne, List.isEmpty_iff, List.dropWhile_eq_nil_iff]
    intro hslashes
    rw [hslashes c hc] at hslash
    cases hslash
  have hstop : (fun c => !isSlash c) '/' = false := by decide
  have hsame {rest : List Char} (hrest : '\\' ∉ rest) :
      (rest.map fun c => if c = '\\' then '/' else c) = rest := by
    refine (List.map_congr_left fun c hc => if_neg ?_).trans (List.map_id' rest)
    rintro rfl
    exact hrest hc
  have hparts (rest : List Char) (hrest : '\\' ∉ rest) :
      partsOf (before ++ '/' :: rest) = Text.split '/'
        ((((before.dropWhile isSlash).dropWhile fun c => !isSlash c).map
          fun c => if c = '\\' then '/' else c) ++ '/' :: rest |>.drop 1) := by
    rw [partsOf, List.dropWhile_append, hfront, if_neg Bool.false_ne_true,
      Text.dropWhile_append_stop hstop, List.map_append, List.map_cons, hsame hrest]
    rfl
  cases hpath : ((before.dropWhile isSlash).dropWhile fun c => !isSlash c).map
      fun c => if c = '\\' then '/' else c with
  | nil =>
      refine ⟨[], fun rest hrest => ?_⟩
      rw [hparts rest hrest, hpath]
      rfl
  | cons c path =>
      refine ⟨Text.split '/' path, fun rest hrest => ?_⟩
      rw [hparts rest hrest, hpath, List.cons_append, List.drop_one, List.tail_cons,
        Text.split_append_mark]

theorem toList_spellPath (address : Address) :
    address.spellPath.toList = address.path.flatMap fun part => '/' :: part.toList := by
  rw [spellPath, Text.toList_intercalate_empty, List.map_map, List.flatMap]
  refine congrArg _ (List.map_congr_left fun part _ => ?_)
  rw [Function.comp_apply, String.toList_append]
  rfl

section Reading

variable {isSecure : Bool} {before rest : List Char} {query : Option (List Char)}

theorem visible_marked (hquery : ∀ text ∈ query, ∀ c ∈ text, 0x20 < c.toNat ∧ c ≠ '#') :
    ∀ c ∈ marked query, 0x20 < c.toNat ∧ c ≠ '#' := by
  cases query with
  | none => exact List.forall_mem_nil _
  | some text =>
      rw [marked, List.forall_mem_cons]
      exact ⟨by decide, hquery text rfl⟩

/-- All texts behind one slash are read alike, the empty one included. -/
theorem read?_of_lead (hlead : '#' ∉ lead ∧ '?' ∉ lead)
    (hscheme : scheme? (cleanedFront lead) = some (isSecure, before))
    (hhost : ∃ c ∈ before, isSlash c = false) {above : List (List Char)}
    (habove : partsOf (before ++ '/' :: rest) = above ++ Text.split '/' rest)
    (hrest : IsPathText rest)
    (hquery : ∀ text ∈ query, ∀ c ∈ text, 0x20 < c.toNat ∧ c ≠ '#') :
    read? (String.ofList (lead ++ '/' :: (rest ++ marked query))) =
      (serviceAt? isSecure (authority before)).map fun service =>
        { isSecure := service.1, host := service.2.1, servicePort := service.2.2,
          path := ((settled [] above).reverse ++ Text.split '/' rest).map fun part =>
            String.ofList (encode inPath part),
          query := query.map fun query => String.ofList (encode inQuery query) } := by
  have hbefore {c : Char} (hc : c ∈ before) : c ∈ lead :=
    mem_of_cleanedFront (mem_of_scheme? hscheme c hc)
  have hmarked := visible_marked hquery
  have hvisible : ∀ c ∈ rest ++ marked query, 0x20 < c.toNat :=
    List.forall_mem_append.2 ⟨hrest.visible, fun c hc => (hmarked c hc).1⟩
  have hfront : '#' ∉ before ++ '/' :: rest ∧ '?' ∉ before ++ '/' :: rest := by
    simp only [List.mem_append, List.mem_cons, not_or]
    exact ⟨⟨fun hc => hlead.1 (hbefore hc), by decide, hrest.not_mem (by decide)⟩,
      fun hc => hlead.2 (hbefore hc), by decide, hrest.not_mem (by decide)⟩
  have hbehind : scheme? (cleaned (String.ofList (lead ++ '/' :: (rest ++ marked query))).toList) =
      some (isSecure, (before ++ '/' :: rest) ++ marked query) := by
    rw [String.toList_ofList, cleaned_append, cleanedBack_eq_self hvisible, scheme?_append,
      hscheme, Option.map_some, List.append_assoc, List.cons_append]
  rw [read?_of_scheme hbehind hfront fun hmem => (hmarked _ hmem).2 rfl, authority_append hhost,
    habove, resolve, go_append [] above (Text.split_ne_nil '/' rest),
    go_of_plain (not_dots_of_isPathText hrest)]

/-- A text below an address is the rest of the path, and the query is behind it. -/
theorem read?_below (hlead : '#' ∉ lead ∧ '?' ∉ lead)
    (hread : read? (String.ofList (lead ++ ['/'])) = some interface) (hrest : IsPathText rest)
    (hquery : ∀ text ∈ query, ∀ c ∈ text, 0x20 < c.toNat ∧ c ≠ '#') :
    ∃ address, read? (String.ofList (lead ++ '/' :: (rest ++ marked query))) = some address ∧
      address.service = interface.service ∧
      address.spellPath.toList = interface.spellPath.toList ++ encode inPath rest ∧
      address.query = query.map fun text => String.ofList (encode inQuery text) := by
  obtain ⟨isSecure, before, hscheme, hhost⟩ := exists_not_slash hread
  obtain ⟨above, habove⟩ := exists_partsOf_append hhost
  have hrested := read?_of_lead hlead hscheme hhost (habove rest (hrest.not_mem (by decide)))
    hrest hquery
  have hempty : IsPathText [] := by decide
  have hnone : ∀ text ∈ (none : Option (List Char)), ∀ c ∈ text, 0x20 < c.toNat ∧ c ≠ '#' := nofun
  have hinterface :=
    read?_of_lead hlead hscheme hhost (habove [] List.not_mem_nil) hempty hnone
  rw [marked, List.append_nil, hread] at hinterface
  rw [hrested]
  cases hservice : serviceAt? isSecure (authority before) with
  | none =>
      rw [hservice] at hinterface
      cases hinterface
  | some service =>
      rw [hservice, Option.map_some, Option.some_inj] at hinterface
      refine ⟨_, rfl, by rw [hinterface]; rfl, ?_, rfl⟩
      rw [hinterface, toList_spellPath, toList_spellPath]
      simp only [List.map_append, List.flatMap_append, List.append_assoc, List.flatMap_map,
        String.toList_ofList, Http.flatMap_encode_split]
      rfl

end Reading

/-- A server is asked below its interface for the text that was put there. -/
theorem pathBelow?_below {address : Address} {rest : String} (hrest : IsPathText rest.toList)
    (hservice : address.service = interface.service)
    (hpath : address.spellPath.toList =
      interface.spellPath.toList ++ encode inPath rest.toList) :
    Http.pathBelow? interface address = some rest := by
  rw [Http.pathBelow?, if_neg (not_not.2 hservice), hpath, Text.after?_append]
  simp only [Option.bind_eq_bind, Option.bind_some]
  rw [Http.decoded_encode_of_not_mem (hrest.not_mem (by decide)), Http.fromUTF8?_flatMap,
    String.ofList_toList]

end Below

end Address

end StubSync
