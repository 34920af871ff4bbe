/-
Lines of a document, and what they do to its top-level table.

A line does to the table what its text says, whatever else the table holds, and
it gives one key a value.  So two tables that differ in one key, which has a text
in one of them, are led by the same lines to tables that differ in that key.
-/
import StubSync.Proofs.Toml.Value

namespace StubSync

namespace Toml

open Entries (IsLocal IsCompound SetsText HasText)

section Lines

variable {text rest : List Char} {header : List String}

/-- Behind a header keys belong to inner tables, so no value of the top-level
table becomes a text there. -/
def Permits (header : List String) (value : Value) : Prop :=
  header ≠ [] → IsCompound value

theorem isLocal_opening (isElement : Bool) (path : List String) (key : String) :
    ∃ first, IsLocal (Entries.change false
      (if isElement then Entries.openElement key else Entries.openTable key) path) first
      IsCompound := by
  cases path with
  | nil =>
      cases isElement with
      | false => exact ⟨key, Entries.isLocal_openTable key⟩
      | true => exact ⟨key, Entries.isLocal_openElement key⟩
  | cons first path => exact ⟨first, Entries.isLocal_change_cons false _ first path⟩

theorem isLocal_key (header path : List String) (key : String) (value : Value) :
    ∃ first, IsLocal (Entries.change false
      (fun origin entries => Entries.define path key value origin entries) header) first
      (Permits header) := by
  cases header with
  | nil =>
      obtain ⟨first, hlocal⟩ := Entries.isLocal_define path key value
      exact ⟨first, hlocal.mono fun _ _ hheader => absurd rfl hheader⟩
  | cons first header =>
      exact ⟨first, (Entries.isLocal_change_cons false _ first header).mono
        fun _ hcompound _ => hcompound⟩

/-- A header opens a table of the document, which the next keys belong to. -/
theorem expression_header_eq_ok_iff (hbracket : text.head? = some '[') {fuel : Nat}
    {draft : Draft} {result : Draft × List Char} :
    expression fuel draft text = .ok result ↔
      ∃ isElement path key rest origin root,
        header? fuel text = some (isElement, path, key, rest) ∧
        draft.root.change false (if isElement then Entries.openElement key
          else Entries.openTable key) path .header = some (origin, root) ∧
        result = (⟨root, path ++ [key]⟩, rest) := by
  rw [expression, if_pos hbracket]
  constructor
  · intro hread
    obtain ⟨⟨isElement, path, key, rest⟩, hheader, hread⟩ := exists_of_bind_eq_ok hread
    obtain ⟨⟨origin, root⟩, hchange, hresult⟩ := exists_of_bind_eq_ok hread
    rw [expecting_eq_ok_iff] at hheader hchange
    cases hresult
    exact ⟨isElement, path, key, rest, origin, root, hheader, hchange, rfl⟩
  · rintro ⟨isElement, path, key, rest, origin, root, hheader, hchange, rfl⟩
    simp only [hheader, hchange, expecting, bind, Except.bind]
    rfl

/-- A key is given a value in the table of the last header. -/
theorem expression_key_eq_ok_iff (hbracket : text.head? ≠ some '[') {fuel : Nat}
    {draft : Draft} {result : Draft × List Char} :
    expression fuel draft text = .ok result ↔
      ∃ path key signed item rest origin root,
        keys? fuel text = some (path, key, '=' :: signed) ∧
        value depthLimit fuel (skipBlanks signed) = .ok (item, rest) ∧
        draft.root.change false (Entries.define path key item) draft.header .header =
          some (origin, root) ∧
        result = (⟨root, draft.header⟩, rest) := by
  rw [expression, if_neg hbracket]
  constructor
  · intro hread
    obtain ⟨⟨path, key, named⟩, hkeys, hread⟩ := exists_of_bind_eq_ok hread
    obtain ⟨signed, hsign, hread⟩ := exists_of_bind_eq_ok hread
    obtain ⟨⟨item, rest⟩, hvalue, hread⟩ := exists_of_bind_eq_ok hread
    obtain ⟨⟨origin, root⟩, hchange, hresult⟩ := exists_of_bind_eq_ok hread
    rw [expecting_eq_ok_iff] at hkeys hsign hchange
    rw [sign?_eq_some_iff] at hsign
    cases hresult
    exact ⟨path, key, signed, item, rest, origin, root, hsign ▸ hkeys, hvalue, hchange, rfl⟩
  · rintro ⟨path, key, signed, item, rest, origin, root, hkeys, hvalue, hchange, rfl⟩
    have hsign : sign? '=' ('=' :: signed) = some signed := sign?_eq_some_iff.2 rfl
    simp only [hkeys, hsign, hvalue, expecting, bind, Except.bind]
    rw [show draft.root.change false (fun origin entries =>
      Entries.define path key item origin entries) draft.header .header = some (origin, root)
      from hchange]
    rfl

/-- What a header or a key with its value does is known from its text. -/
theorem expression_local (fuel : Nat) (header : List String) (text : List Char) :
    (∀ root result, expression fuel ⟨root, header⟩ text ≠ .ok result) ∨
      ∃ edit first later rest, IsLocal edit first (Permits later) ∧
        (text.head? = some '[' ∨ header ≠ [] → later ≠ []) ∧
        ∀ root result, expression fuel ⟨root, header⟩ text = .ok result ↔
          ∃ origin after, edit .header root = some (origin, after) ∧
            result = (⟨after, later⟩, rest) := by
  by_cases hbracket : text.head? = some '['
  · cases hheader : header? fuel text with
    | none =>
        left
        intro root result hread
        obtain ⟨_, _, _, _, _, _, hfound, _⟩ := (expression_header_eq_ok_iff hbracket).1 hread
        rw [hheader] at hfound
        cases hfound
    | some found =>
        obtain ⟨isElement, path, key, rest⟩ := found
        obtain ⟨first, hlocal⟩ := isLocal_opening isElement path key
        refine Or.inr ⟨_, first, path ++ [key], rest, hlocal.mono fun _ hvalue _ => hvalue,
          fun _ => by simp, fun root result => ?_⟩
        rw [expression_header_eq_ok_iff hbracket, hheader]
        constructor
        · rintro ⟨_, _, _, _, origin, after, ⟨⟩, hchange, rfl⟩
          exact ⟨origin, after, hchange, rfl⟩
        · rintro ⟨origin, after, hchange, rfl⟩
          exact ⟨isElement, path, key, rest, origin, after, rfl, hchange, rfl⟩
  · by_cases hparts : ∃ path key signed item rest,
        keys? fuel text = some (path, key, '=' :: signed) ∧
          value depthLimit fuel (skipBlanks signed) = .ok (item, rest)
    · obtain ⟨path, key, signed, item, rest, hkeys, hvalue⟩ := hparts
      obtain ⟨first, hlocal⟩ := isLocal_key header path key item
      refine Or.inr ⟨_, first, header, rest, hlocal, ?_, fun root result => ?_⟩
      · intro hheader
        exact hheader.resolve_left hbracket
      · rw [expression_key_eq_ok_iff hbracket, hkeys]
        constructor
        · rintro ⟨_, _, _, item', rest', origin, after, ⟨⟩, hvalue', hchange, rfl⟩
          rw [hvalue] at hvalue'
          cases hvalue'
          exact ⟨origin, after, hchange, rfl⟩
        · rintro ⟨origin, after, hchange, rfl⟩
          exact ⟨path, key, signed, item, rest, origin, after, rfl, hvalue, hchange, rfl⟩
    · left
      intro root result hread
      obtain ⟨path, key, signed, item, rest, _, _, hkeys, hvalue, _⟩ :=
        (expression_key_eq_ok_iff hbracket).1 hread
      exact hparts ⟨path, key, signed, item, rest, hkeys, hvalue⟩

end Lines

section Documents

variable {text tail rest : List Char} {draft : Draft} {entries : Entries}

/-- A document ends, or one more line of it stands before others. -/
theorem expressions_eq_ok_iff {fuel : Nat} :
    expressions (fuel + 1) draft text = .ok entries ↔
      (layout text = .ok [] ∧ entries = draft.root) ∨
      ∃ c left next rest, layout text = .ok (c :: left) ∧
        expression (2 * left.length + 4) draft (c :: left) = .ok (next, rest) ∧
        endsLine rest = true ∧ expressions fuel next rest = .ok entries := by
  rw [expressions]
  constructor
  · intro hread
    obtain ⟨left, hlayout, hleft⟩ := exists_of_bind_eq_ok hread
    match left with
    | [] =>
        cases hleft
        exact Or.inl ⟨hlayout, rfl⟩
    | c :: left =>
        obtain ⟨⟨next, rest⟩, hline, hnext⟩ := exists_of_bind_eq_ok hleft
        by_cases hends : endsLine rest = true
        · simp only [hends, if_true] at hnext
          exact Or.inr ⟨c, left, next, rest, hlayout, hline, hends, hnext⟩
        · rw [Bool.not_eq_true] at hends
          simp only [hends, Bool.false_eq_true, if_false] at hnext
          cases hnext
  · rintro (⟨hlayout, rfl⟩ | ⟨c, left, next, rest, hlayout, hline, hends, hnext⟩)
    · rw [hlayout]
      rfl
    · simp only [hlayout, hline, hends, bind, Except.bind, if_true, hnext]

theorem expressions_zero (draft : Draft) (text : List Char) (entries : Entries) :
    expressions 0 draft text ≠ .ok entries := by
  rw [expressions]
  exact nofun

/-- Documents are read on from where their layout ends. -/
theorem expressions_congr {fuel : Nat} {other : List Char}
    (hlayout : skipLayout false text = skipLayout false other)
    (hread : expressions fuel draft text = .ok entries) :
    expressions fuel draft other = .ok entries := by
  cases fuel with
  | zero => exact absurd hread (expressions_zero _ _ _)
  | succ fuel =>
      rw [expressions_eq_ok_iff] at hread ⊢
      simp only [layout_eq_ok_iff, hlayout] at hread ⊢
      exact hread

/-- The same lines keep tables alike but for a key that has a text. -/
theorem expressions_setsText {key content : String} {header : List String}
    {left right left' right' : Entries} {fuel fuel' : Nat}
    (hsets : SetsText key content left right)
    (hleft : expressions fuel ⟨left, header⟩ text = .ok left')
    (hright : expressions fuel' ⟨right, header⟩ text = .ok right') :
    SetsText key content left' right' := by
  induction fuel generalizing fuel' left right header text with
  | zero => exact absurd hleft (expressions_zero _ _ _)
  | succ fuel ih =>
      cases fuel' with
      | zero => exact absurd hright (expressions_zero _ _ _)
      | succ fuel' =>
          rw [expressions_eq_ok_iff] at hleft hright
          rcases hleft with ⟨hlayout, rfl⟩ | ⟨c, behind, next, rest, hlayout, hline, _, hnext⟩
          · rcases hright with ⟨_, rfl⟩ | ⟨c, behind, next, rest, hlayout', _⟩
            · exact hsets
            · rw [hlayout] at hlayout'
              cases hlayout'
          · rcases hright with
              ⟨hlayout', _⟩ | ⟨c', behind', next', rest', hlayout', hline', _, hnext'⟩
            · rw [hlayout] at hlayout'
              cases hlayout'
            · rw [hlayout] at hlayout'
              cases hlayout'
              rcases expression_local (2 * behind.length + 4) header (c :: behind) with
                hnone | ⟨edit, first, later, rest, hlocal, _, hresult⟩
              · exact absurd hline (hnone left _)
              · obtain ⟨origin, after, hedit, heq⟩ := (hresult _ _).1 hline
                obtain ⟨origin', after', hedit', heq'⟩ := (hresult _ _).1 hline'
                cases heq
                cases heq'
                exact ih (hlocal.setsText hedit hedit' hsets) hnext hnext'

/-- Behind a header no key of the top-level table is given a text. -/
theorem expressions_not_hasText {key : String} {header : List String} {root : Entries}
    {fuel : Nat} (hnone : ¬ root.HasText key)
    (hheader : header ≠ [] ∨ ∃ left, skipLayout false text = some ('[' :: left))
    (hread : expressions fuel ⟨root, header⟩ text = .ok entries) : ¬ entries.HasText key := by
  induction fuel generalizing root header text with
  | zero => exact absurd hread (expressions_zero _ _ _)
  | succ fuel ih =>
      rw [expressions_eq_ok_iff] at hread
      rcases hread with ⟨_, rfl⟩ | ⟨c, left, next, rest, hlayout, hline, _, hnext⟩
      · exact hnone
      · rcases expression_local (2 * left.length + 4) header (c :: left) with
          hfails | ⟨edit, first, later, behind, hlocal, hlater, hresult⟩
        · exact absurd hline (hfails root _)
        · obtain ⟨origin, after, hedit, heq⟩ := (hresult _ _).1 hline
          cases heq
          have hnested : later ≠ [] := by
            apply hlater
            rcases hheader with hheader | ⟨left', hleft⟩
            · exact Or.inr hheader
            · rw [layout_eq_ok_iff, hleft] at hlayout
              cases hlayout
              exact Or.inl rfl
          have hcompound : IsLocal edit first IsCompound :=
            hlocal.mono fun value hvalue => hvalue hnested
          exact ih (hcompound.not_hasText hedit hnone) (Or.inl hnested) hnext

end Documents

section Passing

variable {text tail rest : List Char} {draft : Draft} {entries root : Entries}

/-- A key has its value in front of more text as it has it without. -/
theorem expression_append {fuel : Nat} {c : Char} {left : List Char} {next : Draft}
    (hc : c ≠ '[') (hparted : Parted (c :: left) tail)
    (hline : expression fuel draft (c :: left) = .ok (next, rest)) :
    Remains (c :: left) tail rest ∧ next.header = draft.header ∧
      ∀ more, expression (fuel + more) draft (c :: left ++ tail) = .ok (next, rest ++ tail) := by
  have hbracket : ∀ behind, (c :: behind).head? ≠ some '[' :=
    fun _ hhead => hc (Option.some.inj hhead)
  obtain ⟨path, key, signed, item, behind, origin, root, hkeys, hvalue, hchange, hresult⟩ :=
    (expression_key_eq_ok_iff (hbracket left)).1 hline
  cases hresult
  obtain ⟨hnamed, _⟩ := keys?_extends fuel 0 hparted hkeys
  have hsigned := hnamed.behind (by decide)
  obtain ⟨hblanks, hstart⟩ := skipBlanks_append hsigned.parted
  obtain ⟨hitem, hvalue'⟩ := (values_extend tail fuel).1 depthLimit _ _ _ hstart.parted hvalue
  refine ⟨hsigned.trans (hstart.trans hitem), rfl, fun more => ?_⟩
  rw [List.cons_append, expression_key_eq_ok_iff (hbracket _)]
  refine ⟨path, key, signed ++ tail, item, rest ++ tail, origin, root, ?_, ?_, hchange, rfl⟩
  · exact (keys?_extends fuel more hparted hkeys).2
  · rw [hblanks]
    exact hvalue' more

/-- A document without headers that goes on is read on from where it ends. -/
theorem expressions_append {fuel fuel' : Nat} (hheader : draft.header = [])
    (hparted : Parted text tail)
    (hkeys : ∀ c left, skipLayout false text = some (c :: left) →
      c ≠ '[' ∧ isHeadless false (c :: left) = true)
    (hread : expressions fuel draft text = .ok root)
    (hwhole : expressions fuel' draft (text ++ tail) = .ok entries) :
    ∃ more, expressions more ⟨root, []⟩ tail = .ok entries := by
  induction fuel generalizing fuel' draft text with
  | zero => exact absurd hread (expressions_zero _ _ _)
  | succ fuel ih =>
      rw [expressions_eq_ok_iff] at hread
      rcases hread with ⟨hlayout, rfl⟩ | ⟨c, left, next, rest, hlayout, hline, hends, hnext⟩
      · rw [layout_eq_ok_iff] at hlayout
        rw [← hheader]
        exact ⟨fuel', expressions_congr (skipLayout_all false hparted hlayout) hwhole⟩
      · obtain ⟨hremains, hlayout'⟩ := layout_append hparted hlayout
        obtain ⟨hc, hheadless⟩ := hkeys c left (layout_eq_ok_iff.1 hlayout)
        obtain ⟨hrest, hheader', hline'⟩ := expression_append hc hremains.parted hline
        cases fuel' with
        | zero => exact absurd hwhole (expressions_zero _ _ _)
        | succ fuel' =>
            rw [expressions_eq_ok_iff] at hwhole
            rcases hwhole with
              ⟨hnil, _⟩ | ⟨c', left', next', rest', hlayout'', hline'', _, hnext'⟩
            · rw [hlayout'] at hnil
              cases hnil
            · rw [hlayout'] at hlayout''
              cases hlayout''
              have hfuel : 2 * (left ++ tail).length + 4 =
                  2 * left.length + 4 + 2 * tail.length := by
                rw [List.length_append]
                omega
              have hsame := hline' (2 * tail.length)
              rw [← hfuel, List.cons_append, hline''] at hsame
              cases hsame
              apply ih (hheader'.trans hheader) hrest.parted _ hnext hnext'
              intro d behind hskip
              exact isHeadless_skipLayout (isHeadless_of_suffix hheadless hrest.suffix)
                (Or.inr (Or.inr hends)) hskip

theorem expressions_behind {fuel : Nat} (htext : '\n' ∉ text)
    (htail : tail = [] ∨ tail.head? = some '\n') (hends : endsLine (text ++ tail) = true)
    (hread : expressions fuel draft (text ++ tail) = .ok entries) :
    expressions fuel draft tail = .ok entries := by
  cases hskip : skipLayout false (text ++ tail) with
  | none =>
      cases fuel with
      | zero => exact absurd hread (expressions_zero _ _ _)
      | succ fuel =>
          rw [expressions_eq_ok_iff] at hread
          simp [layout_eq_ok_iff, hskip] at hread
  | some rest =>
      have htail' := skipLayout_behind htext htail (Or.inr hends) hskip
      exact expressions_congr (hskip.trans htail'.symm) hread

end Passing

section KeyLines

variable {text rest lead key : List Char} {entries root : Entries}

/-- A key, the sign behind it, and blanks around them. -/
def IsKeyLead (key lead : List Char) : Prop :=
  ∃ before between behind, lead = before ++ key ++ between ++ '=' :: behind ∧
    (∀ c ∈ before, isBlankChar c = true) ∧ (∀ c ∈ between, isBlankChar c = true) ∧
    ∀ c ∈ behind, isBlankChar c = true

/-- The key may stand without quotes. -/
def IsBareKey (key : List Char) : Prop :=
  key ≠ [] ∧ ∀ c ∈ key, isBareKeyChar c = true

theorem startsHere_of_isBareKeyChar {c : Char} (hc : isBareKeyChar c = true) :
    startsHere false c = true := by
  have hne : ∀ d, isBareKeyChar d = false → c ≠ d := by
    rintro d hd rfl
    rw [hd] at hc
    cases hc
  have hblank : isBlankChar c = false := by
    simp [isBlankChar, hne ' ' (by decide), hne '\t' (by decide)]
  simp [startsHere, hblank, hne '\n' (by decide), hne '\r' (by decide), hne '#' (by decide)]

theorem isBlankChar_of_startsHere {c : Char} {inComment : Bool}
    (hc : startsHere inComment c = true) : isBlankChar c = false := by
  simp only [startsHere, Bool.and_eq_true, Bool.not_eq_true'] at hc
  exact hc.1.1.1.2

theorem skipBlanks_blanks {blanks : List Char} (hblanks : ∀ c ∈ blanks, isBlankChar c = true)
    (text : List Char) : skipBlanks (blanks ++ text) = skipBlanks text :=
  List.dropWhile_append_of_pos hblanks

theorem skipBlanks_cons {c : Char} (hc : isBlankChar c = false) (text : List Char) :
    skipBlanks (c :: text) = c :: text := by
  rw [skipBlanks, List.dropWhile_cons, hc]
  rfl

theorem skipLayout_blanks {blanks : List Char} (hblanks : ∀ c ∈ blanks, isBlankChar c = true)
    (text : List Char) : skipLayout false (blanks ++ text) = skipLayout false text := by
  induction blanks with
  | nil => rfl
  | cons c blanks ih =>
      rw [List.forall_mem_cons] at hblanks
      have hc := hblanks.1
      rw [isBlankChar, Bool.or_eq_true, beq_iff_eq, beq_iff_eq] at hc
      rw [List.cons_append, skipLayout_cons]
      rcases hc with rfl | rfl
      · exact ih hblanks.2
      · exact ih hblanks.2

theorem keys?_bare (hkey : IsBareKey key) {between : List Char}
    (hbetween : ∀ c ∈ between, isBlankChar c = true) (fuel : Nat) (rest : List Char) :
    keys? (fuel + 1) (key ++ between ++ '=' :: rest) =
      some ([], String.ofList key, '=' :: rest) := by
  obtain ⟨hne, hbare⟩ := hkey
  have hstop : (between ++ '=' :: rest).takeWhile isBareKeyChar = [] ∧
      (between ++ '=' :: rest).dropWhile isBareKeyChar = between ++ '=' :: rest := by
    cases between with
    | nil => exact ⟨rfl, rfl⟩
    | cons c between =>
        have hc := (List.forall_mem_cons.1 hbetween).1
        rw [isBlankChar, Bool.or_eq_true, beq_iff_eq, beq_iff_eq] at hc
        rcases hc with rfl | rfl
        · exact ⟨rfl, rfl⟩
        · exact ⟨rfl, rfl⟩
  have hstart : skipBlanks (key ++ between ++ '=' :: rest) = key ++ between ++ '=' :: rest := by
    obtain ⟨c, key, rfl⟩ := List.exists_cons_of_ne_nil hne
    exact skipBlanks_cons (isBlankChar_of_startsHere
      (startsHere_of_isBareKeyChar (List.forall_mem_cons.1 hbare).1)) _
  have hname : key? (key ++ between ++ '=' :: rest) =
      some (String.ofList key, between ++ '=' :: rest) := by
    obtain ⟨c, others, rfl⟩ := List.exists_cons_of_ne_nil hne
    rw [key?, List.append_assoc, List.takeWhile_append_of_pos hbare,
      List.dropWhile_append_of_pos hbare, hstop.1, hstop.2, List.append_nil]
  have hsign : skipBlanks (between ++ '=' :: rest) = '=' :: rest :=
    (skipBlanks_blanks hbetween _).trans (skipBlanks_cons (by decide) rest)
  have hdotted : dotted? (fuel + 1) (key ++ between ++ '=' :: rest) =
      some ([], String.ofList key, '=' :: rest) := by
    rw [dotted?_succ, hstart, hname]
    simp only [Option.bind_some, hsign]
    rfl
  rw [keys?, hdotted]
  rfl

/-- A value that starts with a mark of texts is a text. -/
theorem value_text {depth fuel : Nat} {quote : Char} {item : Value} {behind : List Char}
    (hquote : quote = '"' ∨ quote = '\'')
    (hread : value depth fuel (quote :: rest) = .ok (item, behind)) :
    ∃ content, text? (quote :: rest) = some (content, behind) ∧ item = .text content := by
  cases fuel with
  | zero =>
      rw [value] at hread
      cases hread
  | succ fuel =>
      have hmark : (decide (quote = '"') || decide (quote = '\'')) = true := by
        simpa using hquote
      rw [value, if_pos hmark] at hread
      cases htext : text? (quote :: rest) with
      | none => simp [htext] at hread
      | some found =>
          simp only [htext] at hread
          cases hread
          exact ⟨_, rfl, rfl⟩

/-- A line that gives a key a text defines the key in the top-level table. -/
theorem expressions_text {fuel : Nat} {quote : Char} (hkey : IsBareKey key)
    (hlead : IsKeyLead key lead) (hquote : quote = '"' ∨ quote = '\'')
    (hread : expressions fuel ⟨root, []⟩ (lead ++ quote :: rest) = .ok entries) :
    ∃ content behind more, text? (quote :: rest) = some (content, behind) ∧
      endsLine behind = true ∧ root.get? (String.ofList key) = none ∧
      expressions more ⟨root.put (String.ofList key) (.text content), []⟩ behind =
        .ok entries := by
  cases fuel with
  | zero => exact absurd hread (expressions_zero _ _ _)
  | succ fuel =>
      obtain ⟨before, between, blanks, rfl, hbefore, hbetween, hblanks⟩ := hlead
      obtain ⟨first, others, rfl⟩ := List.exists_cons_of_ne_nil hkey.1
      have hfirst := startsHere_of_isBareKeyChar (List.forall_mem_cons.1 hkey.2).1
      let line := others ++ between ++ '=' :: (blanks ++ quote :: rest)
      have htext : before ++ first :: others ++ between ++ '=' :: blanks ++ quote :: rest =
          before ++ first :: line := by
        simp [line]
      have hlayout : layout (before ++ first :: line) = .ok (first :: line) := by
        rw [layout_eq_ok_iff, skipLayout_blanks hbefore, skipLayout_cons, if_pos hfirst]
      have hbracket : (first :: line).head? ≠ some '[' := by
        intro hhead
        cases hhead
        exact absurd (List.forall_mem_cons.1 hkey.2).1 (by decide)
      rw [htext, expressions_eq_ok_iff] at hread
      rcases hread with ⟨hnil, _⟩ | ⟨c, left, next, behind, hlayout', hline, hends, hnext⟩
      · rw [hlayout] at hnil
        cases hnil
      · rw [hlayout] at hlayout'
        cases hlayout'
        obtain ⟨path, name, signed, item, behind', origin, after, hkeys, hvalue, hchange,
          hresult⟩ := (expression_key_eq_ok_iff hbracket).1 hline
        cases hresult
        have hsigned := keys?_bare hkey hbetween (2 * line.length + 3)
          (blanks ++ quote :: rest)
        rw [show first :: others ++ between ++ '=' :: (blanks ++ quote :: rest) = first :: line
          from rfl, hkeys] at hsigned
        cases hsigned
        have hquoted : isBlankChar quote = false := by
          rcases hquote with rfl | rfl <;> rfl
        rw [skipBlanks_blanks hblanks, skipBlanks_cons hquoted] at hvalue
        obtain ⟨content, hcontent, rfl⟩ := value_text hquote hvalue
        have hdefine : Entries.define [] (String.ofList (first :: others)) (.text content)
            .header root = some (origin, after) := hchange
        rw [Entries.define_nil] at hdefine
        split at hdefine
        · cases hdefine
        · rename_i hnone
          cases hdefine
          exact ⟨content, behind, fuel, hcontent, hends, by simpa using hnone, hnext⟩

end KeyLines

section Reading

variable {kept tail : List Char} {root entries : Entries} {key : String}

theorem read_ofList (text : List Char) :
    read (String.ofList text) =
      expressions ((Text.withoutOrderMark text).length + 1) {} (Text.withoutOrderMark text) := by
  rw [read, String.toList_ofList]

theorem not_hasText_nil : ¬ HasText [] key := by
  rintro ⟨content, hcontent⟩
  cases hcontent

theorem withoutOrderMark_append (hkept : kept ≠ []) (tail : List Char) :
    Text.withoutOrderMark (kept ++ tail) = Text.withoutOrderMark kept ++ tail := by
  obtain ⟨c, kept, rfl⟩ := List.exists_cons_of_ne_nil hkept
  rw [List.cons_append, Text.withoutOrderMark, Text.withoutOrderMark]
  split <;> rfl

theorem withoutOrderMark_suffix (text : List Char) : Text.withoutOrderMark text <:+ text := by
  unfold Text.withoutOrderMark
  split
  · split
    · exact List.suffix_cons _ _
    · exact List.suffix_refl _
  · exact List.suffix_refl _

/-- A document with a text at the top level starts with a key, unless it starts
with nothing. -/
theorem ne_bracket_of_hasText {fuel : Nat} {text : List Char} {c : Char} {left : List Char}
    (htext : entries.HasText key) (hread : expressions fuel {} text = .ok entries)
    (hskip : skipLayout false text = some (c :: left)) : c ≠ '[' := by
  rintro rfl
  exact expressions_not_hasText not_hasText_nil (Or.inr ⟨left, hskip⟩) hread htext

/-- A document whose first part is a document of its own, without headers, is
read on from where that part ends. -/
theorem exists_read_behind (hparted : kept ≠ [] → Parted kept tail)
    (hheadless : isHeadless true kept = true) (htext : entries.HasText key)
    (hstart : kept = [] → Text.withoutOrderMark tail = tail)
    (hkept : read (String.ofList kept) = .ok root)
    (hwhole : read (String.ofList (kept ++ tail)) = .ok entries) :
    ∃ fuel, expressions fuel ⟨root, []⟩ tail = .ok entries := by
  rw [read_ofList] at hkept hwhole
  by_cases hnil : kept = []
  · subst hnil
    cases hkept
    rw [List.nil_append, hstart rfl] at hwhole
    exact ⟨_, hwhole⟩
  · rw [withoutOrderMark_append hnil] at hwhole
    have hparted' : Parted (Text.withoutOrderMark kept) tail := by
      obtain ⟨c, behind, rfl⟩ := List.exists_cons_of_ne_nil hnil
      rw [Text.withoutOrderMark]
      split
      · rename_i hmark
        apply (hparted hnil).behind
        rintro rfl
        cases hmark
      · exact hparted hnil
    apply expressions_append rfl hparted' _ hkept hwhole
    intro c left hskip
    obtain ⟨hsuffix, hskip'⟩ := skipLayout_append false tail hskip (List.cons_ne_nil c left)
    refine ⟨ne_bracket_of_hasText htext hwhole hskip', ?_⟩
    exact isHeadless_of_suffix hheadless (hsuffix.trans (withoutOrderMark_suffix kept))

end Reading

end Toml

end StubSync
