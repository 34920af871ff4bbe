/-
The tokens of a document that has been written: one for each word, text and
mark, whatever blanks stand between them.
-/
import StubSync.Json.Printer
import StubSync.Proofs.Json.Number

namespace StubSync

namespace Json

section Steps

variable {α β : Type} {step? : β → α → Option β} {state next : β}

theorem foldlM_cons_of_some {first : α} (hstep : step? state first = some next)
    (others : List α) : (first :: others).foldlM step? state = others.foldlM step? next := by
  rw [List.foldlM_cons, hstep, Option.bind_eq_bind, Option.bind_some]

theorem foldlM_append_of_some {front : List α} (hfront : front.foldlM step? state = some next)
    (back : List α) : (front ++ back).foldlM step? state = back.foldlM step? next := by
  rw [List.foldlM_append, hfront, Option.bind_eq_bind, Option.bind_some]

end Steps

section Pieces

/-- The piece of a text denotes the character, whatever pieces follow it. -/
def Piece.Denotes (piece : Piece) (c : Char) : Prop :=
  ∀ others, denoted? (piece :: others) = (denoted? others).map (c :: ·)

theorem Piece.char_denotes (c : Char) : (Piece.char c).Denotes c :=
  fun others => by rw [denoted?]

/-- A number below those of the halves denotes a character by itself. -/
theorem Piece.unit_denotes {value : Nat} (hvalue : value < 0xD800) :
    (Piece.unit value).Denotes (Char.ofNat value) := by
  have hhigh : isHighHalf value = false := by
    simp only [isHighHalf, Bool.and_eq_false_iff, decide_eq_false_iff_not]
    omega
  have hlow : isLowHalf value = false := by
    simp only [isLowHalf, Bool.and_eq_false_iff, decide_eq_false_iff_not]
    omega
  intro others
  match others with
  | [] => simp [denoted?, hhigh, hlow]
  | .char c :: others => simp [denoted?, hhigh, hlow, Function.comp_def]
  | .unit low :: others => simp [denoted?, hhigh, hlow]

theorem hexValue?_hexDigit {n : Nat} (hn : n < 16) : hexValue? (hexDigit n) = some n := by
  revert n
  decide

end Pieces

section Texts

variable {earlier : List Piece} {tokens : List Token}

theorem foldlM_letter {letter meant : Char} (hmeant : escaped? letter = some meant)
    (hletter : letter ≠ 'u') :
    ['\\', letter].foldlM Scan.step? ⟨.inText earlier, tokens⟩ =
      some ⟨.inText (.char meant :: earlier), tokens⟩ := by
  simp [Scan.step?, hmeant, hletter]

/-- Four hexadecimal digits are one number, here below 256. -/
theorem foldlM_code {high low : Nat} (hhigh : high < 16) (hlow : low < 16) :
    ['\\', 'u', '0', '0', hexDigit high, hexDigit low].foldlM Scan.step?
        ⟨.inText earlier, tokens⟩ =
      some ⟨.inText (.unit (16 * high + low) :: earlier), tokens⟩ := by
  have hzeros : ['\\', 'u', '0', '0'].foldlM Scan.step? ⟨.inText earlier, tokens⟩ =
      some ⟨.inCode earlier 2 0, tokens⟩ := rfl
  have hthird : Scan.step? ⟨.inCode earlier 2 0, tokens⟩ (hexDigit high) =
      some ⟨.inCode earlier 1 high, tokens⟩ := by
    simp [Scan.step?, hexValue?_hexDigit hhigh]
  have hfourth : Scan.step? ⟨.inCode earlier 1 high, tokens⟩ (hexDigit low) =
      some ⟨.inText (.unit (16 * high + low) :: earlier), tokens⟩ := by
    simp [Scan.step?, hexValue?_hexDigit hlow]
  have hsplit := foldlM_append_of_some hzeros [hexDigit high, hexDigit low]
  rw [foldlM_cons_of_some hthird, foldlM_cons_of_some hfourth] at hsplit
  exact hsplit

/-- An escaped character is one piece of a text. -/
theorem exists_piece (c : Char) : ∃ piece : Piece, piece.Denotes c ∧
    ∀ earlier tokens, (escape c).foldlM Scan.step? ⟨.inText earlier, tokens⟩ =
      some ⟨.inText (piece :: earlier), tokens⟩ := by
  have hnamed : ∀ letter, escaped? letter = some c → letter ≠ 'u' → escape c = ['\\', letter] →
      ∃ piece : Piece, piece.Denotes c ∧
        ∀ earlier tokens, (escape c).foldlM Scan.step? ⟨.inText earlier, tokens⟩ =
          some ⟨.inText (piece :: earlier), tokens⟩ := by
    intro letter hmeant hletter hescape
    rw [hescape]
    exact ⟨.char c, Piece.char_denotes c, fun _ _ => foldlM_letter hmeant hletter⟩
  by_cases hquote : c = '"'
  · subst hquote
    exact hnamed '"' rfl (by decide) rfl
  by_cases hback : c = '\\'
  · subst hback
    exact hnamed '\\' rfl (by decide) rfl
  by_cases hb : c = Char.ofNat 0x08
  · subst hb
    exact hnamed 'b' rfl (by decide) rfl
  by_cases hf : c = Char.ofNat 0x0C
  · subst hf
    exact hnamed 'f' rfl (by decide) rfl
  by_cases hn : c = '\n'
  · subst hn
    exact hnamed 'n' rfl (by decide) rfl
  by_cases hr : c = '\r'
  · subst hr
    exact hnamed 'r' rfl (by decide) rfl
  by_cases ht : c = '\t'
  · subst ht
    exact hnamed 't' rfl (by decide) rfl
  simp only [escape, hquote, hback, hb, hf, hn, hr, ht, if_false]
  split
  · rename_i hcontrol
    have hvalue : 16 * (c.toNat / 16) + c.toNat % 16 = c.toNat := Nat.div_add_mod ..
    refine ⟨.unit c.toNat, ?_, ?_⟩
    · have hdenotes := Piece.unit_denotes (show c.toNat < 0xD800 by omega)
      rwa [Char.ofNat_toNat] at hdenotes
    · intro earlier tokens
      rw [foldlM_code (by omega) (by omega), hvalue]
  · rename_i hcontrol
    refine ⟨.char c, Piece.char_denotes c, ?_⟩
    intro earlier tokens
    simp [Scan.step?, hquote, hback, hcontrol]

theorem exists_pieces (content : List Char) : ∃ pieces, denoted? pieces = some content ∧
    ∀ earlier tokens, (content.flatMap escape).foldlM Scan.step? ⟨.inText earlier, tokens⟩ =
      some ⟨.inText (pieces.reverse ++ earlier), tokens⟩ := by
  induction content with
  | nil => exact ⟨[], rfl, fun _ _ => rfl⟩
  | cons c content ih =>
      obtain ⟨pieces, hpieces, hscan⟩ := ih
      obtain ⟨piece, hpiece, hfirst⟩ := exists_piece c
      refine ⟨piece :: pieces, ?_, ?_⟩
      · rw [hpiece, hpieces, Option.map_some]
      · intro earlier tokens
        rw [List.flatMap_cons, foldlM_append_of_some (hfirst _ _), hscan, List.reverse_cons,
          List.append_assoc, List.singleton_append]

/-- A quoted text is a token. -/
theorem foldlM_quote (content : String) (tokens : List Token) :
    (quote content).foldlM Scan.step? ⟨.between, tokens⟩ =
      some ⟨.between, .text (some content) :: tokens⟩ := by
  obtain ⟨pieces, hpieces, hscan⟩ := exists_pieces content.toList
  have hopen : Scan.step? ⟨.between, tokens⟩ '"' = some ⟨.inText [], tokens⟩ := rfl
  rw [quote, List.cons_append, foldlM_cons_of_some hopen, foldlM_append_of_some (hscan _ _)]
  simp [Scan.step?, hpieces]

end Texts

/-- The scan of the rest of a text to its end. -/
def scanRest? (earlier : List Token) (rest : List Char) : Option Scan :=
  (rest.foldlM Scan.step? ⟨.between, earlier⟩).map Scan.endWord

/-- A word cannot go on in this text. -/
def NoWordAhead (text : List Char) : Prop :=
  ∀ c ∈ text.head?, isWordChar c = false

section Rests

variable {earlier : List Token} {rest : List Char}

theorem noWordAhead_nil : NoWordAhead [] := by
  intro c hc
  cases hc

theorem noWordAhead_cons {c : Char} (hc : isWordChar c = false) (rest : List Char) :
    NoWordAhead (c :: rest) := by
  intro d hd
  cases hd
  exact hc

theorem isWordChar_of_isSpace {c : Char} (hspace : isSpace c = true) :
    isWordChar c = false := by
  simp only [isSpace, Bool.or_eq_true, beq_iff_eq] at hspace
  rcases hspace with ((rfl | rfl) | rfl) | rfl <;> decide

theorem noWordAhead_append {blank : List Char} (hblank : ∀ c ∈ blank, isSpace c = true)
    (hrest : NoWordAhead rest) : NoWordAhead (blank ++ rest) := by
  cases blank with
  | nil => exact hrest
  | cons c blank =>
      exact noWordAhead_cons (isWordChar_of_isSpace (hblank c List.mem_cons_self)) _

/-- What is scanned from one token boundary to the next one. -/
theorem scanRest?_append {text : List Char} {tokens : List Token}
    (htext : text.foldlM Scan.step? ⟨.between, earlier⟩ = some ⟨.between, tokens⟩)
    (rest : List Char) : scanRest? earlier (text ++ rest) = scanRest? tokens rest := by
  rw [scanRest?, foldlM_append_of_some htext, scanRest?]

theorem scanRest?_blank {blank : List Char} (hblank : ∀ c ∈ blank, isSpace c = true) :
    scanRest? earlier (blank ++ rest) = scanRest? earlier rest := by
  refine scanRest?_append ?_ rest
  induction blank with
  | nil => rfl
  | cons c blank ih =>
      rw [List.forall_mem_cons] at hblank
      have hstep : Scan.step? ⟨.between, earlier⟩ c = some ⟨.between, earlier⟩ :=
        if_pos hblank.1
      rw [foldlM_cons_of_some hstep, ih hblank.2]

theorem scanRest?_mark {c : Char} {token : Token} (hmark : mark? c = some token) :
    scanRest? earlier (c :: rest) = scanRest? (token :: earlier) rest := by
  have hstep : [c].foldlM Scan.step? ⟨.between, earlier⟩ = some ⟨.between, token :: earlier⟩ := by
    unfold mark? at hmark
    split at hmark <;> cases hmark <;> rfl
  exact scanRest?_append hstep rest

theorem scanRest?_quote (content : String) :
    scanRest? earlier (quote content ++ rest) =
      scanRest? (.text (some content) :: earlier) rest :=
  scanRest?_append (foldlM_quote content earlier) rest

theorem foldlM_wordChars {word earlierChars : List Char}
    (hword : ∀ c ∈ word, isWordChar c = true) :
    word.foldlM Scan.step? ⟨.inWord earlierChars, earlier⟩ =
      some ⟨.inWord (word.reverse ++ earlierChars), earlier⟩ := by
  induction word generalizing earlierChars with
  | nil => rfl
  | cons c word ih =>
      rw [List.forall_mem_cons] at hword
      have hstep : Scan.step? ⟨.inWord earlierChars, earlier⟩ c =
          some ⟨.inWord (c :: earlierChars), earlier⟩ := if_pos hword.1
      rw [foldlM_cons_of_some hstep, ih hword.2, List.reverse_cons, List.append_assoc,
        List.singleton_append]

/-- A word ends where its characters do. -/
theorem scanRest?_word (earlier : List Token) (word : List Char) (hne : word ≠ [])
    (hword : ∀ c ∈ word, isWordChar c = true) (hrest : NoWordAhead rest) :
    scanRest? earlier (word ++ rest) =
      scanRest? (.word (String.ofList word) :: earlier) rest := by
  obtain ⟨c, others, rfl⟩ := List.exists_cons_of_ne_nil hne
  rw [List.forall_mem_cons] at hword
  have hspace : isSpace c = false := by
    cases hspace : isSpace c with
    | false => rfl
    | true => exact absurd hword.1 (Bool.eq_false_iff.1 (isWordChar_of_isSpace hspace))
  have hquote : c ≠ '"' := by
    rintro rfl
    exact absurd hword.1 (by decide)
  have hstart : Scan.step? ⟨.between, earlier⟩ c = some ⟨.inWord [c], earlier⟩ := by
    simp [Scan.step?, Scan.start?, hspace, hquote, hword.1]
  rw [scanRest?, List.cons_append, foldlM_cons_of_some hstart,
    foldlM_append_of_some (foldlM_wordChars hword.2), ← List.reverse_cons]
  cases rest with
  | nil => simp [scanRest?, Scan.endWord]
  | cons d rest =>
      -- The character behind the word is read as if the word had been ended.
      have hd : isWordChar d = false := hrest d rfl
      have hstep : Scan.step? ⟨.inWord (c :: others).reverse, earlier⟩ d =
          Scan.step? ⟨.between, .word (String.ofList (c :: others)) :: earlier⟩ d := by
        simp [Scan.step?, Scan.endWord, hd]
      rw [List.foldlM_cons, hstep, scanRest?, List.foldlM_cons]

end Rests

/-- All of the value can be read again: it has no damaged parts, and its numbers
are spelled as numbers. -/
inductive IsWhole : Json → Prop where
  | null : IsWhole .null
  | flag (truth : Bool) : IsWhole (.flag truth)
  | number {spelling : String} (hnumber : (scientific? spelling.toList).isSome) :
      IsWhole (.number spelling)
  | text (content : String) : IsWhole (.text content)
  | list {items : List Json} (hitems : ∀ item ∈ items, IsWhole item) : IsWhole (.list items)
  | object {entries : List (String × Json)} (hentries : ∀ entry ∈ entries, IsWhole entry.2) :
      IsWhole (.object entries)

mutual

/-- The tokens of a value. -/
def tokens : Json → List Token
  | .null => [.word "null"]
  | .flag true => [.word "true"]
  | .flag false => [.word "false"]
  | .number spelling => [.word spelling]
  | .text content => [.text (some content)]
  | .list [] => [.openList, .closeList]
  | .list (item :: others) => .openList :: (tokens item ++ (itemTokens others ++ [.closeList]))
  | .object [] => [.openObject, .closeObject]
  | .object (entry :: others) =>
      .openObject :: (entryToken entry ++ (entryTokens others ++ [.closeObject]))
  | .damaged => [.word "null"]

/-- The tokens of items after the first one. -/
def itemTokens : List Json → List Token
  | [] => []
  | item :: others => .comma :: (tokens item ++ itemTokens others)

def entryToken : String × Json → List Token
  | (key, value) => .text (some key) :: .colon :: tokens value

/-- The tokens of entries after the first one. -/
def entryTokens : List (String × Json) → List Token
  | [] => []
  | entry :: others => .comma :: (entryToken entry ++ entryTokens others)

end

/-- The parts of a document are separated by blanks only. -/
structure Layout.IsBlank (layout : Layout) : Prop where
  lineEnd : ∀ depth, ∀ c ∈ layout.lineEnd depth, isSpace c = true
  afterColon : ∀ c ∈ layout.afterColon, isSpace c = true

section Writing

variable {layout : Layout} {value : Json} {items : List Json} {entries : List (String × Json)}

/-- In front of whatever ends a word, the value is written as its tokens. -/
def SpellsTokens (layout : Layout) (value : Json) : Prop :=
  ∀ depth earlier rest, NoWordAhead rest →
    scanRest? earlier (write layout depth value ++ rest) =
      scanRest? ((tokens value).reverse ++ earlier) rest

theorem noWordAhead_writeItems {depth : Nat} {rest : List Char} (hrest : NoWordAhead rest) :
    NoWordAhead (writeItems layout depth items ++ rest) := by
  cases items with
  | nil => rwa [writeItems]
  | cons item others =>
      rw [writeItems]
      exact noWordAhead_cons (by decide) _

theorem scanRest?_writeItems (hlayout : layout.IsBlank)
    (hitems : ∀ item ∈ items, SpellsTokens layout item) (depth : Nat) (earlier : List Token)
    {rest : List Char} (hrest : NoWordAhead rest) :
    scanRest? earlier (writeItems layout depth items ++ rest) =
      scanRest? ((itemTokens items).reverse ++ earlier) rest := by
  induction items generalizing earlier with
  | nil => simp [writeItems, itemTokens]
  | cons item others ih =>
      rw [List.forall_mem_cons] at hitems
      have hahead : NoWordAhead (writeItems layout depth others ++ rest) :=
        noWordAhead_writeItems hrest
      simp only [writeItems, itemTokens, List.append_assoc, List.cons_append, List.reverse_cons,
        List.reverse_append]
      rw [scanRest?_mark rfl, scanRest?_blank (hlayout.lineEnd depth), hitems.1 _ _ _ hahead,
        ih hitems.2]
      simp

theorem noWordAhead_writeEntries {depth : Nat} {rest : List Char} (hrest : NoWordAhead rest) :
    NoWordAhead (writeEntries layout depth entries ++ rest) := by
  cases entries with
  | nil => rwa [writeEntries]
  | cons entry others =>
      rw [writeEntries]
      exact noWordAhead_cons (by decide) _

theorem scanRest?_writeEntry {entry : String × Json} (hlayout : layout.IsBlank)
    (hentry : SpellsTokens layout entry.2) (depth : Nat) (earlier : List Token)
    {rest : List Char} (hrest : NoWordAhead rest) :
    scanRest? earlier (writeEntry layout depth entry ++ rest) =
      scanRest? ((entryToken entry).reverse ++ earlier) rest := by
  obtain ⟨key, value⟩ := entry
  simp only [writeEntry, entryToken, List.append_assoc, List.cons_append, List.reverse_cons,
    List.nil_append]
  rw [scanRest?_quote, scanRest?_mark rfl, scanRest?_blank hlayout.afterColon,
    hentry depth _ _ hrest]

theorem scanRest?_writeEntries (hlayout : layout.IsBlank)
    (hentries : ∀ entry ∈ entries, SpellsTokens layout entry.2) (depth : Nat)
    (earlier : List Token) {rest : List Char} (hrest : NoWordAhead rest) :
    scanRest? earlier (writeEntries layout depth entries ++ rest) =
      scanRest? ((entryTokens entries).reverse ++ earlier) rest := by
  induction entries generalizing earlier with
  | nil => simp [writeEntries, entryTokens]
  | cons entry others ih =>
      rw [List.forall_mem_cons] at hentries
      have hahead : NoWordAhead (writeEntries layout depth others ++ rest) :=
        noWordAhead_writeEntries hrest
      simp only [writeEntries, entryTokens, List.append_assoc, List.cons_append,
        List.reverse_cons, List.reverse_append]
      rw [scanRest?_mark rfl, scanRest?_blank (hlayout.lineEnd depth),
        scanRest?_writeEntry hlayout hentries.1 depth _ hahead, ih hentries.2]
      rfl

/-- What separates the last part of a list or an object from its end. -/
theorem noWordAhead_close (hlayout : layout.IsBlank) (depth : Nat) {c : Char}
    (hc : isWordChar c = false) (rest : List Char) :
    NoWordAhead (layout.lineEnd depth ++ c :: rest) :=
  noWordAhead_append (hlayout.lineEnd depth) (noWordAhead_cons hc rest)

theorem spellsTokens_word {word : String} (hne : word.toList ≠ [])
    (hword : ∀ c ∈ word.toList, isWordChar c = true)
    (hwrite : ∀ depth, write layout depth value = word.toList)
    (htokens : tokens value = [.word word]) : SpellsTokens layout value := by
  intro depth earlier rest hrest
  rw [hwrite, htokens, scanRest?_word earlier word.toList hne hword hrest, String.ofList_toList]
  rfl

theorem spellsTokens_list (hlayout : layout.IsBlank)
    (hitems : ∀ item ∈ items, SpellsTokens layout item) : SpellsTokens layout (.list items) := by
  intro depth earlier rest hrest
  cases items with
  | nil =>
      simp only [write, tokens, List.cons_append, List.nil_append]
      rw [scanRest?_mark rfl, scanRest?_mark rfl]
      rfl
  | cons item others =>
      rw [List.forall_mem_cons] at hitems
      have hclose : NoWordAhead (layout.lineEnd depth ++ ']' :: rest) :=
        noWordAhead_close hlayout depth (by decide) rest
      simp only [write, tokens, List.append_assoc, List.cons_append, List.nil_append,
        List.reverse_cons, List.reverse_append, List.reverse_nil]
      rw [scanRest?_mark rfl, scanRest?_blank (hlayout.lineEnd _),
        hitems.1 _ _ _ (noWordAhead_writeItems hclose),
        scanRest?_writeItems hlayout hitems.2 _ _ hclose, scanRest?_blank (hlayout.lineEnd _),
        scanRest?_mark rfl]

theorem spellsTokens_object (hlayout : layout.IsBlank)
    (hentries : ∀ entry ∈ entries, SpellsTokens layout entry.2) :
    SpellsTokens layout (.object entries) := by
  intro depth earlier rest hrest
  cases entries with
  | nil =>
      simp only [write, tokens, List.cons_append, List.nil_append]
      rw [scanRest?_mark rfl, scanRest?_mark rfl]
      rfl
  | cons entry others =>
      rw [List.forall_mem_cons] at hentries
      have hclose : NoWordAhead (layout.lineEnd depth ++ '\x7d' :: rest) :=
        noWordAhead_close hlayout depth (by decide) rest
      simp only [write, tokens, List.append_assoc, List.cons_append, List.nil_append,
        List.reverse_cons, List.reverse_append, List.reverse_nil]
      rw [scanRest?_mark rfl, scanRest?_blank (hlayout.lineEnd _),
        scanRest?_writeEntry hlayout hentries.1 _ _ (noWordAhead_writeEntries hclose),
        scanRest?_writeEntries hlayout hentries.2 _ _ hclose,
        scanRest?_blank (hlayout.lineEnd _), scanRest?_mark rfl]

theorem spellsTokens (hlayout : layout.IsBlank) (hwhole : IsWhole value) :
    SpellsTokens layout value := by
  induction hwhole with
  | null =>
      have hword : ∀ c ∈ "null".toList, isWordChar c = true := List.all_eq_true.1 rfl
      exact spellsTokens_word (by decide) hword (fun _ => rfl) rfl
  | flag truth =>
      cases truth with
      | true =>
          have hword : ∀ c ∈ "true".toList, isWordChar c = true := List.all_eq_true.1 rfl
          exact spellsTokens_word (by decide) hword (fun _ => rfl) rfl
      | false =>
          have hword : ∀ c ∈ "false".toList, isWordChar c = true := List.all_eq_true.1 rfl
          exact spellsTokens_word (by decide) hword (fun _ => rfl) rfl
  | number hnumber =>
      obtain ⟨_, hread⟩ := Option.isSome_iff_exists.1 hnumber
      obtain ⟨hne, hword⟩ := isWordChar_of_scientific? hread
      exact spellsTokens_word hne hword (fun _ => rfl) rfl
  | text content => exact fun _ _ _ _ => scanRest?_quote content
  | list hitems ih => exact spellsTokens_list hlayout ih
  | object hentries ih => exact spellsTokens_object hlayout ih

/-- The scan of a document that has been written, with blanks behind it. -/
theorem tokens?_write (hlayout : layout.IsBlank) (hwhole : IsWhole value) {blank : List Char}
    (hblank : ∀ c ∈ blank, isSpace c = true) :
    tokens? (write layout 0 value ++ blank) = some (tokens value) := by
  have htokens : ∀ text, tokens? text = (scanRest? [] text).bind fun scan =>
      if scan.place = .between then some scan.earlier.reverse else none := by
    intro text
    rw [scanRest?, Option.bind_map]
    rfl
  have hahead := noWordAhead_append hblank noWordAhead_nil
  rw [List.append_nil] at hahead
  have hend : scanRest? (tokens value).reverse blank = some ⟨.between, (tokens value).reverse⟩ := by
    have hdone : scanRest? (tokens value).reverse (blank ++ []) =
        some ⟨.between, (tokens value).reverse⟩ := scanRest?_blank hblank
    rwa [List.append_nil] at hdone
  rw [htokens, spellsTokens hlayout hwhole 0 [] blank hahead, List.append_nil, hend]
  simp

end Writing

theorem isBlank_compact : Layout.compact.IsBlank where
  lineEnd _ := List.forall_mem_nil _
  afterColon := List.forall_mem_nil _

theorem isBlank_indented : Layout.indented.IsBlank where
  lineEnd depth := by
    refine List.forall_mem_cons.2 ⟨by decide, fun c hc => ?_⟩
    rw [List.eq_of_mem_replicate hc]
    decide
  afterColon := List.all_eq_true.1 rfl

end Json

end StubSync
