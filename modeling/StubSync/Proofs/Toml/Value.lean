/-
Values and lines of a document that goes on.
-/
import StubSync.Proofs.Toml.Entries
import StubSync.Proofs.Toml.Layout

namespace StubSync

namespace Toml

theorem exists_of_bind_eq_ok {α β ε : Type} {first : Except ε α} {next : α → Except ε β}
    {result : β} (hbind : (first >>= next) = .ok result) :
    ∃ found, first = .ok found ∧ next found = .ok result := by
  cases first with
  | error error => cases hbind
  | ok found => exact ⟨found, rfl, hbind⟩

section Values

variable {text tail rest : List Char}

/-- The value that is read within the fuel is read in front of more text, and
with more fuel. -/
def ExtendsWithin (tail : List Char) (fuel : Nat)
    (read : Nat → List Char → Except Problem (Value × List Char)) : Prop :=
  ∀ text result rest, Parted text tail → read fuel text = .ok (result, rest) →
    Remains text tail rest ∧
      ∀ more, read (fuel + more) (text ++ tail) = .ok (result, rest ++ tail)

theorem value_nil (depth fuel : Nat) (result : Value × List Char) :
    value depth fuel [] ≠ .ok result := by
  cases fuel with
  | zero => simp [value]
  | succ fuel => simp [value]

theorem value_extends {fuel : Nat}
    (hitems : ∀ depth earlier, ExtendsWithin tail fuel (items depth earlier))
    (hpairs : ∀ depth earlier, ExtendsWithin tail fuel (pairs depth earlier)) (depth : Nat) :
    ExtendsWithin tail (fuel + 1) (value depth) := by
  intro text result rest hparted hread
  match text with
  | [] => exact absurd hread (value_nil depth (fuel + 1) _)
  | c :: text =>
      rw [value] at hread
      split at hread
      · rename_i hquote
        cases htext : text? (c :: text) with
        | none => simp [htext] at hread
        | some found =>
            simp only [htext] at hread
            cases hread
            obtain ⟨hremains, hwhole⟩ := text?_extends tail _ _ _ hparted htext
            rw [List.cons_append] at hwhole
            refine ⟨hremains, fun more => ?_⟩
            rw [Nat.succ_add, List.cons_append, value, if_pos hquote, hwhole]
      · rename_i hquote
        split at hread
        · rename_i hbracket
          split at hread
          · cases hread
          · rename_i hdepth
            have hbehind := hparted.behind (hbracket ▸ by decide)
            obtain ⟨hremains, hwhole⟩ := hitems _ _ _ _ _ hbehind hread
            refine ⟨hremains.cons, fun more => ?_⟩
            rw [Nat.succ_add, List.cons_append, value, if_neg hquote, if_pos hbracket,
              if_neg hdepth, hwhole]
        · rename_i hbracket
          split at hread
          · rename_i hbrace
            split at hread
            · cases hread
            · rename_i hdepth
              have hbehind := hparted.behind (hbrace ▸ by decide)
              obtain ⟨hremains, hwhole⟩ := hpairs _ _ _ _ _ hbehind hread
              refine ⟨hremains.cons, fun more => ?_⟩
              rw [Nat.succ_add, List.cons_append, value, if_neg hquote, if_neg hbracket,
                if_pos hbrace, if_neg hdepth, hwhole]
          · rename_i hbrace
            rw [expecting_eq_ok_iff] at hread
            obtain ⟨hremains, hwhole⟩ := scalar?_extends tail _ _ _ hparted hread
            refine ⟨hremains, fun more => ?_⟩
            rw [Nat.succ_add, List.cons_append, value, if_neg hquote, if_neg hbracket,
              if_neg hbrace, expecting_eq_ok_iff]
            exact hwhole

/-- An array ends, or one more item stands before a comma or the end. -/
theorem items_eq_ok_iff {depth fuel : Nat} {earlier : List Value} {result : Value} :
    items depth earlier (fuel + 1) text = .ok (result, rest) ↔
      (layout text = .ok (']' :: rest) ∧ result = .array earlier.reverse) ∨
      ∃ c left item behind, layout text = .ok (c :: left) ∧ c ≠ ']' ∧
        value depth fuel (c :: left) = .ok (item, behind) ∧
        ((∃ next, layout behind = .ok (',' :: next) ∧
            items depth (item :: earlier) fuel next = .ok (result, rest)) ∨
          layout behind = .ok (']' :: rest) ∧ result = .array (item :: earlier).reverse) := by
  rw [items]
  constructor
  · intro hread
    obtain ⟨left, hlayout, hleft⟩ := exists_of_bind_eq_ok hread
    split at hleft
    · cases hleft
      exact Or.inl ⟨hlayout, rfl⟩
    · rename_i hbracket
      obtain ⟨⟨item, behind⟩, hitem, hbehind⟩ := exists_of_bind_eq_ok hleft
      obtain ⟨next, hnext, hend⟩ := exists_of_bind_eq_ok hbehind
      match left with
      | [] => exact absurd hitem (value_nil depth fuel _)
      | c :: left =>
          refine Or.inr ⟨c, left, item, behind, hlayout, ?_, hitem, ?_⟩
          · rintro rfl
            exact hbracket left rfl
          · split at hend
            · exact Or.inl ⟨_, hnext, hend⟩
            · cases hend
              exact Or.inr ⟨hnext, rfl⟩
            · cases hend
  · rintro (⟨hlayout, rfl⟩ | ⟨c, left, item, behind, hlayout, hc, hitem, hbehind⟩)
    · rw [hlayout]
      rfl
    · rw [hlayout]
      simp only [bind, Except.bind]
      split
      · rename_i hbracket
        exact absurd (List.cons.inj hbracket).1 hc
      · rw [hitem]
        rcases hbehind with ⟨next, hnext, hread⟩ | ⟨hnext, rfl⟩
        · simp only [hnext, hread]
        · simp only [hnext]
          rfl

theorem items_extends {fuel : Nat} (hvalue : ∀ depth, ExtendsWithin tail fuel (value depth))
    (hitems : ∀ depth earlier, ExtendsWithin tail fuel (items depth earlier)) (depth : Nat)
    (earlier : List Value) : ExtendsWithin tail (fuel + 1) (items depth earlier) := by
  intro text result rest hparted hread
  rcases items_eq_ok_iff.1 hread with
    ⟨hlayout, hresult⟩ | ⟨c, left, item, behind, hlayout, hc, hitem, hbehind⟩
  · obtain ⟨hremains, hwhole⟩ := layout_append hparted hlayout
    refine ⟨hremains.behind (by decide), fun more => ?_⟩
    rw [Nat.succ_add, items_eq_ok_iff]
    exact Or.inl ⟨hwhole, hresult⟩
  · obtain ⟨hstart, hwhole⟩ := layout_append hparted hlayout
    obtain ⟨hremains, hitem'⟩ := hvalue depth _ _ _ hstart.parted hitem
    rcases hbehind with ⟨next, hnext, hmore⟩ | ⟨hnext, hresult⟩
    · obtain ⟨hcomma, hnext'⟩ := layout_append hremains.parted hnext
      have hkept := (hstart.trans (hremains.trans hcomma)).behind (by decide)
      obtain ⟨hrest, hmore'⟩ := hitems depth _ _ _ _ hkept.parted hmore
      refine ⟨hkept.trans hrest, fun more => ?_⟩
      rw [Nat.succ_add, items_eq_ok_iff]
      exact Or.inr ⟨c, left ++ tail, item, behind ++ tail, hwhole, hc, hitem' more,
        Or.inl ⟨next ++ tail, hnext', hmore' more⟩⟩
    · obtain ⟨hend, hnext'⟩ := layout_append hremains.parted hnext
      refine ⟨(hstart.trans (hremains.trans hend)).behind (by decide), fun more => ?_⟩
      rw [Nat.succ_add, items_eq_ok_iff]
      exact Or.inr ⟨c, left ++ tail, item, behind ++ tail, hwhole, hc, hitem' more,
        Or.inr ⟨hnext', hresult⟩⟩

/-- A table in braces ends, or one more key has a value before a comma or the
end. -/
theorem pairs_eq_ok_iff {depth fuel : Nat} {earlier : Entries} {result : Value} :
    pairs depth earlier (fuel + 1) text = .ok (result, rest) ↔
      (layout text = .ok ('\x7d' :: rest) ∧ result = .table .inline earlier) ∨
      ∃ c left path key named signed d start item behind entries,
        layout text = .ok (c :: left) ∧ c ≠ '\x7d' ∧
        keys? (fuel + 1) (c :: left) = some (path, key, named) ∧
        layout named = .ok ('=' :: signed) ∧ layout signed = .ok (d :: start) ∧
        value depth fuel (d :: start) = .ok (item, behind) ∧
        earlier.define path key item .header = some entries ∧
        ((∃ next, layout behind = .ok (',' :: next) ∧
            pairs depth entries.2 fuel next = .ok (result, rest)) ∨
          layout behind = .ok ('\x7d' :: rest) ∧ result = .table .inline entries.2) := by
  rw [pairs]
  constructor
  · intro hread
    obtain ⟨left, hlayout, hleft⟩ := exists_of_bind_eq_ok hread
    split at hleft
    · cases hleft
      exact Or.inl ⟨hlayout, rfl⟩
    · rename_i hbrace
      obtain ⟨⟨path, key, named⟩, hkeys, hnamed⟩ := exists_of_bind_eq_ok hleft
      obtain ⟨sign, hsign, hnamed⟩ := exists_of_bind_eq_ok hnamed
      obtain ⟨signed, hsigned, hnamed⟩ := exists_of_bind_eq_ok hnamed
      obtain ⟨start, hstart, hnamed⟩ := exists_of_bind_eq_ok hnamed
      obtain ⟨⟨item, behind⟩, hitem, hbehind⟩ := exists_of_bind_eq_ok hnamed
      obtain ⟨⟨origin, entries⟩, hentries, hbehind⟩ := exists_of_bind_eq_ok hbehind
      obtain ⟨next, hnext, hend⟩ := exists_of_bind_eq_ok hbehind
      rw [expecting_eq_ok_iff] at hkeys hsigned hentries
      rw [sign?_eq_some_iff] at hsigned
      subst hsigned
      match left, start with
      | [], _ => cases hkeys
      | _ :: _, [] => exact absurd hitem (value_nil depth fuel _)
      | c :: left, d :: start =>
          refine Or.inr ⟨c, left, path, key, named, signed, d, start, item, behind,
            (origin, entries), hlayout, ?_, hkeys, hsign, hstart, hitem, hentries, ?_⟩
          · rintro rfl
            exact hbrace left rfl
          · split at hend
            · exact Or.inl ⟨_, hnext, hend⟩
            · cases hend
              exact Or.inr ⟨hnext, rfl⟩
            · cases hend
  · rintro (⟨hlayout, rfl⟩ | ⟨c, left, path, key, named, signed, d, start, item, behind,
      entries, hlayout, hc, hkeys, hsign, hstart, hitem, hentries, hbehind⟩)
    · rw [hlayout]
      rfl
    · have hsigned : sign? '=' ('=' :: signed) = some signed := sign?_eq_some_iff.2 rfl
      rw [hlayout]
      simp only [bind, Except.bind]
      split
      · rename_i hbrace
        exact absurd (List.cons.inj hbrace).1 hc
      · simp only [hkeys, expecting, hsign, hsigned, hstart, hitem, hentries]
        rcases hbehind with ⟨next, hnext, hread⟩ | ⟨hnext, rfl⟩
        · simp only [hnext, hread]
        · simp only [hnext]
          rfl

theorem pairs_extends {fuel : Nat} (hvalue : ∀ depth, ExtendsWithin tail fuel (value depth))
    (hpairs : ∀ depth earlier, ExtendsWithin tail fuel (pairs depth earlier)) (depth : Nat)
    (earlier : Entries) : ExtendsWithin tail (fuel + 1) (pairs depth earlier) := by
  intro text result rest hparted hread
  rcases pairs_eq_ok_iff.1 hread with
    ⟨hlayout, hresult⟩ | ⟨c, left, path, key, named, signed, d, start, item, behind,
      entries, hlayout, hc, hkeys, hsign, hstart, hitem, hentries, hbehind⟩
  · obtain ⟨hremains, hwhole⟩ := layout_append hparted hlayout
    refine ⟨hremains.behind (by decide), fun more => ?_⟩
    rw [Nat.succ_add, pairs_eq_ok_iff]
    exact Or.inl ⟨hwhole, hresult⟩
  · obtain ⟨hkeyed, hwhole⟩ := layout_append hparted hlayout
    obtain ⟨hnamed, _⟩ := keys?_extends (fuel + 1) 0 hkeyed.parted hkeys
    obtain ⟨hsigned, hsign'⟩ := layout_append hnamed.parted hsign
    obtain ⟨hstarts, hstart'⟩ := layout_append (hsigned.behind (by decide)).parted hstart
    obtain ⟨hremains, hitem'⟩ := hvalue depth _ _ _ hstarts.parted hitem
    have hkeys' : ∀ more, keys? (fuel + more + 1) (c :: (left ++ tail)) =
        some (path, key, named ++ tail) := by
      intro more
      rw [Nat.add_right_comm]
      exact (keys?_extends (fuel + 1) more hkeyed.parted hkeys).2
    have hitems := (hkeyed.trans (hnamed.trans (hsigned.behind (by decide)))).trans
      (hstarts.trans hremains)
    rcases hbehind with ⟨next, hnext, hmore⟩ | ⟨hnext, hresult⟩
    · obtain ⟨hcomma, hnext'⟩ := layout_append hremains.parted hnext
      have hkept := (hitems.trans hcomma).behind (by decide)
      obtain ⟨hrest, hmore'⟩ := hpairs depth _ _ _ _ hkept.parted hmore
      refine ⟨hkept.trans hrest, fun more => ?_⟩
      rw [Nat.succ_add, pairs_eq_ok_iff]
      exact Or.inr ⟨c, left ++ tail, path, key, named ++ tail, signed ++ tail, d, start ++ tail,
        item, behind ++ tail, entries, hwhole, hc, hkeys' more, hsign', hstart', hitem' more,
        hentries, Or.inl ⟨next ++ tail, hnext', hmore' more⟩⟩
    · obtain ⟨hend, hnext'⟩ := layout_append hremains.parted hnext
      refine ⟨(hitems.trans hend).behind (by decide), fun more => ?_⟩
      rw [Nat.succ_add, pairs_eq_ok_iff]
      exact Or.inr ⟨c, left ++ tail, path, key, named ++ tail, signed ++ tail, d, start ++ tail,
        item, behind ++ tail, entries, hwhole, hc, hkeys' more, hsign', hstart', hitem' more,
        hentries, Or.inr ⟨hnext', hresult⟩⟩

/-- Values are read in front of more text as they are without it. -/
theorem values_extend (tail : List Char) (fuel : Nat) :
    (∀ depth, ExtendsWithin tail fuel (value depth)) ∧
      (∀ depth earlier, ExtendsWithin tail fuel (items depth earlier)) ∧
      ∀ depth earlier, ExtendsWithin tail fuel (pairs depth earlier) := by
  induction fuel with
  | zero =>
      refine ⟨?_, ?_, ?_⟩
      · intro depth text result rest _ hread
        rw [value] at hread
        cases hread
      · intro depth earlier text result rest _ hread
        rw [items] at hread
        cases hread
      · intro depth earlier text result rest _ hread
        rw [pairs] at hread
        cases hread
  | succ fuel ih =>
      obtain ⟨hvalue, hitems, hpairs⟩ := ih
      exact ⟨value_extends hitems hpairs, items_extends hvalue hitems,
        pairs_extends hvalue hpairs⟩

end Values

end Toml

end StubSync
