/-
The order of texts by their bytes.

No character's encoding is the beginning of another's, and of two characters the
greater one has the greater byte where their encodings first differ.  So texts are in
the order of their characters exactly when they are in the order of their bytes.
-/
import Mathlib.Tactic.SplitIfs

namespace StubSync

namespace Text

/-- The bytes of the encoding of a text. -/
def bytes (text : String) : List UInt8 :=
  text.toUTF8.data.toList

theorem bytes_eq_flatMap (text : String) :
    bytes text = text.toList.flatMap String.utf8EncodeChar := by
  rw [bytes, String.toUTF8_eq_toByteArray, ← String.utf8Encode_toList, List.utf8Encode,
    List.data_toByteArray]

section Encoding

theorem ofNat_lt_ofNat_iff {m n : Nat} (hm : m < 256) (hn : n < 256) :
    UInt8.ofNat m < UInt8.ofNat n ↔ m < n := by
  rw [UInt8.lt_iff_toNat_lt, UInt8.toNat_ofNat_of_lt' hm, UInt8.toNat_ofNat_of_lt' hn]

theorem ofNat_eq_ofNat_iff {m n : Nat} (hm : m < 256) (hn : n < 256) :
    UInt8.ofNat m = UInt8.ofNat n ↔ m = n := by
  rw [← UInt8.toNat_inj, UInt8.toNat_ofNat_of_lt' hm, UInt8.toNat_ofNat_of_lt' hn]

/-- The greater number has more before the last digit, or as much and a greater last
digit. -/
theorem div_mod_of_lt (base : Nat) {m n : Nat} (hlt : m < n) :
    m / base < n / base ∨ m / base = n / base ∧ m % base < n % base := by
  rcases Nat.lt_or_eq_of_le (Nat.div_le_div_right (Nat.le_of_lt hlt)) with hdiv | hdiv
  · exact Or.inl hdiv
  · refine Or.inr ⟨hdiv, ?_⟩
    have hm := Nat.div_add_mod m base
    have hn := Nat.div_add_mod n base
    rw [hdiv] at hm
    omega

/-- The encoding of a greater character is greater, whatever follows. -/
theorem utf8EncodeChar_append_lt {c d : Char} (hlt : c < d) (more others : List UInt8) :
    String.utf8EncodeChar c ++ more < String.utf8EncodeChar d ++ others := by
  have hcode : c.val.toNat < d.val.toNat := hlt
  have hbound : d.val.toNat < 0x110000 := by
    have hvalid : d.val.toNat < 0xD800 ∨ 0xDFFF < d.val.toNat ∧ d.val.toNat < 0x110000 := d.valid
    omega
  simp only [String.utf8EncodeChar]
  generalize c.val.toNat = m at *
  generalize d.val.toNat = n at *
  -- Encodings of different lengths differ in their first bytes.  In those of the same
  -- length the bytes are marked digits to the base 64.
  have hlast := div_mod_of_lt 64 hcode
  have hthird : m / 64 < n / 64 → _ := div_mod_of_lt 64
  have hsecond : m / 4096 < n / 4096 → _ := div_mod_of_lt 64
  simp only [Nat.div_div_eq_div_mul, Nat.reduceMul] at hthird hsecond
  have hfirst : m / 262144 % 8 = m / 262144 ∧ n / 262144 % 8 = n / 262144 := by omega
  split_ifs <;>
    simp (disch := omega) only [List.cons_append, List.nil_append, List.cons_lt_cons_iff,
      ofNat_lt_ofNat_iff, ofNat_eq_ofNat_iff] <;>
    omega

theorem utf8EncodeChar_ne_nil (c : Char) : String.utf8EncodeChar c ≠ [] := by
  simp only [String.utf8EncodeChar]
  split_ifs <;> exact List.cons_ne_nil _ _

theorem flatMap_utf8EncodeChar_lt {left right : List Char} (hlt : left < right) :
    left.flatMap String.utf8EncodeChar < right.flatMap String.utf8EncodeChar := by
  induction left generalizing right with
  | nil =>
      cases right with
      | nil => exact absurd hlt (List.not_lt_nil _)
      | cons d right =>
          rw [List.flatMap_cons]
          obtain ⟨byte, rest, hencoded⟩ := List.exists_cons_of_ne_nil (utf8EncodeChar_ne_nil d)
          rw [hencoded]
          exact List.nil_lt_cons _ _
  | cons c left ih =>
      cases right with
      | nil => exact absurd hlt (List.not_lt_nil _)
      | cons d right =>
          rw [List.flatMap_cons, List.flatMap_cons]
          rcases List.cons_lt_cons_iff.1 hlt with hhead | ⟨rfl, htail⟩
          · exact utf8EncodeChar_append_lt hhead _ _
          · exact List.append_left_lt (ih htail)

end Encoding

/-- Texts are in order exactly if their bytes are. -/
theorem lt_iff_bytes_lt {left right : String} : left < right ↔ bytes left < bytes right := by
  have hforward : ∀ {left right : String}, left < right → bytes left < bytes right := by
    intro left right hlt
    rw [bytes_eq_flatMap, bytes_eq_flatMap]
    exact flatMap_utf8EncodeChar_lt hlt
  refine ⟨hforward, fun hbytes => String.not_le.1 fun hle => ?_⟩
  by_cases heq : right = left
  · rw [heq] at hbytes
    exact List.lt_irrefl _ hbytes
  · have hlt : right < left := String.not_le.1 fun hge => heq (String.le_antisymm hle hge)
    exact List.lt_asymm hbytes (hforward hlt)

end Text

end StubSync
