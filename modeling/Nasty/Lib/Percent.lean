import Mathlib.Data.Nat.Notation
import Mathlib.Tactic.SplitIfs

/-!
# Percent escapes

Bytes as two upper-case hexadecimal digits, and texts in which some characters are replaced by
their UTF-8 bytes, each byte after a percent sign. Reading the escapes back gives the bytes of
the text (`decode_encode`), whatever the set of escaped characters, if the percent sign is one of
them.
-/

namespace Percent

open List

/-! ## Hexadecimal digits -/

def hexDigit (n : ℕ) : Char := Char.ofNat (if n < 10 then 48 + n else 55 + n)

def hexValue (c : Char) : ℕ := if c.toNat < 58 then c.toNat - 48 else c.toNat - 55

def hexByte (b : UInt8) : List Char := [hexDigit (b.toNat / 16), hexDigit (b.toNat % 16)]

def byteOf (high low : Char) : UInt8 := UInt8.ofNat (16 * hexValue high + hexValue low)

theorem hexValue_hexDigit : ∀ n < 16, hexValue (hexDigit n) = n := by decide

theorem byteOf_hexDigit (b : UInt8) :
    byteOf (hexDigit (b.toNat / 16)) (hexDigit (b.toNat % 16)) = b := by
  have hb := b.toNat_lt
  rw [byteOf, hexValue_hexDigit _ (by omega), hexValue_hexDigit _ (by omega), Nat.div_add_mod,
    UInt8.ofNat_toNat]

theorem mem_hexByte {b : UInt8} {c : Char} (h : c ∈ hexByte b) : ∃ n < 16, c = hexDigit n := by
  have hb := b.toNat_lt
  simp only [hexByte, mem_cons, not_mem_nil, or_false] at h
  rcases h with rfl | rfl <;> exact ⟨_, by omega, rfl⟩

theorem hexBytes_injective {bs bs' : List UInt8} (h : bs.flatMap hexByte = bs'.flatMap hexByte) :
    bs = bs' := by
  induction bs generalizing bs' with
  | nil => cases bs' with
    | nil => rfl
    | cons => cases h
  | cons b bs ih => cases bs' with
    | nil => cases h
    | cons b' bs' =>
      simp only [flatMap_cons, hexByte, cons_append, cons.injEq] at h
      obtain ⟨hhigh, hlow, hrest⟩ := h
      rw [← byteOf_hexDigit b, ← byteOf_hexDigit b', hhigh, hlow, ih hrest]

/-! ## Escapes -/

def escape (c : Char) : List Char := (String.utf8EncodeChar c).flatMap fun b => '%' :: hexByte b

def encode (esc : Char → Bool) (cs : List Char) : List Char :=
  cs.flatMap fun c => if esc c then escape c else [c]

def decode : List Char → List UInt8
  | '%' :: high :: low :: cs => byteOf high low :: decode cs
  | c :: cs => String.utf8EncodeChar c ++ decode cs
  | [] => []

theorem decode_cons {c : Char} (h : c ≠ '%') (cs : List Char) :
    decode (c :: cs) = String.utf8EncodeChar c ++ decode cs := by
  rw [decode]
  rintro _ _ _ rfl
  exact absurd rfl h

theorem decode_escaped (b : UInt8) (cs : List Char) :
    decode ('%' :: hexByte b ++ cs) = b :: decode cs := by
  simp only [hexByte, cons_append, nil_append, decode, byteOf_hexDigit]

theorem decode_escape (c : Char) (cs : List Char) :
    decode (escape c ++ cs) = String.utf8EncodeChar c ++ decode cs := by
  unfold escape
  induction String.utf8EncodeChar c with
  | nil => rfl
  | cons b bs ih =>
    rw [flatMap_cons, append_assoc, decode_escaped, ih, cons_append]

theorem decode_encode {esc : Char → Bool} (h : esc '%' = true) (cs : List Char) :
    decode (encode esc cs) = cs.flatMap String.utf8EncodeChar := by
  induction cs with
  | nil => simp [encode, decode]
  | cons c cs ih =>
  rw [encode, flatMap_cons, flatMap_cons]
  change decode (_ ++ encode esc cs) = _
  split_ifs with hc
  · rw [decode_escape, ih]
  have hne : c ≠ '%' := by
    rintro rfl
    exact hc h
  rw [singleton_append, decode_cons hne, ih]

/-- The characters of an encoded text: those of the text that are not escaped, percent signs and
digits. -/
theorem mem_encode {esc : Char → Bool} {cs : List Char} {x : Char} (h : x ∈ encode esc cs) :
    (x ∈ cs ∧ esc x = false) ∨ x = '%' ∨ ∃ n < 16, x = hexDigit n := by
  obtain ⟨c, hc, hx⟩ := mem_flatMap.1 h
  split_ifs at hx with hesc
  · obtain ⟨b, -, hb⟩ := mem_flatMap.1 hx
    rcases mem_cons.1 hb with rfl | hb
    · exact .inr (.inl rfl)
    · exact .inr (.inr (mem_hexByte hb))
  · cases mem_singleton.1 hx
    exact .inl ⟨hc, eq_false_of_ne_true hesc⟩

end Percent
