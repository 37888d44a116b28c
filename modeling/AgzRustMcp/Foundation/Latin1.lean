import AgzRustMcp.Foundation.CharAt

/-!
# Bytes taken for characters

A reader that pushes every byte of a text as a character of its own (`byte as char`) sees `byteChars` of it.
That is the text itself exactly when the text is ASCII (`byteChars_eq_iff`).
-/

namespace Latin1

open Utf8Text
open String (utf8Len)

/-- The bytes of a character, each `as char`. -/
def charBytes (c : Char) : Text := (String.utf8EncodeChar c).map fun byte => Char.ofNat byte.toNat

/-- The bytes of a text, each `as char`. -/
def byteChars (t : Text) : Text := t.flatMap charBytes

/-- ASCII characters only. -/
def IsAscii (t : Text) : Prop := ∀ c ∈ t, c.toNat < 128

lemma byteChars_append (t u : Text) : byteChars (t ++ u) = byteChars t ++ byteChars u := List.flatMap_append

lemma charBytes_of_lt {c : Char} (h : c.toNat < 128) : charBytes c = [c] := by
  rw [charBytes, utf8EncodeChar_of_lt h, List.map_singleton, List.cons.injEq]
  refine ⟨?_, rfl⟩
  have hbyte : c.toUInt8.toNat = c.toNat := by
    rw [Char.toUInt8, UInt32.toNat_toUInt8]
    exact Nat.mod_eq_of_lt (h.trans (by decide))
  rw [hbyte, Char.ofNat_toNat]

lemma byteChars_of_isAscii {t : Text} (h : IsAscii t) : byteChars t = t := by
  induction t with
  | nil => rfl
  | cons c t ih =>
    rw [byteChars, List.flatMap_cons, charBytes_of_lt (h c List.mem_cons_self), ← byteChars,
      ih fun d hd => h d (List.mem_cons_of_mem _ hd)]
    rfl

lemma length_byteChars (t : Text) : (byteChars t).length = utf8Len t := by
  induction t with
  | nil => rfl
  | cons c t ih =>
    rw [byteChars, List.flatMap_cons, List.length_append, ← byteChars, ih, charBytes, List.length_map,
      String.length_utf8EncodeChar, String.utf8Len_cons, Nat.add_comm]

lemma length_le_utf8Len (t : Text) : t.length ≤ utf8Len t := by
  induction t with
  | nil => exact Nat.zero_le _
  | cons c t ih =>
    have hpos := c.utf8Size_pos
    rw [String.utf8Len_cons, List.length_cons]
    omega

lemma isAscii_of_utf8Len {t : Text} (h : utf8Len t = t.length) : IsAscii t := by
  induction t with
  | nil => exact fun _ hc => absurd hc List.not_mem_nil
  | cons c t ih =>
    have hpos := c.utf8Size_pos
    have hrest := length_le_utf8Len t
    rw [String.utf8Len_cons, List.length_cons] at h
    refine List.forall_mem_cons.mpr ⟨?_, ih (by omega)⟩
    have hsize : c.utf8Size = 1 := by omega
    rw [Char.utf8Size_eq_one_iff, UInt32.le_iff_toNat_le] at hsize
    exact Nat.lt_succ_of_le hsize

lemma byteChars_eq_iff {t : Text} : byteChars t = t ↔ IsAscii t := by
  refine ⟨fun h => isAscii_of_utf8Len ?_, byteChars_of_isAscii⟩
  rw [← length_byteChars, h]

lemma le_of_mem_charBytes {c d : Char} (hc : 128 ≤ c.toNat) (hd : d ∈ charBytes c) : 128 ≤ d.toNat := by
  obtain ⟨byte, hbyte, rfl⟩ := List.mem_map.mp hd
  have hlow := le_of_mem_utf8EncodeChar hc hbyte
  have hvalid : byte.toNat.isValidChar := Or.inl (byte.toNat_lt.trans (by decide))
  rw [Char.ofNat, dif_pos hvalid]
  exact hlow

end Latin1
