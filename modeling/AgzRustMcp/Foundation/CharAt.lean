import AgzRustMcp.Foundation.Utf8Text

/-!
# Characters at byte offsets

A scanner of bytes that compares them with ASCII characters alone sees the characters that start at
an offset, and nothing inside a longer one.  Behind a character there is a boundary, so such a
scanner cuts texts between characters.
-/

namespace Utf8Text

open String (utf8Len)

/-- The character that starts at a byte offset. -/
def charAt? : Text → ℕ → Option Char
  | [], _ => none
  | c :: _, 0 => some c
  | c :: t, i + 1 => if i + 1 < c.utf8Size then none else charAt? t (i + 1 - c.utf8Size)

def utf8Bytes (t : Text) : List UInt8 := t.flatMap String.utf8EncodeChar

lemma forall_byte {p : UInt8 → Prop} (h : ∀ n : Fin 256, p (UInt8.ofFin n)) (byte : UInt8) : p byte := by
  have hbyte := h byte.toFin
  rwa [UInt8.ofFin_toFin] at hbyte

lemma utf8Bytes_append (t u : Text) : utf8Bytes (t ++ u) = utf8Bytes t ++ utf8Bytes u :=
  List.flatMap_append

lemma length_utf8Bytes (t : Text) : (utf8Bytes t).length = utf8Len t := by
  induction t with
  | nil => rfl
  | cons c t ih =>
    have hcons : utf8Bytes (c :: t) = String.utf8EncodeChar c ++ utf8Bytes t := rfl
    rw [hcons, List.length_append, String.length_utf8EncodeChar, ih, String.utf8Len_cons, Nat.add_comm]

variable {t : Text} {i : ℕ} {c : Char}

lemma charAt?_append (pre : Text) (c : Char) (suf : Text) : charAt? (pre ++ c :: suf) (utf8Len pre) = some c := by
  induction pre with
  | nil => rfl
  | cons d pre ih =>
    obtain ⟨size, hsize⟩ : ∃ size, utf8Len (d :: pre) = size + 1 := by
      refine ⟨utf8Len (d :: pre) - 1, ?_⟩
      have hpos := d.utf8Size_pos
      rw [String.utf8Len_cons]
      omega
    have hlen : utf8Len (d :: pre) = utf8Len pre + d.utf8Size := String.utf8Len_cons d pre
    have hrest : size + 1 - d.utf8Size = utf8Len pre := by omega
    rw [List.cons_append, hsize, charAt?, if_neg (by omega), hrest]
    exact ih

lemma charAt?_eq_some_iff : charAt? t i = some c ↔ ∃ pre suf, t = pre ++ c :: suf ∧ utf8Len pre = i := by
  constructor
  · intro h
    induction t generalizing i with
    | nil => simp [charAt?] at h
    | cons d t ih =>
      cases i with
      | zero =>
        obtain rfl : d = c := by simpa [charAt?] using h
        exact ⟨[], t, rfl, rfl⟩
      | succ i =>
        unfold charAt? at h
        split at h
        · simp at h
        next hsize =>
        obtain ⟨pre, suf, rfl, hlen⟩ := ih h
        refine ⟨d :: pre, suf, rfl, ?_⟩
        rw [String.utf8Len_cons, hlen]
        omega
  · rintro ⟨pre, suf, rfl, rfl⟩
    exact charAt?_append pre c suf

lemma isBoundary_of_charAt? (h : charAt? t i = some c) : isBoundary t i = true := by
  obtain ⟨pre, suf, rfl, rfl⟩ := charAt?_eq_some_iff.mp h
  exact isBoundary_iff.mpr ⟨pre, c :: suf, rfl, rfl⟩

lemma isBoundary_add_of_charAt? (h : charAt? t i = some c) : isBoundary t (i + c.utf8Size) = true := by
  obtain ⟨pre, suf, rfl, rfl⟩ := charAt?_eq_some_iff.mp h
  refine isBoundary_iff.mpr ⟨pre ++ [c], suf, by simp, ?_⟩
  simp [String.utf8Len_append]

lemma utf8Size_eq_one_of_lt (h : c.toNat < 128) : c.utf8Size = 1 := by
  rw [Char.utf8Size_eq_one_iff, UInt32.le_iff_toNat_le]
  exact Nat.le_of_lt_succ h

lemma le_of_mem_utf8EncodeChar (h : 128 ≤ c.toNat) {b : UInt8} (hb : b ∈ String.utf8EncodeChar c) :
    128 ≤ b.toNat := by
  have hval : ¬ c.val.toNat ≤ 127 := by
    rw [show c.val.toNat = c.toNat from rfl]
    omega
  unfold String.utf8EncodeChar at hb
  dsimp only at hb
  rw [if_neg hval] at hb
  split_ifs at hb <;> simp only [List.mem_cons, List.not_mem_nil, or_false] at hb
  · rcases hb with rfl | rfl <;> rw [UInt8.toNat_ofNat'] <;> omega
  · rcases hb with rfl | rfl | rfl <;> rw [UInt8.toNat_ofNat'] <;> omega
  · rcases hb with rfl | rfl | rfl | rfl <;> rw [UInt8.toNat_ofNat'] <;> omega

lemma utf8EncodeChar_of_lt (h : c.toNat < 128) : String.utf8EncodeChar c = [c.toUInt8] :=
  String.utf8EncodeChar_eq_singleton (utf8Size_eq_one_of_lt h)

end Utf8Text
