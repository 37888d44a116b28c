import AgzRustMcp.Foundation.CharAt

/-!
# The end of a text within a number of bytes

A buffer that keeps the last bytes of a text drops what is in front, and the rest of a character
that it has cut.  What it keeps is the longest ending that fits (`isTail_tailOf`), however often it
is cut while the text grows (`tailOf_append`).
-/

namespace Utf8Text

open String (utf8Len)

/-- The longest ending of a text within so many bytes. -/
def tailOf (max : ℕ) : Text → Text
  | [] => []
  | c :: t => if utf8Len (c :: t) ≤ max then c :: t else tailOf max t

/-- A text is the longest ending of another within so many bytes. -/
structure IsTail (max : ℕ) (t tail : Text) : Prop where
  suffix : tail <:+ t
  le_max : utf8Len tail ≤ max
  longest : ∀ u, u <:+ t → utf8Len u ≤ max → utf8Len u ≤ utf8Len tail

/-- A byte within a character, behind its first one. -/
def isContinuation (b : UInt8) : Bool := b &&& 0xC0 == 0x80

variable {max : ℕ} {t u : Text}

lemma tailOf_of_le (h : utf8Len t ≤ max) : tailOf max t = t := by
  cases t with
  | nil => rfl
  | cons c t => rw [tailOf, if_pos h]

lemma utf8Len_tailOf_le (max : ℕ) (t : Text) : utf8Len (tailOf max t) ≤ max := by
  induction t with
  | nil => exact Nat.zero_le _
  | cons c t ih =>
    rw [tailOf]
    split_ifs with hlen
    · exact hlen
    · exact ih

theorem isTail_tailOf (max : ℕ) (t : Text) : IsTail max t (tailOf max t) := by
  induction t with
  | nil => exact ⟨List.suffix_rfl, Nat.zero_le _, fun u hu _ => String.utf8Len_le_of_suffix hu⟩
  | cons c t ih =>
    by_cases hlen : utf8Len (c :: t) ≤ max
    · rw [tailOf, if_pos hlen]
      exact ⟨List.suffix_rfl, hlen, fun u hu _ => String.utf8Len_le_of_suffix hu⟩
    · rw [tailOf, if_neg hlen]
      refine ⟨ih.suffix.trans (List.suffix_cons c t), ih.le_max, fun u hu hmax => ?_⟩
      rcases List.suffix_cons_iff.mp hu with rfl | hu
      · exact absurd hmax hlen
      · exact ih.longest u hu hmax

/-- What was cut off before more text came would have been cut off behind it. -/
theorem tailOf_append (max : ℕ) (t u : Text) : tailOf max (tailOf max t ++ u) = tailOf max (t ++ u) := by
  induction t with
  | nil => rfl
  | cons c t ih =>
    by_cases hlen : utf8Len (c :: t) ≤ max
    · rw [tailOf, if_pos hlen]
    · have happend : ¬ utf8Len (c :: (t ++ u)) ≤ max := by
        simp only [String.utf8Len_cons, String.utf8Len_append] at hlen ⊢
        omega
      rw [tailOf, if_neg hlen, List.cons_append, tailOf, if_neg happend]
      exact ih

lemma isContinuation_utf8EncodeChar (c : Char) :
    ∃ first more, String.utf8EncodeChar c = first :: more ∧ isContinuation first = false ∧
      ∀ b ∈ more, isContinuation b = true := by
  have hfirst : ∀ b : UInt8, b.toNat < 128 ∨ 192 ≤ b.toNat → isContinuation b = false :=
    forall_byte (by decide +kernel)
  have hmore : ∀ b : UInt8, 128 ≤ b.toNat ∧ b.toNat < 192 → isContinuation b = true :=
    forall_byte (by decide +kernel)
  unfold String.utf8EncodeChar
  dsimp only
  split_ifs with h1 h2 h3
  · refine ⟨_, [], rfl, hfirst _ ?_, fun b hb => absurd hb List.not_mem_nil⟩
    rw [UInt8.toNat_ofNat']
    omega
  all_goals
    refine ⟨_, _, rfl, hfirst _ ?_, fun b hb => hmore b ?_⟩
    · rw [UInt8.toNat_ofNat']
      omega
    · simp only [List.mem_cons, List.not_mem_nil, or_false] at hb
      rcases hb with rfl | rfl | rfl <;> rw [UInt8.toNat_ofNat'] <;> omega

/-- The last bytes, without the rest of a character in front. -/
theorem dropWhile_drop_utf8Bytes (h : max < utf8Len t) :
    ((utf8Bytes t).drop (utf8Len t - max)).dropWhile isContinuation = utf8Bytes (tailOf max t) := by
  induction t with
  | nil => simp at h
  | cons c t ih =>
    have hcons : utf8Bytes (c :: t) = String.utf8EncodeChar c ++ utf8Bytes t := rfl
    have hsize := String.length_utf8EncodeChar c
    have hlen : utf8Len (c :: t) = utf8Len t + c.utf8Size := String.utf8Len_cons c t
    rw [tailOf, if_neg (by omega), hcons]
    by_cases hrest : max < utf8Len t
    · -- The whole first character is among the bytes in front.
      rw [← ih hrest, List.drop_append, List.drop_eq_nil_of_le (by omega), hsize, List.nil_append]
      congr 2
      omega
    · obtain ⟨first, more, hbytes, -, hmore⟩ := isContinuation_utf8EncodeChar c
      have hdrop : utf8Len (c :: t) - max = utf8Len (c :: t) - max - 1 + 1 := by omega
      rw [tailOf_of_le (Nat.le_of_not_lt hrest), List.drop_append_of_le_length (by omega), hdrop, hbytes,
        List.drop_succ_cons, List.dropWhile_append_of_pos fun b hb => hmore b (List.mem_of_mem_drop hb)]
      -- What follows begins with the first byte of a character.
      cases t with
      | nil => rfl
      | cons d t =>
        obtain ⟨first, more, hd, hfirst, -⟩ := isContinuation_utf8EncodeChar d
        rw [show utf8Bytes (d :: t) = String.utf8EncodeChar d ++ utf8Bytes t from rfl, hd,
          List.cons_append, List.dropWhile_cons_of_neg (by rw [hfirst]; simp)]

end Utf8Text
