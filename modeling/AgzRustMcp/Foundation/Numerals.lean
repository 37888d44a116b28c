import Mathlib

/-!
# Numerals at the end of a text

Identifiers that are printed as fields with a separator between them can be read back from the end as
long as the last field is a numeral: `eq_of_append_toDigits_eq` says that two such texts have the same
numeral and the same text before it.
-/

namespace Numerals

lemma digitChar_inj {a b : ℕ} (ha : a < 16) (hb : b < 16) (h : a.digitChar = b.digitChar) : a = b := by
  interval_cases a <;> interval_cases b <;> first | rfl | exact absurd h (by decide)

lemma toDigits_inj {b m n : ℕ} (hb : 1 < b) (hb' : b ≤ 16) (h : Nat.toDigits b m = Nat.toDigits b n) : m = n := by
  induction m using Nat.strong_induction_on generalizing n with
  | _ m ih =>
    have hdigit : ∀ k, k % b < 16 := fun k => lt_of_lt_of_le (Nat.mod_lt k (by omega)) hb'
    have hlast : ∀ k, b ≤ k → Nat.toDigits b k = Nat.toDigits b (k / b) ++ [(k % b).digitChar] :=
      fun k hk => Nat.toDigits_of_base_le hb hk
    rcases lt_or_ge m b with hm | hm
    · rcases lt_or_ge n b with hn | hn
      · rw [Nat.toDigits_of_lt_base hm, Nat.toDigits_of_lt_base hn] at h
        exact digitChar_inj (by omega) (by omega) (List.cons.inj h).1
      · rw [Nat.toDigits_of_lt_base hm, hlast n hn] at h
        have hlen := congrArg List.length h
        simp [Nat.toDigits_ne_nil] at hlen
    · rcases lt_or_ge n b with hn | hn
      · rw [hlast m hm, Nat.toDigits_of_lt_base hn] at h
        have hlen := congrArg List.length h
        simp [Nat.toDigits_ne_nil] at hlen
      · rw [hlast m hm, hlast n hn] at h
        obtain ⟨hrest, hchar⟩ := List.append_inj' h rfl
        have hdiv := ih (m / b) (Nat.div_lt_self (by omega) hb) hrest
        have hmod := digitChar_inj (hdigit m) (hdigit n) (List.cons.inj hchar).1
        rw [← Nat.div_add_mod m b, ← Nat.div_add_mod n b, hdiv, hmod]

lemma exists_of_mem_toDigits {b n : ℕ} {c : Char} (hb : 1 < b) (hb' : b ≤ 16)
    (h : c ∈ Nat.toDigits b n) : ∃ d < 16, c = d.digitChar := by
  induction n using Nat.strong_induction_on with
  | _ n ih =>
    rcases lt_or_ge n b with hn | hn
    · rw [Nat.toDigits_of_lt_base hn, List.mem_singleton] at h
      exact ⟨n, by omega, h⟩
    · rw [Nat.toDigits_of_base_le hb hn, List.mem_append, List.mem_singleton] at h
      rcases h with h | h
      · exact ih (n / b) (Nat.div_lt_self (by omega) hb) h
      · exact ⟨n % b, lt_of_lt_of_le (Nat.mod_lt n (by omega)) hb', h⟩

lemma append_cons_inj {α : Type*} {a : α} {x y s t : List α} (hx : a ∉ x) (hy : a ∉ y)
    (h : x ++ a :: s = y ++ a :: t) : x = y ∧ s = t := by
  rcases List.append_eq_append_iff.mp h with ⟨mid, hmid, hrest⟩ | ⟨mid, hmid, hrest⟩
  · cases mid with
    | nil => exact ⟨by simpa using hmid.symm, (List.cons.inj hrest).2⟩
    | cons c mid =>
      obtain rfl := (List.cons.inj hrest).1
      exact absurd (by simp [hmid]) hy
  · cases mid with
    | nil => exact ⟨by simpa using hmid, (List.cons.inj hrest).2.symm⟩
    | cons c mid =>
      obtain rfl := (List.cons.inj hrest).1
      exact absurd (by simp [hmid]) hx

lemma eq_of_append_toDigits_eq {b m n : ℕ} {s t : List Char} {sep : Char} (hb : 1 < b)
    (hb' : b ≤ 16) (hsep : ∀ d < 16, sep ≠ Nat.digitChar d)
    (h : s ++ sep :: Nat.toDigits b m = t ++ sep :: Nat.toDigits b n) : s = t ∧ m = n := by
  have hnot : ∀ k, sep ∉ (Nat.toDigits b k).reverse := by
    intro k hk
    obtain ⟨d, hd, heq⟩ := exists_of_mem_toDigits hb hb' (List.mem_reverse.mp hk)
    exact hsep d hd heq
  have hrev := congrArg List.reverse h
  simp only [List.reverse_append, List.reverse_cons, List.append_assoc, List.singleton_append] at hrev
  obtain ⟨hdigits, htexts⟩ := append_cons_inj (hnot m) (hnot n) hrev
  exact ⟨List.reverse_injective htexts, toDigits_inj hb hb' (List.reverse_injective hdigits)⟩

end Numerals
