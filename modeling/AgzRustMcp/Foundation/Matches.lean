import AgzRustMcp.Foundation.Utf8Text

/-!
# Matches that do not overlap

A text library counts the matches of a needle from the left and goes on behind each of them
(`matchCount`).  A needle that occurs once is counted once; for the converse no other occurrence may
overlap the one in question (`occursOnceAt_iff_of_matchCount`).
-/

namespace Utf8Text

open String (utf8Len)

/-- The matches of a needle, the first of them behind the given number of characters. -/
def countFrom (needle : Text) : ℕ → Text → ℕ
  | _, [] => 0
  | skip + 1, _ :: cs => countFrom needle skip cs
  | 0, c :: cs =>
    if needle <+: c :: cs then countFrom needle (needle.length - 1) cs + 1
    else countFrom needle 0 cs

/-- The number of matches apart; an empty needle is between all characters. -/
def matchCount (t needle : Text) : ℕ :=
  if needle = [] then t.length + 1 else countFrom needle 0 t

def replaceFirst (t needle new : Text) : Text :=
  match find? t needle with
  | none => t
  | some i => replaceRange t i (i + utf8Len needle) new

example : matchCount "aaaa".toList "aa".toList = 2 := by decide

section

variable {t needle new : Text}

lemma countFrom_append (needle skipped rest : Text) :
    countFrom needle skipped.length (skipped ++ rest) = countFrom needle 0 rest := by
  induction skipped with
  | nil => rfl
  | cons c skipped ih =>
    rw [List.length_cons, List.cons_append, countFrom]
    exact ih

lemma countFrom_of_find? (hne : needle ≠ []) {pre suf : Text} (ht : t = pre ++ needle ++ suf)
    (hfind : find? t needle = some (utf8Len pre)) : countFrom needle 0 t = countFrom needle 0 suf + 1 := by
  subst ht
  induction pre with
  | nil =>
    obtain ⟨c, cs, rfl⟩ := List.exists_cons_of_ne_nil hne
    have hlead : c :: cs <+: c :: (cs ++ suf) := ⟨suf, rfl⟩
    simp only [List.nil_append, List.cons_append, countFrom, if_pos hlead]
    rw [List.length_cons, Nat.add_sub_cancel, countFrom_append]
  | cons c pre ih =>
    have hpos := c.utf8Size_pos
    simp only [List.cons_append, find?] at hfind
    split_ifs at hfind with hlead
    · rw [Option.some.injEq, String.utf8Len_cons] at hfind
      omega
    · obtain ⟨i, hi, hsum⟩ := Option.map_eq_some_iff.mp hfind
      rw [String.utf8Len_cons] at hsum
      obtain rfl : i = utf8Len pre := by omega
      simp only [List.cons_append, countFrom, if_neg hlead]
      exact ih hi

lemma countFrom_eq_zero (h : find? t needle = none) : countFrom needle 0 t = 0 := by
  induction t with
  | nil => rfl
  | cons c cs ih =>
    unfold find? at h
    split_ifs at h with hlead
    rw [countFrom, if_neg hlead]
    exact ih (Option.map_eq_none_iff.mp h)

lemma exists_find?_of_matchCount (h : matchCount t needle ≠ 0) : ∃ i, find? t needle = some i := by
  unfold matchCount at h
  split_ifs at h with hempty
  · subst hempty
    exact ⟨0, find?_eq_some_iff.mpr ⟨⟨[], t, rfl, rfl⟩, fun _ _ => Nat.zero_le _⟩⟩
  · cases hfind : find? t needle with
    | none => exact absurd (countFrom_eq_zero hfind) h
    | some i => exact ⟨i, rfl⟩

lemma matchCount_eq_one_iff (hne : needle ≠ []) {pre suf : Text} (ht : t = pre ++ needle ++ suf)
    (hfind : find? t needle = some (utf8Len pre)) : matchCount t needle = 1 ↔ find? suf needle = none := by
  unfold matchCount
  rw [if_neg hne, countFrom_of_find? hne ht hfind]
  constructor
  · intro hcount
    cases hagain : find? suf needle with
    | none => rfl
    | some j =>
      obtain ⟨⟨pre', suf', hsuf, rfl⟩, -⟩ := find?_eq_some_iff.mp hagain
      have hmore := countFrom_of_find? hne hsuf hagain
      omega
  · intro hnone
    rw [countFrom_eq_zero hnone]

lemma replaceFirst_append {pre suf : Text} (hfind : find? (pre ++ needle ++ suf) needle = some (utf8Len pre)) :
    replaceFirst (pre ++ needle ++ suf) needle new = pre ++ new ++ suf := by
  unfold replaceFirst
  rw [hfind]
  exact replaceRange_append pre needle suf new

lemma OccursOnceAt.matchCount_eq_one (hne : needle ≠ []) {i : ℕ} (h : OccursOnceAt t needle i) :
    matchCount t needle = 1 := by
  have hfind := (occursOnceAt_iff.mp h).1
  obtain ⟨pre, suf, ht, rfl⟩ := (h i).mpr rfl
  rw [matchCount_eq_one_iff hne ht hfind, find?_eq_none_iff]
  rintro j ⟨pre', suf', hsuf, -⟩
  have hagain : OccursAt t needle (utf8Len (pre ++ needle ++ pre')) :=
    ⟨pre ++ needle ++ pre', suf', by rw [ht, hsuf]; simp, rfl⟩
  have heq := (h _).mp hagain
  have hpos : utf8Len needle ≠ 0 := fun hzero => hne (String.utf8Len_eq_zero.mp hzero)
  rw [String.utf8Len_append, String.utf8Len_append] at heq
  omega

lemma OccursAt.of_append_left {pre suf : Text} {i : ℕ} (h : OccursAt (pre ++ suf) needle i)
    (hle : utf8Len pre ≤ i) : ∃ j, OccursAt suf needle j := by
  obtain ⟨before, behind, heq, rfl⟩ := h
  rw [List.append_assoc] at heq
  obtain ⟨mid, rfl, hrest⟩ := exists_append_of_utf8Len_le heq hle
  exact ⟨utf8Len mid, mid, behind, by rw [hrest, List.append_assoc], rfl⟩

lemma lt_of_matchCount_eq_one (hne : needle ≠ []) (hcount : matchCount t needle = 1) {i j : ℕ}
    (hi : OccursAt t needle i) (hj : OccursAt t needle j) : j < i + utf8Len needle := by
  obtain ⟨first, hfirst⟩ := exists_find?_of_matchCount (hcount.trans_ne one_ne_zero)
  obtain ⟨⟨pre, suf, ht, rfl⟩, hmin⟩ := find?_eq_some_iff.mp hfirst
  have hnone := (matchCount_eq_one_iff hne ht hfirst).mp hcount
  by_contra hle
  have hbehind : utf8Len (pre ++ needle) ≤ j := by
    rw [String.utf8Len_append]
    have := hmin i hi
    omega
  rw [ht] at hj
  obtain ⟨k, hk⟩ := hj.of_append_left hbehind
  exact find?_eq_none_iff.mp hnone k hk

lemma occursOnceAt_iff_of_matchCount (hne : needle ≠ []) (hcount : matchCount t needle = 1) {i : ℕ}
    (hi : OccursAt t needle i) : OccursOnceAt t needle i ↔ ∀ j, OccursAt t needle j → j ≠ i →
      ¬ (j < i + utf8Len needle ∧ i < j + utf8Len needle) := by
  constructor
  · intro honce j hj hji
    exact absurd ((honce j).mp hj) hji
  · intro hapart j
    constructor
    · intro hj
      by_contra hji
      exact hapart j hj hji ⟨lt_of_matchCount_eq_one hne hcount hi hj, lt_of_matchCount_eq_one hne hcount hj hi⟩
    · rintro rfl
      exact hi

end

end Utf8Text
