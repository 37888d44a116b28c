import AgzRustMcp.Foundation.Utf8Text

/-!
# Scanning texts

The functions by which line-based formats are read: prefixes and suffixes, the first and the last
occurrence of a separator, lines, and the numbers of 64 bits.  All are structurally recursive, so
that a concrete text can be scanned in the kernel.
-/

namespace TextScan

open Utf8Text

def stripPrefix (pre t : Text) : Option Text := if pre.isPrefixOf t then some (t.drop pre.length) else none

def stripSuffix (suf t : Text) : Option Text :=
  if suf.isSuffixOf t then some (t.take (t.length - suf.length)) else none

def splitOnce (needle : Text) : Text → Option (Text × Text)
  | [] => if needle = [] then some ([], []) else none
  | c :: t =>
    if needle.isPrefixOf (c :: t) then some ([], (c :: t).drop needle.length)
    else (splitOnce needle t).map fun parts => (c :: parts.1, parts.2)

def rsplitOnce (needle t : Text) : Option (Text × Text) :=
  (splitOnce needle.reverse t.reverse).map fun parts => (parts.2.reverse, parts.1.reverse)

/-- `str::lines`, up to carriage returns. -/
def lines : Text → List Text
  | [] => []
  | c :: t =>
    if c = '\n' then [] :: lines t
    else match lines t with
      | [] => [[c]]
      | line :: rest => (c :: line) :: rest

/-- The text without its last characters that meet a condition. -/
def dropEndWhile (p : Char → Bool) (t : Text) : Text := (t.reverse.dropWhile p).reverse

/-- `str::parse::<u64>`. -/
def parseU64 (t : Text) : Option ℕ :=
  let digits := (stripPrefix ['+'] t).getD t
  if digits = [] ∨ ¬ digits.all (·.isDigit) then none
  else if Nat.ofDigitChars 10 digits 0 < 2 ^ 64 then some (Nat.ofDigitChars 10 digits 0)
  else none

lemma append_of_splitOnce {needle t a b : Text} (h : splitOnce needle t = some (a, b)) : t = a ++ needle ++ b := by
  induction t generalizing a b with
  | nil =>
    unfold splitOnce at h
    split_ifs at h with hneedle
    obtain ⟨rfl, rfl⟩ := Prod.mk.inj (Option.some.inj h)
    rw [hneedle]
    rfl
  | cons c t ih =>
    unfold splitOnce at h
    split_ifs at h with hprefix
    · obtain ⟨rfl, rfl⟩ := Prod.mk.inj (Option.some.inj h)
      rw [List.nil_append]
      exact (List.prefix_iff_eq_append.mp (List.isPrefixOf_iff_prefix.mp hprefix)).symm
    · obtain ⟨⟨front, back⟩, hrest, hparts⟩ := Option.map_eq_some_iff.mp h
      obtain ⟨rfl, rfl⟩ := Prod.mk.inj hparts
      rw [ih hrest]
      rfl

lemma lines_append {line : Text} (h : '\n' ∉ line) (t : Text) : lines (line ++ '\n' :: t) = line :: lines t := by
  induction line with
  | nil => rw [List.nil_append, lines, if_pos rfl]
  | cons c line ih =>
    rw [List.cons_append, lines, if_neg (List.ne_of_not_mem_cons h).symm, ih (List.not_mem_of_not_mem_cons h)]

variable {needle s t : Text}

lemma splitOnce_of_first (hne : needle ≠ [])
    (h : ∀ front c rest, s = front ++ c :: rest → ¬ needle <+: c :: (rest ++ needle ++ t)) :
    splitOnce needle (s ++ needle ++ t) = some (s, t) := by
  induction s with
  | nil =>
    obtain ⟨c, rest, rfl⟩ := List.exists_cons_of_ne_nil hne
    rw [List.nil_append, List.cons_append, splitOnce, if_pos]
    · rw [← List.cons_append, List.drop_left']
      rfl
    · rw [List.isPrefixOf_iff_prefix, ← List.cons_append]
      exact List.prefix_append _ _
  | cons c s ih =>
    have hrest := ih fun front d rest hs => h (c :: front) d rest (by rw [hs]; rfl)
    rw [List.cons_append, List.cons_append, splitOnce, if_neg]
    · rw [hrest]
      rfl
    · rw [List.isPrefixOf_iff_prefix]
      exact h [] c s rfl

lemma splitOnce_of_head_notMem {c : Char} {needle : Text} (h : c ∉ s) :
    splitOnce (c :: needle) (s ++ c :: needle ++ t) = some (s, t) := by
  refine splitOnce_of_first (List.cons_ne_nil c needle) fun front d rest hs hprefix => ?_
  have hd := (List.cons_prefix_cons.mp hprefix).1
  exact h (hs ▸ List.mem_append_right _ (hd ▸ List.mem_cons_self))

lemma splitOnce_append {x y : Text} (h : splitOnce needle s = some (x, y)) (t : Text) :
    splitOnce needle (s ++ t) = some (x, y ++ t) := by
  induction s generalizing x with
  | nil =>
    unfold splitOnce at h
    split_ifs at h with hneedle
    obtain ⟨rfl, rfl⟩ := Prod.mk.inj (Option.some.inj h)
    cases t with
    | nil => rw [List.nil_append, splitOnce, if_pos hneedle]
    | cons c t => rw [List.nil_append, splitOnce, if_pos (by rw [hneedle]; rfl), hneedle]; rfl
  | cons c s ih =>
    rw [splitOnce] at h
    split_ifs at h with hprefix
    · obtain ⟨rfl, rfl⟩ := Prod.mk.inj (Option.some.inj h)
      rw [List.isPrefixOf_iff_prefix] at hprefix
      rw [List.cons_append, splitOnce, if_pos]
      · rw [← List.cons_append, List.drop_append_of_le_length hprefix.length_le]
      · rw [List.isPrefixOf_iff_prefix, ← List.cons_append]
        exact hprefix.trans (List.prefix_append _ _)
    · obtain ⟨⟨front, back⟩, hrest, hparts⟩ := Option.map_eq_some_iff.mp h
      obtain ⟨rfl, rfl⟩ := Prod.mk.inj hparts
      rw [List.cons_append, splitOnce, if_neg, ih hrest]
      · rfl
      · -- A prefix that ended behind the text would leave no room for the needle in it.
        rw [List.isPrefixOf_iff_prefix] at hprefix ⊢
        intro hlong
        have hlen := congrArg List.length (append_of_splitOnce hrest)
        simp only [List.length_append] at hlen
        rw [← List.cons_append] at hlong
        exact hprefix (List.prefix_of_prefix_length_le hlong (List.prefix_append _ _)
          (by rw [List.length_cons]; omega))

lemma rsplitOnce_append {x y : Text} (h : rsplitOnce needle s = some (x, y)) (t : Text) :
    rsplitOnce needle (t ++ s) = some (t ++ x, y) := by
  unfold rsplitOnce at h ⊢
  obtain ⟨⟨front, back⟩, hsplit, hparts⟩ := Option.map_eq_some_iff.mp h
  obtain ⟨rfl, rfl⟩ := Prod.mk.inj hparts
  rw [List.reverse_append, splitOnce_append hsplit]
  simp

lemma not_prefix_of_splitOnce_eq_none (h : splitOnce needle s = none) {front rest : Text}
    (hs : s = front ++ rest) (hne : rest ≠ []) : ¬ needle <+: rest := by
  induction s generalizing front with
  | nil => exact absurd (List.append_eq_nil_iff.mp hs.symm).2 hne
  | cons c s ih =>
    rw [splitOnce] at h
    split_ifs at h with hprefix
    rw [Option.map_eq_none_iff] at h
    cases front with
    | nil =>
      rw [List.nil_append] at hs
      rw [List.isPrefixOf_iff_prefix] at hprefix
      rwa [← hs]
    | cons d front => exact ih h (List.cons.inj hs).2

lemma rsplitOnce_of_last {a b : Text} {c : Char} (hnone : rsplitOnce (needle ++ [c]) b = none)
    (hfront : c ∉ b.take needle.length) : rsplitOnce (needle ++ [c]) (a ++ (needle ++ [c]) ++ b) = some (a, b) := by
  unfold rsplitOnce at hnone ⊢
  rw [Option.map_eq_none_iff] at hnone
  have hreverse : (a ++ (needle ++ [c]) ++ b).reverse = b.reverse ++ (needle ++ [c]).reverse ++ a.reverse := by
    rw [List.reverse_append, List.reverse_append, List.append_assoc]
  rw [hreverse, splitOnce_of_first (by simp)]
  · simp
  intro front d rest hb hprefix
  by_cases hlen : (needle ++ [c]).reverse.length ≤ (d :: rest).length
  · have hinside : (needle ++ [c]).reverse <+: d :: rest := by
      refine List.prefix_of_prefix_length_le hprefix ?_ hlen
      rw [List.append_assoc, ← List.cons_append]
      exact List.prefix_append _ _
    exact not_prefix_of_splitOnce_eq_none hnone hb (List.cons_ne_nil d rest) hinside
  · -- The occurrence would begin among the first characters of the text.
    rw [List.reverse_append, List.reverse_singleton, List.singleton_append] at hprefix
    obtain rfl : c = d := (List.cons_prefix_cons.mp hprefix).1
    have hfirst : b = (c :: rest).reverse ++ front.reverse := by
      rw [← List.reverse_append, ← hb, List.reverse_reverse]
    have hshort : (c :: rest).reverse.length ≤ needle.length := by
      simp only [List.length_reverse, List.length_append, List.length_cons, List.length_nil] at hlen ⊢
      omega
    refine hfront ?_
    rw [hfirst, List.take_append, List.take_of_length_le hshort]
    exact List.mem_append_left _ (List.mem_reverse.mpr List.mem_cons_self)

example : rsplitOnce " ... ".toList "tests::a ... b ... ok".toList =
    some ("tests::a ... b".toList, "ok".toList) := by decide

end TextScan
