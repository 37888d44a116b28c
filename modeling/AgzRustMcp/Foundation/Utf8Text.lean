import Mathlib

/-!
# UTF-8 text addressed by byte offsets

A text is the list of its Unicode scalar values, and offsets into it are byte offsets of its UTF-8
encoding.  `takeBytes`, `dropBytes`, `slice?` and `replaceRange` cut a text at offsets, `find?` and
`rfind?` return the first and the last offset of a needle.
-/

namespace Utf8Text

open String (utf8Len)

/-- A text, as the list of its Unicode scalar values. -/
abbrev Text := List Char

/-! ## Cutting a text at a byte offset -/

/-- The longest prefix of a text that fits in `n` bytes. -/
def takeBytes : Text → ℕ → Text
  | [], _ => []
  | c :: cs, n => if c.utf8Size ≤ n then c :: takeBytes cs (n - c.utf8Size) else []

/-- What remains of a text after the longest prefix that fits in `n` bytes. -/
def dropBytes : Text → ℕ → Text
  | [], _ => []
  | c :: cs, n => if c.utf8Size ≤ n then dropBytes cs (n - c.utf8Size) else c :: cs

/-- The offset `i` lies between two characters of the text, or at one of its ends. -/
def isBoundary (t : Text) (i : ℕ) : Bool := utf8Len (takeBytes t i) == i

/-- The part between two offsets; `none` unless they are boundaries. -/
def slice? (t : Text) (i j : ℕ) : Option Text :=
  if i ≤ j ∧ isBoundary t i = true ∧ isBoundary t j = true then
    some (takeBytes (dropBytes t i) (j - i))
  else none

/-- The text with the bytes between `i` and `j` replaced by `new`. -/
def replaceRange (t : Text) (i j : ℕ) (new : Text) : Text :=
  takeBytes t i ++ new ++ dropBytes t j

lemma takeBytes_append_dropBytes (t : Text) (n : ℕ) : takeBytes t n ++ dropBytes t n = t := by
  induction t generalizing n with
  | nil => rfl
  | cons c cs ih =>
    unfold takeBytes dropBytes
    split_ifs
    · simp [ih]
    · rfl

@[simp] lemma takeBytes_append_left (pre suf : Text) : takeBytes (pre ++ suf) (utf8Len pre) = pre := by
  induction pre with
  | nil =>
    cases suf with
    | nil => rfl
    | cons c cs =>
      have hc : ¬ c.utf8Size ≤ 0 := Nat.not_le.mpr c.utf8Size_pos
      simp [takeBytes, hc]
  | cons c cs ih => simp [takeBytes, ih]

@[simp] lemma dropBytes_append_left (pre suf : Text) : dropBytes (pre ++ suf) (utf8Len pre) = suf := by
  have h := takeBytes_append_dropBytes (pre ++ suf) (utf8Len pre)
  rw [takeBytes_append_left] at h
  exact List.append_cancel_left h

lemma append_inj_of_utf8Len {pre pre' suf suf' : Text} (h : pre ++ suf = pre' ++ suf')
    (hlen : utf8Len pre = utf8Len pre') : pre = pre' ∧ suf = suf' := by
  have hpre : pre = pre' := by
    rw [← takeBytes_append_left pre suf, h, hlen, takeBytes_append_left]
  subst hpre
  exact ⟨rfl, List.append_cancel_left h⟩

lemma exists_append_of_utf8Len_le {pre pre' suf suf' : Text} (h : pre ++ suf = pre' ++ suf')
    (hlen : utf8Len pre ≤ utf8Len pre') : ∃ mid, pre' = pre ++ mid ∧ suf = mid ++ suf' := by
  rcases List.append_eq_append_iff.mp h with ⟨mid, rfl, rfl⟩ | ⟨mid, rfl, rfl⟩
  · exact ⟨mid, rfl, rfl⟩
  · have hmid : mid = [] := by
      rw [String.utf8Len_append] at hlen
      exact String.utf8Len_eq_zero.mp (by omega)
    subst hmid
    exact ⟨[], by simp, by simp⟩

lemma isBoundary_iff {t : Text} {i : ℕ} : isBoundary t i = true ↔ ∃ pre suf, t = pre ++ suf ∧ utf8Len pre = i := by
  constructor
  · intro h
    exact ⟨takeBytes t i, dropBytes t i, (takeBytes_append_dropBytes t i).symm, by
      simpa [isBoundary] using h⟩
  · rintro ⟨pre, suf, rfl, rfl⟩
    simp [isBoundary]

lemma slice?_eq_some_iff {t mid : Text} {i j : ℕ} :
    slice? t i j = some mid ↔ ∃ pre suf, t = pre ++ mid ++ suf ∧ utf8Len pre = i ∧ utf8Len (pre ++ mid) = j := by
  constructor
  · intro h
    unfold slice? at h
    split_ifs at h with hc
    obtain ⟨hij, hi, hj⟩ := hc
    obtain ⟨pre, rest, rfl, rfl⟩ := isBoundary_iff.mp hi
    obtain ⟨pre', suf, ht, rfl⟩ := isBoundary_iff.mp hj
    obtain ⟨mid', rfl, rfl⟩ := exists_append_of_utf8Len_le ht hij
    have hmid : mid' = mid := by simpa using h
    subst hmid
    exact ⟨pre, suf, by simp, rfl, rfl⟩
  · rintro ⟨pre, suf, rfl, rfl, rfl⟩
    have hi : isBoundary (pre ++ mid ++ suf) (utf8Len pre) = true :=
      isBoundary_iff.mpr ⟨pre, mid ++ suf, by simp, rfl⟩
    have hj : isBoundary (pre ++ mid ++ suf) (utf8Len (pre ++ mid)) = true :=
      isBoundary_iff.mpr ⟨pre ++ mid, suf, rfl, rfl⟩
    have hcut : dropBytes (pre ++ mid ++ suf) (utf8Len pre) = mid ++ suf := by
      rw [List.append_assoc, dropBytes_append_left]
    unfold slice?
    rw [if_pos ⟨by simp, hi, hj⟩, hcut]
    simp

lemma replaceRange_append (pre mid suf new : Text) :
    replaceRange (pre ++ mid ++ suf) (utf8Len pre) (utf8Len pre + utf8Len mid) new = pre ++ new ++ suf := by
  have hdrop : dropBytes (pre ++ mid ++ suf) (utf8Len pre + utf8Len mid) = suf := by
    rw [← String.utf8Len_append, dropBytes_append_left]
  unfold replaceRange
  rw [hdrop, List.append_assoc pre, takeBytes_append_left]

/-! ## Searching a text -/

/-- The byte offset of the first occurrence of `needle`. -/
def find? (t needle : Text) : Option ℕ :=
  match t with
  | [] => if needle = [] then some 0 else none
  | c :: cs =>
    if needle <+: c :: cs then some 0 else (find? cs needle).map (· + c.utf8Size)

/-- The byte offset of the last occurrence of `needle`. -/
def rfind? (t needle : Text) : Option ℕ :=
  match t with
  | [] => if needle = [] then some 0 else none
  | c :: cs =>
    match rfind? cs needle with
    | some i => some (i + c.utf8Size)
    | none => if needle <+: c :: cs then some 0 else none

/-- `needle` stands in the text at byte offset `i`. -/
def OccursAt (t needle : Text) (i : ℕ) : Prop :=
  ∃ pre suf, t = pre ++ needle ++ suf ∧ utf8Len pre = i

/-- `needle` stands in the text at byte offset `i` and nowhere else. -/
def OccursOnceAt (t needle : Text) (i : ℕ) : Prop :=
  ∀ j, OccursAt t needle j ↔ j = i

lemma occursAt_nil_iff {needle : Text} {i : ℕ} : OccursAt [] needle i ↔ needle = [] ∧ i = 0 := by
  constructor
  · rintro ⟨pre, suf, h, rfl⟩
    have h' : pre = [] ∧ needle = [] ∧ suf = [] := by simpa using h.symm
    exact ⟨h'.2.1, by simp [h'.1]⟩
  · rintro ⟨rfl, rfl⟩
    exact ⟨[], [], rfl, rfl⟩

lemma occursAt_cons_iff {c : Char} {cs needle : Text} {i : ℕ} :
    OccursAt (c :: cs) needle i ↔ (needle <+: c :: cs ∧ i = 0) ∨ ∃ j, OccursAt cs needle j ∧ i = j + c.utf8Size := by
  constructor
  · rintro ⟨pre, suf, h, rfl⟩
    cases pre with
    | nil => exact Or.inl ⟨⟨suf, by simpa using h.symm⟩, rfl⟩
    | cons d pre =>
      obtain ⟨rfl, hcs⟩ := by simpa using h
      exact Or.inr ⟨utf8Len pre, ⟨pre, suf, by simpa using hcs, rfl⟩, by simp⟩
  · rintro (⟨⟨suf, hsuf⟩, rfl⟩ | ⟨j, ⟨pre, suf, rfl, rfl⟩, rfl⟩)
    · exact ⟨[], suf, by simpa using hsuf.symm, rfl⟩
    · exact ⟨c :: pre, suf, by simp, by simp⟩

lemma find?_eq_some_iff {t needle : Text} {i : ℕ} :
    find? t needle = some i ↔ OccursAt t needle i ∧ ∀ j, OccursAt t needle j → i ≤ j := by
  induction t generalizing i with
  | nil =>
    unfold find?
    split_ifs with h
    · simp [occursAt_nil_iff, h, eq_comm]
    · simp [occursAt_nil_iff, h]
  | cons c cs ih =>
    unfold find?
    split_ifs with h
    · constructor
      · intro hi
        obtain rfl : 0 = i := by simpa using hi
        exact ⟨occursAt_cons_iff.mpr (Or.inl ⟨h, rfl⟩), fun j _ => Nat.zero_le j⟩
      · rintro ⟨-, hmin⟩
        have h0 := hmin 0 (occursAt_cons_iff.mpr (Or.inl ⟨h, rfl⟩))
        simp [Nat.le_zero.mp h0]
    · simp only [Option.map_eq_some_iff, ih, occursAt_cons_iff, h, false_and, false_or]
      constructor
      · rintro ⟨j, ⟨hj, hmin⟩, rfl⟩
        refine ⟨⟨j, hj, rfl⟩, ?_⟩
        rintro _ ⟨k, hk, rfl⟩
        have := hmin k hk
        omega
      · rintro ⟨⟨j, hj, rfl⟩, hmin⟩
        refine ⟨j, ⟨hj, fun k hk => ?_⟩, rfl⟩
        have := hmin _ ⟨k, hk, rfl⟩
        omega

lemma find?_eq_none_iff {t needle : Text} : find? t needle = none ↔ ∀ i, ¬ OccursAt t needle i := by
  induction t with
  | nil =>
    unfold find?
    split_ifs with h <;> simp [occursAt_nil_iff, h]
  | cons c cs ih =>
    unfold find?
    split_ifs with h
    · simp only [false_iff, not_forall, not_not]
      exact ⟨0, occursAt_cons_iff.mpr (Or.inl ⟨h, rfl⟩)⟩
    · simp only [Option.map_eq_none_iff, ih, occursAt_cons_iff, h, false_and, false_or, not_exists, not_and]
      constructor
      · intro hno i j hj
        exact absurd hj (hno j)
      · intro hno j hj
        exact hno (j + c.utf8Size) j hj rfl

lemma rfind?_eq_none_iff {t needle : Text} : rfind? t needle = none ↔ ∀ i, ¬ OccursAt t needle i := by
  induction t with
  | nil =>
    unfold rfind?
    split_ifs with h <;> simp [occursAt_nil_iff, h]
  | cons c cs ih =>
    unfold rfind?
    split
    · next i hi =>
      have hsome : ¬ ∀ j, ¬ OccursAt cs needle j := by
        rw [← ih, hi]
        simp
      push Not at hsome
      obtain ⟨j, hj⟩ := hsome
      simp only [reduceCtorEq, false_iff, not_forall, not_not]
      exact ⟨_, occursAt_cons_iff.mpr (Or.inr ⟨j, hj, rfl⟩)⟩
    · next hnone =>
      have hno := ih.mp hnone
      split_ifs with h
      · simp only [false_iff, not_forall, not_not]
        exact ⟨0, occursAt_cons_iff.mpr (Or.inl ⟨h, rfl⟩)⟩
      · simp only [true_iff]
        intro i hi
        rcases occursAt_cons_iff.mp hi with ⟨h', -⟩ | ⟨j, hj, -⟩
        · exact h h'
        · exact hno j hj

lemma rfind?_eq_some_iff {t needle : Text} {i : ℕ} :
    rfind? t needle = some i ↔ OccursAt t needle i ∧ ∀ j, OccursAt t needle j → j ≤ i := by
  induction t generalizing i with
  | nil =>
    unfold rfind?
    split_ifs with h
    · simp [occursAt_nil_iff, h, eq_comm]
    · simp [occursAt_nil_iff, h]
  | cons c cs ih =>
    unfold rfind?
    split
    · next k hk =>
      obtain ⟨hocc, hmax⟩ := ih.mp hk
      constructor
      · intro hi
        obtain rfl : k + c.utf8Size = i := by simpa using hi
        refine ⟨occursAt_cons_iff.mpr (Or.inr ⟨k, hocc, rfl⟩), fun j hj => ?_⟩
        rcases occursAt_cons_iff.mp hj with ⟨-, rfl⟩ | ⟨m, hm, rfl⟩
        · exact Nat.zero_le _
        · have := hmax m hm
          omega
      · rintro ⟨hi, hle⟩
        have hki := hle _ (occursAt_cons_iff.mpr (Or.inr ⟨k, hocc, rfl⟩))
        rcases occursAt_cons_iff.mp hi with ⟨-, rfl⟩ | ⟨m, hm, rfl⟩
        · have := c.utf8Size_pos
          omega
        · have := hmax m hm
          exact congrArg some (by omega)
    · next hnone =>
      have hno := rfind?_eq_none_iff.mp hnone
      have htail : ∀ j, OccursAt (c :: cs) needle j ↔ needle <+: c :: cs ∧ j = 0 := by
        intro j
        rw [occursAt_cons_iff]
        refine or_iff_left ?_
        rintro ⟨m, hm, -⟩
        exact hno m hm
      split_ifs with h
      · constructor
        · intro hi
          obtain rfl : 0 = i := by simpa using hi
          exact ⟨(htail 0).mpr ⟨h, rfl⟩, fun j hj => ((htail j).mp hj).2.le⟩
        · rintro ⟨hi, -⟩
          simp [((htail i).mp hi).2]
      · simp [htail, h]

lemma occursOnceAt_iff {t needle : Text} {i : ℕ} :
    OccursOnceAt t needle i ↔ find? t needle = some i ∧ rfind? t needle = some i := by
  rw [find?_eq_some_iff, rfind?_eq_some_iff]
  constructor
  · intro h
    have hi : OccursAt t needle i := (h i).mpr rfl
    exact ⟨⟨hi, fun j hj => ((h j).mp hj).ge⟩, hi, fun j hj => ((h j).mp hj).le⟩
  · rintro ⟨⟨hi, hmin⟩, -, hmax⟩ j
    constructor
    · intro hj
      exact le_antisymm (hmax j hj) (hmin j hj)
    · rintro rfl
      exact hi

/-! ## Texts and byte arrays -/

/-- The text that a byte array encodes; `none` when it is not valid UTF-8. -/
def decodeUtf8? (bytes : ByteArray) : Option Text := bytes.utf8Decode?.map Array.toList

def encodeUtf8 (t : Text) : ByteArray := (String.ofList t).toByteArray

@[simp] lemma decodeUtf8?_encodeUtf8 (t : Text) : decodeUtf8? (encodeUtf8 t) = some t := by
  simp [decodeUtf8?, encodeUtf8, List.utf8Decode?_utf8Encode]

lemma encodeUtf8_of_decodeUtf8? {bytes : ByteArray} {t : Text} (h : decodeUtf8? bytes = some t) :
    encodeUtf8 t = bytes := by
  unfold decodeUtf8? at h
  obtain ⟨chars, hchars, rfl⟩ := Option.map_eq_some_iff.mp h
  have hsome : bytes.utf8Decode?.isSome = true := by simp [hchars]
  have hget : bytes.utf8Decode?.get hsome = chars := by simp [hchars]
  unfold encodeUtf8
  rw [← hget]
  exact ByteArray.utf8Encode_get_utf8Decode?

lemma encodeUtf8_injective : Function.Injective encodeUtf8 := by
  intro s t h
  have hdec : decodeUtf8? (encodeUtf8 s) = decodeUtf8? (encodeUtf8 t) := by rw [h]
  simpa using hdec

@[simp] lemma size_encodeUtf8 (t : Text) : (encodeUtf8 t).size = utf8Len t := by
  exact String.utf8ByteSize_ofList t

end Utf8Text
