import AgzRustMcp.Foundation.CharAt

/-!
# Reading bytes as UTF-8, whole or piece by piece

`scan` finds at the front of some bytes a character, bytes that start none, or a beginning that the
input breaks off.  More input changes the last of these answers only (`scan_append`), so a reader
that keeps a broken-off beginning may be given its input in any pieces (`readable_append`).
-/

namespace Utf8Text

/-- The character that stands for bytes that are no UTF-8. -/
def replacement : Char := '\uFFFD'

/-- The front of some bytes: a character, none, or the beginning of one. -/
inductive Front
  | char (c : Char) (extra : ℕ)
  | invalid (extra : ℕ)
  | incomplete
  deriving Repr, DecidableEq

/-- The ranges behind a first byte; none where no character begins. -/
def trailing (first : ℕ) : Option (List (ℕ × ℕ)) :=
  if first ≤ 0x7F then some []
  else if 0xC2 ≤ first ∧ first ≤ 0xDF then some [(0x80, 0xBF)]
  else if first = 0xE0 then some [(0xA0, 0xBF), (0x80, 0xBF)]
  else if 0xE1 ≤ first ∧ first ≤ 0xEC then some [(0x80, 0xBF), (0x80, 0xBF)]
  else if first = 0xED then some [(0x80, 0x9F), (0x80, 0xBF)]
  else if 0xEE ≤ first ∧ first ≤ 0xEF then some [(0x80, 0xBF), (0x80, 0xBF)]
  else if first = 0xF0 then some [(0x90, 0xBF), (0x80, 0xBF), (0x80, 0xBF)]
  else if 0xF1 ≤ first ∧ first ≤ 0xF3 then some [(0x80, 0xBF), (0x80, 0xBF), (0x80, 0xBF)]
  else if first = 0xF4 then some [(0x80, 0x8F), (0x80, 0xBF), (0x80, 0xBF)]
  else none

/-- How far bytes stay within their ranges. -/
inductive Follow
  | all
  | stopped (seen : ℕ)
  | short
  deriving Repr, DecidableEq

/-- Compare bytes with their ranges. -/
def follow (seen : ℕ) : List (ℕ × ℕ) → List UInt8 → Follow
  | [], _ => .all
  | _ :: _, [] => .short
  | range :: ranges, b :: bytes =>
    if range.1 ≤ b.toNat ∧ b.toNat ≤ range.2 then follow (seen + 1) ranges bytes else .stopped seen

/-- The character of a first byte and the bytes that follow it. -/
def assemble (first : UInt8) (more : List UInt8) : Char :=
  let bits := match more.length with
    | 0 => first.toNat
    | 1 => first.toNat % 32
    | 2 => first.toNat % 16
    | _ => first.toNat % 8
  Char.ofNat (more.foldl (fun value b => value * 64 + b.toNat % 64) bits)

/-- What stands at the front of the bytes `first :: rest`. -/
def scan (first : UInt8) (rest : List UInt8) : Front :=
  match trailing first.toNat with
  | none => .invalid 0
  | some ranges =>
    match follow 0 ranges rest with
    | .all => .char (assemble first (rest.take ranges.length)) ranges.length
    | .stopped seen => .invalid seen
    | .short => .incomplete

/-- Where the valid part ends, and how many bytes are wrong. -/
structure Utf8Error where
  validUpTo : ℕ
  errorLen : Option ℕ
  errorLen_pos : ∀ length ∈ errorLen, 0 < length

/-- An error behind `n` further valid bytes. -/
def Utf8Error.shift (e : Utf8Error) (n : ℕ) : Utf8Error := { e with validUpTo := n + e.validUpTo }

/-- The text that some bytes encode. -/
def fromUtf8 : List UInt8 → Except Utf8Error Text
  | [] => .ok []
  | first :: rest =>
    match scan first rest with
    | .char c extra =>
      match fromUtf8 (rest.drop extra) with
      | .ok t => .ok (c :: t)
      | .error e => .error (e.shift (extra + 1))
    | .invalid extra => .error ⟨0, some (extra + 1), by simp⟩
    | .incomplete => .error ⟨0, none, by simp⟩
termination_by bytes => bytes.length
decreasing_by simp

/-- The text of any bytes, with a replacement character for each maximal wrong piece. -/
def fromUtf8Lossy : List UInt8 → Text
  | [] => []
  | first :: rest =>
    match scan first rest with
    | .char c extra => c :: fromUtf8Lossy (rest.drop extra)
    | .invalid extra => replacement :: fromUtf8Lossy (rest.drop extra)
    | .incomplete => [replacement]
termination_by bytes => bytes.length
decreasing_by all_goals simp

/-- The text that can be read so far, and the bytes that cannot. -/
def readable : List UInt8 → Text × List UInt8
  | [] => ([], [])
  | first :: rest =>
    match scan first rest with
    | .char c extra =>
      let (t, pending) := readable (rest.drop extra)
      (c :: t, pending)
    | .invalid extra =>
      let (t, pending) := readable (rest.drop extra)
      (replacement :: t, pending)
    | .incomplete => ([], first :: rest)
termination_by bytes => bytes.length
decreasing_by all_goals simp

/-! ## More input -/

section Append

variable {first : UInt8} {rest more bytes : List UInt8} {ranges : List (ℕ × ℕ)} {seen : ℕ}

lemma follow_append (h : follow seen ranges bytes ≠ .short) :
    follow seen ranges (bytes ++ more) = follow seen ranges bytes := by
  induction ranges generalizing seen bytes with
  | nil => rfl
  | cons range ranges ih =>
    cases bytes with
    | nil => exact absurd rfl h
    | cons b bytes =>
      simp only [List.cons_append, follow] at h ⊢
      split_ifs with hb
      · rw [if_pos hb] at h
        exact ih h
      · rfl

lemma length_le_of_follow_all (h : follow seen ranges bytes = .all) : ranges.length ≤ bytes.length := by
  induction ranges generalizing seen bytes with
  | nil => exact Nat.zero_le _
  | cons range ranges ih =>
    cases bytes with
    | nil => simp [follow] at h
    | cons b bytes =>
      simp only [follow] at h
      split_ifs at h
      exact Nat.succ_le_succ (ih h)

lemma lt_of_follow_stopped {n : ℕ} (h : follow seen ranges bytes = .stopped n) : n < seen + bytes.length := by
  induction ranges generalizing seen bytes with
  | nil => simp [follow] at h
  | cons range ranges ih =>
    cases bytes with
    | nil => simp [follow] at h
    | cons b bytes =>
      simp only [follow] at h
      split_ifs at h
      · have := ih h
        simp only [List.length_cons]
        omega
      · obtain rfl : seen = n := by simpa using h
        simp

lemma scan_append (h : scan first rest ≠ .incomplete) : scan first (rest ++ more) = scan first rest := by
  unfold scan at h ⊢
  cases hranges : trailing first.toNat with
  | none => rfl
  | some ranges =>
    simp only [hranges] at h ⊢
    have hshort : follow 0 ranges rest ≠ .short := by
      intro hshort
      rw [hshort] at h
      exact h rfl
    rw [follow_append hshort]
    cases hfollow : follow 0 ranges rest with
    | all => simp [List.take_append_of_le_length (length_le_of_follow_all hfollow)]
    | stopped n => rfl
    | short => exact absurd hfollow hshort

lemma extra_le_of_scan_char {c : Char} {extra : ℕ} (h : scan first rest = .char c extra) : extra ≤ rest.length := by
  unfold scan at h
  cases hranges : trailing first.toNat with
  | none => simp [hranges] at h
  | some ranges =>
    simp only [hranges] at h
    cases hfollow : follow 0 ranges rest with
    | all =>
      obtain ⟨-, rfl⟩ : _ ∧ ranges.length = extra := by simpa [hfollow] using h
      exact length_le_of_follow_all hfollow
    | stopped n => simp [hfollow] at h
    | short => simp [hfollow] at h

lemma extra_le_of_scan_invalid {extra : ℕ} (h : scan first rest = .invalid extra) : extra ≤ rest.length := by
  unfold scan at h
  cases hranges : trailing first.toNat with
  | none =>
    obtain rfl : 0 = extra := by simpa [hranges] using h
    exact Nat.zero_le _
  | some ranges =>
    simp only [hranges] at h
    cases hfollow : follow 0 ranges rest with
    | all => simp [hfollow] at h
    | stopped n =>
      obtain rfl : n = extra := by simpa [hfollow] using h
      have := lt_of_follow_stopped hfollow
      omega
    | short => simp [hfollow] at h

/-- A reader may be given its input in pieces, if it keeps what it could not read yet. -/
theorem readable_append (bytes more : List UInt8) :
    readable (bytes ++ more) = ((readable bytes).1 ++ (readable ((readable bytes).2 ++ more)).1,
        (readable ((readable bytes).2 ++ more)).2) := by
  induction bytes using readable.induct with
  | case1 => simp [readable]
  | case2 first rest c extra hscan t pending hread ih =>
    have happend : scan first (rest ++ more) = .char c extra := by
      rw [scan_append (by rw [hscan]; simp), hscan]
    rw [List.cons_append, readable, happend, readable, hscan]
    simp only
    rw [List.drop_append_of_le_length (extra_le_of_scan_char hscan), ih]
    simp
  | case3 first rest extra hscan t pending hread ih =>
    have happend : scan first (rest ++ more) = .invalid extra := by
      rw [scan_append (by rw [hscan]; simp), hscan]
    rw [List.cons_append, readable, happend, readable, hscan]
    simp only
    rw [List.drop_append_of_le_length (extra_le_of_scan_invalid hscan), ih]
    simp
  | case4 first rest hscan =>
    have hread : readable (first :: rest) = ([], first :: rest) := by
      rw [readable, hscan]
    rw [hread]
    simp

lemma fromUtf8Lossy_eq_readable (bytes : List UInt8) :
    fromUtf8Lossy bytes = (readable bytes).1 ++ fromUtf8Lossy (readable bytes).2 := by
  induction bytes using readable.induct with
  | case1 => simp [readable, fromUtf8Lossy]
  | case2 first rest c extra hscan t pending hread ih =>
    rw [fromUtf8Lossy, hscan, readable, hscan]
    simpa using ih
  | case3 first rest extra hscan t pending hread ih =>
    rw [fromUtf8Lossy, hscan, readable, hscan]
    simpa using ih
  | case4 first rest hscan =>
    have hread : readable (first :: rest) = ([], first :: rest) := by
      rw [readable, hscan]
    rw [hread]
    simp

end Append

section Errors

variable {first : UInt8} {rest bytes : List UInt8} {t : Text}

lemma follow_take {ranges : List (ℕ × ℕ)} {seen : ℕ} (h : follow seen ranges bytes = .all) (n : ℕ) :
    follow seen ranges (bytes.take (ranges.length + n)) = .all := by
  induction ranges generalizing seen bytes with
  | nil => rfl
  | cons range ranges ih =>
    cases bytes with
    | nil => simp [follow] at h
    | cons b bytes =>
      have hlen : (range :: ranges).length + n = ranges.length + n + 1 := by
        simp only [List.length_cons]
        omega
      simp only [follow] at h
      split_ifs at h with hb
      rw [hlen, List.take_succ_cons, follow, if_pos hb]
      exact ih h

lemma scan_take {c : Char} {extra : ℕ} (h : scan first rest = .char c extra) (n : ℕ) :
    scan first (rest.take (extra + n)) = .char c extra := by
  unfold scan at h ⊢
  cases hranges : trailing first.toNat with
  | none => simp [hranges] at h
  | some ranges =>
    simp only [hranges] at h ⊢
    cases hfollow : follow 0 ranges rest with
    | all =>
      obtain ⟨rfl, rfl⟩ : assemble first (rest.take ranges.length) = c ∧ ranges.length = extra := by
        simpa [hfollow] using h
      rw [follow_take hfollow n]
      simp only
      rw [List.take_take, Nat.min_eq_left (Nat.le_add_right _ _)]
    | stopped n => simp [hfollow] at h
    | short => simp [hfollow] at h

lemma readable_of_fromUtf8 (h : fromUtf8 bytes = .ok t) : readable bytes = (t, []) := by
  induction bytes using fromUtf8.induct generalizing t with
  | case1 =>
    obtain rfl : [] = t := by simpa [fromUtf8] using h
    simp [readable]
  | case2 first rest c extra hscan u hrest ih =>
    rw [fromUtf8, hscan] at h
    simp only [hrest, Except.ok.injEq] at h
    rw [readable, hscan, ← h]
    simp only
    rw [ih hrest]
  | case3 first rest c extra hscan e hrest ih =>
    rw [fromUtf8, hscan] at h
    simp [hrest] at h
  | case4 first rest extra hscan =>
    rw [fromUtf8, hscan] at h
    simp at h
  | case5 first rest hscan =>
    rw [fromUtf8, hscan] at h
    simp at h

lemma spec_of_fromUtf8_error {e : Utf8Error} (h : fromUtf8 bytes = .error e) :
    (∃ t, fromUtf8 (bytes.take e.validUpTo) = .ok t) ∧ ∃ first rest, bytes.drop e.validUpTo = first :: rest ∧
        (e.errorLen = none ∧ scan first rest = .incomplete ∨
          ∃ extra, e.errorLen = some (extra + 1) ∧ scan first rest = .invalid extra) := by
  induction bytes using fromUtf8.induct generalizing e with
  | case1 => simp [fromUtf8] at h
  | case2 first rest c extra hscan u hrest ih =>
    rw [fromUtf8, hscan] at h
    simp [hrest] at h
  | case3 first rest c extra hscan inner hrest ih =>
    rw [fromUtf8, hscan] at h
    simp only [hrest, Except.error.injEq] at h
    obtain ⟨⟨t, ht⟩, first', rest', hdrop, herror⟩ := ih hrest
    have hup : e.validUpTo = extra + inner.validUpTo + 1 := by
      rw [← h, Utf8Error.shift]
      simp only
      omega
    have hlen : e.errorLen = inner.errorLen := by rw [← h, Utf8Error.shift]
    refine ⟨⟨c :: t, ?_⟩, first', rest', ?_, by rw [hlen]; exact herror⟩
    · rw [hup, List.take_succ_cons, fromUtf8, scan_take hscan]
      simp only
      rw [List.drop_take, Nat.add_sub_cancel_left, ht]
    · rw [hup, List.drop_succ_cons, ← List.drop_drop, hdrop]
  | case4 first rest extra hscan =>
    rw [fromUtf8, hscan] at h
    obtain rfl := Except.error.inj h
    exact ⟨⟨[], by simp [fromUtf8]⟩, first, rest, rfl, Or.inr ⟨extra, rfl, hscan⟩⟩
  | case5 first rest hscan =>
    rw [fromUtf8, hscan] at h
    obtain rfl := Except.error.inj h
    exact ⟨⟨[], by simp [fromUtf8]⟩, first, rest, rfl, Or.inl ⟨rfl, hscan⟩⟩

end Errors

section Encoded

variable {first : UInt8} {rest more bytes : List UInt8} {c : Char} {t : Text} {b : ℕ}

lemma scan_of_follow {ranges : List (ℕ × ℕ)} (hranges : trailing first.toNat = some ranges)
    (hlen : ranges.length = more.length) (hfollow : follow 0 ranges more = .all)
    (hc : assemble first more = c) : scan first (more ++ rest) = .char c more.length := by
  have happend : follow 0 ranges (more ++ rest) = .all := by
    rw [follow_append (by rw [hfollow]; simp), hfollow]
  unfold scan
  rw [hranges]
  simp only
  rw [happend]
  simp only
  rw [hlen, List.take_left, hc]

lemma trailing_three (hlow : 0xE0 ≤ b) (hhigh : b ≤ 0xEF) :
    ∃ low high, trailing b = some [(low, high), (0x80, 0xBF)] ∧
      (low = 0x80 ∨ b = 0xE0 ∧ low = 0xA0) ∧ (high = 0xBF ∨ b = 0xED ∧ high = 0x9F) := by
  unfold trailing
  split_ifs <;> simp <;> omega

lemma trailing_four (hlow : 0xF0 ≤ b) (hhigh : b ≤ 0xF4) :
    ∃ low high, trailing b = some [(low, high), (0x80, 0xBF), (0x80, 0xBF)] ∧
      (low = 0x80 ∨ b = 0xF0 ∧ low = 0x90) ∧ (high = 0xBF ∨ b = 0xF4 ∧ high = 0x8F) := by
  unfold trailing
  split_ifs <;> simp <;> omega

lemma scan_utf8EncodeChar (c : Char) : ∃ first more, String.utf8EncodeChar c = first :: more ∧
      ∀ rest, scan first (more ++ rest) = .char c more.length := by
  have hback : Char.ofNat c.toNat = c := Char.ofNat_toNat c
  have hrange : c.toNat < 0xD800 ∨ 0xDFFF < c.toNat ∧ c.toNat < 0x110000 := c.valid
  unfold String.utf8EncodeChar
  dsimp only
  rw [show c.val.toNat = c.toNat from rfl]
  generalize c.toNat = n at hback hrange
  split_ifs with h1 h2 h3
  · refine ⟨_, [], rfl, fun rest => ?_⟩
    have hbyte : (UInt8.ofNat n).toNat = n := by
      rw [UInt8.toNat_ofNat']
      omega
    have htrailing : trailing (UInt8.ofNat n).toNat = some [] := by
      rw [hbyte, trailing, if_pos h1]
    refine scan_of_follow htrailing rfl rfl ?_
    simpa [assemble, hbyte] using hback
  · refine ⟨_, [_], rfl, fun rest => ?_⟩
    have hfirst : (UInt8.ofNat (n / 64 % 32 + 192)).toNat = n / 64 % 32 + 192 := by
      rw [UInt8.toNat_ofNat']
      omega
    have hsecond : (UInt8.ofNat (n % 64 + 128)).toNat = n % 64 + 128 := by
      rw [UInt8.toNat_ofNat']
      omega
    have htrailing : trailing (UInt8.ofNat (n / 64 % 32 + 192)).toNat = some [(0x80, 0xBF)] := by
      rw [hfirst, trailing, if_neg (by omega), if_pos (by omega)]
    refine scan_of_follow htrailing rfl ?_ ?_
    · rw [follow, hsecond, if_pos (by omega), follow]
    · simp only [assemble, List.length_singleton, List.foldl_cons, List.foldl_nil, hfirst, hsecond]
      rw [← hback]
      congr 1
      omega
  · refine ⟨_, [_, _], rfl, fun rest => ?_⟩
    have hfirst : (UInt8.ofNat (n / 4096 % 16 + 224)).toNat = n / 4096 % 16 + 224 := by
      rw [UInt8.toNat_ofNat']
      omega
    have hsecond : (UInt8.ofNat (n / 64 % 64 + 128)).toNat = n / 64 % 64 + 128 := by
      rw [UInt8.toNat_ofNat']
      omega
    have hthird : (UInt8.ofNat (n % 64 + 128)).toNat = n % 64 + 128 := by
      rw [UInt8.toNat_ofNat']
      omega
    have hthree : n / 4096 % 16 + 224 ≤ 0xEF := by omega
    obtain ⟨low, high, htrailing, hlow, hhigh⟩ := trailing_three (by omega) hthree
    refine scan_of_follow (by rw [hfirst]; exact htrailing) rfl ?_ ?_
    · rw [follow, hsecond, if_pos (by omega), follow, hthird, if_pos (by omega), follow]
    · simp only [assemble, List.length_cons, List.length_nil, List.foldl_cons, List.foldl_nil, hfirst,
        hsecond, hthird]
      rw [← hback]
      congr 1
      omega
  · refine ⟨_, [_, _, _], rfl, fun rest => ?_⟩
    have hfirst : (UInt8.ofNat (n / 262144 % 8 + 240)).toNat = n / 262144 % 8 + 240 := by
      rw [UInt8.toNat_ofNat']
      omega
    have hsecond : (UInt8.ofNat (n / 4096 % 64 + 128)).toNat = n / 4096 % 64 + 128 := by
      rw [UInt8.toNat_ofNat']
      omega
    have hthird : (UInt8.ofNat (n / 64 % 64 + 128)).toNat = n / 64 % 64 + 128 := by
      rw [UInt8.toNat_ofNat']
      omega
    have hfourth : (UInt8.ofNat (n % 64 + 128)).toNat = n % 64 + 128 := by
      rw [UInt8.toNat_ofNat']
      omega
    have hfour : n / 262144 % 8 + 240 ≤ 0xF4 := by omega
    obtain ⟨low, high, htrailing, hlow, hhigh⟩ := trailing_four (by omega) hfour
    refine scan_of_follow (by rw [hfirst]; exact htrailing) rfl ?_ ?_
    · rw [follow, hsecond, if_pos (by omega), follow, hthird, if_pos (by omega), follow, hfourth,
        if_pos (by omega), follow]
    · simp only [assemble, List.length_cons, List.length_nil, List.foldl_cons, List.foldl_nil, hfirst,
        hsecond, hthird, hfourth]
      rw [← hback]
      congr 1
      omega

/-- Encoded text is read back. -/
theorem fromUtf8_utf8Bytes (t : Text) : fromUtf8 (utf8Bytes t) = .ok t := by
  induction t with
  | nil => simp [utf8Bytes, fromUtf8]
  | cons c t ih =>
    obtain ⟨first, more, hbytes, hscan⟩ := scan_utf8EncodeChar c
    rw [utf8Bytes, List.flatMap_cons, hbytes, List.cons_append, fromUtf8, hscan]
    simp only
    rw [List.drop_left]
    unfold utf8Bytes at ih
    rw [ih]

end Encoded

end Utf8Text
