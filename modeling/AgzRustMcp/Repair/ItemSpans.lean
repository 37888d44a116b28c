import AgzRustMcp.Repair.Items

/-!
# Where the items stand

Every function of the item scanner that passes something stops behind an ASCII character or at the
end of its range, so that the offsets it returns are boundaries (`Reaches`).  `placed_scanItems`
follows by induction on the loop of `scan_items`.
-/

namespace AgzRustMcp

open Utf8Text
open String (utf8Len)

/-- An offset from which a scan may go on, between two characters. -/
structure Reaches (t : Text) (start stop r : ℕ) : Prop where
  lt : start < r
  le : r ≤ stop
  boundary : isBoundary t r = true

section Reach

variable {t : Text} {start stop i r : ℕ} {c : Char}

lemma isBoundary_succ_of_byteIs (h : byteIs t i c = true) (hc : c.toNat < 128) : isBoundary t (i + 1) = true := by
  have hfound : charAt? t i = some c := by simpa [byteIs] using h
  have hsize := isBoundary_add_of_charAt? hfound
  rwa [utf8Size_eq_one_of_lt hc] at hsize

lemma isBoundary_of_byteIs (h : byteIs t i c = true) : isBoundary t i = true :=
  isBoundary_of_charAt? (c := c) (by simpa [byteIs] using h)

lemma exists_of_byteMeets {p : Char → Bool} (h : byteMeets t i p = true) :
    ∃ c, charAt? t i = some c ∧ p c = true := by
  unfold byteMeets at h
  cases hc : charAt? t i with
  | none => simp [hc] at h
  | some c => exact ⟨c, rfl, by simpa [hc] using h⟩

lemma isBoundary_succ_of_byteMeets {p : Char → Bool} (hp : ∀ c, p c = true → c.toNat < 128)
    (h : byteMeets t i p = true) : isBoundary t (i + 1) = true := by
  obtain ⟨c, hc, hpc⟩ := exists_of_byteMeets h
  exact isBoundary_succ_of_byteIs (c := c) (by simpa [byteIs] using hc) (hp c hpc)

lemma reaches_stop (hstop : isBoundary t stop = true) (h : start < stop) : Reaches t start stop stop :=
  ⟨h, le_rfl, hstop⟩

lemma reaches_succ (h : byteIs t i c = true) (hc : c.toNat < 128) (hstart : start ≤ i)
    (hi : i < stop) : Reaches t start stop (i + 1) :=
  ⟨by omega, by omega, isBoundary_succ_of_byteIs h hc⟩

lemma passFrom_spec {p : Char → Bool} (hp : ∀ c, p c = true → c.toNat < 128) (hi : isBoundary t i = true) (left : ℕ) :
    i ≤ passFrom t p left i ∧ passFrom t p left i ≤ i + left ∧ isBoundary t (passFrom t p left i) = true := by
  induction left generalizing i with
  | zero => exact ⟨le_rfl, le_rfl, hi⟩
  | succ left ih =>
    unfold passFrom
    split
    next hmeets =>
      obtain ⟨hge, hle, hboundary⟩ := ih (isBoundary_succ_of_byteMeets hp hmeets)
      exact ⟨by omega, by omega, hboundary⟩
    next => exact ⟨le_rfl, by omega, hi⟩

lemma passOver_spec {p : Char → Bool} (hp : ∀ c, p c = true → c.toNat < 128)
    (hi : isBoundary t i = true) (hle : i ≤ stop) :
    i ≤ passOver t p i stop ∧ passOver t p i stop ≤ stop ∧ isBoundary t (passOver t p i stop) = true := by
  obtain ⟨hge, hmost, hboundary⟩ := passFrom_spec hp hi (stop - i)
  exact ⟨hge, by unfold passOver; omega, hboundary⟩

lemma le_passOver (t : Text) (p : Char → Bool) (i stop : ℕ) : i ≤ passOver t p i stop := by
  have hloop : ∀ left i, i ≤ passFrom t p left i := by
    intro left
    induction left with
    | zero => exact fun i => le_rfl
    | succ left ih =>
      intro i
      unfold passFrom
      split
      next => exact (Nat.le_succ i).trans (ih (i + 1))
      next => exact le_rfl
  exact hloop _ i

/-! ## Comments and literals -/

section Range

variable (hstop : isBoundary t stop = true) (hrange : start < stop)

include hstop hrange

lemma reaches_skipLineCommentFrom (left : ℕ) (hi : start ≤ i) :
    Reaches t start stop (skipLineCommentFrom t stop left i) := by
  induction left generalizing i with
  | zero => exact reaches_stop hstop hrange
  | succ left ih =>
    unfold skipLineCommentFrom
    split
    next hlt =>
      split
      next hbyte => exact reaches_succ hbyte (by decide) hi hlt
      next => exact ih (by omega)
    next => exact reaches_stop hstop hrange

lemma reaches_skipLineComment : Reaches t start stop (skipLineComment t start stop) :=
  reaches_skipLineCommentFrom hstop hrange _ le_rfl

lemma reaches_skipBlockCommentFrom (left : ℕ) (depth : ℤ) (hi : start ≤ i) :
    Reaches t start stop (skipBlockCommentFrom t stop left depth i) := by
  induction left generalizing i depth with
  | zero => exact reaches_stop hstop hrange
  | succ left ih =>
    unfold skipBlockCommentFrom
    split
    next hlt =>
      split
      next => exact ih _ (by omega)
      next =>
      split
      next hbytes =>
        split
        next =>
          rw [Bool.and_eq_true] at hbytes
          exact reaches_succ hbytes.2 (by decide) (by omega) hlt
        next => exact ih _ (by omega)
      next => exact ih _ (by omega)
    next => exact reaches_stop hstop hrange

lemma reaches_skipBlockComment : Reaches t start stop (skipBlockComment t start stop) :=
  reaches_skipBlockCommentFrom hstop hrange _ _ le_rfl

lemma reaches_skipQuotedFrom (left : ℕ) (hi : start ≤ i) : Reaches t start stop (skipQuotedFrom t stop left i) := by
  induction left generalizing i with
  | zero => exact reaches_stop hstop hrange
  | succ left ih =>
    unfold skipQuotedFrom
    split
    next hlt =>
      split
      next => exact ih (by omega)
      next =>
      split
      next hbyte => exact reaches_succ hbyte (by decide) hi hlt
      next => exact ih (by omega)
    next => exact reaches_stop hstop hrange

lemma reaches_skipQuoted (hi : start ≤ i) : Reaches t start stop (skipQuoted t i stop) :=
  reaches_skipQuotedFrom hstop hrange _ (by omega)

omit hstop hrange in
lemma reaches_closingQuote {left : ℕ} (hi : start ≤ i) (h : closingQuote? t stop left i = some r) :
    Reaches t start stop r := by
  induction left generalizing i with
  | zero => simp [closingQuote?] at h
  | succ left ih =>
    unfold closingQuote? at h
    split at h
    next hlt =>
      split at h
      next hbyte =>
        obtain rfl := Option.some.inj h
        exact reaches_succ hbyte (by decide) hi hlt
      next =>
      split at h
      next => simp at h
      next => exact ih (by omega) h
    next => simp at h

lemma reaches_skipCharOrLifetime (hquote : byteIs t start '\'' = true) :
    Reaches t start stop (skipCharOrLifetime t start stop) := by
  unfold skipCharOrLifetime
  dsimp only
  split
  next => exact reaches_stop hstop hrange
  next =>
    generalize hfirst : (if byteIs t (start + 1) '\\' = true then
      if start + 1 + 1 < stop then start + 1 + 2 else start + 1 + 1 else start + 1) = first
    have hge : start ≤ first := by
      rw [← hfirst]
      split_ifs <;> omega
    cases hfound : closingQuote? t stop 8 first with
    | none => exact reaches_succ hquote (by decide) le_rfl hrange
    | some r => exact reaches_closingQuote hge hfound

omit hstop hrange in
lemma isBoundary_countHashes (most : ℕ) (hi : isBoundary t i = true) :
    isBoundary t (i + countHashes t most i) = true ∧ countHashes t most i ≤ most := by
  induction most generalizing i with
  | zero => exact ⟨hi, le_rfl⟩
  | succ most ih =>
    unfold countHashes
    split
    next hbyte =>
      obtain ⟨hboundary, hle⟩ := ih (isBoundary_succ_of_byteIs hbyte (by decide))
      refine ⟨?_, by omega⟩
      rwa [show i + (countHashes t most (i + 1) + 1) = i + 1 + countHashes t most (i + 1) by omega]
    next => exact ⟨hi, by omega⟩

lemma reaches_rawStringEnd (hashes left : ℕ) (hi : start ≤ i) :
    Reaches t start stop (rawStringEnd t hashes stop left i) := by
  induction left generalizing i with
  | zero => exact reaches_stop hstop hrange
  | succ left ih =>
    unfold rawStringEnd
    split
    next hlt =>
      split
      next hclosed =>
        rw [Bool.and_eq_true, beq_iff_eq] at hclosed
        obtain ⟨hquote, hcount⟩ := hclosed
        obtain ⟨hboundary, hle⟩ := isBoundary_countHashes (min hashes (stop - (i + 1)))
          (isBoundary_succ_of_byteIs hquote (by decide))
        rw [hcount] at hboundary hle
        exact ⟨by omega, by omega, hboundary⟩
      next => exact ih (by omega)
    next => exact reaches_stop hstop hrange

lemma reaches_skipRawString (hi : start ≤ i) (h : skipRawString t i stop = some r) : Reaches t start stop r := by
  unfold skipRawString at h
  dsimp only at h
  split at h
  next =>
    obtain rfl := Option.some.inj h
    exact reaches_rawStringEnd hstop hrange _ _ (by omega)
  next => simp at h

lemma reaches_skipPrefixedString (h : skipPrefixedString t start stop = some r) : Reaches t start stop r := by
  unfold skipPrefixedString at h
  split at h
  next => exact reaches_skipRawString hstop hrange (by omega) h
  next =>
  split at h
  next =>
    split at h
    next => exact reaches_skipRawString hstop hrange (by omega) h
    next =>
    split at h
    next =>
      obtain rfl := Option.some.inj h
      exact reaches_skipQuoted hstop hrange (by omega)
    next => simp at h
  next =>
  split at h
  next =>
    split at h
    next =>
      obtain rfl := Option.some.inj h
      exact reaches_skipQuoted hstop hrange (by omega)
    next => simp at h
  next => simp at h

lemma reaches_skipLiteral (h : skipLiteral t start stop = some r) : Reaches t start stop r := by
  unfold skipLiteral at h
  split at h
  next =>
    obtain rfl := Option.some.inj h
    exact reaches_skipQuoted hstop hrange le_rfl
  next =>
  split at h
  next hquote =>
    obtain rfl := Option.some.inj h
    exact reaches_skipCharOrLifetime hstop hrange hquote
  next =>
  split at h
  next => exact reaches_skipPrefixedString hstop hrange h
  next =>
  split at h
  next =>
    obtain rfl := Option.some.inj h
    exact reaches_skipLineComment hstop hrange
  next =>
  split at h
  next =>
    obtain rfl := Option.some.inj h
    exact reaches_skipBlockComment hstop hrange
  next => simp at h

lemma reaches_skipDelimitedFrom {opening closing : Char} (hclosing : closing.toNat < 128) (left : ℕ)
    (depth : ℤ) (hi : start ≤ i) : Reaches t start stop (skipDelimitedFrom t stop opening closing left depth i) := by
  induction left generalizing i depth with
  | zero => exact reaches_stop hstop hrange
  | succ left ih =>
    unfold skipDelimitedFrom
    split
    next hlt =>
      split
      next next hnext =>
        exact ih _ (by have := (reaches_skipLiteral hstop hlt hnext).lt; omega)
      next =>
      split
      next => exact ih _ (by omega)
      next =>
      split
      next hbyte =>
        split
        next => exact reaches_succ hbyte hclosing hi hlt
        next => exact ih _ (by omega)
      next => exact ih _ (by omega)
    next => exact reaches_stop hstop hrange

lemma reaches_skipDelimited {opening closing : Char} (hclosing : closing.toNat < 128)
    (hi : start ≤ i) (hopening : byteIs t i opening = true) :
    Reaches t start stop (skipDelimited t i stop opening closing) := by
  unfold skipDelimited
  rw [if_pos hopening]
  exact reaches_skipDelimitedFrom hstop hrange hclosing _ _ hi

omit hstop hrange in
lemma reaches_behindBrace (hi : start ≤ i) (hlt : i < stop) (hbrace : byteIs t i '}' = true) :
    Reaches t start stop (behindBrace t i stop) ∧ i ≤ behindBrace t i stop := by
  have hblank : ∀ c : Char, (c == ' ' || c == '\t') = true → c.toNat < 128 := by
    intro c hc
    rw [Bool.or_eq_true, beq_iff_eq, beq_iff_eq] at hc
    rcases hc with rfl | rfl <;> decide
  obtain ⟨hge, hle, hboundary⟩ := passOver_spec hblank
    (isBoundary_succ_of_byteIs hbrace (by decide)) (show i + 1 ≤ stop by omega)
  unfold behindBrace
  dsimp only
  split
  next hsemicolon =>
    rw [Bool.and_eq_true, decide_eq_true_iff] at hsemicolon
    exact ⟨reaches_succ hsemicolon.2 (by decide) (by omega) hsemicolon.1, by omega⟩
  next => exact ⟨⟨by omega, hle, hboundary⟩, by omega⟩

omit hrange in
lemma findItemEndFrom_spec (left : ℕ) (depth : ItemDepth) (hi : start ≤ i) (hrange : start < stop)
    (hopen : ∀ opening, depth.bodyOpen = some opening → start ≤ opening ∧ isBoundary t (opening + 1) = true) :
    Reaches t start stop (findItemEndFrom t stop left depth i).stop ∧
      ∀ opening closing, (findItemEndFrom t stop left depth i).body = some (opening, closing) →
        start ≤ opening ∧ isBoundary t (opening + 1) = true ∧ isBoundary t closing = true ∧
          closing ≤ (findItemEndFrom t stop left depth i).stop := by
  have hended : ∀ opening closing, depth.bodyOpen.map (·, stop) = some (opening, closing) →
      start ≤ opening ∧ isBoundary t (opening + 1) = true ∧ isBoundary t closing = true ∧ closing ≤ stop := by
    intro opening closing hbody
    obtain ⟨o, ho, heq⟩ := Option.map_eq_some_iff.mp hbody
    obtain ⟨rfl, rfl⟩ := Prod.mk.inj heq
    exact ⟨(hopen _ ho).1, (hopen _ ho).2, hstop, le_rfl⟩
  induction left generalizing i depth with
  | zero => exact ⟨reaches_stop hstop hrange, hended⟩
  | succ left ih =>
    unfold findItemEndFrom
    split
    next hlt =>
      split
      next next hnext =>
        exact ih depth (by have := (reaches_skipLiteral hstop hlt hnext).lt; omega) hopen hended
      next =>
      split
      next hclosed =>
        rw [Bool.and_eq_true] at hclosed
        obtain ⟨hreaches, hge⟩ := reaches_behindBrace hi hlt hclosed.1
        refine ⟨hreaches, fun opening closing hbody => ?_⟩
        obtain ⟨o, ho, heq⟩ := Option.map_eq_some_iff.mp hbody
        obtain ⟨rfl, rfl⟩ := Prod.mk.inj heq
        exact ⟨(hopen _ ho).1, (hopen _ ho).2, isBoundary_of_byteIs hclosed.1, hge⟩
      next =>
      split
      next hsemicolon =>
        simp only [Bool.and_eq_true] at hsemicolon
        exact ⟨reaches_succ hsemicolon.1.1.1 (by decide) hi hlt, by simp⟩
      next =>
        have hnext : ∀ opening, (depth.next t i).bodyOpen = some opening →
            start ≤ opening ∧ isBoundary t (opening + 1) = true := by
          intro opening hopening
          unfold ItemDepth.next at hopening
          split at hopening
          next hbrace =>
            dsimp only at hopening
            split at hopening
            next =>
              obtain rfl := Option.some.inj hopening
              exact ⟨hi, isBoundary_succ_of_byteIs hbrace (by decide)⟩
            next => exact hopen opening hopening
          next => split_ifs at hopening <;> exact hopen opening hopening
        refine ih _ (by omega) hnext fun opening closing hbody => ?_
        obtain ⟨o, ho, heq⟩ := Option.map_eq_some_iff.mp hbody
        obtain ⟨rfl, rfl⟩ := Prod.mk.inj heq
        exact ⟨(hnext _ ho).1, (hnext _ ho).2, hstop, le_rfl⟩
    next => exact ⟨reaches_stop hstop hrange, hended⟩

end Range

lemma extendToLineEnd_spec (hi : isBoundary t i = true) (hle : i ≤ stop) :
    i ≤ extendToLineEnd t i stop ∧ extendToLineEnd t i stop ≤ stop ∧
      isBoundary t (extendToLineEnd t i stop) = true := by
  have hblank : ∀ c : Char, (c == ' ' || c == '\t' || c == '\r') = true → c.toNat < 128 := by
    intro c hc
    simp only [Bool.or_eq_true, beq_iff_eq] at hc
    rcases hc with (rfl | rfl) | rfl <;> decide
  have hloop : ∀ left i, isBoundary t i = true → i ≤ extendFrom t left i ∧ extendFrom t left i ≤ i + left ∧
        isBoundary t (extendFrom t left i) = true := by
    intro left
    induction left with
    | zero => exact fun i hi => ⟨le_rfl, le_rfl, hi⟩
    | succ left ih =>
      intro i hi
      unfold extendFrom
      split
      next hbyte => exact ⟨by omega, by omega, isBoundary_succ_of_byteIs hbyte (by decide)⟩
      next =>
      split
      next hmeets =>
        obtain ⟨hge, hmost, hboundary⟩ := ih (i + 1) (isBoundary_succ_of_byteMeets hblank hmeets)
        exact ⟨by omega, by omega, hboundary⟩
      next => exact ⟨le_rfl, by omega, hi⟩
  obtain ⟨hge, hmost, hboundary⟩ := hloop (stop - i) i hi
  exact ⟨hge, by unfold extendToLineEnd; omega, hboundary⟩

/-! ## Items -/

/-- A cursor at a boundary, with its notes behind the last item. -/
structure ItemCursor.Sound (t : Text) (start stop : ℕ) (cursor : ItemCursor) : Prop where
  start_le : start ≤ cursor.pos
  le_stop : cursor.pos ≤ stop
  boundary : isBoundary t cursor.pos = true
  pending : ∀ p, cursor.pending = some p → start ≤ p ∧ p ≤ cursor.pos ∧ isBoundary t p = true

variable {cursor next : ItemCursor}

lemma ItemCursor.Sound.moved (h : cursor.Sound t start stop) (hpos : Reaches t cursor.pos stop next.pos)
    (hpending : next.pending = cursor.pending ∨ next.pending = cursor.pending.or (some cursor.pos)) :
    next.Sound t start stop := by
  have hlt := hpos.lt
  have hstart := h.start_le
  have hkept : ∀ p, cursor.pending = some p → start ≤ p ∧ p ≤ next.pos ∧ isBoundary t p = true := fun p hp =>
    ⟨(h.pending p hp).1, by have := (h.pending p hp).2.1; omega, (h.pending p hp).2.2⟩
  refine ⟨by omega, hpos.le, hpos.boundary, fun p hp => ?_⟩
  rcases hpending with hsame | hnoted
  · exact hkept p (hsame ▸ hp)
  · rw [hnoted, Option.or_eq_some_iff] at hp
    rcases hp with hp | ⟨-, hp⟩
    · exact hkept p hp
    · obtain rfl := Option.some.inj hp
      exact ⟨h.start_le, by omega, h.boundary⟩

lemma lt_of_isAsciiWhitespace (h : isAsciiWhitespace c = true) : c.toNat < 128 := by
  simp only [isAsciiWhitespace, Bool.or_eq_true, beq_iff_eq] at h
  rcases h with (((rfl | rfl) | rfl) | rfl) | rfl <;> decide

lemma lt_of_isWordByte (h : isWordByte c = true) : c.toNat < 128 := by
  simp only [isWordByte, Char.isAlphanum, Char.isAlpha, Char.isUpper, Char.isLower, Char.isDigit, Bool.or_eq_true,
    Bool.and_eq_true, decide_eq_true_eq, UInt32.le_iff_toNat_le, beq_iff_eq] at h
  rcases h with ((⟨-, h⟩ | ⟨-, h⟩) | ⟨-, h⟩) | rfl
  · exact lt_of_le_of_lt h (by decide)
  · exact lt_of_le_of_lt h (by decide)
  · exact lt_of_le_of_lt h (by decide)
  · decide

lemma ItemCursor.Sound.pass (hstop : isBoundary t stop = true) (h : cursor.Sound t start stop)
    (hlt : cursor.pos < stop) (hturn : itemTurn t stop cursor = .pass next) :
    next.Sound t start stop ∧ cursor.pos < next.pos := by
  have hmoved : Reaches t cursor.pos stop next.pos →
      (next.pending = cursor.pending ∨ next.pending = cursor.pending.or (some cursor.pos)) →
      next.Sound t start stop ∧ cursor.pos < next.pos :=
    fun hpos hpending => ⟨h.moved hpos hpending, hpos.lt⟩
  unfold itemTurn at hturn
  dsimp only at hturn
  split at hturn
  next hspace =>
    obtain rfl := ItemTurn.pass.inj hturn
    exact hmoved ⟨Nat.lt_succ_self _, hlt, isBoundary_succ_of_byteMeets
      (fun _ => lt_of_isAsciiWhitespace) hspace⟩ (Or.inl rfl)
  next =>
  split at hturn
  next =>
    obtain rfl := ItemTurn.pass.inj hturn
    refine hmoved (reaches_skipLineComment hstop hlt) ?_
    dsimp only
    split_ifs
    · exact Or.inr rfl
    · exact Or.inl rfl
  next =>
  split at hturn
  next =>
    obtain rfl := ItemTurn.pass.inj hturn
    refine hmoved (reaches_skipBlockComment hstop hlt) ?_
    dsimp only
    split_ifs
    · exact Or.inr rfl
    · exact Or.inl rfl
  next =>
  split at hturn
  next hattr =>
    simp only [Bool.and_eq_true, Bool.or_eq_true] at hattr
    have hattrEnd : Reaches t cursor.pos stop
        (if byteIs t (cursor.pos + 1) '!' = true then skipDelimited t (cursor.pos + 2) stop '[' ']'
          else skipDelimited t (cursor.pos + 1) stop '[' ']') := by
      split
      next hbang =>
        rcases hattr.2 with hbracket | ⟨-, hbracket⟩
        · -- The byte cannot be both the exclamation mark and the bracket.
          simp only [byteIs, beq_iff_eq] at hbang hbracket
          rw [hbang] at hbracket
          exact absurd hbracket (by decide)
        · exact reaches_skipDelimited hstop hlt (by decide) (by omega) hbracket
      next hbang =>
        rcases hattr.2 with hbracket | ⟨⟨hbang', -⟩, -⟩
        · exact reaches_skipDelimited hstop hlt (by decide) (by omega) hbracket
        · exact absurd hbang' hbang
    generalize (if byteIs t (cursor.pos + 1) '!' = true then
      skipDelimited t (cursor.pos + 2) stop '[' ']'
      else skipDelimited t (cursor.pos + 1) stop '[' ']') = attrEnd at hturn hattrEnd
    rw [if_neg (Nat.not_le.mpr hattrEnd.lt)] at hturn
    obtain rfl := ItemTurn.pass.inj hturn
    exact hmoved hattrEnd (Or.inr rfl)
  next => simp at hturn

/-- The items stand in order between two offsets, as do their children. -/
inductive Placed (t : Text) : ℕ → ℕ → List ParsedItem → Prop
  | nil {start stop : ℕ} (le : start ≤ stop) : Placed t start stop []
  | cons {start stop : ℕ} {item : ParsedItem} {items : List ParsedItem}
      (start_le : start ≤ item.start) (lt : item.start < item.stop) (le_stop : item.stop ≤ stop)
      (boundary_start : isBoundary t item.start = true)
      (boundary_stop : isBoundary t item.stop = true)
      (children : Placed t item.start item.stop item.children)
      (rest : Placed t item.stop stop items) : Placed t start stop (item :: items)

lemma Placed.mono {items : List ParsedItem} {start' stop' : ℕ} (h : Placed t start stop items)
    (hstart : start' ≤ start) (hstop : stop ≤ stop') : Placed t start' stop' items := by
  induction h generalizing start' with
  | nil le => exact .nil (by omega)
  | cons start_le lt le_stop boundary_start boundary_stop children _ _ ih =>
    exact .cons (by omega) lt (by omega) boundary_start boundary_stop children (ih le_rfl hstop)

lemma reaches_itemAt (hstop : isBoundary t stop = true) (inner : ℕ → ℕ → List ParsedItem)
    (hlt : cursor.pos < stop) : Reaches t cursor.pos stop (itemAt t stop inner cursor).stop ∧
      ∀ opening closing, (findItemEnd t cursor.pos stop).body = some (opening, closing) →
        cursor.pos ≤ opening ∧ isBoundary t (opening + 1) = true ∧ isBoundary t closing = true ∧
          closing ≤ (itemAt t stop inner cursor).stop := by
  obtain ⟨hscan, hbody⟩ := findItemEndFrom_spec hstop (stop - cursor.pos) ⟨0, 0, 0, none⟩ le_rfl hlt
    (by simp)
  obtain ⟨hge, hle, hboundary⟩ := extendToLineEnd_spec hscan.boundary hscan.le
  refine ⟨⟨lt_of_lt_of_le hscan.lt hge, hle, hboundary⟩, fun opening closing hscanned => ?_⟩
  obtain ⟨hopening, hbehind, hclosing, hwithin⟩ := hbody opening closing hscanned
  exact ⟨hopening, hbehind, hclosing, hwithin.trans hge⟩

lemma placed_itemAt {inner : ℕ → ℕ → List ParsedItem} {items : List ParsedItem} (hstop : isBoundary t stop = true)
    (hinner : ∀ start stop, isBoundary t start = true → isBoundary t stop = true → start < stop →
      Placed t start stop (inner start stop)) (h : cursor.Sound t start stop) (hlt : cursor.pos < stop)
    (hrest : Placed t (itemAt t stop inner cursor).stop stop items) :
    Placed t start stop (itemAt t stop inner cursor :: items) := by
  obtain ⟨hreaches, hbody⟩ := reaches_itemAt hstop inner hlt
  have hnoted : start ≤ cursor.pending.getD cursor.pos ∧ cursor.pending.getD cursor.pos ≤ cursor.pos ∧
      isBoundary t (cursor.pending.getD cursor.pos) = true := by
    cases hpending : cursor.pending with
    | none => exact ⟨h.start_le, le_rfl, h.boundary⟩
    | some p => exact h.pending p hpending
  have hlong : cursor.pending.getD cursor.pos < (itemAt t stop inner cursor).stop :=
    lt_of_le_of_lt hnoted.2.1 hreaches.lt
  refine .cons hnoted.1 hlong hreaches.le hnoted.2.2 hreaches.boundary ?_ hrest
  unfold itemAt
  dsimp only
  split
  next opening closing _ hscanned =>
    obtain ⟨hopening, hbehind, hclosing, hwithin⟩ := hbody opening closing hscanned
    split
    next hinside =>
      have hstart : cursor.pending.getD cursor.pos ≤ opening + 1 := by omega
      exact (hinner _ _ hbehind hclosing hinside).mono hstart hwithin
    next => exact .nil hlong.le
  next => exact .nil hlong.le

lemma placed_scanItemsFrom {inner : ℕ → ℕ → List ParsedItem} (hstop : isBoundary t stop = true)
    (hinner : ∀ start stop, isBoundary t start = true → isBoundary t stop = true → start < stop →
      Placed t start stop (inner start stop)) (left room : ℕ) (h : cursor.Sound t start stop) :
    Placed t start stop (scanItemsFrom t stop inner left room cursor) := by
  have hle := h.start_le.trans h.le_stop
  induction left generalizing room start cursor with
  | zero => exact .nil hle
  | succ left ih =>
    cases room with
    | zero => exact .nil hle
    | succ room =>
      unfold scanItemsFrom
      split
      next hlt =>
        split
        next next hturn => exact ih (room + 1) (h.pass hstop hlt hturn).1 hle
        next => exact .nil hle
        next =>
          obtain ⟨hreaches, -⟩ := reaches_itemAt hstop inner hlt
          exact placed_itemAt hstop hinner h hlt
            (ih room ⟨le_rfl, hreaches.le, hreaches.boundary, by simp⟩ hreaches.le)
      next => exact .nil hle

/-- The items that `scan_items` finds stand one behind the other in the range. -/
theorem placed_scanItems (depth : ℕ) (hstart : isBoundary t start = true)
    (hstop : isBoundary t stop = true) (hle : start ≤ stop) : Placed t start stop (scanItems t depth start stop) := by
  induction depth generalizing start stop with
  | zero =>
    exact placed_scanItemsFrom hstop (fun _ _ _ _ h => .nil h.le) _ _
      ⟨le_rfl, hle, hstart, by simp⟩
  | succ depth ih =>
    exact placed_scanItemsFrom hstop (fun _ _ hstart hstop hlt => ih hstart hstop hlt.le) _ _
      ⟨le_rfl, hle, hstart, by simp⟩

/-- The items of a file stand one behind the other in it. -/
theorem placed_parseItems (t : Text) : Placed t 0 (utf8Len t) (parseItems t) :=
  placed_scanItems _ (isBoundary_iff.mpr ⟨[], t, rfl, rfl⟩)
    (isBoundary_iff.mpr ⟨t, [], by simp, rfl⟩) (Nat.zero_le _)

end Reach

end AgzRustMcp
