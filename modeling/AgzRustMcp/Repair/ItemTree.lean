import AgzRustMcp.Repair.Reductions

/-!
# The items of a file and what is removed of them

Each loop of the scan of `repair/minimize.rs` passes something in every turn, so that more turns
than bytes change nothing (`ScanEnds`).  Where an item has others in it, they stand between the
braces of its body (`Nests`).  Applying a group of units removes the bytes of its spans, and no
others: `item_scan_sound`.
-/

namespace AgzRustMcp

open Utf8Text
open String (utf8Len)
open Std (ExtTreeMap)

/-! ## The loops end -/

/-- With enough turns one more changes nothing in a loop of the scanner. -/
structure ScanEnds (t : Text) (stop : ℕ) : Prop where
  lineComment : ∀ left i, stop ≤ i + left → skipLineCommentFrom t stop (left + 1) i = skipLineCommentFrom t stop left i
  blockComment : ∀ left i depth, stop ≤ i + left →
    skipBlockCommentFrom t stop (left + 1) depth i = skipBlockCommentFrom t stop left depth i
  quoted : ∀ left i, stop ≤ i + left → skipQuotedFrom t stop (left + 1) i = skipQuotedFrom t stop left i
  hashes : ∀ most i, utf8Len t ≤ i + most → countHashes t (most + 1) i = countHashes t most i
  rawString : ∀ hashes left i, stop ≤ i + left →
    rawStringEnd t hashes stop (left + 1) i = rawStringEnd t hashes stop left i
  delimited : ∀ opening closing left i depth, stop ≤ i + left →
    skipDelimitedFrom t stop opening closing (left + 1) depth i =
      skipDelimitedFrom t stop opening closing left depth i
  itemEnd : ∀ left i depth, stop ≤ i + left →
    findItemEndFrom t stop (left + 1) depth i = findItemEndFrom t stop left depth i
  modifiers : ∀ left i, stop ≤ i + left → skipModifiersFrom t stop (left + 1) i = skipModifiersFrom t stop left i
  items : ∀ inner left room start cursor, ItemCursor.Sound t start stop cursor → stop ≤ cursor.pos + left →
    scanItemsFrom t stop inner (left + 1) room cursor = scanItemsFrom t stop inner left room cursor

section

variable {t : Text} {stop : ℕ}

lemma charAt?_of_le {i : ℕ} (h : utf8Len t ≤ i) : charAt? t i = none := by
  rw [Option.eq_none_iff_forall_not_mem]
  intro c hc
  obtain ⟨pre, suf, rfl, rfl⟩ := charAt?_eq_some_iff.mp hc
  have hpos := c.utf8Size_pos
  rw [String.utf8Len_append, String.utf8Len_cons] at h
  omega

lemma skipLineCommentFrom_succ (left i : ℕ) (h : stop ≤ i + left) :
    skipLineCommentFrom t stop (left + 1) i = skipLineCommentFrom t stop left i := by
  induction left generalizing i with
  | zero => exact if_neg (by omega)
  | succ left ih =>
    rw [skipLineCommentFrom, ih (i + 1) (by omega)]
    rfl

lemma skipBlockCommentFrom_succ (left i : ℕ) (depth : ℤ) (h : stop ≤ i + left) :
    skipBlockCommentFrom t stop (left + 1) depth i = skipBlockCommentFrom t stop left depth i := by
  induction left generalizing i depth with
  | zero => exact if_neg (by omega)
  | succ left ih =>
    rw [skipBlockCommentFrom, ih (i + 2) (depth + 1) (by omega), ih (i + 2) (depth - 1) (by omega),
      ih (i + 1) depth (by omega)]
    rfl

lemma skipQuotedFrom_succ (left i : ℕ) (h : stop ≤ i + left) :
    skipQuotedFrom t stop (left + 1) i = skipQuotedFrom t stop left i := by
  induction left generalizing i with
  | zero => exact if_neg (by omega)
  | succ left ih =>
    rw [skipQuotedFrom, ih (i + 2) (by omega), ih (i + 1) (by omega)]
    rfl

lemma countHashes_succ (most i : ℕ) (h : utf8Len t ≤ i + most) :
    countHashes t (most + 1) i = countHashes t most i := by
  induction most generalizing i with
  | zero =>
    have hnone : charAt? t i = none := charAt?_of_le h
    simp [countHashes, byteIs, hnone]
  | succ most ih =>
    rw [countHashes, ih (i + 1) (by omega)]
    rfl

lemma rawStringEnd_succ (hashes left i : ℕ) (h : stop ≤ i + left) :
    rawStringEnd t hashes stop (left + 1) i = rawStringEnd t hashes stop left i := by
  induction left generalizing i with
  | zero => exact if_neg (by omega)
  | succ left ih =>
    rw [rawStringEnd, ih (i + 1) (by omega)]
    rfl

variable (hstop : isBoundary t stop = true)

include hstop

lemma skipLiteral_or {i : ℕ} (hi : i < stop) :
    skipLiteral t i stop = none ∨ ∃ next, skipLiteral t i stop = some next ∧ i < next := by
  cases h : skipLiteral t i stop with
  | none => exact Or.inl rfl
  | some next => exact Or.inr ⟨next, rfl, (reaches_skipLiteral hstop hi h).lt⟩

lemma skipDelimitedFrom_succ (opening closing : Char) (left i : ℕ) (depth : ℤ) (h : stop ≤ i + left) :
    skipDelimitedFrom t stop opening closing (left + 1) depth i =
      skipDelimitedFrom t stop opening closing left depth i := by
  induction left generalizing i depth with
  | zero => exact if_neg (by omega)
  | succ left ih =>
    by_cases hi : i < stop
    · conv_lhs => rw [skipDelimitedFrom, if_pos hi]
      conv_rhs => rw [skipDelimitedFrom, if_pos hi]
      rcases skipLiteral_or hstop hi with hnone | ⟨next, hsome, hlt⟩
      · rw [hnone]
        dsimp only
        rw [ih (i + 1) (depth + 1) (by omega), ih (i + 1) (depth - 1) (by omega), ih (i + 1) depth (by omega)]
      · rw [hsome]
        exact ih next depth (by omega)
    · exact (if_neg hi).trans (if_neg hi).symm

lemma findItemEndFrom_succ (left i : ℕ) (depth : ItemDepth) (h : stop ≤ i + left) :
    findItemEndFrom t stop (left + 1) depth i = findItemEndFrom t stop left depth i := by
  induction left generalizing i depth with
  | zero => exact if_neg (by omega)
  | succ left ih =>
    by_cases hi : i < stop
    · conv_lhs => rw [findItemEndFrom, if_pos hi]
      conv_rhs => rw [findItemEndFrom, if_pos hi]
      rcases skipLiteral_or hstop hi with hnone | ⟨next, hsome, hlt⟩
      · rw [hnone]
        dsimp only
        rw [ih (i + 1) (depth.next t i) (by omega)]
      · rw [hsome]
        exact ih next depth (by omega)
    · exact (if_neg hi).trans (if_neg hi).symm

lemma scanItemsFrom_succ (inner : ℕ → ℕ → List ParsedItem) (left room start : ℕ) (cursor : ItemCursor)
    (hsound : cursor.Sound t start stop) (h : stop ≤ cursor.pos + left) :
    scanItemsFrom t stop inner (left + 1) room cursor = scanItemsFrom t stop inner left room cursor := by
  induction left generalizing room start cursor with
  | zero =>
    cases room with
    | zero => rfl
    | succ room => exact if_neg (by omega)
  | succ left ih =>
    cases room with
    | zero => rfl
    | succ room =>
      by_cases hlt : cursor.pos < stop
      · conv_lhs => rw [scanItemsFrom, if_pos hlt]
        conv_rhs => rw [scanItemsFrom, if_pos hlt]
        split
        next next hturn =>
          obtain ⟨hnext, hpassed⟩ := hsound.pass hstop hlt hturn
          exact ih (room + 1) start next hnext (by omega)
        next => rfl
        next =>
          obtain ⟨hreaches, -⟩ := reaches_itemAt hstop inner hlt
          have hpassed := hreaches.lt
          have hrest := ih room _ ⟨(itemAt t stop inner cursor).stop, none, false, none⟩
            ⟨le_rfl, hreaches.le, hreaches.boundary, by simp⟩ (by dsimp only; omega)
          exact congrArg (itemAt t stop inner cursor :: ·) hrest
      · exact (if_neg hlt).trans (if_neg hlt).symm

lemma lt_skipDelimited {i j : ℕ} (hi : i < stop) (hij : i < j) (hopening : byteIs t j '(' = true) :
    i < skipDelimited t j stop '(' ')' := by
  by_cases hj : j < stop
  · exact hij.trans (reaches_skipDelimited hstop hj (by decide) le_rfl hopening).lt
  · have hleft : stop - j = 0 := by omega
    rw [skipDelimited, if_pos hopening, hleft]
    exact hi

lemma lt_skipQuoted {i j : ℕ} (hi : i < stop) (hij : i < j) : i < skipQuoted t j stop := by
  by_cases hj : j < stop
  · exact hij.trans (reaches_skipQuoted hstop hj le_rfl).lt
  · have hleft : stop - j = 0 := by omega
    rw [skipQuoted, hleft]
    exact hi

lemma skipModifiersFrom_succ (left i : ℕ) (h : stop ≤ i + left) :
    skipModifiersFrom t stop (left + 1) i = skipModifiersFrom t stop left i := by
  induction left generalizing i with
  | zero =>
    have hnone : wordAt t i stop = none := if_pos (by omega)
    have hpass : passOver t isAsciiWhitespace i stop = i := by
      rw [passOver, show stop - i = 0 by omega]
      rfl
    simp only [skipModifiersFrom, hpass, hnone, Option.map_none]
  | succ left ih =>
    have hge := le_passOver t isAsciiWhitespace i stop
    conv_lhs => rw [skipModifiersFrom]
    conv_rhs => rw [skipModifiersFrom]
    dsimp only
    by_cases hi : stop ≤ passOver t isAsciiWhitespace i stop
    · have hnone : wordAt t (passOver t isAsciiWhitespace i stop) stop = none := if_pos hi
      rw [hnone]
      rfl
    · generalize passOver t isAsciiWhitespace i stop = j at hge hi
      have hlt : j < stop := by omega
      split
      next => rfl
      next =>
        refine ih _ ?_
        split
        next hopening =>
          have := lt_skipDelimited hstop hlt (show j < j + 3 by omega) hopening
          omega
        next => omega
      next => exact ih _ (by omega)
      next => exact ih _ (by omega)
      next => exact ih _ (by omega)
      next => exact ih _ (by omega)
      next => exact ih _ (by omega)
      next =>
        have hpassed := le_passOver t isAsciiWhitespace (j + 6) stop
        refine ih _ ?_
        split
        next =>
          have := @lt_skipQuoted t stop hstop _ _ hlt (lt_of_lt_of_le (by omega) hpassed)
          omega
        next => omega
      next => rfl

lemma scanEnds_of_boundary : ScanEnds t stop where
  lineComment := skipLineCommentFrom_succ
  blockComment := skipBlockCommentFrom_succ
  quoted := skipQuotedFrom_succ
  hashes := countHashes_succ
  rawString := rawStringEnd_succ
  delimited := skipDelimitedFrom_succ hstop
  itemEnd := findItemEndFrom_succ hstop
  modifiers := skipModifiersFrom_succ hstop
  items := scanItemsFrom_succ hstop

end

/-- The children of every item stand in order within its body. -/
inductive Nests (t : Text) : List ParsedItem → Prop
  | nil : Nests t []
  | cons {item : ParsedItem} {items : List ParsedItem}
      (children : item.children = [] ∨ ∃ opening closing, item.body = some (opening, closing) ∧
        item.start ≤ opening ∧ closing ≤ item.stop ∧ Placed t (opening + 1) closing item.children)
      (inner : Nests t item.children) (rest : Nests t items) : Nests t (item :: items)

section

variable {t : Text} {stop : ℕ} {inner : ℕ → ℕ → List ParsedItem}

lemma children_itemAt (inner : ℕ → ℕ → List ParsedItem) (cursor : ItemCursor) :
    (itemAt t stop inner cursor).children = [] ∨ ∃ opening closing, opening + 1 < closing ∧
      (findItemEnd t cursor.pos stop).body = some (opening, closing) ∧
      (itemAt t stop inner cursor).children = inner (opening + 1) closing := by
  unfold itemAt
  dsimp only
  split
  next opening closing _ hbody =>
    split
    next hinside => exact Or.inr ⟨opening, closing, hinside, hbody, rfl⟩
    next => exact Or.inl rfl
  next => exact Or.inl rfl

lemma nests_scanItemsFrom (hstop : isBoundary t stop = true)
    (hinner : ∀ start stop, isBoundary t start = true → isBoundary t stop = true → start < stop →
      Placed t start stop (inner start stop) ∧ Nests t (inner start stop))
    (left room start : ℕ) (cursor : ItemCursor) (h : cursor.Sound t start stop) :
    Nests t (scanItemsFrom t stop inner left room cursor) := by
  induction left generalizing room start cursor with
  | zero => exact .nil
  | succ left ih =>
    cases room with
    | zero => exact .nil
    | succ room =>
      unfold scanItemsFrom
      split
      next hlt =>
        split
        next next hturn => exact ih (room + 1) start next (h.pass hstop hlt hturn).1
        next => exact .nil
        next =>
          obtain ⟨hreaches, hbody⟩ := reaches_itemAt hstop inner hlt
          have hrest := ih room _ ⟨(itemAt t stop inner cursor).stop, none, false, none⟩
            ⟨le_rfl, hreaches.le, hreaches.boundary, by simp⟩
          have hpending : cursor.pending.getD cursor.pos ≤ cursor.pos := by
            cases hnoted : cursor.pending with
            | none => exact le_rfl
            | some p => exact (h.pending p hnoted).2.1
          rcases @children_itemAt t stop inner cursor with
            hnone | ⟨opening, closing, hinside, hscanned, hchildren⟩
          · exact .cons (Or.inl hnone) (hnone ▸ .nil) hrest
          · obtain ⟨hopening, hbehind, hclosing, hwithin⟩ := hbody opening closing hscanned
            obtain ⟨hplaced, hnests⟩ := hinner _ _ hbehind hclosing hinside
            exact .cons (Or.inr ⟨opening, closing, hscanned, hpending.trans hopening, hwithin,
              hchildren ▸ hplaced⟩) (hchildren ▸ hnests) hrest
      next => exact .nil

lemma nests_scanItems (depth : ℕ) {start : ℕ} (hstart : isBoundary t start = true)
    (hstop : isBoundary t stop = true) (hle : start ≤ stop) : Nests t (scanItems t depth start stop) := by
  induction depth generalizing start stop with
  | zero =>
    exact nests_scanItemsFrom hstop (fun _ _ _ _ h => ⟨.nil h.le, .nil⟩) _ _ start _
      ⟨le_rfl, hle, hstart, by simp⟩
  | succ depth ih =>
    exact nests_scanItemsFrom hstop
      (fun _ _ hstart hstop hlt => ⟨placed_scanItems depth hstart hstop hlt.le, ih hstart hstop hlt.le⟩)
      _ _ start _ ⟨le_rfl, hle, hstart, by simp⟩

end

/-! ## What is removed -/

/-- The bytes from an offset on that lie in none of the ranges. -/
def bytesOutside (ranges : List (ℕ × ℕ)) (offset : ℕ) (bytes : List UInt8) : List UInt8 :=
  ((bytes.zipIdx offset).filter fun byte =>
    ranges.all fun range => byte.2 < range.1 || range.2 ≤ byte.2).map Prod.fst

section

variable {t : Text} {ranges ranges' : List (ℕ × ℕ)} {offset last : ℕ} {bytes bytes' : List UInt8}

lemma bytesOutside_append : bytesOutside ranges offset (bytes ++ bytes') =
    bytesOutside ranges offset bytes ++ bytesOutside ranges (offset + bytes.length) bytes' := by
  simp [bytesOutside, List.zipIdx_append]

lemma bytesOutside_congr (h : ∀ i, offset ≤ i → i < offset + bytes.length →
    ((∀ range ∈ ranges, i < range.1 ∨ range.2 ≤ i) ↔ ∀ range ∈ ranges', i < range.1 ∨ range.2 ≤ i)) :
    bytesOutside ranges offset bytes = bytesOutside ranges' offset bytes := by
  unfold bytesOutside
  refine congrArg _ (List.filter_congr fun byte hbyte => ?_)
  obtain ⟨hge, hlt, -⟩ := List.mem_zipIdx hbyte
  rw [Bool.eq_iff_iff, List.all_eq_true, List.all_eq_true]
  simpa only [Bool.or_eq_true, decide_eq_true_iff] using h byte.2 hge hlt

lemma bytesOutside_nil : bytesOutside [] offset bytes = bytes := by
  simp [bytesOutside]

lemma bytesOutside_of_covered (h : (offset, offset + bytes.length) ∈ ranges) :
    bytesOutside ranges offset bytes = [] := by
  unfold bytesOutside
  rw [List.map_eq_nil_iff, List.filter_eq_nil_iff]
  intro byte hbyte hall
  obtain ⟨hge, hlt, -⟩ := List.mem_zipIdx hbyte
  have hrange := List.all_eq_true.mp hall _ h
  simp only [Bool.or_eq_true, decide_eq_true_iff] at hrange
  omega

lemma le_of_rangesFit (h : rangesFit t last ranges = true) : ∀ range ∈ ranges, last ≤ range.1 := by
  induction ranges generalizing last with
  | nil => simp
  | cons range ranges ih =>
    obtain ⟨start, stop⟩ := range
    simp only [rangesFit, Bool.and_eq_true, decide_eq_true_iff] at h
    obtain ⟨⟨⟨⟨⟨hlt, -⟩, hlast⟩, -⟩, -⟩, hrest⟩ := h
    intro other hother
    rcases List.mem_cons.mp hother with rfl | hother
    · exact hlast
    · have := ih hrest other hother
      omega

lemma removeRanges_eq {pre suf : Text} (ht : t = pre ++ suf) (hlast : utf8Len pre = last)
    (hfit : rangesFit t last ranges = true) : ∃ kept, removeRanges t ranges = pre ++ kept ∧
      utf8Bytes kept = bytesOutside ranges last (utf8Bytes suf) := by
  induction ranges generalizing pre suf last with
  | nil => exact ⟨suf, ht, bytesOutside_nil.symm⟩
  | cons range ranges ih =>
    obtain ⟨start, stop⟩ := range
    simp only [rangesFit, Bool.and_eq_true, decide_eq_true_iff] at hfit
    obtain ⟨⟨⟨⟨⟨hlt, -⟩, hle⟩, hstart⟩, hstop⟩, hrest⟩ := hfit
    -- The range cuts the rest of the text into three parts.
    obtain ⟨before, behind, hbefore, rfl⟩ := isBoundary_iff.mp hstart
    obtain ⟨through, rest, hthrough, rfl⟩ := isBoundary_iff.mp hstop
    obtain ⟨gap, rfl, rfl⟩ := exists_append_of_utf8Len_le (ht.symm.trans hbefore) (by omega)
    obtain ⟨cut, rfl, rfl⟩ := exists_append_of_utf8Len_le (hbefore.symm.trans hthrough) hlt.le
    obtain ⟨kept, hkept, hbytes⟩ := ih hthrough rfl hrest
    refine ⟨gap ++ kept, ?_, ?_⟩
    · have hremoved : removeRanges t ((utf8Len (pre ++ gap), utf8Len (pre ++ gap ++ cut)) :: ranges) =
          replaceRange (removeRanges t ranges) (utf8Len (pre ++ gap)) (utf8Len (pre ++ gap ++ cut)) [] := rfl
      rw [hremoved, hkept, String.utf8Len_append (pre ++ gap) cut, replaceRange_append]
      simp
    · have hlater := le_of_rangesFit hrest
      have hgap : bytesOutside ((utf8Len (pre ++ gap), utf8Len (pre ++ gap ++ cut)) :: ranges) last
          (utf8Bytes gap) = utf8Bytes gap := by
        refine (@bytesOutside_congr _ [] _ _ ?_).trans bytesOutside_nil
        intro i _ hi
        rw [length_utf8Bytes] at hi
        rw [String.utf8Len_append] at hle hlt
        simp only [List.mem_cons, forall_eq_or_imp, List.not_mem_nil, false_implies, implies_true,
          iff_true, String.utf8Len_append]
        refine ⟨by omega, fun other hother => ?_⟩
        have := hlater other hother
        simp only [String.utf8Len_append] at this
        omega
      have hcut : bytesOutside ((utf8Len (pre ++ gap), utf8Len (pre ++ gap ++ cut)) :: ranges)
          (last + (utf8Bytes gap).length) (utf8Bytes cut) = [] := by
        refine bytesOutside_of_covered ?_
        simp [length_utf8Bytes, ← hlast, Nat.add_assoc]
      have hbehind : bytesOutside ((utf8Len (pre ++ gap), utf8Len (pre ++ gap ++ cut)) :: ranges)
          (utf8Len (pre ++ gap ++ cut)) (utf8Bytes rest) =
            bytesOutside ranges (utf8Len (pre ++ gap ++ cut)) (utf8Bytes rest) := by
        exact bytesOutside_congr fun i hi _ => by simp only [List.forall_mem_cons, hi, or_true, true_and]
      have hoffset : last + (utf8Bytes gap).length + (utf8Bytes cut).length = utf8Len (pre ++ gap ++ cut) := by
        simp [length_utf8Bytes, ← hlast, Nat.add_assoc]
      rw [utf8Bytes_append, utf8Bytes_append, utf8Bytes_append, bytesOutside_append, bytesOutside_append,
        hgap, hcut, hoffset, hbehind, hbytes, List.nil_append]

lemma bytesOutside_perm (h : ranges.Perm ranges') :
    bytesOutside ranges offset bytes = bytesOutside ranges' offset bytes :=
  bytesOutside_congr fun _ _ _ => forall_congr' fun _ => by rw [h.mem_iff]

end

section

variable {tree next : SourceTree} {group : List RemovalUnit} {file : String}

/-- The bytes of a file of a tree, without those in the ranges. -/
def remaining (tree : SourceTree) (file : String) (ranges : List (ℕ × ℕ)) : Option (List UInt8) :=
  tree[file]?.map fun content => bytesOutside ranges 0 (utf8Bytes content.toList)

lemma remaining_removeFrom {removal : String × List (ℕ × ℕ)} (h : removeFrom tree removal = some next) :
    remaining next removal.1 [] = remaining tree removal.1 removal.2 ∧
      ∀ other, other ≠ removal.1 → next[other]? = tree[other]? := by
  obtain ⟨content, hcontent, hrest⟩ := Option.bind_eq_some_iff.mp h
  dsimp only at hrest
  split at hrest
  next hfit =>
    obtain rfl := Option.some.inj hrest
    refine ⟨?_, fun other hother => OrderedMap.getElem?_insert_of_ne hother⟩
    obtain ⟨kept, hkept, hbytes⟩ := removeRanges_eq (List.nil_append _).symm rfl hfit
    rw [remaining, remaining, ExtTreeMap.getElem?_insert_self, hcontent, Option.map_some, Option.map_some,
      String.toList_ofList, hkept, List.nil_append, hbytes, bytesOutside_nil]
    exact congrArg some (bytesOutside_perm (List.perm_insertionSort _ _))
  next => simp at hrest

lemma remaining_foldlM_removeFrom {entries : List (String × List (ℕ × ℕ))}
    (hnodup : (entries.map Prod.fst).Nodup) (h : entries.foldlM removeFrom tree = some next) :
    (∀ ranges, (file, ranges) ∈ entries → remaining next file [] = remaining tree file ranges) ∧
      (file ∉ entries.map Prod.fst → next[file]? = tree[file]?) := by
  induction entries generalizing tree with
  | nil =>
    obtain rfl := Option.some.inj h
    simp
  | cons entry entries ih =>
    rw [List.foldlM_cons] at h
    obtain ⟨mid, hmid, hrest⟩ := Option.bind_eq_some_iff.mp h
    obtain ⟨hself, hothers⟩ := remaining_removeFrom hmid
    rw [List.map_cons, List.nodup_cons] at hnodup
    obtain ⟨hlater, hkept⟩ := ih hnodup.2 hrest
    refine ⟨fun ranges hmem => ?_, fun hfile => ?_⟩
    · rcases List.mem_cons.mp hmem with rfl | hmem
      · rw [← hself, remaining, remaining, hkept hnodup.1]
      · have hne : file ≠ entry.1 := fun heq => hnodup.1 (heq ▸ List.mem_map_of_mem hmem)
        rw [hlater ranges hmem, remaining, remaining, hothers file hne]
    · rw [List.map_cons, List.mem_cons, not_or] at hfile
      rw [hkept hfile.2, hothers file hfile.1]

lemma getElem?_foldl_deleteSource (files : List String) : (files.foldl deleteSource tree)[file]? =
    if file ∈ files ∧ isRustSource file = true then none else tree[file]? := by
  induction files generalizing tree with
  | nil => simp
  | cons other files ih =>
    rw [List.foldl_cons, ih]
    unfold deleteSource
    by_cases heq : file = other
    · subst heq
      by_cases hsource : isRustSource file = true <;> simp [hsource]
    · have hkept : (if isRustSource other = true then tree.erase other else tree)[file]? = tree[file]? := by
        split
        next => exact OrderedMap.getElem?_erase_of_ne heq
        next => rfl
      rw [hkept]
      simp [heq]

lemma remaining_applyUnits (h : applyUnits tree group = some next) : remaining next file [] =
    if file ∈ group.filterMap RemovalUnit.deletes ∧ isRustSource file = true then none
    else remaining tree file (group.filterMap (RemovalUnit.rangeIn file)) := by
  obtain ⟨mid, hmid, hnext⟩ := Option.bind_eq_some_iff.mp h
  obtain rfl := Option.some.inj hnext
  have hnodup := OrderedMap.nodup_keys_toList (removalsOf group)
  obtain ⟨hremoved, hkept⟩ := @remaining_foldlM_removeFrom _ _ file _ hnodup hmid
  rw [remaining, getElem?_foldl_deleteSource]
  split
  next => rfl
  next =>
    change remaining mid file [] = _
    have hget := getElem?_removalsOf group file
    split at hget
    next hnone =>
      rw [hnone, remaining, remaining, hkept]
      intro hmem
      obtain ⟨entry, hentry, rfl⟩ := List.mem_map.mp hmem
      rw [ExtTreeMap.mem_toList_iff_getElem?_eq_some.mp hentry] at hget
      simp at hget
    next => exact hremoved _ (ExtTreeMap.mem_toList_iff_getElem?_eq_some.mpr hget)

end

/-- The scan of every text ends, its items stand behind and within each other, and every group of
planned units can be applied and removes the bytes of its spans and its files. -/
theorem item_scan_sound : (∀ t : Text,
      (∀ stop, isBoundary t stop = true → ScanEnds t stop) ∧ Placed t 0 (utf8Len t) (parseItems t) ∧
        Nests t (parseItems t)) ∧
    ∀ tree scope target skippedReferenced skippedScope (group : List RemovalUnit),
      group.Subperm (planUnits tree scope target skippedReferenced skippedScope).units →
      ∃ next, applyUnits tree group = some next ∧ ∀ file, remaining next file [] =
        if file ∈ group.filterMap RemovalUnit.deletes ∧ isRustSource file = true then none
        else remaining tree file (group.filterMap (RemovalUnit.rangeIn file)) := by
  refine ⟨fun t => ⟨fun _ => scanEnds_of_boundary, placed_parseItems t, ?_⟩, ?_⟩
  · exact nests_scanItems _ (isBoundary_iff.mpr ⟨[], t, rfl, rfl⟩)
      (isBoundary_iff.mpr ⟨t, [], by simp, rfl⟩) (Nat.zero_le _)
  · intro tree scope target skippedReferenced skippedScope group hsub
    obtain ⟨ordered, hperm, hsublist⟩ := hsub
    have hplanned : WellPlanned tree group :=
      ((wellPlanned_planUnits ..).sublist hsublist).perm hperm.symm
    have hdefined : ∃ next, applyUnits tree group = some next := by
      by_cases hne : group = []
      · have hnone : (removalsOf []).toList = [] :=
          List.isEmpty_iff.mp (ExtTreeMap.isEmpty_toList.trans ExtTreeMap.isEmpty_empty)
        exact ⟨tree, by simp [hne, applyUnits, hnone]⟩
      · obtain ⟨next, hnext, -⟩ := applyUnits_shrinks hplanned hne
        exact ⟨next, hnext⟩
    obtain ⟨next, hnext⟩ := hdefined
    exact ⟨next, hnext, fun file => remaining_applyUnits hnext⟩

end AgzRustMcp
