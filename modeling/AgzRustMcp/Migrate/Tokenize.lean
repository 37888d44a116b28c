import AgzRustMcp.Migrate.Rewrite
import AgzRustMcp.Repair.ItemSpans

/-!
# The token scan by bytes

`tokenize` of `change/migrate/rewrite.rs` on the offsets that it runs on.  An escape skips a byte,
not a character, and `source[index..]` is not defined inside a character; yet the scan of every text
is defined, and its tokens part the text (`tokenize_parts`).
-/

namespace AgzRustMcp.ByteScan

open Utf8Text
open String (utf8Len)

section

variable (classes : CharClasses) (t : Text)

/-- `source[index..]`. -/
def sliceFrom? (i : ℕ) : Option Text := slice? t i (utf8Len t)

def lineCommentFrom (i : ℕ) : ℕ :=
  if i < utf8Len t ∧ byteIs t i '\n' = false then lineCommentFrom (i + 1) else i
termination_by utf8Len t - i

def blockCommentFrom (depth i : ℕ) : ℕ :=
  if i < utf8Len t ∧ 0 < depth then
    if byteIs t i '/' && byteIs t (i + 1) '*' then blockCommentFrom (depth + 1) (i + 2)
    else if byteIs t i '*' && byteIs t (i + 1) '/' then blockCommentFrom (depth - 1) (i + 2)
    else blockCommentFrom depth (i + 1)
  else i
termination_by utf8Len t - i

def scanIdent (start : ℕ) : Option ℕ := do
  match (← sliceFrom? t start).head? with
  | none => some start
  | some first =>
    if startsIdent classes first then
      let base := start + first.utf8Size
      some (base + utf8Len ((← sliceFrom? t base).takeWhile (continuesIdent classes)))
    else some (start + first.utf8Size)

/-- The loop of `scan_quoted`. -/
def quotedFrom (i : ℕ) : Option ℕ :=
  if i < utf8Len t then
    if byteIs t i '\\' then quotedFrom (i + 2)
    else if byteIs t i '"' then some (i + 1)
    else quotedFrom (i + 1)
  else none
termination_by utf8Len t - i

def scanQuoted (start : ℕ) : Option ℕ := quotedFrom t (start + 1)

/-- The loop of `scan_char_or_lifetime` behind a backslash. -/
def closingQuoteFrom (i : ℕ) : Option ℕ :=
  if i < utf8Len t then if byteIs t i '\'' then some (i + 1) else closingQuoteFrom (i + 1) else none
termination_by utf8Len t - i

def scanCharOrLifetime (start : ℕ) : Option (Option ℕ) :=
  if utf8Len t ≤ start + 1 then some none
  else if byteIs t (start + 1) '\\' then some (closingQuoteFrom t (start + 2))
  else do
    match (← sliceFrom? t (start + 1)).head? with
    | none => some none
    | some c =>
      if startsIdent classes c then
        let identEnd ← scanIdent classes t (start + 1)
        if byteIs t identEnd '\'' ∧ identEnd = start + 2 then some (some (identEnd + 1))
        else some (some identEnd)
      else
        let stop := start + 1 + c.utf8Size
        if byteIs t stop '\'' then some (some (stop + 1)) else some (some stop)

/-- The loop of `scan_raw_string` over the letters in front. -/
def rawPrefixFrom : ℕ → Bool → ℕ → Bool × ℕ
  | 0, sawR, i => (sawR, i)
  | most + 1, sawR, i =>
    if byteIs t i 'r' then rawPrefixFrom most true (i + 1)
    else if byteIs t i 'b' then rawPrefixFrom most sawR (i + 1)
    else (sawR, i)

/-- The loop of `scan_raw_string` behind the opening quote. -/
def rawBodyFrom (hashes i : ℕ) : Option ℕ :=
  if i < utf8Len t then
    if byteIs t i '"' ∧ countHashes t hashes (i + 1) = hashes then some (i + 1 + hashes)
    else rawBodyFrom hashes (i + 1)
  else none
termination_by utf8Len t - i

def scanRawString (start : ℕ) : Option ℕ :=
  let (sawR, i) := rawPrefixFrom t 2 false start
  if sawR then
    let hashes := countHashes t (utf8Len t) i
    if byteIs t (i + hashes) '"' then rawBodyFrom t hashes (i + hashes + 1) else none
  else none

/-- The last arm of `tokenize`, with the character at the offset. -/
def scanOther (start : ℕ) (c : Char) : Option (ℕ × TokenKind) :=
  if startsIdent classes c then (scanIdent classes t start).map (·, .ident)
  else if c.isDigit then
    some (passOver t (fun d => d.isAlphanum || d == '_' || d == '.') (start + c.utf8Size) (utf8Len t), .other)
  else if isAsciiPunctuation c then some (start + c.utf8Size, .punct c)
  else some (start + c.utf8Size, .other)

/-- The arms of `tokenize` behind white space: the end of the token, and its kind. -/
def nextToken (start : ℕ) : Option (ℕ × TokenKind) :=
  if byteIs t start '/' && byteIs t (start + 1) '/' then some (lineCommentFrom t (start + 2), .comment)
  else if byteIs t start '/' && byteIs t (start + 1) '*' then
    some (blockCommentFrom t 1 (start + 2), .comment)
  else if byteIs t start '"' then some ((scanQuoted t start).getD (utf8Len t), .literal)
  else if byteIs t start '\'' then
    (scanCharOrLifetime classes t start).map fun stop => (stop.getD (start + 1), .literal)
  else if byteIs t start 'b' && byteIs t (start + 1) '"' then
    some ((scanQuoted t (start + 1)).getD (utf8Len t), .literal)
  else if byteIs t start 'b' && byteIs t (start + 1) '\'' then
    (scanCharOrLifetime classes t (start + 1)).map fun stop => (stop.getD (start + 2), .literal)
  else if byteIs t start 'r' || byteIs t start 'b' then
    match scanRawString t start with
    | some stop => some (stop, .literal)
    | none => (scanIdent classes t start).map (·, .ident)
  else
    match ['(', '[', '\x7b'].find? (byteIs t start), [')', ']', '\x7d'].find? (byteIs t start) with
    | some c, _ => some (start + 1, .opening c)
    | none, some c => some (start + 1, .closing c)
    | none, none => do scanOther classes t start ((← sliceFrom? t start).head?.getD ' ')

/-- The loop of `tokenize`, with a number of turns. -/
def tokensFrom : ℕ → ℕ → Option (List Token)
  | 0, _ => none
  | left + 1, start =>
    if start < utf8Len t then
      if byteMeets t start isAsciiWhitespace then tokensFrom left (start + 1)
      else do
        let (stop, kind) ← nextToken classes t start
        some (⟨start, stop, kind, none⟩ :: (← tokensFrom left stop))
    else some []

/-- `tokenize`, which turns no more often than there are bytes. -/
def tokenize : Option ParsedFile :=
  (tokensFrom classes t (utf8Len t + 1) 0).map pairDelimiters

end

section

variable {classes : CharClasses} {t : Text} {start i r : ℕ} {c : Char}

lemma le_of_isBoundary (h : isBoundary t i = true) : i ≤ utf8Len t := by
  obtain ⟨pre, suf, rfl, rfl⟩ := isBoundary_iff.mp h
  rw [String.utf8Len_append]
  omega

lemma lt_of_byteIs (h : byteIs t i c = true) : i < utf8Len t := by
  have hfound : charAt? t i = some c := by simpa [byteIs] using h
  obtain ⟨pre, suf, rfl, rfl⟩ := charAt?_eq_some_iff.mp hfound
  have hpos := c.utf8Size_pos
  rw [String.utf8Len_append, String.utf8Len_cons]
  omega

lemma isBoundary_utf8Len (t : Text) : isBoundary t (utf8Len t) = true :=
  isBoundary_iff.mpr ⟨t, [], by simp, rfl⟩

lemma reaches_of_byteIs (h : byteIs t i c = true) (hc : c.toNat < 128) (hi : start ≤ i) :
    Reaches t start (utf8Len t) (i + 1) :=
  reaches_succ h hc hi (lt_of_byteIs h)

lemma sliceFrom?_of_boundary (h : isBoundary t i = true) : ∃ pre rest, t = pre ++ rest ∧ utf8Len pre = i ∧
    sliceFrom? t i = some rest := by
  obtain ⟨pre, rest, rfl, rfl⟩ := isBoundary_iff.mp h
  exact ⟨pre, rest, rfl, rfl, slice?_eq_some_iff.mpr ⟨pre, [], by simp, rfl, rfl⟩⟩

lemma reaches_lineCommentFrom (hi : start < i) (hle : i ≤ utf8Len t) :
    Reaches t start (utf8Len t) (lineCommentFrom t i) := by
  fun_induction lineCommentFrom t i with
  | case1 i h ih => exact ih (by omega) (by omega)
  | case2 i h =>
    rw [not_and, Bool.not_eq_false] at h
    by_cases hlt : i < utf8Len t
    · exact ⟨hi, hle, isBoundary_of_byteIs (h hlt)⟩
    · obtain rfl : i = utf8Len t := by omega
      exact reaches_stop (isBoundary_utf8Len t) hi

lemma reaches_blockCommentFrom {depth : ℕ} (hi : start < i) (hle : i ≤ utf8Len t)
    (hclosed : depth = 0 → isBoundary t i = true) : Reaches t start (utf8Len t) (blockCommentFrom t depth i) := by
  fun_induction blockCommentFrom t depth i with
  | case1 depth i h hopen ih =>
    rw [Bool.and_eq_true] at hopen
    exact ih (by omega) (lt_of_byteIs hopen.2) (by omega)
  | case2 depth i h _ hclose ih =>
    rw [Bool.and_eq_true] at hclose
    exact ih (by omega) (lt_of_byteIs hclose.2) fun _ => isBoundary_succ_of_byteIs hclose.2 (by decide)
  | case3 depth i h _ _ ih => exact ih (by omega) (by omega) (by omega)
  | case4 depth i h =>
    by_cases hdepth : depth = 0
    · exact ⟨hi, hle, hclosed hdepth⟩
    · obtain rfl : i = utf8Len t := by omega
      exact reaches_stop (isBoundary_utf8Len t) hi

lemma reaches_quotedFrom (hi : start ≤ i) (h : quotedFrom t i = some r) : Reaches t start (utf8Len t) r := by
  fun_induction quotedFrom t i with
  | case1 i hlt _ ih => exact ih (by omega) h
  | case2 i hlt _ hquote =>
    obtain rfl := Option.some.inj h
    exact reaches_of_byteIs hquote (by decide) hi
  | case3 i hlt _ _ ih => exact ih (by omega) h
  | case4 i hlt => simp at h

lemma reaches_closingQuoteFrom (hi : start ≤ i) (h : closingQuoteFrom t i = some r) :
    Reaches t start (utf8Len t) r := by
  fun_induction closingQuoteFrom t i with
  | case1 i hlt hquote =>
    obtain rfl := Option.some.inj h
    exact reaches_of_byteIs hquote (by decide) hi
  | case2 i hlt _ ih => exact ih (by omega) h
  | case3 i hlt => simp at h

lemma reaches_rawBodyFrom {hashes : ℕ} (hi : start ≤ i) (h : rawBodyFrom t hashes i = some r) :
    Reaches t start (utf8Len t) r := by
  fun_induction rawBodyFrom t hashes i with
  | case1 i hlt hclosed =>
    obtain rfl := Option.some.inj h
    obtain ⟨hboundary, -⟩ := isBoundary_countHashes hashes (isBoundary_succ_of_byteIs hclosed.1 (by decide))
    rw [hclosed.2] at hboundary
    exact ⟨by omega, le_of_isBoundary hboundary, hboundary⟩
  | case2 i hlt _ ih => exact ih (by omega) h
  | case3 i hlt => simp at h

lemma le_rawPrefixFrom (most : ℕ) (sawR : Bool) (i : ℕ) : i ≤ (rawPrefixFrom t most sawR i).2 := by
  fun_induction rawPrefixFrom t most sawR i with
  | case1 => exact le_rfl
  | case2 _ _ i _ ih => omega
  | case3 _ _ i _ _ ih => omega
  | case4 => exact le_rfl

lemma reaches_scanRawString (h : scanRawString t start = some r) : Reaches t start (utf8Len t) r := by
  have hge := le_rawPrefixFrom (t := t) 2 false start
  unfold scanRawString at h
  dsimp only at h
  split at h
  next =>
    split at h
    next => exact reaches_rawBodyFrom (by omega) h
    next => simp at h
  next => simp at h

lemma reaches_scanIdent (classes : CharClasses) (hstart : isBoundary t start = true) (hlt : start < utf8Len t) :
    ∃ stop, scanIdent classes t start = some stop ∧ Reaches t start (utf8Len t) stop := by
  obtain ⟨pre, rest, ht, hlen, hslice⟩ := sliceFrom?_of_boundary hstart
  cases rest with
  | nil =>
    rw [List.append_nil] at ht
    rw [ht] at hlt
    omega
  | cons c rest =>
    have hpos := c.utf8Size_pos
    have hbehind : isBoundary t (start + c.utf8Size) = true :=
      isBoundary_iff.mpr ⟨pre ++ [c], rest, by simp [ht], by simp [hlen]⟩
    unfold scanIdent
    rw [hslice]
    by_cases hfirst : startsIdent classes c = true
    · obtain ⟨pre', rest', ht', hlen', hslice'⟩ := sliceFrom?_of_boundary hbehind
      refine ⟨start + c.utf8Size + utf8Len (rest'.takeWhile (continuesIdent classes)), ?_, ?_⟩
      · simp [hfirst, hslice']
      · have hboundary : isBoundary t
            (start + c.utf8Size + utf8Len (rest'.takeWhile (continuesIdent classes))) = true := by
          refine isBoundary_iff.mpr ⟨pre' ++ rest'.takeWhile (continuesIdent classes),
            rest'.dropWhile (continuesIdent classes), ?_, ?_⟩
          · rw [ht', List.append_assoc, List.takeWhile_append_dropWhile]
          · rw [String.utf8Len_append, hlen']
        exact ⟨by omega, le_of_isBoundary hboundary, hboundary⟩
    · exact ⟨start + c.utf8Size, by simp [hfirst], ⟨by omega, le_of_isBoundary hbehind, hbehind⟩⟩

lemma reaches_scanCharOrLifetime (classes : CharClasses) (hquote : byteIs t start '\'' = true) :
    ∃ stop, scanCharOrLifetime classes t start = some stop ∧ Reaches t start (utf8Len t) (stop.getD (start + 1)) := by
  have hpassed : Reaches t start (utf8Len t) (start + 1) := reaches_of_byteIs hquote (by decide) le_rfl
  unfold scanCharOrLifetime
  split
  next => exact ⟨none, rfl, hpassed⟩
  next hlt =>
  split
  next =>
    refine ⟨_, rfl, ?_⟩
    cases hclosed : closingQuoteFrom t (start + 2) with
    | none => exact hpassed
    | some r => exact reaches_closingQuoteFrom (by omega) hclosed
  next =>
  obtain ⟨pre, rest, ht, hlen, hslice⟩ := sliceFrom?_of_boundary hpassed.boundary
  rw [hslice]
  cases rest with
  | nil => exact ⟨none, rfl, hpassed⟩
  | cons c rest =>
    by_cases hfirst : startsIdent classes c = true
    · obtain ⟨identEnd, hident, hreaches⟩ := reaches_scanIdent classes hpassed.boundary (by omega)
      have hlong := hreaches.lt
      by_cases hclosed : byteIs t identEnd '\'' = true ∧ identEnd = start + 2
      · refine ⟨some (identEnd + 1), ?_, reaches_of_byteIs hclosed.1 (by decide) (by omega)⟩
        simp only [hfirst, hident, if_pos hclosed, Option.bind_eq_bind, Option.bind_some, List.head?_cons, if_true]
      · exact ⟨some identEnd, by simp [hfirst, hident, hclosed], ⟨by simp; omega, hreaches.le, hreaches.boundary⟩⟩
    · have hpos := c.utf8Size_pos
      have hbehind : isBoundary t (start + 1 + c.utf8Size) = true :=
        isBoundary_iff.mpr ⟨pre ++ [c], rest, by simp [ht], by simp [hlen]⟩
      by_cases hclosed : byteIs t (start + 1 + c.utf8Size) '\'' = true
      · exact ⟨some (start + 1 + c.utf8Size + 1), by simp [hfirst, hclosed],
          reaches_of_byteIs hclosed (by decide) (by omega)⟩
      · exact ⟨some (start + 1 + c.utf8Size), by simp [hfirst, hclosed],
          ⟨by simp; omega, le_of_isBoundary hbehind, hbehind⟩⟩

lemma reaches_scanOther (classes : CharClasses) (hfound : charAt? t start = some c) :
    ∃ stop kind, scanOther classes t start c = some (stop, kind) ∧ Reaches t start (utf8Len t) stop := by
  have hpos := c.utf8Size_pos
  have hbehind := isBoundary_add_of_charAt? hfound
  have hpassed : Reaches t start (utf8Len t) (start + c.utf8Size) :=
    ⟨by omega, le_of_isBoundary hbehind, hbehind⟩
  have hlt := lt_of_lt_of_le hpassed.lt hpassed.le
  unfold scanOther
  by_cases hfirst : startsIdent classes c = true
  · obtain ⟨stop, hident, hreaches⟩ := reaches_scanIdent classes (isBoundary_of_charAt? hfound) hlt
    exact ⟨stop, .ident, by rw [if_pos hfirst, hident]; rfl, hreaches⟩
  rw [if_neg hfirst]
  by_cases hdigit : c.isDigit = true
  · have hnumber : ∀ d : Char, (d.isAlphanum || d == '_' || d == '.') = true → d.toNat < 128 := by
      intro d hd
      rcases Bool.or_eq_true .. ▸ hd with hd | hd
      · exact lt_of_isWordByte hd
      · exact beq_iff_eq.mp hd ▸ (by decide)
    obtain ⟨hge, hle, hboundary⟩ := passOver_spec hnumber hbehind hpassed.le
    exact ⟨_, _, if_pos hdigit, ⟨by omega, hle, hboundary⟩⟩
  rw [if_neg hdigit]
  by_cases hmark : isAsciiPunctuation c = true
  · exact ⟨_, _, if_pos hmark, hpassed⟩
  · exact ⟨_, _, if_neg hmark, hpassed⟩

lemma reaches_nextToken (classes : CharClasses) (hstart : isBoundary t start = true) (hlt : start < utf8Len t) :
    ∃ stop kind, nextToken classes t start = some (stop, kind) ∧ Reaches t start (utf8Len t) stop := by
  have hend : Reaches t start (utf8Len t) (utf8Len t) := reaches_stop (isBoundary_utf8Len t) hlt
  have hquoted : ∀ i, start ≤ i → Reaches t start (utf8Len t) ((scanQuoted t i).getD (utf8Len t)) := by
    intro i hi
    cases hclosed : scanQuoted t i with
    | none => exact hend
    | some r => exact reaches_quotedFrom (by omega) hclosed
  unfold nextToken
  split
  next hmarks =>
    rw [Bool.and_eq_true] at hmarks
    exact ⟨_, _, rfl, reaches_lineCommentFrom (by omega) (lt_of_byteIs hmarks.2)⟩
  next =>
  split
  next hmarks =>
    rw [Bool.and_eq_true] at hmarks
    exact ⟨_, _, rfl, reaches_blockCommentFrom (by omega) (lt_of_byteIs hmarks.2) (by simp)⟩
  next =>
  split
  next => exact ⟨_, _, rfl, hquoted start le_rfl⟩
  next =>
  split
  next hquote =>
    obtain ⟨stop, hscanned, hreaches⟩ := reaches_scanCharOrLifetime classes hquote
    exact ⟨_, _, by rw [hscanned]; rfl, hreaches⟩
  next =>
  split
  next => exact ⟨_, _, rfl, hquoted (start + 1) (by omega)⟩
  next =>
  split
  next hmarks =>
    rw [Bool.and_eq_true] at hmarks
    obtain ⟨stop, hscanned, hreaches⟩ := reaches_scanCharOrLifetime classes hmarks.2
    exact ⟨_, _, by rw [hscanned]; rfl, ⟨by have := hreaches.lt; omega, hreaches.le, hreaches.boundary⟩⟩
  next =>
  split
  next =>
    cases hraw : scanRawString t start with
    | some r => exact ⟨r, .literal, rfl, reaches_scanRawString hraw⟩
    | none =>
      obtain ⟨stop, hident, hreaches⟩ := reaches_scanIdent classes hstart hlt
      exact ⟨stop, .ident, by rw [hident]; rfl, hreaches⟩
  next =>
  -- The brackets are ASCII characters.
  have hbracket : ∀ {brackets : List Char}, (∀ c ∈ brackets, c.toNat < 128) → ∀ {c},
      brackets.find? (byteIs t start) = some c → Reaches t start (utf8Len t) (start + 1) :=
    fun hascii _ hfound => reaches_of_byteIs (List.find?_some hfound)
      (hascii _ (List.mem_of_find?_eq_some hfound)) le_rfl
  split
  next c hopen => exact ⟨_, _, rfl, hbracket (by simp) hopen⟩
  next c hclose => exact ⟨_, _, rfl, hbracket (by simp) hclose⟩
  next =>
    obtain ⟨pre, rest, ht, hlen, hslice⟩ := sliceFrom?_of_boundary hstart
    cases rest with
    | nil =>
      rw [List.append_nil] at ht
      rw [ht] at hlt
      omega
    | cons c rest =>
      rw [hslice]
      exact reaches_scanOther classes (charAt?_eq_some_iff.mpr ⟨pre, rest, ht, hlen⟩)

/-! ## The parts of a text -/

/-- The tokens part a text from an offset on, with white space between. -/
structure Parts (t : Text) (start : ℕ) (tokens : List Token) : Prop where
  pairwise : tokens.Pairwise Token.Before
  placed : ∀ token ∈ tokens, start ≤ token.start ∧ token.start < token.stop ∧
    isBoundary t token.start = true ∧ isBoundary t token.stop = true
  covered : ∀ i, start ≤ i → i < utf8Len t →
    byteMeets t i isAsciiWhitespace = true ∨ ∃ token ∈ tokens, token.start ≤ i ∧ i < token.stop

lemma Parts.congr {tokens tokens' : List Token} (h : Parts t start tokens)
    (hbare : tokens'.map Token.bare = tokens.map Token.bare) : Parts t start tokens' := by
  have hback : ∀ token ∈ tokens, ∃ token' ∈ tokens', token'.bare = token.bare := fun token htoken =>
    List.mem_map.mp (hbare ▸ List.mem_map_of_mem htoken)
  have hsame : ∀ token' ∈ tokens', ∃ token ∈ tokens, token.bare = token'.bare := fun token htoken =>
    List.mem_map.mp (hbare ▸ List.mem_map_of_mem htoken)
  have hspan : ∀ {token token' : Token}, token.bare = token'.bare →
      token.start = token'.start ∧ token.stop = token'.stop := by
    intro token token' h
    have hstart := congrArg Token.start h
    have hstop := congrArg Token.stop h
    exact ⟨hstart, hstop⟩
  have hpairwise : (tokens.map Token.bare).Pairwise Token.Before := List.pairwise_map.mpr h.pairwise
  refine ⟨?_, fun token' htoken => ?_, fun i hi hlt => ?_⟩
  · rw [← hbare] at hpairwise
    have hbares := List.pairwise_map.mp hpairwise
    exact hbares
  · obtain ⟨token, hmem, heq⟩ := hsame token' htoken
    rw [← (hspan heq).1, ← (hspan heq).2]
    exact h.placed token hmem
  · refine (h.covered i hi hlt).imp_right fun ⟨token, htoken, hwithin⟩ => ?_
    obtain ⟨token', hmem, heq⟩ := hback token htoken
    exact ⟨token', hmem, by rwa [(hspan heq).1, (hspan heq).2]⟩

lemma exists_tokensFrom (classes : CharClasses) (left : ℕ) (hstart : isBoundary t start = true)
    (hleft : utf8Len t < start + left) :
    ∃ tokens, tokensFrom classes t left start = some tokens ∧ Parts t start tokens := by
  induction left generalizing start with
  | zero =>
    have hle := le_of_isBoundary hstart
    omega
  | succ left ih =>
    unfold tokensFrom
    split
    next hlt =>
      split
      next hspace =>
        obtain ⟨tokens, htokens, hparts⟩ := ih
          (isBoundary_succ_of_byteMeets (fun _ => lt_of_isAsciiWhitespace) hspace) (by omega)
        refine ⟨tokens, htokens, hparts.pairwise, fun token htoken => ?_, fun i hi hle => ?_⟩
        · obtain ⟨hge, hrest⟩ := hparts.placed token htoken
          exact ⟨by omega, hrest⟩
        · by_cases heq : i = start
          · exact Or.inl (heq ▸ hspace)
          · exact hparts.covered i (by omega) hle
      next =>
        obtain ⟨stop, kind, hnext, hreaches⟩ := reaches_nextToken classes hstart hlt
        have hlong := hreaches.lt
        obtain ⟨tokens, htokens, hparts⟩ := ih hreaches.boundary (by omega)
        refine ⟨⟨start, stop, kind, none⟩ :: tokens, by simp [hnext, htokens], ?_, ?_, ?_⟩
        · exact List.pairwise_cons.mpr ⟨fun token htoken => (hparts.placed token htoken).1, hparts.pairwise⟩
        · intro token htoken
          rcases List.mem_cons.mp htoken with rfl | hlater
          · exact ⟨le_rfl, hlong, hstart, hreaches.boundary⟩
          · obtain ⟨hge, hrest⟩ := hparts.placed token hlater
            exact ⟨by omega, hrest⟩
        · intro i hi hle
          by_cases hwithin : i < stop
          · exact Or.inr ⟨_, List.mem_cons_self .., hi, hwithin⟩
          · refine (hparts.covered i (by omega) hle).imp_right fun ⟨token, htoken, hbounds⟩ => ?_
            exact ⟨token, List.mem_cons_of_mem _ htoken, hbounds⟩
    next => exact ⟨[], rfl, List.Pairwise.nil, by simp, by omega⟩

end

/-- Every text is scanned to its end, and its tokens part it. -/
theorem tokenize_parts (classes : CharClasses) (t : Text) :
    ∃ file, tokenize classes t = some file ∧ Parts t 0 file.tokens := by
  have hzero : isBoundary t 0 = true := isBoundary_iff.mpr ⟨[], t, rfl, rfl⟩
  obtain ⟨tokens, htokens, hparts⟩ := exists_tokensFrom classes (utf8Len t + 1) hzero (by omega)
  exact ⟨pairDelimiters tokens, by rw [tokenize, htokens]; rfl, hparts.congr (map_bare_pairFrom ..)⟩

end AgzRustMcp.ByteScan
