import AgzRustMcp.Migrate.Lexemes

/-!
# What the token scan takes

The scan of a text whose front is read as one token goes on behind this token (`lexAt_append`).  White
space, numbers and marks leave the scan at their end (`ScannedOver`), and the scanners of literals and comments
take what the grammar of Rust makes of them.
-/

namespace AgzRustMcp

open Utf8Text
open String (utf8Len)

variable {chars : RustChars} {classes : CharClasses} {t rest : Text} {c : Char}

/-! ## One token after the other -/

/-- The scan from an index on, with enough fuel. -/
def lexAt (classes : CharClasses) (index : ℕ) (t : Text) : List Token :=
  lexFrom classes t.length index t

lemma lexFrom_eq_lexAt {fuel : ℕ} (index : ℕ) (hle : t.length ≤ fuel) :
    lexFrom classes fuel index t = lexAt classes index t := by
  suffices h : ∀ fuel fuel' index (t : Text), t.length ≤ fuel → t.length ≤ fuel' →
      lexFrom classes fuel index t = lexFrom classes fuel' index t from h _ _ _ _ hle le_rfl
  intro fuel
  induction fuel with
  | zero =>
    intro fuel' index t hle _
    obtain rfl := List.length_eq_zero_iff.mp (Nat.le_zero.mp hle)
    cases fuel' <;> rfl
  | succ fuel ih =>
    intro fuel' index t hle hle'
    cases t with
    | nil => cases fuel' <;> rfl
    | cons c t =>
      obtain ⟨fuel', rfl⟩ := Nat.exists_eq_add_of_lt hle'
      rw [List.length_cons] at hle
      have hpos := List.length_pos_of_ne_nil (@nextToken_ne_nil classes c t)
      have hdrop : ((c :: t).drop (nextToken classes (c :: t)).1.length).length ≤ t.length := by
        rw [List.length_drop, List.length_cons]
        omega
      unfold lexFrom
      split_ifs
      · exact ih _ _ _ (by omega) (by omega)
      · dsimp only
        rw [ih (t.length + fuel') _ _ (by omega) (by omega)]

lemma lexAt_space (index : ℕ) (hspace : isAsciiWhitespace c) :
    lexAt classes index (c :: t) = lexAt classes (index + 1) t := by
  rw [lexAt, List.length_cons, lexFrom, if_pos hspace]
  rfl

lemma lexAt_append {taken : Text} {kind : TokenKind} (index : ℕ) (hne : taken ≠ [])
    (hspace : ∀ c ∈ taken.head?, isAsciiWhitespace c = false)
    (hnext : nextToken classes (taken ++ rest) = (taken, kind)) : lexAt classes index (taken ++ rest) =
      ⟨index, index + utf8Len taken, kind, none⟩ :: lexAt classes (index + utf8Len taken) rest := by
  obtain ⟨first, others, rfl⟩ := List.exists_cons_of_ne_nil hne
  have hfirst := hspace first rfl
  rw [lexAt, List.cons_append, List.length_cons, lexFrom, hfirst, if_neg (by simp)]
  rw [List.cons_append] at hnext
  dsimp only
  rw [hnext, ← List.cons_append, List.drop_left]
  rw [lexFrom_eq_lexAt]
  simp

lemma lexAt_cons (index : ℕ) (hspace : isAsciiWhitespace c = false) : ∃ later, lexAt classes index (c :: t) =
      ⟨index, index + utf8Len (nextToken classes (c :: t)).1, (nextToken classes (c :: t)).2, none⟩ :: later := by
  rw [lexAt, List.length_cons, lexFrom, hspace, if_neg (by simp)]
  exact ⟨_, rfl⟩

lemma le_start_of_mem_lexAt {index : ℕ} {token : Token} (h : token ∈ lexAt classes index t) :
    index ≤ token.start := ((pairwise_lexFrom _ _ _).2 token h).1

/-! ## Single characters -/

/-- A character that ends what the scan takes to be a word. -/
def Stops (rest : Text) : Prop := ∀ c ∈ rest.head?, isRustWhitespace c

lemma ne_of_isRustWhitespace {d : Char} (hc : isRustWhitespace c) (hd : isRustWhitespace d = false) : c ≠ d := by
  rintro rfl
  rw [hd] at hc
  simp at hc

lemma not_continuesIdent_of_isRustWhitespace (h : isRustWhitespace c) :
    continuesIdent chars.toCharClasses c = false := by
  have hunder : c ≠ '_' := ne_of_isRustWhitespace h (by decide)
  simp [continuesIdent, chars.not_alphanumeric_of_whitespace c h, hunder]

lemma ne_of_startsIdent {d : Char} (hc : startsIdent classes c) (hascii : d.toNat < 128)
    (halpha : d.isAlpha = false) (hunder : d ≠ '_') : c ≠ d := by
  rintro rfl
  simp [startsIdent, classes.alphabetic_of_ascii c hascii, halpha, hunder] at hc

lemma nextToken_of_startsIdent (hc : startsIdent classes c)
    (hquote : c = 'b' → t.head? ≠ some '"' ∧ t.head? ≠ some '\'')
    (hraw : c = 'r' ∨ c = 'b' → scanRawString (c :: t) = none) :
    nextToken classes (c :: t) = (c :: t.takeWhile (continuesIdent classes), .ident) := by
  have hident : scanIdent classes (c :: t) = c :: t.takeWhile (continuesIdent classes) := by
    rw [scanIdent, if_pos hc]
  have hne : ∀ d : Char, d.toNat < 128 ∧ d.isAlpha = false ∧ d ≠ '_' → c ≠ d :=
    fun d hd => ne_of_startsIdent hc hd.1 hd.2.1 hd.2.2
  rw [nextToken, if_neg (fun h => hne '/' (by decide) h.1), if_neg (fun h => hne '/' (by decide) h.1),
    if_neg (hne '"' (by decide)), if_neg (hne '\'' (by decide)),
    if_neg (fun h => (hquote h.1).1 h.2), if_neg (fun h => (hquote h.1).2 h.2)]
  by_cases hr : c = 'r' ∨ c = 'b'
  · rw [if_pos hr, hraw hr, hident]
  · have hopen : ¬ (c = '(' ∨ c = '[' ∨ c = '\x7b') := by
      rintro (h | h | h)
      · exact hne '(' (by decide) h
      · exact hne '[' (by decide) h
      · exact hne '\x7b' (by decide) h
    have hclose : ¬ (c = ')' ∨ c = ']' ∨ c = '\x7d') := by
      rintro (h | h | h)
      · exact hne ')' (by decide) h
      · exact hne ']' (by decide) h
      · exact hne '\x7d' (by decide) h
    rw [if_neg hr, if_neg hopen, if_neg hclose, if_pos hc, hident]

lemma toNat_of_isDigit (h : c.isDigit) : 48 ≤ c.toNat ∧ c.toNat ≤ 57 := by
  simp only [Char.isDigit, Bool.and_eq_true, decide_eq_true_eq, UInt32.le_iff_toNat_le, ge_iff_le] at h
  have hval : c.toNat = c.val.toNat := rfl
  have hlow : '0'.val.toNat = 48 := rfl
  have hhigh : '9'.val.toNat = 57 := rfl
  omega

lemma toNat_of_isAlpha (h : c.isAlpha) : (65 ≤ c.toNat ∧ c.toNat ≤ 90) ∨ (97 ≤ c.toNat ∧ c.toNat ≤ 122) := by
  simp only [Char.isAlpha, Char.isUpper, Char.isLower, Bool.or_eq_true, Bool.and_eq_true,
    decide_eq_true_eq, UInt32.le_iff_toNat_le, ge_iff_le] at h
  have hval : c.toNat = c.val.toNat := rfl
  have hA : 'A'.val.toNat = 65 := rfl
  have hZ : 'Z'.val.toNat = 90 := rfl
  have ha : 'a'.val.toNat = 97 := rfl
  have hz : 'z'.val.toNat = 122 := rfl
  omega

/-- The characters for which the scan has a case of its own. -/
def scanMarks : List Char := ['/', '"', '\'', 'b', 'r', '(', '[', '\x7b', ')', ']', '\x7d']

lemma nextToken_of_notMem (hc : c ∉ scanMarks) : nextToken classes (c :: t) =
    if startsIdent classes c then (scanIdent classes (c :: t), .ident) else if c.isDigit then
      (c :: t.takeWhile fun d => d.isAlphanum || d == '_' || d == '.', .other)
    else if isAsciiPunctuation c then ([c], .punct c) else ([c], .other) := by
  simp only [scanMarks, List.mem_cons, List.not_mem_nil, or_false, not_or] at hc
  obtain ⟨hslash, hquote, hsingle, hb, hr, hopen, hopen', hopen'', hclose, hclose', hclose''⟩ := hc
  rw [nextToken, if_neg (fun h => hslash h.1), if_neg (fun h => hslash h.1), if_neg hquote,
    if_neg hsingle, if_neg (fun h => hb h.1), if_neg (fun h => hb h.1), if_neg (not_or.mpr ⟨hr, hb⟩),
    if_neg (not_or.mpr ⟨hopen, not_or.mpr ⟨hopen', hopen''⟩⟩),
    if_neg (not_or.mpr ⟨hclose, not_or.mpr ⟨hclose', hclose''⟩⟩)]

lemma nextToken_of_isDigit (hc : c.isDigit) : nextToken classes (c :: t) =
    (c :: t.takeWhile fun d => d.isAlphanum || d == '_' || d == '.', .other) := by
  obtain ⟨hlow, hhigh⟩ := toNat_of_isDigit hc
  have hne : ∀ d : Char, d.isDigit = false → c ≠ d := by
    rintro d hd rfl
    rw [hc] at hd
    simp at hd
  have halpha : c.isAlpha = false := by
    by_contra h
    have hrange := toNat_of_isAlpha (by simpa using h)
    omega
  have hstart : ¬ startsIdent classes c = true := by
    rw [startsIdent, classes.alphabetic_of_ascii c (by omega), halpha]
    simpa using hne '_' (by decide)
  have hmem : c ∉ scanMarks := by
    intro h
    have hnone : scanMarks.all fun d => !d.isDigit := by decide
    exact hne c (by simpa using List.all_eq_true.mp hnone c h) rfl
  rw [nextToken_of_notMem hmem, if_neg hstart, if_pos hc]

lemma nextToken_of_isMark (hc : isMark c) (hcomment : c = '/' → t.head? ≠ some '/' ∧ t.head? ≠ some '*') :
    ∃ kind, nextToken classes (c :: t) = ([c], kind) := by
  simp only [isMark, Bool.and_eq_true, bne_iff_ne] at hc
  obtain ⟨⟨⟨hpunct, hquote⟩, hsingle⟩, hunder⟩ := hc
  have hrange : (33 ≤ c.toNat ∧ c.toNat ≤ 47) ∨ (58 ≤ c.toNat ∧ c.toNat ≤ 64) ∨
      (91 ≤ c.toNat ∧ c.toNat ≤ 96) ∨ (123 ≤ c.toNat ∧ c.toNat ≤ 126) := by
    simp only [isAsciiPunctuation, Bool.or_eq_true, Bool.and_eq_true, decide_eq_true_eq] at hpunct
    omega
  have halpha : c.isAlpha = false := by
    by_contra h
    have hletter := toNat_of_isAlpha (by simpa using h)
    omega
  have hdigit : ¬ c.isDigit = true := by
    intro h
    have hnumber := toNat_of_isDigit h
    omega
  have hletter : ∀ d : Char, d.isAlpha → c ≠ d := by
    rintro d hd rfl
    rw [halpha] at hd
    simp at hd
  have hstart : ¬ startsIdent classes c = true := by
    rw [startsIdent, classes.alphabetic_of_ascii c (by omega), halpha]
    simpa using hunder
  have hword : ¬ (c = 'r' ∨ c = 'b') := by
    rintro (h | h)
    · exact hletter 'r' (by decide) h
    · exact hletter 'b' (by decide) h
  rw [nextToken, if_neg (fun h => (hcomment h.1).1 h.2), if_neg (fun h => (hcomment h.1).2 h.2),
    if_neg hquote, if_neg hsingle, if_neg (fun h => hletter 'b' (by decide) h.1),
    if_neg (fun h => hletter 'b' (by decide) h.1), if_neg hword]
  split
  · exact ⟨_, rfl⟩
  · split
    · exact ⟨_, rfl⟩
    · exact ⟨_, rfl⟩

lemma nextToken_of_isRustWhitespace (hc : isRustWhitespace c) (hskip : isAsciiWhitespace c = false) :
    nextToken chars.toCharClasses (c :: t) = ([c], .other) := by
  have hne : ∀ d : Char, isRustWhitespace d = false → c ≠ d := fun d hd => ne_of_isRustWhitespace hc hd
  have hstart : ¬ startsIdent chars.toCharClasses c = true := by
    rw [startsIdent, chars.not_alphabetic_of_whitespace c hc]
    simpa using hne '_' (by decide)
  have hplain : c.isDigit = false ∧ isAsciiPunctuation c = false := by
    simp only [isRustWhitespace, List.contains_iff_mem, List.mem_cons, List.not_mem_nil, or_false] at hc
    rcases hc with rfl | rfl | rfl | rfl | rfl | rfl | rfl | rfl | rfl | rfl | rfl <;> decide
  have hmem : c ∉ scanMarks := by
    intro h
    have hnone : scanMarks.all fun d => !isRustWhitespace d := by decide
    exact hne c (by simpa using List.all_eq_true.mp hnone c h) rfl
  rw [nextToken_of_notMem hmem, if_neg hstart, hplain.1, if_neg (by simp), hplain.2, if_neg (by simp)]

/-! ## What the scan passes -/

/-- The scan of a text in front of another one ends where the text ends. -/
def ScannedOver (classes : CharClasses) (t rest : Text) : Prop :=
  ∀ index, ∃ passed, lexAt classes index (t ++ rest) =
    passed ++ lexAt classes (index + utf8Len t) rest ∧ ∀ token ∈ passed, token.stop ≤ index + utf8Len t

lemma ScannedOver.nil : ScannedOver classes [] rest := fun _ => ⟨[], by simp, by simp⟩

lemma ScannedOver.append {t' : Text} (h : ScannedOver classes t (t' ++ rest)) (h' : ScannedOver classes t' rest) :
    ScannedOver classes (t ++ t') rest := by
  intro index
  obtain ⟨first, hfirst, hstops⟩ := h index
  obtain ⟨second, hsecond, hstops'⟩ := h' (index + utf8Len t)
  rw [String.utf8Len_append, ← Nat.add_assoc]
  refine ⟨first ++ second, by rw [List.append_assoc, hfirst, hsecond, List.append_assoc], ?_⟩
  intro token htoken
  rcases List.mem_append.mp htoken with hmem | hmem
  · exact (hstops token hmem).trans (Nat.le_add_right _ _)
  · exact hstops' token hmem

lemma ScannedOver.token {taken : Text} {kind : TokenKind} (hne : taken ≠ [])
    (hspace : ∀ c ∈ taken.head?, isAsciiWhitespace c = false)
    (hnext : nextToken classes (taken ++ rest) = (taken, kind)) : ScannedOver classes taken rest := by
  intro index
  refine ⟨[_], lexAt_append index hne hspace hnext, fun token htoken => ?_⟩
  rw [List.mem_singleton.mp htoken]

lemma ScannedOver.space (h : ∀ c ∈ t, isRustWhitespace c) : ScannedOver chars.toCharClasses t rest := by
  induction t with
  | nil => exact .nil
  | cons c t ih =>
    have htail := ih fun d hd => h d (List.mem_cons_of_mem _ hd)
    refine @ScannedOver.append _ [c] _ t ?_ htail
    cases hskip : isAsciiWhitespace c with
    | true =>
      intro index
      have hsize : utf8Len [c] = 1 := by
        simp only [isAsciiWhitespace, Bool.or_eq_true, beq_iff_eq] at hskip
        rcases hskip with (((rfl | rfl) | rfl) | rfl) | rfl <;> rfl
      exact ⟨[], by rw [hsize]; exact lexAt_space index hskip, by simp⟩
    | false =>
      have hnext := @nextToken_of_isRustWhitespace chars (t ++ rest) c (h c List.mem_cons_self) hskip
      exact .token (by simp) (by simpa using hskip) hnext

lemma ScannedOver.marks (h : ∀ c ∈ t, isMark c) (hcomment : ∀ front rest, t = front ++ '/' :: rest →
    rest.head? ≠ some '/' ∧ rest.head? ≠ some '*') (hstops : Stops rest) : ScannedOver classes t rest := by
  induction t with
  | nil => exact .nil
  | cons c t ih =>
    have htail := ih (fun d hd => h d (List.mem_cons_of_mem _ hd)) fun front rest heq =>
      hcomment (c :: front) rest (by rw [heq]; rfl)
    have hmark := h c List.mem_cons_self
    refine @ScannedOver.append _ [c] _ t ?_ htail
    obtain ⟨kind, hnext⟩ := @nextToken_of_isMark classes (t ++ rest) c hmark (by
      rintro rfl
      have hhead := hcomment [] t rfl
      cases t with
      | nil =>
        constructor
        · exact fun hslash => ne_of_isRustWhitespace (hstops '/' hslash) (by decide) rfl
        · exact fun hstar => ne_of_isRustWhitespace (hstops '*' hstar) (by decide) rfl
      | cons d t => exact hhead)
    refine .token (by simp) ?_ hnext
    rintro d hd
    obtain rfl := Option.some.inj hd
    by_contra hspace
    simp only [isAsciiWhitespace, Bool.not_eq_false, Bool.or_eq_true, beq_iff_eq] at hspace
    rcases hspace with (((rfl | rfl) | rfl) | rfl) | rfl <;> revert hmark <;> decide

/-! ## Words -/

lemma takeWhile_append_of_head {p : Char → Bool} (h : ∀ c ∈ rest.head?, p c = false) :
    (t ++ rest).takeWhile p = t.takeWhile p := by
  induction t with
  | nil =>
    cases rest with
    | nil => rfl
    | cons c rest => simp [h c rfl]
  | cons c t ih =>
    rw [List.cons_append, List.takeWhile_cons, List.takeWhile_cons, ih]

lemma drop_length_takeWhile (p : Char → Bool) (t rest : Text) :
    (t ++ rest).drop (t.takeWhile p).length = t.dropWhile p ++ rest := by
  have hsplit : t ++ rest = t.takeWhile p ++ (t.dropWhile p ++ rest) := by
    rw [← List.append_assoc, List.takeWhile_append_dropWhile]
  exact (congrArg (List.drop _) hsplit).trans List.drop_left

lemma scanRawString_eq_none (h : ∀ front back, t = front ++ '"' :: back →
    ∃ c ∈ front, c ≠ 'r' ∧ c ≠ 'b' ∧ c ≠ '#') : scanRawString t = none := by
  unfold scanRawString
  dsimp only
  split
  · split
    · rfl
    next c body hbody =>
      split
      next hquote =>
        subst hquote
        have hlead : rawLead t <+: t :=
          (List.takeWhile_prefix _).trans (List.take_prefix _ _)
        obtain ⟨back, hback⟩ := hlead
        have hcut : t.drop (rawLead t).length = back := by
          have hdrop := congrArg (List.drop (rawLead t).length) hback
          rw [List.drop_left] at hdrop
          exact hdrop.symm
        have hhashes : back.takeWhile (· = '#') ++ back.dropWhile (· = '#') = back :=
          List.takeWhile_append_dropWhile
        rw [hcut, List.length_append, ← List.drop_drop, hcut] at hbody
        have hrest := drop_length_takeWhile (· = '#') back []
        rw [List.append_nil, List.append_nil] at hrest
        rw [hrest] at hbody
        obtain ⟨c, hc, hr, hb, hhash⟩ := h (rawLead t ++ back.takeWhile (· = '#')) body (by
          rw [List.append_assoc, ← hbody, hhashes, hback])
        rcases List.mem_append.mp hc with hmem | hmem
        · have hword := List.mem_takeWhile_imp hmem
          simp only [Bool.or_eq_true, beq_iff_eq] at hword
          exact absurd hword (not_or.mpr ⟨hr, hb⟩)
        · exact absurd (by simpa using List.mem_takeWhile_imp hmem) hhash
      · rfl
  · rfl

lemma scanRawString_word (hword : '"' ∉ t) (hstops : Stops rest) : scanRawString (t ++ rest) = none := by
  apply scanRawString_eq_none
  intro front back heq
  rcases List.append_eq_append_iff.mp heq with ⟨mid, rfl, hrest⟩ | ⟨mid, rfl, hmid⟩
  · cases mid with
    | nil =>
      have hhead := hstops '"' (by rw [hrest]; rfl)
      exact absurd hhead (by decide)
    | cons c mid =>
      have hspace := hstops c (by rw [hrest]; rfl)
      refine ⟨c, by simp, ?_, ?_, ?_⟩
      all_goals exact ne_of_isRustWhitespace hspace (by decide)
  · cases mid with
    | nil =>
      rw [List.nil_append] at hmid
      have hhead := hstops '"' (by rw [← hmid]; rfl)
      exact absurd hhead (by decide)
    | cons c mid =>
      rw [List.cons_append, List.cons.injEq] at hmid
      rw [← hmid.1] at hword
      simp at hword

lemma head?_ne_of_stops {d : Char} (ht : d ∉ t) (hd : isRustWhitespace d = false)
    (hstops : Stops rest) : (t ++ rest).head? ≠ some d := by
  intro h
  cases t with
  | nil => exact ne_of_isRustWhitespace (hstops d h) hd rfl
  | cons c t =>
    obtain rfl := Option.some.inj h
    simp at ht

lemma ScannedOver.number (h : ∀ c ∈ t, isNumberChar c) (hstops : Stops rest) :
    ScannedOver chars.toCharClasses t rest := by
  have hplain : ∀ t : Text, (∀ c ∈ t, isNumberChar c) → ∀ d, isNumberChar d = false → d ∉ t := by
    intro t ht d hd hmem
    rw [ht d hmem] at hd
    simp at hd
  have hnumber : ∀ c ∈ rest.head?, isNumberChar c = false := by
    intro c hc
    have hspace := hstops c hc
    simp only [isRustWhitespace, List.contains_iff_mem, List.mem_cons, List.not_mem_nil, or_false] at hspace
    rcases hspace with rfl | rfl | rfl | rfl | rfl | rfl | rfl | rfl | rfl | rfl | rfl <;> decide
  induction hlen : t.length using Nat.strong_induction_on generalizing t with
  | _ n ih =>
    cases t with
    | nil => exact .nil
    | cons c t =>
      have hc := h c List.mem_cons_self
      have ht : ∀ d ∈ t, isNumberChar d := fun d hd => h d (List.mem_cons_of_mem _ hd)
      have hskip : ∀ d ∈ [c].head?, isAsciiWhitespace d = false := by
        rintro d hd
        obtain rfl := Option.some.inj hd
        by_contra hspace
        simp only [isAsciiWhitespace, Bool.not_eq_false, Bool.or_eq_true, beq_iff_eq] at hspace
        rcases hspace with (((rfl | rfl) | rfl) | rfl) | rfl <;> revert hc <;> decide
      -- the scan takes the start of the text, and the rest of it is shorter
      have hstep : ∀ (p : Char → Bool) (kind : TokenKind),
          nextToken chars.toCharClasses (c :: t ++ rest) = (c :: t.takeWhile p, kind) →
          ScannedOver chars.toCharClasses (c :: t) rest := by
        intro p kind hnext
        have hsplit : c :: t = (c :: t.takeWhile p) ++ t.dropWhile p := by
          rw [List.cons_append, List.takeWhile_append_dropWhile]
        have hlater := @ih (t.dropWhile p).length (by
          rw [← hlen, List.length_cons]
          exact Nat.lt_succ_of_le (List.dropWhile_sublist p).length_le) (t.dropWhile p)
          (fun d hd => ht d ((List.dropWhile_sublist p).subset hd)) rfl
        rw [hsplit]
        have hfront : nextToken chars.toCharClasses
            ((c :: t.takeWhile p) ++ (t.dropWhile p ++ rest)) = (c :: t.takeWhile p, kind) := by
          rw [← List.append_assoc, ← hsplit]
          exact hnext
        exact ScannedOver.append (.token (by simp) (by simpa using hskip) hfront) hlater
      by_cases hdigit : c.isDigit
      · refine hstep (fun d => d.isAlphanum || d == '_' || d == '.') .other ?_
        rw [List.cons_append, nextToken_of_isDigit hdigit, takeWhile_append_of_head]
        intro d hd
        have hnot := hnumber d hd
        simp only [isNumberChar, Bool.or_eq_false_iff] at hnot
        simp [hnot]
      · by_cases hstart : startsIdent chars.toCharClasses c
        · refine hstep (continuesIdent chars.toCharClasses) .ident ?_
          rw [List.cons_append, nextToken_of_startsIdent hstart, takeWhile_append_of_head]
          · exact fun d hd => not_continuesIdent_of_isRustWhitespace (hstops d hd)
          · intro _
            exact ⟨head?_ne_of_stops (hplain t ht _ (by decide)) (by decide) hstops,
              head?_ne_of_stops (hplain t ht _ (by decide)) (by decide) hstops⟩
          · intro _
            exact @scanRawString_word (c :: t) rest (hplain (c :: t) h _ (by decide)) hstops
        · have hmark : isMark c ∧ c ≠ '/' := by
            simp only [startsIdent, Bool.or_eq_true, beq_iff_eq, not_or] at hstart
            simp only [isNumberChar, Bool.or_eq_true, beq_iff_eq, Char.isAlphanum] at hc
            rcases hc with ((((halpha | hc) | hc) | rfl) | rfl) | rfl
            · have hrange := toNat_of_isAlpha halpha
              rw [chars.alphabetic_of_ascii c (by omega)] at hstart
              exact absurd halpha hstart.2
            · exact absurd hc hdigit
            · exact absurd hc hstart.1
            all_goals decide
          obtain ⟨kind, hnext⟩ := @nextToken_of_isMark chars.toCharClasses (t ++ rest) c hmark.1
            fun hslash => absurd hslash hmark.2
          refine hstep (fun _ => false) kind ?_
          rw [List.cons_append, hnext]
          simp

/-! ## Literals and comments -/

lemma scanQuoted_cons (hquote : c ≠ '"') (hescape : c ≠ '\\') :
    scanQuoted (c :: t) = (scanQuoted t).map (c :: ·) := by
  cases t with
  | nil => simp [scanQuoted, hquote]
  | cons d t => rw [scanQuoted, if_neg hescape, if_neg hquote]

lemma StringBody.scanQuoted_eq (h : StringBody t) (rest : Text) :
    scanQuoted (t ++ '"' :: rest) = some (t ++ ['"']) := by
  induction h with
  | nil => cases rest <;> rfl
  | plain hquote hescape _ ih =>
    rw [List.cons_append, scanQuoted_cons hquote hescape, ih, Option.map_some, List.cons_append]
  | escape _ ih =>
    rw [List.cons_append, List.cons_append, scanQuoted, if_pos rfl, ih, Option.map_some,
      List.cons_append, List.cons_append]

lemma not_prefix_append {hashes : ℕ} (h : ¬ List.replicate hashes '#' <+: t) (rest : Text) :
    ¬ List.replicate hashes '#' <+: t ++ '"' :: rest := by
  intro hprefixed
  obtain ⟨back, hback⟩ := hprefixed
  rcases List.append_eq_append_iff.mp hback with ⟨mid, hmid, -⟩ | ⟨mid, hmid, hrest⟩
  · exact h ⟨mid, hmid.symm⟩
  · cases mid with
    | nil => exact h (by rw [hmid, List.append_nil])
    | cons c mid =>
      rw [List.cons_append, List.cons.injEq] at hrest
      have hhash : c = '#' := List.eq_of_mem_replicate (by rw [hmid]; simp)
      rw [← hrest.1] at hhash
      exact absurd hhash (by decide)

lemma scanRawBody_eq {hashes : ℕ} (h : ∀ front back, t = front ++ '"' :: back →
    ¬ List.replicate hashes '#' <+: back) (rest : Text) :
    scanRawBody hashes (t ++ '"' :: (List.replicate hashes '#' ++ rest)) =
      some (t ++ '"' :: List.replicate hashes '#') := by
  induction t with
  | nil => simp [scanRawBody, List.isPrefixOf_iff_prefix]
  | cons c t ih =>
    have hlater := ih fun front back heq => h (c :: front) back (by rw [heq]; rfl)
    rw [List.cons_append, scanRawBody, if_neg, hlater, Option.map_some, List.cons_append]
    rintro ⟨rfl, hclosed⟩
    exact not_prefix_append (h [] t rfl) _ (List.isPrefixOf_iff_prefix.mp hclosed)

lemma CommentRest.scanBlockComment_eq {depth : ℕ} (h : CommentRest depth t) (rest : Text) :
    scanBlockComment depth (t ++ rest) = t := by
  induction h with
  | last => simp [scanBlockComment]
  | close _ ih => simp [scanBlockComment, ih]
  | opening _ ih => simp [scanBlockComment, ih]
  | @plain depth c t hopen hclose hrest ih =>
    cases t with
    | nil => cases hrest
    | cons d t =>
      rw [List.cons_append] at ih
      rw [List.cons_append, List.cons_append, scanBlockComment, if_neg, if_neg, ih]
      · exact fun hclosed => hclose ⟨hclosed.1, by rw [hclosed.2]; rfl⟩
      · exact fun hopened => hopen ⟨hopened.1, by rw [hopened.2]; rfl⟩

lemma scanRawString_eq {lead : Text} {hashes : ℕ} (hlead : lead = ['r'] ∨ lead = ['b', 'r'])
    (h : ∀ front back, t = front ++ '"' :: back → ¬ List.replicate hashes '#' <+: back) (rest : Text) :
    scanRawString (lead ++ List.replicate hashes '#' ++ '"' :: (t ++ '"' :: (List.replicate hashes '#' ++ rest))) =
        some (lead ++ List.replicate hashes '#' ++ '"' :: (t ++ '"' :: List.replicate hashes '#')) := by
  have hhashes : ∀ later : Text, (List.replicate hashes '#' ++ '"' :: later).takeWhile (· = '#') =
      List.replicate hashes '#' := by
    intro later
    rw [takeWhile_append_of_head (by simp), List.takeWhile_eq_self_iff]
    intro c hc
    simp [List.eq_of_mem_replicate hc]
  have hfront : ∀ later : Text, rawLead (lead ++ (List.replicate hashes '#' ++ '"' :: later)) = lead := by
    intro later
    rcases hlead with rfl | rfl
    · cases hashes with
      | zero => rfl
      | succ hashes => simp [rawLead, List.replicate_succ]
    · rfl
  have hr : 'r' ∈ lead := by
    rcases hlead with rfl | rfl <;> simp
  unfold scanRawString
  dsimp only
  rw [List.append_assoc, hfront, if_pos hr, List.drop_left, hhashes, ← List.append_assoc, List.drop_left]
  dsimp only
  rw [if_pos rfl, List.length_replicate, scanRawBody_eq h, Option.map_some]

end AgzRustMcp
