import AgzRustMcp.Migrate.Parameters
import AgzRustMcp.Migrate.Scanning

/-!
# What the token scan reads

A lexeme that is one token is read whole or is cut (`Lexeme.read`), and the scan of a sequence follows by
induction over its lexemes (`tokenize_reads_lexemes_iff`).
-/

namespace AgzRustMcp

open Utf8Text
open String (utf8Len)

variable {chars : RustChars} {rest : Text} {c : Char} {t : Text}

/-! ## Lexemes -/

/-- What may stand behind a lexeme. -/
def Lexeme.Follows (lexeme : Lexeme chars) (rest : Text) : Prop :=
  Stops rest ∧ (lexeme.isLineComment → ∀ c ∈ rest.head?, c = '\n')

lemma Name.not_mem_text (name : Name chars) {d : Char} (hascii : d.toNat < 128)
    (halnum : d.isAlphanum = false) (hunder : d ≠ '_') : d ∉ name.text := by
  have halpha : d.isAlpha = false := by
    rw [Char.isAlphanum, Bool.or_eq_false_iff] at halnum
    exact halnum.1
  intro hmem
  rcases List.mem_cons.mp hmem with rfl | hmem
  · rcases name.first_ok with h | h
    · rw [chars.xidStart_of_ascii _ hascii, halpha] at h
      simp at h
    · exact hunder h
  · have h := name.rest_ok d hmem
    rw [chars.xidContinue_of_ascii _ hascii, halnum] at h
    simp [hunder] at h

lemma Name.takeWhile_append (name : Name chars) (hstops : Stops rest) :
    (name.rest ++ rest).takeWhile (continuesIdent chars.toCharClasses) =
      name.rest.takeWhile (continuesIdent chars.toCharClasses) :=
  takeWhile_append_of_head fun c hc => not_continuesIdent_of_isRustWhitespace (hstops c hc)

lemma utf8Len_takeWhile_lt {p : Char → Bool} (h : ¬ ∀ c ∈ t, p c) : utf8Len (t.takeWhile p) < utf8Len t := by
  have hsplit : t.takeWhile p ++ t.dropWhile p = t := List.takeWhile_append_dropWhile
  have hne : t.dropWhile p ≠ [] := by
    intro hnil
    rw [hnil, List.append_nil, List.takeWhile_eq_self_iff] at hsplit
    exact h hsplit
  have hlen := congrArg utf8Len hsplit
  rw [String.utf8Len_append] at hlen
  have hpos : utf8Len (t.dropWhile p) ≠ 0 := fun h0 => hne (String.utf8Len_eq_zero.mp h0)
  omega

lemma Name.nextToken_of_starts (name : Name chars)
    (hstart : startsIdent chars.toCharClasses name.first) (hstops : Stops rest) :
    nextToken chars.toCharClasses (name.text ++ rest) =
      (name.first :: name.rest.takeWhile (continuesIdent chars.toCharClasses), .ident) := by
  have hquote : ∀ d : Char, d.toNat < 128 → d.isAlphanum = false → d ≠ '_' →
      isRustWhitespace d = false → (name.rest ++ rest).head? ≠ some d := by
    intro d hascii halnum hunder hspace
    refine head?_ne_of_stops (fun hmem => ?_) hspace hstops
    exact name.not_mem_text hascii halnum hunder (List.mem_cons_of_mem _ hmem)
  have hraw := @scanRawString_word name.text rest
    (name.not_mem_text (by decide) (by decide) (by decide)) hstops
  rw [Name.text, List.cons_append] at hraw ⊢
  rw [nextToken_of_startsIdent hstart (fun _ => ⟨?_, ?_⟩) (fun _ => hraw), name.takeWhile_append hstops]
  · exact hquote '"' (by decide) (by decide) (by decide) (by decide)
  · exact hquote '\'' (by decide) (by decide) (by decide) (by decide)

lemma Name.nextToken_of_not_starts (name : Name chars)
    (hstart : ¬ startsIdent chars.toCharClasses name.first) (rest : Text) :
    nextToken chars.toCharClasses (name.text ++ rest) = ([name.first], .other) := by
  have hascii : ¬ name.first.toNat < 128 := by
    intro hascii
    apply hstart
    rw [startsIdent, chars.alphabetic_of_ascii _ hascii]
    rcases name.first_ok with h | h
    · rw [chars.xidStart_of_ascii _ hascii] at h
      simp [h]
    · simp [h]
  have hmem : name.first ∉ scanMarks := by
    intro h
    have hall : scanMarks.all fun d => d.toNat < 128 := by decide
    exact hascii (by simpa using List.all_eq_true.mp hall _ h)
  have hdigit : ¬ name.first.isDigit = true := by
    intro h
    have hrange := toNat_of_isDigit h
    omega
  have hpunct : ¬ isAsciiPunctuation name.first = true := by
    simp only [isAsciiPunctuation, Bool.or_eq_true, Bool.and_eq_true, decide_eq_true_eq]
    omega
  rw [Name.text, List.cons_append, nextToken_of_notMem hmem, if_neg hstart, if_neg hdigit, if_neg hpunct]

lemma Name.scanCharOrLifetime_eq (name : Name chars) (hstops : Stops rest) :
    scanCharOrLifetime chars.toCharClasses (name.text ++ rest) = some
      (if startsIdent chars.toCharClasses name.first then
        name.first :: name.rest.takeWhile (continuesIdent chars.toCharClasses) else [name.first]) := by
  have hquote : '\'' ∉ name.text := name.not_mem_text (by decide) (by decide) (by decide)
  have hescape : name.first ≠ '\\' := by
    intro h
    have hmem : '\\' ∈ name.text := by
      rw [← h]
      exact List.mem_cons_self
    exact name.not_mem_text (by decide) (by decide) (by decide) hmem
  rw [Name.text, List.cons_append, scanCharOrLifetime, if_neg hescape]
  by_cases hstart : startsIdent chars.toCharClasses name.first
  · rw [if_pos hstart, if_pos hstart, scanIdent, if_pos hstart, name.takeWhile_append hstops]
    dsimp only
    rw [if_neg]
    rintro ⟨hhead, -⟩
    have hdrop : (name.first :: (name.rest ++ rest)).drop
        (name.first :: name.rest.takeWhile (continuesIdent chars.toCharClasses)).length =
        name.rest.dropWhile (continuesIdent chars.toCharClasses) ++ rest := by
      rw [List.length_cons, List.drop_succ_cons, drop_length_takeWhile]
    rw [hdrop] at hhead
    refine head?_ne_of_stops (fun hmem => hquote ?_) (by decide) hstops hhead
    exact List.mem_cons_of_mem _ ((List.dropWhile_sublist _).subset hmem)
  · rw [if_neg hstart, if_neg hstart, if_neg]
    refine head?_ne_of_stops (fun hmem => hquote ?_) (by decide) hstops
    exact List.mem_cons_of_mem _ hmem

/-- Whether a lexeme is read as one token of its kind, and with its text. -/
def Lexeme.ReadsAs (lexeme : Lexeme chars) (rest : Text) (kind : TokenKind) : Prop :=
  nextToken chars.toCharClasses (lexeme.text ++ rest) = (lexeme.text, kind)

/-- Whether a lexeme is read as a token of another length or kind. -/
def Lexeme.CutAs (lexeme : Lexeme chars) (rest : Text) (kind : TokenKind) : Prop :=
  utf8Len (nextToken chars.toCharClasses (lexeme.text ++ rest)).1 ≠ utf8Len lexeme.text ∨
    (nextToken chars.toCharClasses (lexeme.text ++ rest)).2 ≠ kind

lemma read_ident (raw : Bool) (name : Name chars) (hstops : Stops rest) :
    ((Lexeme.ident raw name).IsWhole → (Lexeme.ident raw name).ReadsAs rest .ident) ∧
      (¬ (Lexeme.ident raw name).IsWhole → (Lexeme.ident raw name).CutAs rest .ident) := by
  cases raw with
  | true =>
    refine ⟨fun h => absurd h.1 (by simp), fun _ => .inl ?_⟩
    have hraw : scanRawString ('r' :: '#' :: name.text ++ rest) = none :=
      scanRawString_word (by simp [name.not_mem_text]) hstops
    have hr : startsIdent chars.toCharClasses 'r' := by
      rw [startsIdent, chars.alphabetic_of_ascii _ (by decide)]
      rfl
    have hhash : continuesIdent chars.toCharClasses '#' = false := by
      rw [continuesIdent, chars.alphanumeric_of_ascii _ (by decide)]
      rfl
    have hnext : nextToken chars.toCharClasses ('r' :: '#' :: name.text ++ rest) = (['r'], .ident) := by
      rw [List.cons_append] at hraw ⊢
      rw [nextToken_of_startsIdent hr (by simp) (fun _ => hraw), List.cons_append,
        List.takeWhile_cons, hhash, if_neg (by simp)]
    change utf8Len (nextToken chars.toCharClasses ('r' :: '#' :: name.text ++ rest)).1 ≠
      utf8Len ('r' :: '#' :: name.text)
    rw [hnext, String.utf8Len_cons, String.utf8Len_cons, String.utf8Len_cons]
    have hpos := Char.utf8Size_pos '#'
    simp only [String.utf8Len_nil]
    omega
  | false =>
    have hwhole : (Lexeme.ident false name).IsWhole ↔ name.IsAlphanumeric := by
      simp [Lexeme.IsWhole]
    unfold Lexeme.ReadsAs Lexeme.CutAs
    rw [hwhole]
    change (_ → nextToken chars.toCharClasses (name.text ++ rest) = (name.text, .ident)) ∧
      (_ → utf8Len (nextToken chars.toCharClasses (name.text ++ rest)).1 ≠ utf8Len name.text ∨
        (nextToken chars.toCharClasses (name.text ++ rest)).2 ≠ .ident)
    by_cases hstart : startsIdent chars.toCharClasses name.first
    · rw [name.nextToken_of_starts hstart hstops]
      constructor
      · intro h
        rw [List.takeWhile_eq_self_iff.mpr h.2]
        rfl
      · intro h
        have hlt := utf8Len_takeWhile_lt fun hall => h ⟨hstart, hall⟩
        refine .inl ?_
        rw [Name.text, String.utf8Len_cons, String.utf8Len_cons]
        omega
    · rw [name.nextToken_of_not_starts hstart]
      exact ⟨fun h => absurd h.1 hstart, fun _ => .inr (by simp)⟩

lemma read_lifetime (raw : Bool) (name : Name chars) (hstops : Stops rest) :
    ((Lexeme.lifetime raw name).IsWhole → (Lexeme.lifetime raw name).ReadsAs rest .literal) ∧
      (¬ (Lexeme.lifetime raw name).IsWhole → (Lexeme.lifetime raw name).CutAs rest .literal) := by
  have hnext : ∀ t : Text, nextToken chars.toCharClasses ('\'' :: t) =
      ('\'' :: (scanCharOrLifetime chars.toCharClasses t).getD [], .literal) := by
    intro t
    rw [nextToken, if_neg (by simp), if_neg (by simp), if_neg (by decide), if_pos rfl]
  cases raw with
  | true =>
    refine ⟨fun h => absurd h.1 (by simp), fun _ => .inl ?_⟩
    have hr : startsIdent chars.toCharClasses 'r' := by
      rw [startsIdent, chars.alphabetic_of_ascii _ (by decide)]
      rfl
    have hhash : continuesIdent chars.toCharClasses '#' = false := by
      rw [continuesIdent, chars.alphanumeric_of_ascii _ (by decide)]
      rfl
    have hscan : scanCharOrLifetime chars.toCharClasses ('r' :: '#' :: (name.text ++ rest)) = some ['r'] := by
      rw [scanCharOrLifetime, if_neg (by decide), if_pos hr, scanIdent, if_pos hr,
        List.takeWhile_cons, hhash, if_neg (by simp)]
      simp
    change utf8Len (nextToken chars.toCharClasses ('\'' :: 'r' :: '#' :: (name.text ++ rest))).1 ≠
      utf8Len ('\'' :: 'r' :: '#' :: name.text)
    rw [hnext, hscan, Option.getD_some]
    simp only [String.utf8Len_cons, String.utf8Len_nil]
    have hpos := Char.utf8Size_pos '#'
    omega
  | false =>
    unfold Lexeme.ReadsAs Lexeme.CutAs
    change (_ → nextToken chars.toCharClasses ('\'' :: (name.text ++ rest)) = ('\'' :: name.text, .literal)) ∧
      (_ → utf8Len (nextToken chars.toCharClasses ('\'' :: (name.text ++ rest))).1 ≠ utf8Len ('\'' :: name.text) ∨ _)
    rw [hnext, name.scanCharOrLifetime_eq hstops, Option.getD_some]
    by_cases hstart : startsIdent chars.toCharClasses name.first
    · rw [if_pos hstart]
      have hwhole : (Lexeme.lifetime false name).IsWhole ↔ name.IsAlphanumeric := by
        simp [Lexeme.IsWhole, hstart]
      rw [hwhole]
      constructor
      · intro h
        rw [List.takeWhile_eq_self_iff.mpr h.2]
        rfl
      · intro h
        have hlt := utf8Len_takeWhile_lt fun hall => h ⟨hstart, hall⟩
        refine .inl ?_
        simp only [Name.text, String.utf8Len_cons]
        omega
    · rw [if_neg hstart]
      have hwhole : (Lexeme.lifetime false name).IsWhole ↔ name.rest = [] := by
        simp [Lexeme.IsWhole, hstart]
      rw [hwhole]
      constructor
      · intro h
        rw [Name.text, h]
      · intro h
        refine .inl ?_
        have hpos : utf8Len name.rest ≠ 0 := fun h0 => h (String.utf8Len_eq_zero.mp h0)
        simp only [Name.text, String.utf8Len_cons, String.utf8Len_nil]
        omega

lemma takeThrough_append (h : c ∉ t) (rest : Text) : takeThrough c (t ++ c :: rest) = some (t ++ [c]) := by
  unfold takeThrough
  rw [if_pos (by simp), takeWhile_append_of_head (by simp), List.takeWhile_eq_self_iff.mpr]
  intro d hd
  simp only [ne_eq, decide_eq_true_eq]
  rintro rfl
  exact h hd

lemma CharBody.scanCharOrLifetime_eq (chars : RustChars) (body : CharBody) (rest : Text) :
    ∃ taken, scanCharOrLifetime chars.toCharClasses (body.text ++ '\'' :: rest) = some taken ∧
      (body.IsWhole chars → taken = body.text ++ ['\'']) ∧
      (¬ body.IsWhole chars → utf8Len taken < utf8Len (body.text ++ ['\''])) := by
  cases body with
  | plain c h =>
    have hescape : c ≠ '\\' := by
      rintro rfl
      simp at h
    have hquote : continuesIdent chars.toCharClasses '\'' = false := by
      rw [continuesIdent, chars.alphanumeric_of_ascii _ (by decide)]
      rfl
    have htext : (CharBody.plain c h).text = [c] := rfl
    rw [htext, List.singleton_append, scanCharOrLifetime, if_neg hescape]
    by_cases hstart : startsIdent chars.toCharClasses c
    · have htake : ('\'' :: rest).takeWhile (continuesIdent chars.toCharClasses) = [] := by
        rw [List.takeWhile_cons, hquote]
        rfl
      rw [if_pos hstart, scanIdent, if_pos hstart, htake]
      dsimp only
      have hwhole : (CharBody.plain c h).IsWhole chars ↔ c.utf8Size = 1 := by
        simp [CharBody.IsWhole, hstart]
      rw [hwhole]
      by_cases hsize : c.utf8Size = 1
      · refine ⟨[c] ++ ['\''], ?_, fun _ => rfl, fun hnot => absurd hsize hnot⟩
        rw [if_pos ⟨rfl, by simpa using hsize⟩]
      · refine ⟨[c], ?_, fun hone => absurd hone hsize, fun _ => ?_⟩
        · rw [if_neg]
          exact fun hone => hsize (by simpa using hone.2)
        · simp only [String.utf8Len_append, String.utf8Len_cons, String.utf8Len_nil]
          have hpos := Char.utf8Size_pos '\''
          omega
    · rw [if_neg hstart, List.head?_cons, if_pos rfl]
      exact ⟨_, rfl, fun _ => rfl, fun hnot => absurd (fun hc => absurd hc hstart) hnot⟩
  | escape c h =>
    have htext : (CharBody.escape c h).text = ['\\', c] := rfl
    rw [htext, List.cons_append, List.singleton_append, scanCharOrLifetime, if_pos rfl]
    by_cases hquote : c = '\''
    · subst hquote
      refine ⟨['\\', '\''], by simp [takeThrough], fun hwhole => absurd rfl hwhole, fun _ => ?_⟩
      decide
    · refine ⟨['\\', c] ++ ['\''], ?_, fun _ => rfl, fun hnot => absurd hquote hnot⟩
      have hnot : '\'' ∉ [c] := by simpa using Ne.symm hquote
      have hthrough := takeThrough_append hnot rest
      rw [List.singleton_append] at hthrough
      rw [hthrough]
      rfl
  | code marker digits h hdigits =>
    have htext : (CharBody.code marker digits h hdigits).text = '\\' :: marker :: digits := rfl
    have hmarker : '\'' ∉ marker :: digits := by
      rw [List.mem_cons, not_or]
      refine ⟨?_, hdigits⟩
      rcases h with rfl | rfl <;> decide
    refine ⟨'\\' :: marker :: digits ++ ['\''], ?_, fun _ => rfl, fun hnot => absurd trivial hnot⟩
    rw [htext, List.cons_append, scanCharOrLifetime, if_pos rfl, takeThrough_append hmarker]
    rfl

lemma read_char (byte : Bool) (body : CharBody) (rest : Text) :
    ((@Lexeme.char chars byte body).IsWhole → (@Lexeme.char chars byte body).ReadsAs rest .literal) ∧
      (¬ (@Lexeme.char chars byte body).IsWhole → (@Lexeme.char chars byte body).CutAs rest .literal) := by
  obtain ⟨taken, htaken, hwhole, hcut⟩ := body.scanCharOrLifetime_eq chars rest
  have hnext : nextToken chars.toCharClasses
      ((@Lexeme.char chars byte body).text ++ rest) = ((if byte then ['b'] else []) ++ '\'' :: taken, .literal) := by
    have htext : (@Lexeme.char chars byte body).text ++ rest =
        (if byte then ['b'] else []) ++ '\'' :: (body.text ++ '\'' :: rest) := by
      simp [Lexeme.text]
    rw [htext]
    cases byte with
    | true =>
      change nextToken chars.toCharClasses ('b' :: '\'' :: (body.text ++ '\'' :: rest)) = _
      rw [nextToken, if_neg (by simp), if_neg (by simp), if_neg (by decide), if_neg (by decide),
        if_neg (by simp), if_pos ⟨rfl, rfl⟩, List.tail_cons, htaken]
      rfl
    | false =>
      change nextToken chars.toCharClasses ('\'' :: (body.text ++ '\'' :: rest)) = _
      rw [nextToken, if_neg (by simp), if_neg (by simp), if_neg (by decide), if_pos rfl, htaken]
      rfl
  unfold Lexeme.ReadsAs Lexeme.CutAs
  rw [hnext]
  constructor
  · intro h
    rw [hwhole h]
    rfl
  · intro h
    have hlt := hcut h
    refine .inl ?_
    rw [Lexeme.text, String.utf8Len_append, String.utf8Len_append, String.utf8Len_cons, String.utf8Len_cons]
    omega

lemma read_string (byte : Bool) (body : Text) (h : StringBody body) (rest : Text) :
    (@Lexeme.string chars byte body h).ReadsAs rest .literal := by
  have hscan := h.scanQuoted_eq rest
  have htext : (@Lexeme.string chars byte body h).text ++ rest =
      (if byte then ['b'] else []) ++ '"' :: (body ++ '"' :: rest) := by
    simp [Lexeme.text]
  unfold Lexeme.ReadsAs
  rw [htext]
  cases byte with
  | true =>
    change nextToken chars.toCharClasses ('b' :: '"' :: (body ++ '"' :: rest)) = _
    rw [nextToken, if_neg (by simp), if_neg (by simp), if_neg (by decide), if_neg (by decide),
      if_pos ⟨rfl, rfl⟩, List.tail_cons, hscan]
    rfl
  | false =>
    change nextToken chars.toCharClasses ('"' :: (body ++ '"' :: rest)) = _
    rw [nextToken, if_neg (by simp), if_neg (by simp), if_pos rfl, hscan]
    rfl

lemma read_rawString (byte : Bool) (hashes : ℕ) (body : Text)
    (h : ∀ front rest, body = front ++ '"' :: rest → ¬ List.replicate hashes '#' <+: rest)
    (rest : Text) : (@Lexeme.rawString chars byte hashes body h).ReadsAs rest .literal := by
  have hscan := @scanRawString_eq body (if byte then ['b', 'r'] else ['r']) hashes
    (by cases byte <;> simp) h rest
  have htext : (@Lexeme.rawString chars byte hashes body h).text ++ rest =
      (if byte then ['b', 'r'] else ['r']) ++ List.replicate hashes '#' ++
        '"' :: (body ++ '"' :: (List.replicate hashes '#' ++ rest)) := by
    simp [Lexeme.text]
  unfold Lexeme.ReadsAs
  rw [htext]
  cases byte with
  | true =>
    simp only [if_true, List.cons_append] at hscan ⊢
    rw [nextToken, if_neg (by simp), if_neg (by simp), if_neg (by decide), if_neg (by decide),
      if_neg (by simp), if_neg (by simp), if_pos (by simp), hscan]
    simp [Lexeme.text]
  | false =>
    simp only [Bool.false_eq_true, if_false, List.cons_append] at hscan ⊢
    rw [nextToken, if_neg (by simp), if_neg (by simp), if_neg (by decide), if_neg (by decide),
      if_neg (by simp), if_neg (by simp), if_pos (by simp), hscan]
    simp [Lexeme.text]

lemma read_blockComment (body : Text) (h : CommentRest 1 body) (rest : Text) :
    (@Lexeme.blockComment chars body h).ReadsAs rest .comment := by
  change nextToken chars.toCharClasses ('/' :: '*' :: (body ++ rest)) = _
  rw [nextToken, if_neg (by simp), if_pos ⟨rfl, rfl⟩, List.tail_cons, h.scanBlockComment_eq]
  rfl

lemma read_lineComment (body : Text) (h : '\n' ∉ body) (hline : ∀ c ∈ rest.head?, c = '\n') :
    (@Lexeme.lineComment chars body h).ReadsAs rest .comment := by
  change nextToken chars.toCharClasses ('/' :: ('/' :: body ++ rest)) = _
  rw [nextToken, if_pos ⟨rfl, rfl⟩, takeWhile_append_of_head (by simpa using hline), List.takeWhile_eq_self_iff.mpr]
  · rfl
  · intro d hd
    simp only [ne_eq, decide_eq_true_eq]
    rintro rfl
    simp at hd
    exact h hd

lemma Lexeme.read (lexeme : Lexeme chars) {kind : TokenKind} (hkind : lexeme.kind? = some kind)
    (hfollows : lexeme.Follows rest) :
    (lexeme.IsWhole → lexeme.ReadsAs rest kind) ∧ (¬ lexeme.IsWhole → lexeme.CutAs rest kind) := by
  cases lexeme with
  | ident raw name =>
    obtain rfl := Option.some.inj hkind
    exact read_ident raw name hfollows.1
  | lifetime raw name =>
    obtain rfl := Option.some.inj hkind
    exact read_lifetime raw name hfollows.1
  | char byte body =>
    obtain rfl := Option.some.inj hkind
    exact read_char byte body rest
  | string byte body h =>
    obtain rfl := Option.some.inj hkind
    exact ⟨fun _ => read_string byte body h rest, fun hnot => absurd trivial hnot⟩
  | rawString byte hashes body h =>
    obtain rfl := Option.some.inj hkind
    exact ⟨fun _ => read_rawString byte hashes body h rest, fun hnot => absurd trivial hnot⟩
  | blockComment body h =>
    obtain rfl := Option.some.inj hkind
    exact ⟨fun _ => read_blockComment body h rest, fun hnot => absurd trivial hnot⟩
  | lineComment body h =>
    obtain rfl := Option.some.inj hkind
    exact ⟨fun _ => read_lineComment body h (hfollows.2 rfl), fun hnot => absurd trivial hnot⟩
  | number first rest h hrest => simp [Lexeme.kind?] at hkind
  | marks text hne h hcomment => simp [Lexeme.kind?] at hkind

/-! ## Sequences -/

lemma Lexeme.head_text (lexeme : Lexeme chars) {kind : TokenKind} (hkind : lexeme.kind? = some kind) :
    lexeme.text ≠ [] ∧ ∀ c ∈ lexeme.text.head?, isAsciiWhitespace c = false := by
  have hname : ∀ name : Name chars, isAsciiWhitespace name.first = false := by
    intro name
    by_contra hspace
    simp only [isAsciiWhitespace, Bool.not_eq_false, Bool.or_eq_true, beq_iff_eq] at hspace
    have hmem : name.first ∈ name.text := List.mem_cons_self
    rcases hspace with (((h | h) | h) | h) | h
    all_goals
      rw [h] at hmem
      exact name.not_mem_text (by decide) (by decide) (by decide) hmem
  cases lexeme with
  | ident raw name =>
    cases raw with
    | true => simp [Lexeme.text, isAsciiWhitespace]
    | false =>
      refine ⟨by simp [Lexeme.text, Name.text], fun c hc => ?_⟩
      obtain rfl := Option.some.inj hc
      exact hname name
  | lifetime raw name => simp [Lexeme.text, isAsciiWhitespace]
  | char byte body => cases byte <;> simp [Lexeme.text, isAsciiWhitespace]
  | string byte body h => cases byte <;> simp [Lexeme.text, isAsciiWhitespace]
  | rawString byte hashes body h => cases byte <;> simp [Lexeme.text, isAsciiWhitespace]
  | blockComment body h => simp [Lexeme.text, isAsciiWhitespace]
  | lineComment body h => simp [Lexeme.text, isAsciiWhitespace]
  | number first rest h hrest => simp [Lexeme.kind?] at hkind
  | marks text hne h hcomment => simp [Lexeme.kind?] at hkind

lemma Lexeme.passed (lexeme : Lexeme chars) (hwhole : lexeme.IsWhole) (hfollows : lexeme.Follows rest) :
    ScannedOver chars.toCharClasses lexeme.text rest := by
  cases hkind : lexeme.kind? with
  | some kind =>
    obtain ⟨hne, hspace⟩ := lexeme.head_text hkind
    exact .token hne hspace ((lexeme.read hkind hfollows).1 hwhole)
  | none =>
    cases lexeme with
    | number first rest h hrest =>
      refine .number (fun c hc => ?_) hfollows.1
      rcases List.mem_cons.mp hc with rfl | hmem
      · simp [isNumberChar, Char.isAlphanum, h]
      · exact hrest c hmem
    | marks text hne h hcomment => exact .marks h hcomment hfollows.1
    | ident raw name => simp [Lexeme.kind?] at hkind
    | lifetime raw name => simp [Lexeme.kind?] at hkind
    | char byte body => simp [Lexeme.kind?] at hkind
    | string byte body h => simp [Lexeme.kind?] at hkind
    | rawString byte hashes body h => simp [Lexeme.kind?] at hkind
    | blockComment body h => simp [Lexeme.kind?] at hkind
    | lineComment body h => simp [Lexeme.kind?] at hkind

lemma Lexeme.isWhole_of_kind (lexeme : Lexeme chars) (hkind : lexeme.kind? = none) : lexeme.IsWhole := by
  cases lexeme with
  | ident raw name => simp [Lexeme.kind?] at hkind
  | lifetime raw name => simp [Lexeme.kind?] at hkind
  | char byte body => simp [Lexeme.kind?] at hkind
  | _ => trivial

lemma tokensIn_append (first second : List Token) (start stop : ℕ) :
    tokensIn (first ++ second) start stop = tokensIn first start stop ++ tokensIn second start stop := by
  simp [tokensIn]

lemma tokensIn_eq_nil {tokens : List Token} {start stop : ℕ}
    (h : ∀ token ∈ tokens, token.stop ≤ start ∨ stop ≤ token.start) : tokensIn tokens start stop = [] := by
  rw [tokensIn, List.map_eq_nil_iff, List.filter_eq_nil_iff]
  intro token htoken
  have hout := h token htoken
  simp only [decide_eq_true_eq]
  omega

lemma Lexeme.tokensIn_iff (lexeme : Lexeme chars) {kind : TokenKind} (hkind : lexeme.kind? = some kind)
    (hfollows : lexeme.Follows rest) {index : ℕ} {before : List Token}
    (hbefore : ∀ token ∈ before, token.stop ≤ index) :
    tokensIn (before ++ lexAt chars.toCharClasses index (lexeme.text ++ rest)) index
        (index + utf8Len lexeme.text) = [⟨index, index + utf8Len lexeme.text, kind, none⟩] ↔ lexeme.IsWhole := by
  obtain ⟨hne, hspace⟩ := lexeme.head_text hkind
  have hpos : 0 < utf8Len lexeme.text :=
    Nat.pos_of_ne_zero fun h0 => hne (String.utf8Len_eq_zero.mp h0)
  rw [tokensIn_append, tokensIn_eq_nil fun token htoken => .inl (hbefore token htoken), List.nil_append]
  by_cases hwhole : lexeme.IsWhole
  · refine ⟨fun _ => hwhole, fun _ => ?_⟩
    rw [lexAt_append index hne hspace ((lexeme.read hkind hfollows).1 hwhole), ← List.singleton_append,
      tokensIn_append, tokensIn_eq_nil fun token htoken => .inr (le_start_of_mem_lexAt htoken),
      List.append_nil]
    simp [tokensIn, Token.bare, hpos]
  · refine ⟨fun htokens => ?_, fun h => absurd h hwhole⟩
    have hcut := (lexeme.read hkind hfollows).2 hwhole
    unfold Lexeme.CutAs at hcut
    obtain ⟨first, others, htext⟩ := List.exists_cons_of_ne_nil hne
    have hfirst := hspace first (by rw [htext]; rfl)
    obtain ⟨later, hlater⟩ := @lexAt_cons chars.toCharClasses (others ++ rest) first index hfirst
    rw [← List.cons_append, ← htext] at hlater
    have htaken : 0 < utf8Len (nextToken chars.toCharClasses (lexeme.text ++ rest)).1 := by
      rw [htext, List.cons_append]
      exact Nat.pos_of_ne_zero fun h0 => nextToken_ne_nil first (others ++ rest)
        (String.utf8Len_eq_zero.mp h0)
    -- the token that starts with the lexeme shares a byte with it
    rw [hlater, tokensIn, List.filter_cons_of_pos, List.map_cons] at htokens
    swap
    · rw [decide_eq_true_eq]
      constructor
      · dsimp only
        omega
      · dsimp only
        omega
    have hsame := (List.cons.inj htokens).1
    simp only [Token.bare, Token.mk.injEq] at hsame
    obtain ⟨-, hstop, hkinds, -⟩ := hsame
    rcases hcut with hlen | hother
    · exact absurd hlen (by omega)
    · exact absurd hkinds hother

lemma Sequence.reads_iff (sequence : Sequence chars) {index : ℕ} {before : List Token}
    (hbefore : ∀ token ∈ before, token.stop ≤ index) :
    ReadsLexemes (before ++ lexAt chars.toCharClasses index sequence.text) (sequence.located index) ↔
      ∀ lexeme ∈ sequence.lexemes, lexeme.IsWhole := by
  induction sequence generalizing index before with
  | nil => simp [ReadsLexemes, Sequence.located, Sequence.lexemes]
  | last lexeme =>
    have hfollows : lexeme.Follows [] := ⟨by simp [Stops], by simp⟩
    simp only [ReadsLexemes, Sequence.located, Sequence.lexemes, Sequence.text, List.mem_singleton,
      Prod.mk.injEq, forall_eq]
    constructor
    · intro h
      cases hkind : lexeme.kind? with
      | none => exact lexeme.isWhole_of_kind hkind
      | some kind =>
        have htokens := h lexeme index ⟨rfl, rfl⟩ kind hkind
        have hiff := lexeme.tokensIn_iff hkind hfollows hbefore
        rw [List.append_nil] at hiff
        exact hiff.mp htokens
    · rintro hwhole other start ⟨rfl, rfl⟩ kind hkind
      have hiff := other.tokensIn_iff hkind hfollows hbefore
      rw [List.append_nil] at hiff
      exact hiff.mpr hwhole
  | cons lexeme first space hfirst hspace hline rest ih =>
    have hfollows : lexeme.Follows (first :: (space ++ rest.text)) := by
      constructor
      · intro c hc
        obtain rfl := Option.some.inj hc
        exact hfirst
      · intro hcomment c hc
        obtain rfl := Option.some.inj hc
        exact hline hcomment
    have hhead : (∀ kind, lexeme.kind? = some kind → tokensIn (before ++ lexAt chars.toCharClasses index
          (Sequence.cons lexeme first space hfirst hspace hline rest).text) index
          (index + utf8Len lexeme.text) = [⟨index, index + utf8Len lexeme.text, kind, none⟩]) ↔ lexeme.IsWhole := by
      constructor
      · intro h
        cases hkind : lexeme.kind? with
        | none => exact lexeme.isWhole_of_kind hkind
        | some kind => exact (lexeme.tokensIn_iff hkind hfollows hbefore).mp (h kind hkind)
      · exact fun hwhole kind hkind => (lexeme.tokensIn_iff hkind hfollows hbefore).mpr hwhole
    have hsplit : ReadsLexemes (before ++ lexAt chars.toCharClasses index
          (Sequence.cons lexeme first space hfirst hspace hline rest).text)
        ((Sequence.cons lexeme first space hfirst hspace hline rest).located index) ↔
        lexeme.IsWhole ∧ ReadsLexemes (before ++ lexAt chars.toCharClasses index
          (Sequence.cons lexeme first space hfirst hspace hline rest).text)
          (rest.located (index + utf8Len lexeme.text + utf8Len (first :: space))) := by
      rw [← hhead]
      constructor
      · intro h
        exact ⟨h lexeme index List.mem_cons_self,
          fun other start hmem => h other start (List.mem_cons_of_mem _ hmem)⟩
      · rintro ⟨hfirst', hrest⟩ other start hmem
        rcases List.mem_cons.mp hmem with heq | hlater
        · obtain ⟨rfl, rfl⟩ := Prod.mk.inj heq
          exact hfirst'
        · exact hrest other start hlater
    rw [hsplit, Sequence.lexemes, List.forall_mem_cons]
    refine and_congr_right fun hwhole => ?_
    have hspaces : ScannedOver chars.toCharClasses (first :: space) rest.text := .space (by
      intro c hc
      rcases List.mem_cons.mp hc with rfl | hmem
      · exact hfirst
      · exact hspace c hmem)
    have hpassed : ScannedOver chars.toCharClasses (lexeme.text ++ first :: space) rest.text :=
      ScannedOver.append (lexeme.passed hwhole hfollows) hspaces
    obtain ⟨passed, hscan, hstops⟩ := hpassed index
    rw [String.utf8Len_append, ← Nat.add_assoc] at hscan hstops
    have htext : (Sequence.cons lexeme first space hfirst hspace hline rest).text =
        lexeme.text ++ first :: space ++ rest.text := by
      simp [Sequence.text]
    rw [htext, hscan, ← List.append_assoc]
    apply ih
    intro token htoken
    rcases List.mem_append.mp htoken with hmem | hmem
    · have hle := hbefore token hmem
      omega
    · exact hstops token hmem

lemma tokensIn_eq_filter (tokens : List Token) (start stop : ℕ) : tokensIn tokens start stop =
    (tokens.map Token.bare).filter fun token => start < token.stop ∧ token.start < stop := by
  rw [tokensIn, List.filter_map]
  rfl

/-- `tokenize` reads the lexemes of a source exactly when each is read whole: names are alphanumeric
and not raw, and no character literal is an escaped quote or a letter of more than one byte. -/
theorem tokenize_reads_lexemes_iff (chars : RustChars) (sequence : Sequence chars) :
    ReadsLexemes (tokenize chars.toCharClasses sequence.text).tokens (sequence.located 0) ↔
      ∀ lexeme ∈ sequence.lexemes, lexeme.IsWhole := by
  have hbare := map_bare_pairFrom ⟨lex chars.toCharClasses sequence.text, [], true⟩ 0
    (lex chars.toCharClasses sequence.text).length
  have hsame : ∀ start stop, tokensIn (tokenize chars.toCharClasses sequence.text).tokens start stop =
      tokensIn (lex chars.toCharClasses sequence.text) start stop := by
    intro start stop
    rw [tokensIn_eq_filter, tokensIn_eq_filter]
    exact congrArg _ hbare
  have hreads := @Sequence.reads_iff chars sequence 0 [] (by simp)
  rw [List.nil_append] at hreads
  rw [← hreads]
  unfold ReadsLexemes
  simp only [hsame]
  rfl

def asciiChars : RustChars where
  isAlphabetic c := c.isAlpha
  isAlphanumeric c := c.isAlphanum
  alphabetic_of_ascii := asciiClasses.alphabetic_of_ascii
  alphanumeric_of_ascii := asciiClasses.alphanumeric_of_ascii
  isXidStart c := c.isAlpha
  isXidContinue c := c.isAlphanum || c == '_'
  xidStart_of_ascii := asciiClasses.alphabetic_of_ascii
  xidContinue_of_ascii _ _ := rfl
  not_alphabetic_of_whitespace c hc := by
    simp only [isRustWhitespace, List.contains_iff_mem, List.mem_cons, List.not_mem_nil, or_false] at hc
    rcases hc with rfl | rfl | rfl | rfl | rfl | rfl | rfl | rfl | rfl | rfl | rfl <;> decide
  not_alphanumeric_of_whitespace c hc := by
    simp only [isRustWhitespace, List.contains_iff_mem, List.mem_cons, List.not_mem_nil, or_false] at hc
    rcases hc with rfl | rfl | rfl | rfl | rfl | rfl | rfl | rfl | rfl | rfl | rfl <;> decide

/-- An escaped quote and a closing parenthesis. -/
def escapedQuote : Sequence asciiChars :=
  .cons (.char false (.escape '\'' (by decide))) ' ' [] (by decide) (by simp) (by simp [Lexeme.isLineComment])
    (.last (.marks [')'] (by simp) (by simp [isMark, isAsciiPunctuation]) (by
      intro front rest h
      cases front with
      | nil => simp at h
      | cons c front => simp at h)))

/-- The literal of an escaped quote ends before its closing quote. -/
theorem escaped_quote_is_cut : ¬ ∀ (chars : RustChars) (sequence : Sequence chars),
    ReadsLexemes (tokenize chars.toCharClasses sequence.text).tokens (sequence.located 0) := by
  intro h
  have hfirst := h asciiChars escapedQuote (.char false (.escape '\'' (by decide))) 0
    List.mem_cons_self .literal rfl
  exact absurd hfirst (by decide +kernel)

end AgzRustMcp
