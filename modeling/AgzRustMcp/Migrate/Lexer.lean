import AgzRustMcp.Foundation.Utf8Text

/-!
# The token scan of the rewriter

`tokenize` of `change/migrate/rewrite.rs`, up to the pairing of the delimiters.  The source scans
bytes and compares them with ASCII alone, so the scan is one of the characters, and every scanner
returns what it takes from the front of a text.
-/

namespace AgzRustMcp

open Utf8Text
open String (utf8Len)

/-- `char::is_alphabetic` and `char::is_alphanumeric`. -/
structure CharClasses where
  isAlphabetic : Char → Bool
  isAlphanumeric : Char → Bool
  alphabetic_of_ascii : ∀ c : Char, c.toNat < 128 → isAlphabetic c = c.isAlpha
  alphanumeric_of_ascii : ∀ c : Char, c.toNat < 128 → isAlphanumeric c = c.isAlphanum

inductive TokenKind where
  | ident
  | punct (c : Char)
  | opening (c : Char)
  | closing (c : Char)
  | literal
  | comment
  | other
  deriving DecidableEq

structure Token where
  start : ℕ
  stop : ℕ
  kind : TokenKind
  pair : Option ℕ
  deriving DecidableEq

/-- `u8::is_ascii_whitespace`. -/
def isAsciiWhitespace (c : Char) : Bool :=
  c == ' ' || c == '\t' || c == '\n' || c == '\r' || c == '\x0c'

def isAsciiPunctuation (c : Char) : Bool :=
  (33 ≤ c.toNat && c.toNat ≤ 47) || (58 ≤ c.toNat && c.toNat ≤ 64) ||
    (91 ≤ c.toNat && c.toNat ≤ 96) || (123 ≤ c.toNat && c.toNat ≤ 126)

section

variable (classes : CharClasses)

/-- The character starts an identifier. -/
def startsIdent (c : Char) : Bool := c == '_' || classes.isAlphabetic c

/-- The character continues an identifier. -/
def continuesIdent (c : Char) : Bool := c == '_' || classes.isAlphanumeric c

def scanIdent : Text → Text
  | [] => []
  | c :: t => if startsIdent classes c then c :: t.takeWhile (continuesIdent classes) else [c]

/-- `scan_quoted`, behind the opening quote. -/
def scanQuoted : Text → Option Text
  | [] => none
  | [c] => if c = '"' then some [c] else none
  | c :: d :: t =>
    if c = '\\' then (scanQuoted t).map fun taken => c :: d :: taken
    else if c = '"' then some [c]
    else (scanQuoted (d :: t)).map (c :: ·)

/-- The text up to a character, with it. -/
def takeThrough (c : Char) (t : Text) : Option Text :=
  if c ∈ t then some (t.takeWhile (· ≠ c) ++ [c]) else none

/-- `scan_char_or_lifetime`, behind the quote. -/
def scanCharOrLifetime : Text → Option Text
  | [] => none
  | first :: t =>
    if first = '\\' then (takeThrough '\'' t).map (first :: ·)
    else if startsIdent classes first then
      let ident := scanIdent classes (first :: t)
      if ((first :: t).drop ident.length).head? = some '\'' ∧ utf8Len ident = 1 then
        some (ident ++ ['\''])
      else some ident
    else if t.head? = some '\'' then some [first, '\'']
    else some [first]

/-- The loop of `scan_raw_string` behind the opening quote. -/
def scanRawBody (hashes : ℕ) : Text → Option Text
  | [] => none
  | c :: t =>
    if c = '"' ∧ (List.replicate hashes '#').isPrefixOf t then
      some (c :: List.replicate hashes '#')
    else (scanRawBody hashes t).map (c :: ·)

/-- The letters in front of a raw string. -/
def rawLead (t : Text) : Text := (t.take 2).takeWhile fun c => c == 'r' || c == 'b'

def scanRawString (t : Text) : Option Text :=
  let lead := rawLead t
  let hashes := (t.drop lead.length).takeWhile (· = '#')
  if 'r' ∈ lead then
    match t.drop (lead ++ hashes).length with
    | [] => none
    | c :: body =>
      if c = '"' then
        (scanRawBody hashes.length body).map fun taken => lead ++ hashes ++ c :: taken
      else none
  else none

/-- The loop of a block comment, with its depth. -/
def scanBlockComment : ℕ → Text → Text
  | 0, _ => []
  | _ + 1, [] => []
  | _ + 1, [c] => [c]
  | depth + 1, c :: d :: t =>
    if c = '/' ∧ d = '*' then c :: d :: scanBlockComment (depth + 2) t
    else if c = '*' ∧ d = '/' then c :: d :: scanBlockComment depth t
    else c :: scanBlockComment (depth + 1) (d :: t)

/-- What the scan takes from the front of a text, and its kind. -/
def nextToken : Text → Text × TokenKind
  | [] => ([], .other)
  | c :: t =>
    if c = '/' ∧ t.head? = some '/' then (c :: t.takeWhile (· ≠ '\n'), .comment)
    else if c = '/' ∧ t.head? = some '*' then (c :: '*' :: scanBlockComment 1 t.tail, .comment)
    else if c = '"' then (c :: (scanQuoted t).getD t, .literal)
    else if c = '\'' then (c :: (scanCharOrLifetime classes t).getD [], .literal)
    else if c = 'b' ∧ t.head? = some '"' then
      (c :: '"' :: (scanQuoted t.tail).getD t.tail, .literal)
    else if c = 'b' ∧ t.head? = some '\'' then
      (c :: '\'' :: (scanCharOrLifetime classes t.tail).getD [], .literal)
    else if c = 'r' ∨ c = 'b' then
      match scanRawString (c :: t) with
      | some taken => (taken, .literal)
      | none => (scanIdent classes (c :: t), .ident)
    else if c = '(' ∨ c = '[' ∨ c = '\x7b' then ([c], .opening c)
    else if c = ')' ∨ c = ']' ∨ c = '\x7d' then ([c], .closing c)
    else if startsIdent classes c then (scanIdent classes (c :: t), .ident)
    else if c.isDigit then
      (c :: t.takeWhile fun d => d.isAlphanum || d == '_' || d == '.', .other)
    else if isAsciiPunctuation c then ([c], .punct c)
    else ([c], .other)

/-- The loop of `tokenize`; a step of `fuel` takes one character at least. -/
def lexFrom : ℕ → ℕ → Text → List Token
  | 0, _, _ => []
  | _ + 1, _, [] => []
  | fuel + 1, index, c :: t =>
    if isAsciiWhitespace c then lexFrom fuel (index + 1) t
    else
      let next := nextToken classes (c :: t)
      ⟨index, index + utf8Len next.1, next.2, none⟩ ::
        lexFrom fuel (index + utf8Len next.1) ((c :: t).drop next.1.length)

/-- The tokens of a text, before their delimiters are paired. -/
def lex (source : Text) : List Token := lexFrom classes source.length 0 source

end

/-! ## Order of the tokens -/

variable {classes : CharClasses}

lemma ne_nil_of_scanRawString {t taken : Text} (h : scanRawString t = some taken) : taken ≠ [] := by
  unfold scanRawString at h
  dsimp only at h
  split_ifs at h with hlead
  have hne : rawLead t ≠ [] := List.ne_nil_of_mem hlead
  split at h
  · simp at h
  · split_ifs at h
    obtain ⟨body, -, rfl⟩ := Option.map_eq_some_iff.mp h
    simp [hne]

lemma ite_fst_ne_nil {p : Prop} [Decidable p] {next next' : Text × TokenKind} (h : next.1 ≠ [])
    (h' : next'.1 ≠ []) : (if p then next else next').1 ≠ [] := by
  split
  · exact h
  · exact h'

lemma nextToken_ne_nil (c : Char) (t : Text) : (nextToken classes (c :: t)).1 ≠ [] := by
  have hident : scanIdent classes (c :: t) ≠ [] := by
    rw [scanIdent]
    split
    · simp
    · simp
  rw [nextToken]
  iterate 6 apply ite_fst_ne_nil (List.cons_ne_nil _ _)
  apply ite_fst_ne_nil
  · split
    next taken htaken => exact ne_nil_of_scanRawString htaken
    next => exact hident
  · iterate 2 apply ite_fst_ne_nil (List.cons_ne_nil _ _)
    apply ite_fst_ne_nil hident
    iterate 2 apply ite_fst_ne_nil (List.cons_ne_nil _ _)
    exact List.cons_ne_nil _ _

/-- One token stands before the other. -/
def Token.Before (first second : Token) : Prop := first.stop ≤ second.start

lemma pairwise_lexFrom (fuel index : ℕ) (t : Text) : (lexFrom classes fuel index t).Pairwise Token.Before ∧
      ∀ token ∈ lexFrom classes fuel index t, index ≤ token.start ∧ token.start < token.stop := by
  induction fuel generalizing index t with
  | zero => simp [lexFrom]
  | succ fuel ih =>
    cases t with
    | nil => simp [lexFrom]
    | cons c t =>
      unfold lexFrom
      split_ifs
      · obtain ⟨hpairs, hstarts⟩ := ih (index + 1) t
        refine ⟨hpairs, fun token htoken => ?_⟩
        have hstart := hstarts token htoken
        omega
      · dsimp only
        have hpos : 0 < utf8Len (nextToken classes (c :: t)).1 :=
          Nat.pos_of_ne_zero fun h => nextToken_ne_nil c t (String.utf8Len_eq_zero.mp h)
        obtain ⟨hpairs, hstarts⟩ := ih (index + utf8Len (nextToken classes (c :: t)).1)
          ((c :: t).drop (nextToken classes (c :: t)).1.length)
        refine ⟨List.pairwise_cons.mpr ⟨fun token htoken => (hstarts token htoken).1, hpairs⟩, ?_⟩
        intro token htoken
        rcases List.mem_cons.mp htoken with rfl | hlater
        · exact ⟨le_rfl, by dsimp only; omega⟩
        · have hstart := hstarts token hlater
          omega

lemma pairwise_lex (classes : CharClasses) (source : Text) : (lex classes source).Pairwise Token.Before :=
  (pairwise_lexFrom _ _ _).1

lemma start_lt_stop_of_mem_lex (classes : CharClasses) (source : Text) {token : Token}
    (h : token ∈ lex classes source) : token.start < token.stop :=
  ((pairwise_lexFrom _ _ _).2 token h).2

end AgzRustMcp
