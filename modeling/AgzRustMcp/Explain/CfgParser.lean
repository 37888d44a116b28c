import AgzRustMcp.Change.Path
import AgzRustMcp.Explain.Cfg
import AgzRustMcp.Foundation.Latin1
import AgzRustMcp.Foundation.TextScan

/-!
# The parser of cfg predicates

`CfgParser` of `tools/explain.rs` takes each byte for the character of its number, which is what
`byteChars` makes of a text.  Every parser returns what is left of these characters; `room` is what
is left of the depth.
-/

namespace AgzRustMcp.Explain

open Utf8Text TextScan Latin1
open String (utf8Len)

def maxCfgDepth : ℕ := 16

def maxCfgBytes : ℕ := 4096

/-- `u8::is_ascii_whitespace`. -/
def isBlank (c : Char) : Bool := c == ' ' || c == '\t' || c == '\n' || c == '\x0c' || c == '\r'

/-- The bytes that `parse_ident` takes. -/
def isIdentChar (c : Char) : Bool := c.isAlphanum || c == '_' || c == '-'

def skipWhitespace (input : Text) : Text := input.dropWhile isBlank

/-- The input behind a character, where it is the next one. -/
def eat (c : Char) : Text → Option Text
  | [] => none
  | d :: rest => if d = c then some rest else none

def parseIdent (input : Text) : Except String (Text × Text) :=
  if input.takeWhile isIdentChar = [] then .error "expected cfg identifier"
  else .ok (input.takeWhile isIdentChar, input.dropWhile isIdentChar)

/-- The loop of `parse_string`, behind the opening quote. -/
def parseQuoted (value : Text) : Text → Except String (Text × Text)
  | [] => .error "unterminated cfg string"
  | byte :: rest =>
    if byte = '"' then .ok (value, rest)
    else if byte = '\\' then
      match rest with
      | [] => .error "unterminated cfg escape"
      | escaped :: rest =>
        if maxCfgBytes < utf8Len (value ++ [escaped]) then .error "cfg value is too long"
        else parseQuoted (value ++ [escaped]) rest
    else if maxCfgBytes < utf8Len (value ++ [byte]) then .error "cfg value is too long"
    else parseQuoted (value ++ [byte]) rest

def parseString (input : Text) : Except String (Text × Text) :=
  match eat '"' input with
  | some rest => parseQuoted [] rest
  | none => .error "expected quoted cfg value"

/-- The loop over the items of `all` or `any`.  Every turn reads a character. -/
def parseItems (parseItem : Text → Except String (CfgExpr × Text)) :
    ℕ → List CfgExpr → Text → Except String (List CfgExpr × Text)
  | 0, _, _ => .error "expected `,` or `)` in cfg list"
  | turns + 1, items, input =>
    match eat ')' (skipWhitespace input) with
    | some rest => .ok (items, rest)
    | none =>
      match parseItem (skipWhitespace input) with
      | .error message => .error message
      | .ok (item, rest) =>
        match eat ',' (skipWhitespace rest) with
        | some rest => parseItems parseItem turns (items ++ [item]) rest
        | none =>
          match eat ')' (skipWhitespace rest) with
          | some rest => .ok (items ++ [item], rest)
          | none => .error "expected `,` or `)` in cfg list"

/-- What `parse_expr` reads behind `(` under a given name. -/
def parseCall (parseItem : Text → Except String (CfgExpr × Text)) (name rest : Text) :
    Except String (CfgExpr × Text) :=
  if name = "all".toList then
    (parseItems parseItem (rest.length + 1) [] rest).map fun parsed => (.all parsed.1, parsed.2)
  else if name = "any".toList then
    (parseItems parseItem (rest.length + 1) [] rest).map fun parsed => (.any parsed.1, parsed.2)
  else if name = "not".toList then
    match parseItem rest with
    | .error message => .error message
    | .ok (item, rest) =>
      match eat ')' (skipWhitespace rest) with
      | some rest => .ok (.not item, rest)
      | none => .error "expected `)` after not(...)"
  else .error ("unsupported cfg function `" ++ String.ofList name ++ "`")

/-- What `parse_expr` reads behind a name and blanks. -/
def parseOperand (parseItem : Text → Except String (CfgExpr × Text)) (name input : Text) :
    Except String (CfgExpr × Text) :=
  match eat '(' input with
  | some rest => parseCall parseItem name rest
  | none =>
    match eat '=' input with
    | some rest => (parseString (skipWhitespace rest)).map fun parsed => (.flag name (some parsed.1), parsed.2)
    | none => .ok (.flag name none, input)

def parseExpr : ℕ → Text → Except String (CfgExpr × Text)
  | 0, _ => .error ("cfg expression exceeds depth " ++ toString maxCfgDepth)
  | room + 1, input =>
    match parseIdent (skipWhitespace input) with
    | .error message => .error message
    | .ok (name, rest) => parseOperand (parseExpr room) name (skipWhitespace rest)

def parseCfg (input : Text) : Except String CfgExpr :=
  if maxCfgBytes < utf8Len input then
    .error ("cfg expression exceeds " ++ toString maxCfgBytes ++ " bytes")
  else
    match parseExpr maxCfgDepth (byteChars input) with
    | .error message => .error message
    | .ok (expr, rest) =>
      if skipWhitespace rest = [] then .ok expr else .error "unexpected trailing input in cfg expression"

/-- `balanced_end`: the text before the last closing parenthesis. -/
def balancedEnd : ℕ → (inString escaped : Bool) → Text → Option Text
  | _, _, _, [] => none
  | depth, true, escaped, c :: t =>
    (if escaped then balancedEnd depth true false t
      else if c = '\\' then balancedEnd depth true true t
      else balancedEnd depth (c ≠ '"') false t).map (c :: ·)
  | depth, false, escaped, c :: t =>
    if c = '"' then (balancedEnd depth true escaped t).map (c :: ·)
    else if c = '(' then (balancedEnd (depth + 1) false escaped t).map (c :: ·)
    else if c = ')' then
      if depth = 1 then some [] else (balancedEnd (depth - 1) false escaped t).map (c :: ·)
    else (balancedEnd depth false escaped t).map (c :: ·)

def innerMarker : Text := "#![cfg(".toList

def outerMarker : Text := "#[cfg(".toList

def extractCfgCondition (line : Text) : Option Text :=
  ((splitOnce innerMarker line).or (splitOnce outerMarker line)).bind fun parts =>
    (balancedEnd 1 false false parts.2).map trim

end AgzRustMcp.Explain
