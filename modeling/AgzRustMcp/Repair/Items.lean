import AgzRustMcp.Foundation.CharAt
import AgzRustMcp.Foundation.TextLines
import AgzRustMcp.Foundation.TextScan
import AgzRustMcp.Change.Path
import AgzRustMcp.Migrate.Lexer

/-!
# The item scanner

The scanner of `repair/minimize.rs` walks over bytes and compares them with ASCII characters, so
that `charAt?` reads what it reads.  The loops run on the number of bytes that are left.
`placed_scanItems` says how the spans of the items lie.
-/

namespace AgzRustMcp

open Utf8Text
open String (utf8Len)

inductive ItemKind where
  | use | modDecl | modBlock | fn | struct | enum | impl | trait | type | const | static
  | macroRules | externCrate | other
  deriving DecidableEq

structure ParsedItem where
  kind : ItemKind
  start : ℕ
  stop : ℕ
  body : Option (ℕ × ℕ)
  name : Option String
  pathAttr : Option String
  test : Bool
  children : List ParsedItem

def ParsedItem.contains (item : ParsedItem) (offset : ℕ) : Bool :=
  item.start ≤ offset && offset < item.stop

def maxParseDepth : ℕ := 3

def maxItemsPerFile : ℕ := 512

section Scan

variable (t : Text)

/-- The byte at an offset is an ASCII character. -/
def byteIs (i : ℕ) (c : Char) : Bool := charAt? t i == some c

/-- The byte at an offset is an ASCII character of a class. -/
def byteMeets (i : ℕ) (p : Char → Bool) : Bool := (charAt? t i).any p

/-- The offset behind the bytes of a class. -/
def passFrom (p : Char → Bool) : ℕ → ℕ → ℕ
  | 0, i => i
  | left + 1, i => if byteMeets t i p then passFrom p left (i + 1) else i

/-- The offset behind the bytes of a class that stand before `stop`. -/
def passOver (p : Char → Bool) (i stop : ℕ) : ℕ := passFrom t p (stop - i) i

/-- The letters of words: ASCII letters, digits and the underscore. -/
def isWordByte (c : Char) : Bool := c.isAlphanum || c == '_'

/-! ## Comments and literals -/

/-- The loop of `skip_line_comment`. -/
def skipLineCommentFrom (stop : ℕ) : ℕ → ℕ → ℕ
  | 0, _ => stop
  | left + 1, i =>
    if i < stop then if byteIs t i '\n' then i + 1 else skipLineCommentFrom stop left (i + 1)
    else stop

def skipLineComment (start stop : ℕ) : ℕ := skipLineCommentFrom t stop (stop - start) start

/-- The loop of `skip_block_comment`. -/
def skipBlockCommentFrom (stop : ℕ) : ℕ → ℤ → ℕ → ℕ
  | 0, _, _ => stop
  | left + 1, depth, i =>
    if i + 1 < stop then
      if byteIs t i '/' && byteIs t (i + 1) '*' then skipBlockCommentFrom stop left (depth + 1) (i + 2)
      else if byteIs t i '*' && byteIs t (i + 1) '/' then
        if depth - 1 ≤ 0 then i + 2 else skipBlockCommentFrom stop left (depth - 1) (i + 2)
      else skipBlockCommentFrom stop left depth (i + 1)
    else stop

def skipBlockComment (start stop : ℕ) : ℕ := skipBlockCommentFrom t stop (stop - start) 0 start

/-- The loop of `skip_quoted`. -/
def skipQuotedFrom (stop : ℕ) : ℕ → ℕ → ℕ
  | 0, _ => stop
  | left + 1, i =>
    if i < stop then
      if byteIs t i '\\' then skipQuotedFrom stop left (i + 2)
      else if byteIs t i '"' then i + 1
      else skipQuotedFrom stop left (i + 1)
    else stop

def skipQuoted (start stop : ℕ) : ℕ := skipQuotedFrom t stop (stop - start) (start + 1)

/-- The loop of `skip_char_or_lifetime`: the offset behind a quote. -/
def closingQuote? (stop : ℕ) : ℕ → ℕ → Option ℕ
  | 0, _ => none
  | left + 1, cursor =>
    if cursor < stop then
      if byteIs t cursor '\'' then some (cursor + 1)
      else if byteIs t cursor '\n' then none
      else closingQuote? stop left (cursor + 1)
    else none

def skipCharOrLifetime (start stop : ℕ) : ℕ :=
  let i := start + 1
  if stop ≤ i then stop
  else
    let i := if byteIs t i '\\' then if i + 1 < stop then i + 2 else i + 1 else i
    (closingQuote? t stop 8 i).getD (start + 1)

/-- The number of hash signs from an offset on, up to a number of them. -/
def countHashes : ℕ → ℕ → ℕ
  | 0, _ => 0
  | most + 1, i => if byteIs t i '#' then countHashes most (i + 1) + 1 else 0

/-- The loop of `skip_prefixed_string` behind the opening quote of a raw string. -/
def rawStringEnd (hashes stop : ℕ) : ℕ → ℕ → ℕ
  | 0, _ => stop
  | left + 1, i =>
    if i < stop then
      if byteIs t i '"' && countHashes t (min hashes (stop - (i + 1))) (i + 1) == hashes then
        i + 1 + hashes
      else rawStringEnd hashes stop left (i + 1)
    else stop

/-- `skip_prefixed_string` behind the `r`. -/
def skipRawString (i stop : ℕ) : Option ℕ :=
  let hashes := countHashes t (utf8Len t) i
  if byteIs t (i + hashes) '"' then
    some (rawStringEnd t hashes stop (stop - i) (i + hashes + 1))
  else none

def skipPrefixedString (start stop : ℕ) : Option ℕ :=
  if byteIs t start 'r' then skipRawString t (start + 1) stop
  else if byteIs t start 'b' then
    if byteIs t (start + 1) 'r' then skipRawString t (start + 2) stop
    else if byteIs t (start + 1) '"' then some (skipQuoted t (start + 1) stop)
    else none
  else if byteIs t start 'c' then
    if byteIs t (start + 1) '"' then some (skipQuoted t (start + 1) stop) else none
  else none

/-- The arms for literals and comments: the offset behind what starts here. -/
def skipLiteral (i stop : ℕ) : Option ℕ :=
  if byteIs t i '"' then some (skipQuoted t i stop)
  else if byteIs t i '\'' then some (skipCharOrLifetime t i stop)
  else if byteIs t i 'r' || byteIs t i 'b' || byteIs t i 'c' then skipPrefixedString t i stop
  else if byteIs t i '/' && i + 1 < stop && byteIs t (i + 1) '/' then some (skipLineComment t i stop)
  else if byteIs t i '/' && i + 1 < stop && byteIs t (i + 1) '*' then
    some (skipBlockComment t i stop)
  else none

/-- The loop of `skip_delimited`. -/
def skipDelimitedFrom (stop : ℕ) (opening closing : Char) : ℕ → ℤ → ℕ → ℕ
  | 0, _, _ => stop
  | left + 1, depth, i =>
    if i < stop then
      match skipLiteral t i stop with
      | some next => skipDelimitedFrom stop opening closing left depth next
      | none =>
        if byteIs t i opening then skipDelimitedFrom stop opening closing left (depth + 1) (i + 1)
        else if byteIs t i closing then
          if depth - 1 ≤ 0 then i + 1
          else skipDelimitedFrom stop opening closing left (depth - 1) (i + 1)
        else skipDelimitedFrom stop opening closing left depth (i + 1)
    else stop

def skipDelimited (start stop : ℕ) (opening closing : Char) : ℕ :=
  if byteIs t start opening then skipDelimitedFrom t stop opening closing (stop - start) 0 start
  else start

/-! ## The end of an item -/

structure ItemScan where
  stop : ℕ
  body : Option (ℕ × ℕ)

/-- What `find_item_end` counts. -/
structure ItemDepth where
  paren : ℤ
  bracket : ℤ
  brace : ℤ
  bodyOpen : Option ℕ

/-- The depth behind a byte that does not end the item. -/
def ItemDepth.next (depth : ItemDepth) (i : ℕ) : ItemDepth :=
  if byteIs t i '{' then
    { depth with
      brace := depth.brace + 1
      bodyOpen :=
        if depth.brace + 1 = 1 ∧ depth.paren = 0 ∧ depth.bracket = 0 then some i
        else depth.bodyOpen }
  else if byteIs t i '}' then { depth with brace := depth.brace - 1 }
  else if byteIs t i '(' then { depth with paren := depth.paren + 1 }
  else if byteIs t i ')' then { depth with paren := depth.paren - 1 }
  else if byteIs t i '[' then { depth with bracket := depth.bracket + 1 }
  else if byteIs t i ']' then { depth with bracket := depth.bracket - 1 }
  else depth

/-- The end of an item, with a semicolon behind blanks. -/
def behindBrace (i stop : ℕ) : ℕ :=
  let cursor := passOver t (fun c => c == ' ' || c == '\t') (i + 1) stop
  if cursor < stop && byteIs t cursor ';' then cursor + 1 else cursor

/-- The loop of `find_item_end`. -/
def findItemEndFrom (stop : ℕ) : ℕ → ItemDepth → ℕ → ItemScan
  | 0, depth, _ => ⟨stop, depth.bodyOpen.map (·, stop)⟩
  | left + 1, depth, i =>
    if i < stop then
      match skipLiteral t i stop with
      | some next => findItemEndFrom stop left depth next
      | none =>
        if byteIs t i '}' && depth.brace - 1 ≤ 0 then
          ⟨behindBrace t i stop, depth.bodyOpen.map (·, i)⟩
        else if byteIs t i ';' && depth.brace = 0 && depth.paren = 0 && depth.bracket = 0 then
          ⟨i + 1, none⟩
        else findItemEndFrom stop left (depth.next t i) (i + 1)
    else ⟨stop, depth.bodyOpen.map (·, stop)⟩

def findItemEnd (start stop : ℕ) : ItemScan :=
  findItemEndFrom t stop (stop - start) ⟨0, 0, 0, none⟩ start

/-- The loop of `extend_to_line_end`. -/
def extendFrom : ℕ → ℕ → ℕ
  | 0, i => i
  | left + 1, i =>
    if byteIs t i '\n' then i + 1
    else if byteMeets t i fun c => c == ' ' || c == '\t' || c == '\r' then extendFrom left (i + 1)
    else i

def extendToLineEnd (i limit : ℕ) : ℕ := extendFrom t (limit - i) i

/-! ## Kinds and names -/

def wordAt (start stop : ℕ) : Option Text :=
  if stop ≤ start then none
  else if byteMeets t start fun c => c.isAlpha || c == '_' then
    slice? t start (passOver t isWordByte start stop)
  else none

def wordLen (start stop : ℕ) : ℕ := ((wordAt t start stop).map utf8Len).getD 0

/-- The loop of `skip_modifiers`. -/
def skipModifiersFrom (stop : ℕ) : ℕ → ℕ → ℕ
  | 0, i => i
  | left + 1, i =>
    let i := passOver t isAsciiWhitespace i stop
    match (wordAt t i stop).map String.ofList with
    | none => i
    | some "pub" =>
      skipModifiersFrom stop left
        (if byteIs t (i + 3) '(' then skipDelimited t (i + 3) stop '(' ')' else i + 3)
    | some "async" => skipModifiersFrom stop left (i + 5)
    | some "unsafe" => skipModifiersFrom stop left (i + 6)
    | some "const" => skipModifiersFrom stop left (i + 5)
    | some "default" => skipModifiersFrom stop left (i + 7)
    | some "auto" => skipModifiersFrom stop left (i + 4)
    | some "extern" =>
      let i := passOver t isAsciiWhitespace (i + 6) stop
      skipModifiersFrom stop left (if byteIs t i '"' then skipQuoted t i stop else i)
    | some _ => i

/-- `skip_modifiers`; every turn passes a word. -/
def skipModifiers (start stop : ℕ) : ℕ := skipModifiersFrom t stop (stop - start + 1) start

def classifyKind (start stop : ℕ) : ItemKind :=
  match (wordAt t start stop).map String.ofList with
  | none => .other
  | some "use" => .use
  | some "mod" =>
    let i := passOver t isAsciiWhitespace (start + 3) stop
    let i := passOver t isWordByte i stop
    let i := passOver t isAsciiWhitespace i stop
    if byteIs t i '{' then .modBlock else .modDecl
  | some "fn" => .fn
  | some "struct" => .struct
  | some "enum" => .enum
  | some "impl" => .impl
  | some "trait" => .trait
  | some "type" => .type
  | some "const" => .const
  | some "static" => .static
  | some "macro_rules" => .macroRules
  | some "macro" => .macroRules
  | some "crate" => .externCrate
  | some _ => .other

def readIdent (start stop : ℕ) : Option String :=
  let i := passOver t isAsciiWhitespace start stop
  let j := passOver t isWordByte i stop
  if j = i then none else (slice? t i j).map String.ofList

/-- `str::trim_end_matches` for a character. -/
def trimEndMatches (c : Char) (s : Text) : Text := TextScan.dropEndWhile (· == c) s

def useName (s : Text) : Option String :=
  let s := trim s
  let s := trim (trimStartMatches "use".toList s.length s)
  let trimmed := trim (trimEndMatches ';' s)
  if trimmed.contains '\x7b' || trimmed.contains '\n' then none
  else
    let name :=
      match TextScan.rsplitOnce " as ".toList trimmed with
      | some (_, renamed) => trim renamed
      | none => ((TextScan.rsplitOnce "::".toList trimmed).map Prod.snd).getD trimmed
    let name := trim name
    if name ≠ [] ∧ ¬ name.contains ' ' then some (String.ofList name) else none

def itemName (kind : ItemKind) (keywordAt stop : ℕ) : Option String :=
  match kind with
  | .modDecl | .modBlock => readIdent t (keywordAt + 3) stop
  | .fn | .struct | .enum | .trait | .type | .const | .static =>
    readIdent t (keywordAt + wordLen t keywordAt stop) stop
  | .macroRules =>
    let i := passOver t isAsciiWhitespace (keywordAt + wordLen t keywordAt stop) stop
    readIdent t (if byteIs t i '!' then i + 1 else i) stop
  | .use => useName ((slice? t keywordAt stop).getD [])
  | .impl | .externCrate | .other => none

/-- `str::contains` for a text. -/
def containsText (s needle : Text) : Bool := (find? s needle).isSome

def isTestCfg (attr : Text) : Bool :=
  containsText attr "cfg(test)".toList || containsText attr "cfg(any(test".toList ||
    containsText attr "cfg(all(test".toList

/-- The text between the quotes, without backslashes, if any. -/
def plainQuoted (s : Text) : Option String := do
  let rest ← TextScan.stripPrefix ['"'] s
  let (value, _) ← TextScan.splitOnce ['"'] rest
  if value ≠ [] ∧ ¬ value.contains '\\' then some (String.ofList value) else none

def parsePathAttribute (attr : Text) : Option String := do
  let (_, rest) ← TextScan.splitOnce "path".toList attr
  let rest ← TextScan.stripPrefix ['='] (rest.dropWhile isWhitespace)
  plainQuoted (rest.dropWhile isWhitespace)

/-! ## Items -/

/-- Where `scan_items` is, with what stands in front of the next item. -/
structure ItemCursor where
  pos : ℕ
  pending : Option ℕ
  test : Bool
  pathAttr : Option String

/-- What `scan_items` does in a turn. -/
inductive ItemTurn where
  | pass (cursor : ItemCursor)
  | stop
  | item

/-- A turn of `scan_items`: white space, comments and attributes are passed. -/
def itemTurn (stop : ℕ) (cursor : ItemCursor) : ItemTurn :=
  let i := cursor.pos
  let noted := cursor.pending.or (some i)
  if byteMeets t i isAsciiWhitespace then .pass { cursor with pos := i + 1 }
  else if byteIs t i '/' && i + 1 < stop && byteIs t (i + 1) '/' then
    let doc := i + 2 < stop && (byteIs t (i + 2) '/' || byteIs t (i + 2) '!')
    .pass { cursor with
      pending := if doc then noted else cursor.pending
      pos := skipLineComment t i stop }
  else if byteIs t i '/' && i + 1 < stop && byteIs t (i + 1) '*' then
    let doc := i + 2 < stop && (byteIs t (i + 2) '*' || byteIs t (i + 2) '!')
    .pass { cursor with
      pending := if doc then noted else cursor.pending
      pos := skipBlockComment t i stop }
  else if byteIs t i '#' && i + 1 < stop &&
      (byteIs t (i + 1) '[' || (byteIs t (i + 1) '!' && i + 2 < stop && byteIs t (i + 2) '[')) then
    let attrEnd :=
      if byteIs t (i + 1) '!' then skipDelimited t (i + 2) stop '[' ']'
      else skipDelimited t (i + 1) stop '[' ']'
    if attrEnd ≤ i then .stop
    else
      let attr := (slice? t i attrEnd).getD []
      .pass {
        pos := attrEnd
        pending := noted
        test := cursor.test || isTestCfg attr
        pathAttr := (parsePathAttribute attr).or cursor.pathAttr }
  else .item

/-- The item at a cursor.  `inner` scans the items of an inline module. -/
def itemAt (stop : ℕ) (inner : ℕ → ℕ → List ParsedItem) (cursor : ItemCursor) : ParsedItem :=
  let i := cursor.pos
  let keywordAt := skipModifiers t i stop
  let kind := classifyKind t keywordAt stop
  let scan := findItemEnd t i stop
  let itemEnd := extendToLineEnd t scan.stop stop
  { kind
    start := cursor.pending.getD i
    stop := itemEnd
    body := scan.body
    name := itemName t kind keywordAt itemEnd
    pathAttr := cursor.pathAttr
    test := cursor.test
    children :=
      match kind, scan.body with
      | .modBlock, some (opening, closing) =>
        if closing > opening + 1 then inner (opening + 1) closing else []
      | _, _ => [] }

/-- The loop of `scan_items`, with the number of items for which there is room. -/
def scanItemsFrom (stop : ℕ) (inner : ℕ → ℕ → List ParsedItem) : ℕ → ℕ → ItemCursor → List ParsedItem
  | 0, _, _ => []
  | _ + 1, 0, _ => []
  | left + 1, room + 1, cursor =>
    if cursor.pos < stop then
      match itemTurn t stop cursor with
      | .pass cursor => scanItemsFrom stop inner left (room + 1) cursor
      | .stop => []
      | .item =>
        let item := itemAt t stop inner cursor
        item :: scanItemsFrom stop inner left room ⟨item.stop, none, false, none⟩
    else []

/-- `scan_items`, with the number of levels of inline modules that are still scanned. -/
def scanItems : ℕ → ℕ → ℕ → List ParsedItem
  | 0, start, stop =>
    scanItemsFrom t stop (fun _ _ => []) (stop - start) maxItemsPerFile ⟨start, none, false, none⟩
  | depth + 1, start, stop =>
    scanItemsFrom t stop (scanItems depth) (stop - start) maxItemsPerFile ⟨start, none, false, none⟩

def parseItems : List ParsedItem := scanItems t maxParseDepth 0 (utf8Len t)

end Scan

end AgzRustMcp
