import AgzRustMcp.Foundation.JsonParser

/-!
# The results of tools under a byte budget

The functions of `server/response.rs`.  A result carries its payload twice, as a value and as its
text.  One that is too large is halved and popped round by round; when this does not help it is
replaced by an envelope, and at last by the smallest one.
-/

namespace AgzRustMcp.Server

open JsonText Utf8Text
open String (utf8Len)

/-! ## Sanitized texts -/

inductive EscapeState
  | normal
  | escape
  | csi
  | osc
  | oscEscape
  deriving DecidableEq

def isControl (c : Char) : Bool := c ≤ '\x1f' || c = '\x7f' || ('\u0080' ≤ c && c ≤ '\u009f')

/-- `TerminalSanitizer::push`: what is left of a text, from a state. -/
def sanitizeFrom : EscapeState → Text → Text
  | _, [] => []
  | .normal, c :: cs =>
    if c = '\x1b' then sanitizeFrom .escape cs
    else if c = '\n' ∨ c = '\x0d' ∨ c = '\t' then c :: sanitizeFrom .normal cs
    else if isControl c then sanitizeFrom .normal cs
    else c :: sanitizeFrom .normal cs
  | .escape, c :: cs => sanitizeFrom (if c = '[' then .csi else if c = ']' then .osc else .normal) cs
  | .csi, c :: cs => sanitizeFrom (if '@' ≤ c ∧ c ≤ '~' then .normal else .csi) cs
  | .osc, c :: cs => sanitizeFrom (if c = '\x07' then .normal else if c = '\x1b' then .oscEscape else .osc) cs
  | .oscEscape, c :: cs =>
    sanitizeFrom (if c = '\\' then .normal else if c = '\x1b' then .oscEscape else .osc) cs

def sanitizeTerminalText (input : Text) : Text := sanitizeFrom .normal input

def sanitizeString (input : Text) : Text := (sanitizeTerminalText input).filter (· ≠ '\x0d')

mutual

def sanitizeValue : Value → Value
  | .string text => .string (sanitizeString text)
  | .array items => .array (sanitizeItems items)
  | .object fields => .object (sanitizeFields fields)
  | .null => .null
  | .bool value => .bool value
  | .number literal => .number literal

def sanitizeItems : List Value → List Value
  | [] => []
  | item :: items => sanitizeValue item :: sanitizeItems items

def sanitizeFields : List (Text × Value) → List (Text × Value)
  | [] => []
  | field :: fields => (field.1, sanitizeValue field.2) :: sanitizeFields fields

end

/-- `truncate_string`: the shorter text, or nothing where the text is short enough. -/
def truncateString (text : Text) : Option Text :=
  if text.length ≤ 64 then none else some (text.take (max (text.length / 2) 64))

mutual

/-- `shrink_node`: the smaller value, or nothing where the value stays as it is. -/
def shrinkNode : Value → Option Value
  | .string text => (truncateString text).map .string
  | .array items => (shrinkItems items).map .array
  | .object fields => (shrinkFields fields).map .object
  | .null => none
  | .bool _ => none
  | .number _ => none

/-- The last item is made smaller, or it is popped. -/
def shrinkItems : List Value → Option (List Value)
  | [] => none
  | [last] => some (shrinkNode last).toList
  | item :: items => (shrinkItems items).map (item :: ·)

/-- The last field that can be made smaller is. -/
def shrinkFields : List (Text × Value) → Option (List (Text × Value))
  | [] => none
  | field :: fields =>
    match shrinkFields fields with
    | some fields => some (field :: fields)
    | none => (shrinkNode field.2).map fun value => (field.1, value) :: fields

end

def field? (value : Value) (name : Text) : Option Value :=
  match value with
  | .object fields => (fields.reverse.find? (·.1 = name)).map (·.2)
  | _ => none

/-- The results of the protocol library, and how they are serialized. -/
structure ResultApi (Result : Type*) where
  structured : Value → Result
  structuredError : Value → Result
  textContent : Result → Option Text
  structuredContent : Result → Option Value
  isError : Result → Option Bool
  toVec : Result → Option (List UInt8)

namespace ResultApi

variable {Result : Type*} (api : ResultApi Result)

end ResultApi

/-! ## Numbers stay numbers -/

variable {value : Value} {fields : List (Text × Value)} {name : Text}

/-- The bytes of texts, with one more for each. -/
def weight (texts : List Text) : ℕ := (texts.map fun text => utf8Len text + 1).sum

section

variable {before after fields : List (Text × Value)} {name other : Text} {value less : Value}

end

/-- The fields that no round changes. -/
def keptNames : List Text := ["tool".toList, "status".toList, "untrustedData".toList, "truncated".toList]

/-- An envelope that agrees with another one in the fields that are kept. -/
structure Kept (base value : Value) : Prop where
  isObject : ∃ fields, value = .object fields
  numeric : value.Numeric
  field : ∀ name ∈ keptNames, field? value name = field? base name

section

variable {base value : Value}

end

/-! ## The result -/

structure SameEnvelope (input content : Value) : Prop where
  tool : content.get "tool".toList = input.get "tool".toList
  status : content.get "status".toList = input.get "status".toList
  untrustedData : content.get "untrustedData".toList = input.get "untrustedData".toList

/-- A content that stands for an envelope, equal unless truncated. -/
structure Represents (input content : Value) : Prop extends SameEnvelope input content where
  numeric : content.Numeric
  whole : content.get "truncated".toList = .bool false → content = input

section

variable {input value : Value}

end

namespace ResultApi

variable {Result : Type*} {api : ResultApi Result}

/-- The results as plain values, serialized with one text content. -/
def plain : ResultApi (Value × Bool) where
  structured value := (value, false)
  structuredError value := (value, true)
  textContent result := some result.1.compact
  structuredContent result := some result.1
  isError result := some result.2
  toVec result :=
    let text := Value.object [("type".toList, .string "text".toList), ("text".toList, .string result.1.compact)]
    let call := Value.object [("content".toList, .array [text]), ("structuredContent".toList, result.1),
      ("isError".toList, .bool result.2)]
    some (call.compact.flatMap String.utf8EncodeChar)

end ResultApi

end AgzRustMcp.Server
