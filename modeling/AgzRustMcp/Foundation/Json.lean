import AgzRustMcp.Foundation.Utf8Text

/-!
# JSON values and their compact text

A value is a tree, with an object as the list of its fields in the order of the text and a number as
its literal.  `Value.compact` writes a value without blanks; its length is told from the lengths of
the parts.
-/

namespace JsonText

open Utf8Text
open String (utf8Len)

inductive Value
  | null
  | bool (value : Bool)
  | number (literal : Text)
  | string (text : Text)
  | array (items : List Value)
  | object (fields : List (Text × Value))

namespace Value

def nat (n : ℕ) : Value := .number (Nat.toDigits 10 n)

/-- The field of an object: the last one of a name, and nothing where there is none. -/
def get (value : Value) (name : Text) : Value :=
  match value with
  | .object fields => ((fields.reverse.find? (·.1 = name)).map (·.2)).getD .null
  | _ => .null

def asStr : Value → Option Text
  | .string text => some text
  | _ => none

def asBool : Value → Option Bool
  | .bool value => some value
  | _ => none

end Value

/-- A character within a string. -/
def escape (c : Char) : Text :=
  if c = '"' then ['\\', '"']
  else if c = '\\' then ['\\', '\\']
  else if c = '\n' then ['\\', 'n']
  else if c = '\x0d' then ['\\', 'r']
  else if c = '\t' then ['\\', 't']
  else if c = '\x08' then ['\\', 'b']
  else if c = '\x0c' then ['\\', 'f']
  else if c.toNat < 32 then ['\\', 'u', '0', '0', (c.toNat / 16).digitChar, (c.toNat % 16).digitChar]
  else [c]

/-- A string in its quotes. -/
def quote (text : Text) : Text := '"' :: text.flatMap escape ++ ['"']

mutual

/-- The text of a value without blanks. -/
def Value.compact : Value → Text
  | .null => ['n', 'u', 'l', 'l']
  | .bool true => ['t', 'r', 'u', 'e']
  | .bool false => ['f', 'a', 'l', 's', 'e']
  | .number literal => literal
  | .string text => quote text
  | .array items => '[' :: [','].intercalate (itemTexts items) ++ [']']
  | .object fields => '\x7b' :: [','].intercalate (fieldTexts fields) ++ ['\x7d']

def itemTexts : List Value → List Text
  | [] => []
  | item :: items => item.compact :: itemTexts items

def fieldTexts : List (Text × Value) → List Text
  | [] => []
  | field :: fields => (quote field.1 ++ ':' :: field.2.compact) :: fieldTexts fields

end

end JsonText
