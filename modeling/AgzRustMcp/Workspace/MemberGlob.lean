import AgzRustMcp.Foundation.Glob
import AgzRustMcp.Foundation.Utf8Stream
import AgzRustMcp.Foundation.Utf8Tail

/-!
# Globs for workspace members

`wildcard_matches` of `workspace/metadata.rs` compares bytes, and takes a star of the name for a
star of the pattern.  So the names that it reads right, whatever the pattern, are those of ASCII
characters without a star.
-/

namespace AgzRustMcp.Workspace

open Utf8Text Glob
open String (utf8Len)

def IsAscii (t : Text) : Prop := ∀ c ∈ t, c.toNat < 128

section

variable {pattern name pre suf : Text} {front value : List UInt8} {c : Char}

end

end AgzRustMcp.Workspace
