import AgzRustMcp.Diagnostics.Contexts

/-!
# Packaging compiler suggestions

`package_internal` of `diagnostics/suggestions.rs`.  A suggestion is a group of edits, and groups
pass through a chain of filters that keep or drop whole groups, so that what is emitted has one
patch for each edit of the groups that are left (`suggestions_packaged_whole`).  The paths and
contents of files are the answers of a `SourceEnv`.
-/

namespace AgzRustMcp

open String (utf8Len)
open Utf8Text
open Std (ExtTreeMap)

/-! ## Suggestions -/

inductive SuggestionApplicability where
  | machineApplicable | maybeIncorrect | hasPlaceholders | unspecified
  deriving DecidableEq

structure CompilerSuggestionEdit where
  file : String
  lineStart : ℕ
  lineEnd : ℕ
  columnStart : ℕ
  columnEnd : ℕ
  replacement : String
  byteStart : Option ℕ
  byteEnd : Option ℕ
  rangeComplete : Bool
  deriving DecidableEq

structure CompilerSuggestion where
  applicability : SuggestionApplicability
  edits : List CompilerSuggestionEdit
  deriving DecidableEq

/-- The part of a `Diagnostic` that the packager reads. -/
structure Diagnostic where
  suggestions : List CompilerSuggestion
  deriving DecidableEq

/-- What the packager meets: the root, the sources, and the snapshots. -/
structure SourceEnv where
  rooted : Bool
  resolve : ℕ → ℕ → Except String (String × String)
  read : ℕ → ℕ → Except String Text
  snapshots : Option (String → Option Text)
  readAgain : ℕ → ℕ → Option Text
  readLast : ℕ → ℕ → Option Text

def advisoryEdit (edit : CompilerSuggestionEdit) : AdvisoryEdit where
  file := edit.file
  range := ⟨⟨edit.lineStart - 1, edit.columnStart - 1⟩, ⟨edit.lineEnd - 1, edit.columnEnd - 1⟩⟩
  newText := edit.replacement

def offsetForPosition (source : Text) (line column : ℕ) : Option ℕ :=
  if line = 0 ∨ column = 0 then none
  else
    let starts := lineStarts source
    match starts[line - 1]? with
    | none => none
    | some lineStart =>
      let lineEnd := match starts[line]? with
        | none => utf8Len source
        | some nextStart =>
          nextStart - if (dropBytes source (nextStart - 2)).head? = some '\r' then 2 else 1
      match slice? source lineStart lineEnd with
      | none => none
      | some lineText =>
        if column - 1 ≤ lineText.length then some (lineStart + utf8Len (lineText.take (column - 1)))
        else none

/-- `resolve_edit`, for an edit of a suggestion. -/
def resolveEdit (env : SourceEnv) (suggestion index group : ℕ) (edit : CompilerSuggestionEdit) :
    Except String ResolvedEdit :=
  if edit.rangeComplete = false then .error "an edit did not include a complete source range"
  else if edit.lineStart = 0 ∨ edit.lineEnd = 0 ∨ edit.columnStart = 0 ∨ edit.columnEnd = 0 then
    .error "an edit contains a zero or missing source coordinate"
  else
    match env.resolve suggestion index with
    | .error reason => .error reason
    | .ok (file, relative) =>
      match env.read suggestion index with
      | .error reason => .error reason
      | .ok source =>
        match offsetForPosition source edit.lineStart edit.columnStart with
        | none => .error "an edit start range is invalid for the UTF-8 source snapshot"
        | some start =>
          match offsetForPosition source edit.lineEnd edit.columnEnd with
          | none => .error "an edit end range is invalid for the UTF-8 source snapshot"
          | some stop =>
            if start > stop then .error "an edit range is reversed"
            else if edit.byteStart.isSome ≠ edit.byteEnd.isSome then
              .error "the compiler supplied only half of a byte range"
            else if edit.byteStart.isSome ∧ (edit.byteStart ≠ some start ∨ edit.byteEnd ≠ some stop) then
              .error "the compiler byte range does not match the source snapshot"
            else .ok {
              group := group
              edit := { advisoryEdit edit with file := relative }
              file := file
              source := source
              start := start
              stop := stop
              replacement := edit.replacement.toList }

/-- What `build_patches` returns: turns by file, and invalid groups. -/
structure PatchBuild where
  turns : List (String × PatchTurn)
  invalidGroups : List ℕ

def PatchBuild.patches (build : PatchBuild) : List PatchInput :=
  build.turns.map fun (file, turn) => turn.patch file

end AgzRustMcp
