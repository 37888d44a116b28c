import AgzRustMcp.Foundation.Matches
import AgzRustMcp.Foundation.TextLines
import AgzRustMcp.Foundation.TextScan
import AgzRustMcp.Change.Model

/-!
# Mechanical candidates

`clone_at_move`, `derive_trait` and `known_import` of `repair/analysis.rs` choose a line, a text on
it, and what they insert into this text; `unique_window` widens the line until the window occurs
once in the source.
-/

namespace AgzRustMcp

open Utf8Text TextScan
open String (utf8Len)

/-- The text behind the first occurrence of a needle. -/
def behind? (t needle : Text) : Option Text :=
  (find? t needle).map fun i => dropBytes t (i + utf8Len needle)

/-- The text before the first occurrence of a character. -/
def before? (t : Text) (c : Char) : Option Text :=
  if c ∈ t then some (t.takeWhile (· ≠ c)) else none

def firstBackticked (message : Text) : Option Text :=
  ((behind? message ['`']).bind fun rest => before? rest '`').bind fun value =>
    if trim value = [] then none else some (trim value)

def movedSymbol (message : Text) : Option Text :=
  (["borrow of moved value: ", "use of moved value: ", "value moved here: ",
    "cannot move out of "].findSome? fun lead =>
      (behind? message lead.toList).bind firstBackticked).orElse fun _ =>
    if (find? message "moved".toList).isSome then firstBackticked message else none

def traitObligation (message : Text) : Option (Option Text × Text) :=
  match behind? message "the trait bound ".toList with
  | some rest =>
    (firstBackticked rest).map fun bound =>
      match splitOnce [':'] bound with
      | some (typeName, traitName) =>
        let traitName := trim ((trim traitName).dropWhile (· = '~'))
        if traitName ≠ [] then
          (if trim typeName = [] then none else some (trim typeName), traitName)
        else (none, bound)
      | none => (none, bound)
  | none =>
    match behind? message "doesn't implement ".toList with
    | some rest => (firstBackticked rest).map fun traitName => (firstBackticked message, traitName)
    | none =>
      (behind? message "no method named ".toList).map fun rest =>
        let typeName := (find? rest " for ".toList).bind fun i => firstBackticked (dropBytes rest i)
        (typeName.orElse fun _ => firstBackticked rest, "method bound".toList)

/-! ## Windows -/

/-- A line from one, and a text on it with an insertion. -/
structure MechanicalEdit where
  line : ℕ
  head : Text
  inserted : Text
  tail : Text
  deriving DecidableEq

def MechanicalEdit.needle (edit : MechanicalEdit) : Text := edit.head ++ edit.tail

def MechanicalEdit.replacement (edit : MechanicalEdit) : Text :=
  edit.head ++ edit.inserted ++ edit.tail

/-- `count_occurrences`, where the needle is not empty. -/
def countOccurrences (source needle : Text) : ℕ := matchCount source needle

/-- The lines around an anchor, counted from zero. -/
def windowAt (source : Text) (anchor radius : ℕ) : Option Text :=
  let bounds := lineBounds source
  (bounds[anchor - radius]?).bind fun start =>
    (bounds[min (anchor + radius) (bounds.length - 1)]?).bind fun stop => slice? source start.1 stop.2

/-- The loop of `unique_window` over the radii. -/
def searchWindow (source : Text) (anchor : ℕ) (needle replacement : Text) : List ℕ → Option (Text × Text)
  | [] => none
  | radius :: radii =>
    (windowAt source anchor radius).bind fun excerpt =>
      if excerpt = [] ∨ countOccurrences source excerpt ≠ 1 then
        searchWindow source anchor needle replacement radii
      else
        match find? excerpt needle with
        | none => searchWindow source anchor needle replacement radii
        | some offset => some (excerpt,
            takeBytes excerpt offset ++ replacement ++ dropBytes excerpt (offset + utf8Len needle))

/-- `unique_window`, with a replacement. -/
def uniqueWindow (source : Text) (line : ℕ) (needle replacement : Text) : Option (Text × Text) :=
  if line = 0 ∨ (lineBounds source).length ≤ line - 1 then none
  else searchWindow source (line - 1) needle replacement (List.range 9)

def MechanicalEdit.patch (edit : MechanicalEdit) (file : String) (source : Text) : Option PatchInput :=
  (uniqueWindow source edit.line edit.needle edit.replacement).map fun (oldString, newString) =>
    ⟨file, String.ofList oldString, String.ofList newString⟩

def candidateLine (diagnostic : ChangeDiagnosticData) : Option ℕ :=
  diagnostic.line.filter (0 < ·)

/-- The edit of `clone_at_move`. -/
def cloneAtMoveEdit (diagnostic : ChangeDiagnosticData) (source : Text) : Option MechanicalEdit :=
  (movedSymbol diagnostic.message.toList).bind fun symbol =>
    (candidateLine diagnostic).bind fun line =>
      ((strLines source)[line - 1]?).bind fun text =>
        (find? text symbol).bind fun offset =>
          if ".clone()".toList.isPrefixOf (dropBytes text (offset + utf8Len symbol)) then none
          else some ⟨line, symbol, ".clone()".toList, []⟩

def cloneAtMove (diagnostic : ChangeDiagnosticData) (file : String) (source : Text) : Option PatchInput :=
  (cloneAtMoveEdit diagnostic source).bind fun edit => edit.patch file source

/-! ## Derives -/

def derivableTraits : List String :=
  ["Clone", "Copy", "Debug", "Default", "PartialEq", "Eq", "PartialOrd", "Ord", "Hash"]

def definesType (typeName line : Text) : Bool :=
  let line := trimStartMatches "pub ".toList line.length line
  ("struct ".toList ++ typeName).isPrefixOf line || ("enum ".toList ++ typeName).isPrefixOf line

/-- A line with a derive attribute, without the white space around it. -/
def deriveAttribute (line : Text) : Option Text :=
  if "#[derive(".toList.isPrefixOf (trim line) && ")]".toList.isSuffixOf (trim line) then
    some (trim line) else none

/-- The edit of `derive_trait`, when the definition has been found. -/
def deriveEditAt (lines : List Text) (definition : ℕ) (text traitName : Text) : Option MechanicalEdit :=
  let previous := if definition = 0 then none else lines[definition - 1]?
  match previous.bind deriveAttribute with
  | some derived =>
    if (find? derived traitName).isSome then none
    else some ⟨definition, derived.take (derived.length - 2), ", ".toList ++ traitName, ")]".toList⟩
  | none => some ⟨definition + 1, [], "#[derive(".toList ++ traitName ++ ")]\n".toList, text⟩

/-- The edit of `derive_trait`. -/
def deriveTraitEdit (diagnostic : ChangeDiagnosticData) (source : Text) : Option MechanicalEdit :=
  (traitObligation diagnostic.message.toList).bind fun (typeName, traitName) =>
    typeName.bind fun typeName =>
      let traitName := trim traitName
      if String.ofList traitName ∉ derivableTraits then none
      else
        let lines := strLines source
        (lines.findIdx? (definesType typeName)).bind fun definition =>
          (lines[definition]?).bind fun text => deriveEditAt lines definition text traitName

def deriveTrait (diagnostic : ChangeDiagnosticData) (file : String) (source : Text) : Option PatchInput :=
  (deriveTraitEdit diagnostic source).bind fun edit => edit.patch file source

/-! ## Imports -/

def knownImports : List (String × String) :=
  [("HashMap", "std::collections::HashMap"), ("HashSet", "std::collections::HashSet"),
    ("BTreeMap", "std::collections::BTreeMap"), ("BTreeSet", "std::collections::BTreeSet"),
    ("VecDeque", "std::collections::VecDeque"), ("BinaryHeap", "std::collections::BinaryHeap"),
    ("Arc", "std::sync::Arc"), ("Rc", "std::rc::Rc"), ("Mutex", "std::sync::Mutex"),
    ("RwLock", "std::sync::RwLock"), ("PathBuf", "std::path::PathBuf"),
    ("Duration", "std::time::Duration"), ("Instant", "std::time::Instant"),
    ("IpAddr", "std::net::IpAddr"), ("SocketAddr", "std::net::SocketAddr")]

def missingName (message : Text) : Option Text :=
  ["use of undeclared type `", "cannot find type `", "cannot find struct, variant or union type `",
    "use of undeclared crate or module `",
    "failed to resolve: use of undeclared type `"].findSome? fun lead =>
      (behind? message lead.toList).bind fun rest => before? rest '`'

/-- The last of the inner attributes and documentation that the lines start with. -/
def lastInnerAttribute (last : Option ℕ) (index : ℕ) : List Text → Option ℕ
  | [] => last
  | line :: lines =>
    let trimmed := line.dropWhile isWhitespace
    if "#![".toList.isPrefixOf trimmed || "//!".toList.isPrefixOf trimmed then
      lastInnerAttribute (some index) (index + 1) lines
    else if trimmed ≠ [] then last
    else lastInnerAttribute last (index + 1) lines

/-- The line behind which an import goes. -/
def importAnchor (lines : List Text) : Option ℕ :=
  let lastUse := (lines.reverse.findIdx? fun line =>
    "use ".toList.isPrefixOf (line.dropWhile isWhitespace)).map fun index =>
      lines.length - 1 - index
  (lastUse.orElse fun _ => lastInnerAttribute none 0 lines).orElse fun _ =>
    if lines = [] then none else some 0

/-- The edit of `known_import`. -/
def knownImportEdit (diagnostic : ChangeDiagnosticData) (source : Text) : Option MechanicalEdit :=
  (missingName diagnostic.message.toList).bind fun name =>
    (knownImports.find? fun entry => entry.1.toList = name).bind fun entry =>
      let statement := ("use " ++ entry.2 ++ ";").toList
      if (find? source statement).isSome then none
      else
        let lines := strLines source
        (importAnchor lines).bind fun anchor =>
          (lines[anchor]?).map fun text => ⟨anchor + 1, text, '\n' :: statement, []⟩

def knownImport (diagnostic : ChangeDiagnosticData) (file : String) (source : Text) : Option PatchInput :=
  (knownImportEdit diagnostic source).bind fun edit => edit.patch file source

end AgzRustMcp
