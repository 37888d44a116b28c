import AgzRustMcp.Gate.Scope
import AgzRustMcp.Repair.Items
import AgzRustMcp.Repair.Minimize

/-!
# The reductions of a tree

`plan_units` and `apply_units` of `repair/minimize.rs`.  A unit removes a span of a file, a module
declaration with the file of the module, or a whole file; only units that nothing seems to refer to
are offered, and never the item with the failure.
-/

namespace AgzRustMcp

open Utf8Text
open String (utf8Len)
open Std (ExtTreeMap)

def RepairReductionScope.includesFiles : RepairReductionScope → Bool
  | .files | .all => true
  | .items | .modules => false

def RepairReductionScope.includesItems : RepairReductionScope → Bool
  | .items | .all => true
  | .files | .modules => false

def RepairReductionScope.includesModules : RepairReductionScope → Bool
  | .modules | .all => true
  | .files | .items => false

/-! ## Paths -/

def fileName? (path : List Component) : Option String :=
  match path.getLast? with
  | some (.normal name) => some name
  | _ => none

def parent? (path : List Component) : Option (List Component) :=
  match path.getLast? with
  | some (.normal _) | some .curDir | some .parentDir => some path.dropLast
  | _ => none

/-- `Path::join`. -/
def joinPath (directory : List Component) (path : String) : List Component :=
  if isAbsolute path.toList then components path.toList else directory ++ components path.toList

/-- `Path::file_stem` of a file name. -/
def fileStem (name : String) : String :=
  match Gate.extension? name with
  | some extension => String.ofList (name.toList.take (name.length - (extension.length + 1)))
  | none => name

def isRustSource (file : String) : Bool :=
  match (fileName? (components file.toList)).bind Gate.extension? with
  | some extension => extension.toList.map Char.toLower == "rs".toList
  | none => false

def resolveRelative (file path : String) : Option String := do
  let directory ← parent? (components file.toList)
  let parts ← (joinPath directory path).foldlM (fun (parts : List String) component =>
    match component with
    | .normal part => some (parts ++ [part])
    | .curDir => some parts
    | .parentDir => if parts = [] then none else some parts.dropLast
    | .rootDir => none) []
  some ("/".intercalate parts)

def pathToSlash (path : List Component) : Option String := do
  let parts ← path.foldlM (fun (parts : List String) component =>
    match component with
    | .normal part => some (parts ++ [part])
    | .curDir => some parts
    | _ => none) []
  if parts = [] then none else some ("/".intercalate parts)

def resolveModuleFile (file name : String) (pathAttr : Option String) (tree : SourceTree) : Option String :=
  if name = "" then none
  else
    match pathAttr with
    | some path => (resolveRelative file path).filter tree.contains
    | none => do
      let path := components file.toList
      let directory ← parent? path
      let stem := fileStem (← fileName? path)
      let base := if stem ∈ ["lib", "main", "mod"] then directory else joinPath directory stem
      let candidates := [joinPath base (name ++ ".rs"), joinPath (joinPath base name) "mod.rs"]
      candidates.findSome? fun candidate => (pathToSlash candidate).filter tree.contains

/-! ## Names -/

/-- The identifiers that `scan_identifiers` counts in a text. -/
def identifiers : ℕ → Text → List Text
  | 0, _ => []
  | _ + 1, [] => []
  | left + 1, c :: s =>
    if c.isAlpha || c == '_' then
      (c :: s.takeWhile isWordByte) :: identifiers left (s.dropWhile isWordByte)
    else identifiers left s

mutual

/-- `collect_names`. -/
def ParsedItem.names : ParsedItem → List String
  | .mk _ _ _ _ name _ _ children => (name.filter (· ≠ "")).toList ++ namesOf children

def namesOf : List ParsedItem → List String
  | [] => []
  | item :: items => item.names ++ namesOf items

end

def candidateNames (tree : SourceTree) : List String :=
  tree.toList.flatMap fun entry =>
    if isRustSource entry.1 then namesOf (parseItems entry.2.toList) else []

/-- The entry of a name in the map that `count_names` returns. -/
def countOf (tree : SourceTree) (name : String) : Option ℕ :=
  if name ∈ candidateNames tree then
    let counted := tree.toList.map fun entry =>
      ((identifiers entry.2.length entry.2.toList).filter fun word =>
        utf8Len word ≤ 128).count name.toList
    some (min counted.sum (2 ^ 32 - 1))
  else none

def nameReferencedElsewhere (tree : SourceTree) (item : ParsedItem) : Bool :=
  ((item.name.bind (countOf tree)).map fun total => decide (total > 1)).getD false

def moduleNameUsedElsewhere (tree : SourceTree) (name : String) : Bool :=
  name ≠ "" && tree.toList.any fun entry =>
    containsText entry.2.toList (name.toList ++ "::".toList) ||
      containsText entry.2.toList ("::".toList ++ name.toList)

/-! ## Referenced files -/

def quotedAfterEq (line : Text) : Option String := do
  let (_, value) ← TextScan.splitOnce ['='] line
  let value ← TextScan.stripPrefix ['"'] (trim value)
  let (value, _) ← TextScan.splitOnce ['"'] value
  if value ≠ [] then some (String.ofList value) else none

/-- The loop of `crate_roots` over the manifest. -/
def manifestRoots : Bool → List Text → List String
  | _, [] => []
  | inTarget, line :: lines =>
    let trimmed := trim line
    if trimmed.head? = some '[' then
      manifestRoots (trimmed = "[lib]".toList || trimmed = "[[bin]]".toList) lines
    else if inTarget then (quotedAfterEq trimmed).toList ++ manifestRoots inTarget lines
    else manifestRoots inTarget lines

def crateRoots (tree : SourceTree) : List String :=
  manifestRoots false (strLines (tree["Cargo.toml"]?.getD "").toList) ++
    ["src/lib.rs", "src/main.rs"].filter tree.contains

mutual

/-- `collect_mod_references` for an item. -/
def ParsedItem.modReferences (file : String) (tree : SourceTree) : ParsedItem → List String
  | .mk kind _ _ _ name pathAttr _ children =>
    (if kind = .modDecl then
      (name.bind fun name => resolveModuleFile file name pathAttr tree).toList
    else []) ++ modReferencesOf file tree children

/-- `collect_mod_references`. -/
def modReferencesOf (file : String) (tree : SourceTree) : List ParsedItem → List String
  | [] => []
  | item :: items => item.modReferences file tree ++ modReferencesOf file tree items

end

def parenString (rest : Text) : Option String := do
  let rest ← TextScan.stripPrefix ['('] (rest.dropWhile isWhitespace)
  plainQuoted (rest.dropWhile isWhitespace)

def behindOccurrences (needle : Text) : ℕ → Text → List Text
  | 0, _ => []
  | left + 1, s =>
    match TextScan.splitOnce needle s with
    | some (_, rest) => rest :: behindOccurrences needle left rest
    | none => []

def maxIncludeRefsPerFile : ℕ := 64

/-- `collect_include_references`. -/
def includeReferences (content : Text) (file : String) : List String :=
  let sites := ["include_str!", "include_bytes!", "include!"].flatMap fun name =>
    behindOccurrences name.toList content.length content
  (sites.take maxIncludeRefsPerFile).filterMap fun rest =>
    (parenString rest).bind (resolveRelative file)

def referencedFiles (tree : SourceTree) : List String :=
  crateRoots tree ++ tree.toList.flatMap fun entry =>
    if isRustSource entry.1 then
      modReferencesOf entry.1 tree (parseItems entry.2.toList) ++ includeReferences entry.2.toList entry.1
    else []

/-! ## Planning -/

structure TargetSite where
  file : String
  anchor : Option Text

def TargetSite.locate (tree : SourceTree) (predicate : FailurePredicate) : TargetSite :=
  let file := predicate.file.getD ""
  let anchor := do
    let content ← tree[file]?
    let line ← predicate.line
    if line = 0 then none
    else
      let line := trim (← (strLines content.toList)[line - 1]?)
      if line ≠ [] ∧ utf8Len line ≤ 240 then some line else none
  ⟨file, anchor⟩

/-- `Unit`. -/
inductive RemovalUnit where
  | span (file : String) (start stop : ℕ) (kind label : String)
  | moduleDecl (file : String) (start stop : ℕ) (moduleFile : Option String) (label : String)
  | file (file label : String)
  deriving DecidableEq

namespace RemovalUnit

/-- The span that a unit removes, with its file. -/
def removes : RemovalUnit → Option (String × ℕ × ℕ)
  | .span path start stop .. => some (path, start, stop)
  | .moduleDecl path start stop .. => some (path, start, stop)
  | .file .. => none

def deletes : RemovalUnit → Option String
  | .span .. => none
  | .moduleDecl _ _ _ moduleFile _ => moduleFile
  | .file path _ => some path

def files : RemovalUnit → List String
  | .span path .. => [path]
  | .moduleDecl path _ _ moduleFile _ => path :: moduleFile.toList
  | .file path _ => [path]

def label : RemovalUnit → String
  | .span _ _ _ _ text => text
  | .moduleDecl _ _ _ _ text => text
  | .file _ text => text

def lines (tree : SourceTree) : RemovalUnit → ℕ
  | .span path start stop .. | .moduleDecl path start stop .. =>
    ((tree[path]?).map fun content =>
      (strLines ((slice? content.toList start stop).getD [])).length).getD 0
  | .file path _ => ((tree[path]?).map fun content => (strLines content.toList).length).getD 0

def itemCount : RemovalUnit → ℕ
  | .span .. | .moduleDecl .. | .file .. => 1

def kind : RemovalUnit → String
  | .span _ _ _ text _ => text
  | .moduleDecl .. => "module"
  | .file .. => "file"

end RemovalUnit

def maxUnits : ℕ := 512

/-- The units found so far, and how many were not offered and why. -/
structure Offers where
  units : List RemovalUnit
  skippedReferenced : ℕ
  skippedScope : ℕ

def Offers.push (offers : Offers) (unit : RemovalUnit) : Offers :=
  { offers with units := offers.units ++ [unit] }

/-- Leaves out an item that is referred to. -/
def Offers.skipReferenced (offers : Offers) : Offers :=
  { offers with skippedReferenced := offers.skippedReferenced + 1 }

/-- Leaves out an item outside the scope. -/
def Offers.skipScope (offers : Offers) : Offers :=
  { offers with skippedScope := offers.skippedScope + 1 }

section Plan

variable (tree : SourceTree) (scope : RepairReductionScope) (file : String) (anchor : Option ℕ)

/-- What `plan_items` offers for an item that is not the target. -/
def offerItem (item : ParsedItem) (offers : Offers) : Offers :=
  match item.kind with
  | .modDecl =>
    if !scope.includesModules then offers.skipScope
    else
      let name := item.name.getD "?"
      if moduleNameUsedElsewhere tree name then offers.skipReferenced
      else
        offers.push (.moduleDecl file item.start item.stop
          (resolveModuleFile file name item.pathAttr tree) s!"module `{name}` declaration in {file}")
  | .modBlock =>
    if !scope.includesModules then offers.skipScope
    else
      let name := (item.name.map fun name => s!"`{name}`").getD "inline"
      offers.push (.span file item.start item.stop (if item.test then "testModule" else "module")
        s!"inline module {name} in {file}")
  | .use =>
    if !scope.includesItems then offers.skipScope
    else if nameReferencedElsewhere tree item then offers.skipReferenced
    else offers.push (.span file item.start item.stop "use" s!"use item in {file}")
  | _ =>
    if !scope.includesItems then offers.skipScope
    else if !item.test && nameReferencedElsewhere tree item then offers.skipReferenced
    else
      let name := (item.name.map fun name => s!"item `{name}`").getD "item"
      offers.push (.span file item.start item.stop (if item.test then "testItem" else "item")
        s!"{name} in {file}")

/-- The item with the failure is not offered. -/
def isTarget (item : ParsedItem) : Bool := (anchor.map item.contains).getD false

mutual

/-- A turn of `plan_items`. -/
def planItem : ParsedItem → Offers → Offers
  | item@(.mk kind _ _ _ _ _ _ children), offers =>
    if isTarget anchor item then
      if kind = .modBlock ∧ scope.includesModules = true then planItems children offers
      else offers
    else offerItem tree scope file item offers

def planItems : List ParsedItem → Offers → Offers
  | [], offers => offers
  | item :: items, offers =>
    if offers.units.length ≥ maxUnits then offers
    else planItems items (planItem item offers)

end

/-- The turn of `plan_units` for a file. -/
def planFileItems (target : TargetSite) (offers : Offers) (entry : String × String) : Offers :=
  if !isRustSource entry.1 || offers.units.length ≥ maxUnits then offers
  else
    let content := entry.2.toList
    let anchor := if entry.1 = target.file then target.anchor.bind (find? content) else none
    planItems tree scope entry.1 anchor (parseItems content) offers

/-- The loop of `plan_files`. -/
def planFiles (target : TargetSite) (referenced : List String) (offers : Offers) : Offers :=
  tree.keys.foldl (fun offers file =>
    if offers.units.length ≥ maxUnits then offers
    else if !isRustSource file || file = target.file || file ∈ referenced then offers
    else offers.push (.file file s!"file {file}")) offers

/-- The order of the units: the longest first, then by their labels. -/
def unitBefore (left right : RemovalUnit) : Prop :=
  right.lines tree < left.lines tree ∨ (right.lines tree = left.lines tree ∧ left.label ≤ right.label)

instance (left right : RemovalUnit) : Decidable (unitBefore tree left right) :=
  inferInstanceAs (Decidable (_ ∨ _))

def planUnits (target : TargetSite) (skippedReferenced skippedScope : ℕ) : Offers :=
  let offers : Offers := ⟨[], skippedReferenced, skippedScope⟩
  let offers :=
    if scope.includesItems || scope.includesModules then
      tree.toList.foldl (planFileItems tree scope target) offers
    else offers
  let offers :=
    if scope.includesFiles then planFiles tree target (referencedFiles tree) offers else offers
  { offers with units := (offers.units.insertionSort (unitBefore tree)).take maxUnits }

end Plan

/-! ## Applying -/

/-- The loop of `apply_units` that checks the ranges of a file. -/
def rangesFit (t : Text) : ℕ → List (ℕ × ℕ) → Bool
  | _, [] => true
  | last, (start, stop) :: ranges =>
    start < stop && stop ≤ utf8Len t && last ≤ start && isBoundary t start && isBoundary t stop &&
      rangesFit t stop ranges

/-- The order of ranges. -/
def rangeBefore (left right : ℕ × ℕ) : Prop :=
  left.1 < right.1 ∨ (left.1 = right.1 ∧ left.2 ≤ right.2)

instance (left right : ℕ × ℕ) : Decidable (rangeBefore left right) :=
  inferInstanceAs (Decidable (_ ∨ _))

/-- Removes ranges from a text, the last one first. -/
def removeRanges (t : Text) (ranges : List (ℕ × ℕ)) : Text :=
  ranges.foldr (fun range t => replaceRange t range.1 range.2 []) t

/-- Notes the range that a unit removes. -/
def noteRemoval (removals : ExtTreeMap String (List (ℕ × ℕ))) (unit : RemovalUnit) :
    ExtTreeMap String (List (ℕ × ℕ)) :=
  match unit.removes with
  | some (file, range) => removals.insert file (removals.getD file [] ++ [range])
  | none => removals

/-- The ranges that a group removes from each file. -/
def removalsOf (group : List RemovalUnit) : ExtTreeMap String (List (ℕ × ℕ)) :=
  group.foldl noteRemoval ∅

/-- The turn of `apply_units` for the ranges of a file. -/
def removeFrom (tree : SourceTree) (removal : String × List (ℕ × ℕ)) : Option SourceTree := do
  let content ← tree[removal.1]?
  let ranges := removal.2.insertionSort rangeBefore
  if rangesFit content.toList 0 ranges then
    some (tree.insert removal.1 (String.ofList (removeRanges content.toList ranges)))
  else none

def deleteSource (tree : SourceTree) (file : String) : SourceTree :=
  if isRustSource file then tree.erase file else tree

def applyUnits (tree : SourceTree) (group : List RemovalUnit) : Option SourceTree := do
  let next ← (removalsOf group).toList.foldlM removeFrom tree
  some ((group.filterMap RemovalUnit.deletes).foldl deleteSource next)

def groupKind : List RemovalUnit → String
  | [unit] => unit.kind
  | _ => "group"

def describeGroup (group : List RemovalUnit) (before : SourceTree) : String :=
  let named := (group.take 3).map RemovalUnit.label ++
    (if group.length > 3 then [s!"and {group.length - 3} more"] else [])
  let lines := (group.take 3).foldl (fun lines unit => saturatingAdd lines (unit.lines before)) 0
  let listed := ", ".intercalate named
  s!"{listed} ({lines} line(s))"

/-- The reductions of the minimizer. -/
def rustReducer : Reducer where
  Unit := RemovalUnit
  plan initial predicate scope tree skippedReferenced skippedScope :=
    let offers := planUnits tree scope (TargetSite.locate initial predicate) skippedReferenced
      skippedScope
    (offers.units, offers.skippedReferenced, offers.skippedScope)
  apply := applyUnits
  files := RemovalUnit.files
  lines unit tree := unit.lines tree
  itemCount := RemovalUnit.itemCount
  groupKind := groupKind
  describeGroup := describeGroup

end AgzRustMcp
