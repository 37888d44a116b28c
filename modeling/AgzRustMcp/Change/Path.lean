import AgzRustMcp.Foundation.Utf8Text
import AgzRustMcp.Foundation.Delimited

/-!
# Candidate-relative paths

`normalize_relative` turns a path into plain components, and the record stores the text of these,
which goes through `normalize_relative` once more when it is used again.  As that function trims its
argument, the second pass returns the path of the first one unless its text begins or ends with
white space.  Paths are Unix paths.
-/

namespace AgzRustMcp

open Utf8Text

/-- One name of the system, with its `to_string_lossy` where not Unicode. -/
inductive OsName where
  | unicode (name : String)
  | nonUnicode (rendering : String) (raw : ByteArray)
  deriving DecidableEq

def OsName.toStringLossy : OsName → String
  | .unicode name => name
  | .nonUnicode rendering _ => rendering

/-- A relative path, as the list of its components. -/
abbrev RelPath := List OsName

/-! ## Components of a path text -/

/-- `char::is_whitespace`: the Unicode property `White_Space`. -/
def isWhitespace (c : Char) : Bool :=
  let n := c.toNat
  (9 ≤ n && n ≤ 13) || n == 32 || n == 0x85 || n == 0xA0 || n == 0x1680 ||
    (0x2000 ≤ n && n ≤ 0x200A) || n == 0x2028 || n == 0x2029 || n == 0x202F || n == 0x205F ||
    n == 0x3000

def trim (t : Text) : Text :=
  ((t.dropWhile isWhitespace).reverse.dropWhile isWhitespace).reverse

def splitWhitespace (text : List Char) : List (List Char) :=
  (text.splitOnP isWhitespace).filter (· ≠ [])

/-- `std::path::Component` of a path without a prefix. -/
inductive Component where
  | rootDir
  | curDir
  | parentDir
  | normal (name : String)
  deriving DecidableEq

/-- The component of one part; empty parts and inner dots have none. -/
def partComponent? (part : Text) : Option Component :=
  if part = [] ∨ part = ['.'] then none
  else if part = ['.', '.'] then some .parentDir
  else some (.normal (String.ofList part))

def isAbsolute (path : Text) : Bool := path.head? == some '/'

/-- A leading separator is the root; a dot counts only at the start. -/
def components (path : Text) : List Component :=
  let parts := path.splitOn '/'
  let named := parts.filterMap partComponent?
  if isAbsolute path then .rootDir :: named
  else if parts.head? = some ['.'] then .curDir :: named
  else named

/-- The loop of `normalize_relative` over the components of the trimmed path. -/
def normalizeComponents (value : String) : List Component → Except String RelPath
  | [] => .ok []
  | .normal name :: rest =>
    if name = ".git" ∨ name = "target" then
      .error s!"file targets a server-excluded directory: {value}"
    else (normalizeComponents value rest).map (.unicode name :: ·)
  | .curDir :: rest => normalizeComponents value rest
  | .parentDir :: _ => .error s!"file escapes the candidate root: {value}"
  | .rootDir :: _ => .error s!"file escapes the candidate root: {value}"

/-- `normalize_relative` of `change/patch.rs`. -/
def normalizeRelative (value : String) : Except String RelPath :=
  let trimmed := trim value.toList
  if trimmed = [] then .error "file cannot be empty"
  else if isAbsolute trimmed then .error s!"file must be relative to the candidate: {value}"
  else
    match normalizeComponents value (components trimmed) with
    | .error reason => .error reason
    | .ok [] => .error s!"file must name a file inside the candidate: {value}"
    | .ok relative => .ok relative

/-- `relative_path_string` of `change/capture.rs`. -/
def relativePathString (path : RelPath) : String :=
  String.ofList (['/'].intercalate (path.map fun name => name.toStringLossy.toList))

/-- `normalize_patch_file` of `change/service.rs`. -/
def normalizePatchFile (file : String) : String :=
  match normalizeRelative file with
  | .ok path => relativePathString path
  | .error _ => file

/-! ## Normal paths -/

/-- A name that `normalize_relative` lets into a path. -/
structure PlainName (name : String) : Prop where
  ne_nil : name.toList ≠ []
  no_separator : '/' ∉ name.toList
  ne_dot : name.toList ≠ ['.']
  ne_dotDot : name.toList ≠ ['.', '.']
  not_excluded : ¬ (name = ".git" ∨ name = "target")

/-- A path that `normalize_relative` can return: not empty, and made of plain names. -/
structure NormalPath (path : RelPath) : Prop where
  ne_nil : path ≠ []
  plain : ∀ name ∈ path, ∃ text, name = .unicode text ∧ PlainName text

/-- The recorded text of a path comes out of `trim` as it went in. -/
def SurvivesTrim (path : RelPath) : Prop :=
  trim (relativePathString path).toList = (relativePathString path).toList

instance (path : RelPath) : Decidable (SurvivesTrim path) := by
  unfold SurvivesTrim
  infer_instance

lemma of_mem_components {path : Text} {name : String} (h : .normal name ∈ components path) :
    name.toList ≠ [] ∧ '/' ∉ name.toList ∧ name.toList ≠ ['.'] ∧ name.toList ≠ ['.', '.'] := by
  have hnamed : .normal name ∈ (path.splitOn '/').filterMap partComponent? := by
    unfold components at h
    dsimp only at h
    split_ifs at h
    · exact (List.mem_cons.mp h).resolve_left (by simp)
    · exact (List.mem_cons.mp h).resolve_left (by simp)
    · exact h
  obtain ⟨part, hpart, hname⟩ := List.mem_filterMap.mp hnamed
  unfold partComponent? at hname
  split_ifs at hname with hempty hdots
  · simp at hname
  obtain rfl : String.ofList part = name := by simpa using hname
  rw [not_or] at hempty
  simp only [String.toList_ofList]
  exact ⟨hempty.1, Delimited.notMem_of_mem_splitOn hpart, hempty.2, hdots⟩

lemma mem_of_normalizeComponents {value : String} {parts : List Component} {path : RelPath}
    (h : normalizeComponents value parts = .ok path) :
    ∀ name ∈ path, ∃ text, name = .unicode text ∧ .normal text ∈ parts ∧ ¬ (text = ".git" ∨ text = "target") := by
  induction parts generalizing path with
  | nil =>
    obtain rfl : [] = path := by simpa [normalizeComponents] using h
    simp
  | cons part parts ih =>
    cases part with
    | rootDir => simp [normalizeComponents] at h
    | parentDir => simp [normalizeComponents] at h
    | curDir =>
      intro name hname
      obtain ⟨text, rfl, hmem, hex⟩ := ih h name hname
      exact ⟨text, rfl, List.mem_cons_of_mem _ hmem, hex⟩
    | normal text =>
      unfold normalizeComponents at h
      split_ifs at h with hex
      cases hrest : normalizeComponents value parts with
      | error reason => simp [hrest, Except.map] at h
      | ok rest =>
        obtain rfl : .unicode text :: rest = path := by simpa [hrest, Except.map] using h
        intro name hname
        rcases List.mem_cons.mp hname with rfl | hname
        · exact ⟨text, rfl, List.mem_cons_self, hex⟩
        · obtain ⟨text', rfl, hmem, hex'⟩ := ih hrest name hname
          exact ⟨text', rfl, List.mem_cons_of_mem _ hmem, hex'⟩

lemma normalizeComponents_map_normal (value : String) (names : List String)
    (h : ∀ name ∈ names, ¬ (name = ".git" ∨ name = "target")) :
    normalizeComponents value (names.map .normal) = .ok (names.map .unicode) := by
  induction names with
  | nil => rfl
  | cons name names ih =>
    have hname := h name List.mem_cons_self
    have hrest := ih fun n hn => h n (List.mem_cons_of_mem _ hn)
    rw [List.map_cons, List.map_cons, normalizeComponents, if_neg hname, hrest]
    rfl

lemma normalPath_of_normalizeRelative {value : String} {path : RelPath}
    (h : normalizeRelative value = .ok path) : NormalPath path := by
  unfold normalizeRelative at h
  dsimp only at h
  split_ifs at h
  split at h
  · simp at h
  · simp at h
  · next relative hne hcomp =>
    obtain rfl : relative = path := by simpa using h
    refine ⟨hne, fun name hname => ?_⟩
    obtain ⟨text, rfl, hmem, hex⟩ := mem_of_normalizeComponents hcomp name hname
    obtain ⟨h1, h2, h3, h4⟩ := of_mem_components hmem
    exact ⟨text, rfl, ⟨h1, h2, h3, h4, hex⟩⟩

lemma NormalPath.exists_names {path : RelPath} (h : NormalPath path) :
    ∃ names : List String, path = names.map .unicode ∧ names ≠ [] ∧ ∀ name ∈ names, PlainName name := by
  obtain ⟨hne, hplain⟩ := h
  refine ⟨path.map OsName.toStringLossy, ?_, by simpa using hne, ?_⟩
  · rw [List.map_map]
    refine (List.map_congr_left (g := id) fun name hname => ?_).trans (List.map_id path) |>.symm
    obtain ⟨text, rfl, -⟩ := hplain name hname
    rfl
  · intro name hname
    obtain ⟨n, hn, rfl⟩ := List.mem_map.mp hname
    obtain ⟨text, rfl, hp⟩ := hplain n hn
    exact hp

lemma toList_relativePathString (names : List String) :
    (relativePathString (names.map .unicode)).toList = ['/'].intercalate (names.map String.toList) := by
  unfold relativePathString
  rw [String.toList_ofList, List.map_map]
  rfl

lemma splitOn_relativePathString {names : List String} (hne : names ≠ []) (hplain : ∀ name ∈ names, PlainName name) :
    (relativePathString (names.map .unicode)).toList.splitOn '/' = names.map String.toList := by
  rw [toList_relativePathString]
  refine List.splitOn_intercalate '/' (fun part hpart => ?_) (by simpa using hne)
  obtain ⟨name, hname, rfl⟩ := List.mem_map.mp hpart
  exact (hplain name hname).no_separator

lemma isAbsolute_relativePathString {names : List String} (hne : names ≠ [])
    (hplain : ∀ name ∈ names, PlainName name) :
    isAbsolute (relativePathString (names.map .unicode)).toList = false := by
  rw [toList_relativePathString]
  cases names with
  | nil => exact absurd rfl hne
  | cons name names =>
    have hname := hplain name List.mem_cons_self
    cases hchars : name.toList with
    | nil => exact absurd hchars hname.ne_nil
    | cons c cs =>
      have hc : c ≠ '/' := fun hc => hname.no_separator (by simp [hchars, hc])
      cases names with
      | nil => simp [isAbsolute, hchars, hc]
      | cons name' names => simp [isAbsolute, List.intercalate, hchars, hc]

lemma components_relativePathString {names : List String} (hne : names ≠ [])
    (hplain : ∀ name ∈ names, PlainName name) :
    components (relativePathString (names.map .unicode)).toList = names.map .normal := by
  have hsplit := splitOn_relativePathString hne hplain
  have habs := isAbsolute_relativePathString hne hplain
  have hnamed : (names.map String.toList).filterMap partComponent? = names.map .normal := by
    clear hsplit habs hne
    induction names with
    | nil => rfl
    | cons name names ih =>
      have hname := hplain name List.mem_cons_self
      have hpart : partComponent? name.toList = some (.normal name) := by
        unfold partComponent?
        rw [if_neg (not_or.mpr ⟨hname.ne_nil, hname.ne_dot⟩), if_neg hname.ne_dotDot, String.ofList_toList]
      rw [List.map_cons, List.filterMap_cons_some hpart, ih fun n hn => hplain n (List.mem_cons_of_mem _ hn)]
      rfl
  have hdot : (names.map String.toList).head? ≠ some ['.'] := by
    cases names with
    | nil => exact absurd rfl hne
    | cons name names =>
      intro h
      exact (hplain name List.mem_cons_self).ne_dot (by simpa using h)
  unfold components
  dsimp only
  rw [hsplit, habs, hnamed, if_neg (by simp), if_neg hdot]

/-- A second `normalize_relative` returns a path that trimming leaves alone. -/
theorem normalizeRelative_relativePathString {path : RelPath} (h : NormalPath path)
    (htrim : SurvivesTrim path) : normalizeRelative (relativePathString path) = .ok path := by
  obtain ⟨names, rfl, hne, hplain⟩ := h.exists_names
  have hsplit := splitOn_relativePathString hne hplain
  have hnil : (relativePathString (names.map .unicode)).toList ≠ [] := by
    intro hnil
    rw [hnil, List.splitOn_nil] at hsplit
    cases names with
    | nil => exact hne rfl
    | cons name names =>
      have hhead : [] = name.toList := by simpa using (List.cons.inj hsplit).1
      exact (hplain name List.mem_cons_self).ne_nil hhead.symm
  have hcomp := normalizeComponents_map_normal (relativePathString (names.map .unicode))
    names fun name hname => (hplain name hname).not_excluded
  unfold normalizeRelative
  dsimp only
  rw [htrim, if_neg hnil, isAbsolute_relativePathString hne hplain, if_neg (by simp),
    components_relativePathString hne hplain, hcomp]
  cases names with
  | nil => exact absurd rfl hne
  | cons name names => rfl

/-- Normal paths with the same recorded text are equal. -/
theorem relativePathString_injective {path path' : RelPath} (h : NormalPath path)
    (h' : NormalPath path') (heq : relativePathString path = relativePathString path') : path = path' := by
  obtain ⟨names, rfl, hne, hplain⟩ := h.exists_names
  obtain ⟨names', rfl, hne', hplain'⟩ := h'.exists_names
  have hsplit := splitOn_relativePathString hne hplain
  rw [heq, splitOn_relativePathString hne' hplain'] at hsplit
  have hnames : names' = names := by
    have hmap := congrArg (List.map String.ofList) hsplit
    simpa [List.map_map, Function.comp_def] using hmap
  rw [hnames]

end AgzRustMcp
