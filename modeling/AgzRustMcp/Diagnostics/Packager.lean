import AgzRustMcp.Foundation.Matches
import AgzRustMcp.Change.Model

/-!
# Patches of compiler suggestions

`build_patches` of `diagnostics/suggestions.rs` turns the resolved edits of a file into patches,
from the last edit to the first.  `unique_context` widens the lines around an edit until the text
between them is counted once.
-/

namespace AgzRustMcp

open String (utf8Len)
open Utf8Text

structure SourcePosition where
  line : ℕ
  character : ℕ
  deriving DecidableEq

structure SourceRange where
  start : SourcePosition
  stop : SourcePosition
  deriving DecidableEq

structure AdvisoryEdit where
  file : String
  range : SourceRange
  newText : String
  deriving DecidableEq

/-- An edit with its place in its source; `WriteFreePatch` is `PatchInput`. -/
structure ResolvedEdit where
  group : ℕ
  edit : AdvisoryEdit
  file : String
  source : Text
  start : ℕ
  stop : ℕ
  replacement : Text
  deriving DecidableEq

/-- `ranges_overlap` of `diagnostics/suggestions.rs`, for insertions too. -/
def ResolvedEdit.overlaps (left right : ResolvedEdit) : Bool :=
  if left.file ≠ right.file then false
  else if left.start = left.stop then
    decide (right.start ≤ left.start) && decide (left.start ≤ right.stop)
  else if right.start = right.stop then
    decide (left.start ≤ right.start) && decide (right.start ≤ left.stop)
  else decide (left.start < right.stop) && decide (right.start < left.stop)

/-! ## Lines -/

/-- The offsets behind the line feeds of a text that starts at an offset. -/
def lineStartsFrom (offset : ℕ) : Text → List ℕ
  | [] => []
  | c :: cs =>
    let next := offset + c.utf8Size
    if c = '\n' then next :: lineStartsFrom next cs else lineStartsFrom next cs

def lineStarts (source : Text) : List ℕ := 0 :: lineStartsFrom 0 source

def lineAtOffset (starts : List ℕ) (offset : ℕ) : ℕ :=
  (starts.takeWhile (· ≤ offset)).length - 1

def occurrenceCount (source needle : Text) : ℕ :=
  if needle = [] then 0 else matchCount source needle

def maxPatchContextBytes : ℕ := 8000

/-- The start and the end of the lines around an edit. -/
def contextBounds (source : Text) (starts : List ℕ) (startLine endLine radius : ℕ) : ℕ × ℕ :=
  let fromLine := startLine - radius
  let toLine := min (endLine + radius) (starts.length - 1)
  (starts.getD fromLine 0,
    if toLine + 1 < starts.length then starts.getD (toLine + 1) 0 else utf8Len source)

/-- The loop of `unique_context` over its radii. -/
def uniqueContextFrom (source : Text) (starts : List ℕ) (startLine endLine : ℕ) : List ℕ → Option (ℕ × ℕ × Text)
  | [] => none
  | radius :: radii =>
    let (contextStart, contextEnd) := contextBounds source starts startLine endLine radius
    let context := takeBytes (dropBytes source contextStart) (contextEnd - contextStart)
    if utf8Len context > maxPatchContextBytes then none
    else if context ≠ [] ∧ occurrenceCount source context = 1 then
      some (contextStart, contextEnd, context)
    else uniqueContextFrom source starts startLine endLine radii

def uniqueContext (source : Text) (start stop : ℕ) : Option (ℕ × ℕ × Text) :=
  if start > stop ∨ stop > utf8Len source ∨ isBoundary source start = false ∨ isBoundary source stop = false then none
  else
    let starts := lineStarts source
    uniqueContextFrom source starts (lineAtOffset starts start) (lineAtOffset starts stop)
      (List.range (starts.length + 1))

/-! ## Patches -/

/-- One emitted patch, with the content at its turn and its context. -/
structure PatchTurn where
  content : Text
  edit : ResolvedEdit
  start : ℕ
  old : Text
  new : Text
  deriving DecidableEq

/-- The content after a turn. -/
def PatchTurn.next (turn : PatchTurn) : Text :=
  replaceRange turn.content turn.start (turn.start + utf8Len turn.old) turn.new

/-- The turn of an edit, unless no context is found for it. -/
def patchTurn (content : Text) (edit : ResolvedEdit) : Option PatchTurn :=
  match uniqueContext content edit.start edit.stop with
  | none => none
  | some (contextStart, _, oldString) =>
    let prefixLength := edit.start - contextStart
    let suffixStart := edit.stop - contextStart
    some ⟨content, edit, contextStart, oldString,
      takeBytes oldString prefixLength ++ edit.replacement ++ dropBytes oldString suffixStart⟩

/-- The loop of `build_patches` over a file: turns, and groups without a context. -/
def fileTurns (content : Text) : List ResolvedEdit → List PatchTurn × List ℕ
  | [] => ([], [])
  | edit :: edits =>
    match patchTurn content edit with
    | none =>
      let rest := fileTurns content edits
      (rest.1, edit.group :: rest.2)
    | some turn =>
      let rest := fileTurns turn.next edits
      (turn :: rest.1, rest.2)

/-- The order in which the edits of a file are applied: from the last to the first. -/
def ResolvedEdit.later (left right : ResolvedEdit) : Bool :=
  decide (left.start > right.start) || decide (left.start = right.start) &&
    (decide (left.stop > right.stop) || decide (left.stop = right.stop) && decide (left.group ≥ right.group))

/-- The edits of a file in the order in which they are applied. -/
def sortedEdits (edits : List ResolvedEdit) : List ResolvedEdit :=
  edits.insertionSort fun left right => left.later right = true

/-- The turns of `build_patches` for one file. -/
def sortedTurns (content : Text) (edits : List ResolvedEdit) : List PatchTurn × List ℕ :=
  fileTurns content (sortedEdits edits)

def PatchTurn.patch (turn : PatchTurn) (file : String) : PatchInput :=
  ⟨file, String.ofList turn.old, String.ofList turn.new⟩

/-! ## Line starts -/

section

variable {source : Text} {starts : List ℕ} {start stop : ℕ}

lemma lineStartsFrom_spec (offset : ℕ) (source : Text) :
    (lineStartsFrom offset source).Pairwise (· < ·) ∧ ∀ s ∈ lineStartsFrom offset source, offset < s ∧
        ∃ pre suf, source = pre ++ suf ∧ s = offset + utf8Len pre := by
  induction source generalizing offset with
  | nil => exact ⟨.nil, by simp [lineStartsFrom]⟩
  | cons c cs ih =>
    obtain ⟨hsorted, hmem⟩ := ih (offset + c.utf8Size)
    have hpos := c.utf8Size_pos
    have hrest : ∀ s ∈ lineStartsFrom (offset + c.utf8Size) cs, offset < s ∧
        ∃ pre suf, c :: cs = pre ++ suf ∧ s = offset + utf8Len pre := by
      intro s hs
      obtain ⟨hlt, pre, suf, rfl, rfl⟩ := hmem s hs
      exact ⟨by omega, c :: pre, suf, rfl, by rw [String.utf8Len_cons]; omega⟩
    unfold lineStartsFrom
    dsimp only
    split_ifs with hfeed
    · refine ⟨List.pairwise_cons.mpr ⟨fun s hs => (hmem s hs).1, hsorted⟩, fun s hs => ?_⟩
      rcases List.mem_cons.mp hs with rfl | hs
      · exact ⟨by omega, [c], cs, rfl, by simp⟩
      · exact hrest s hs
    · exact ⟨hsorted, hrest⟩

lemma pairwise_lineStarts (source : Text) : (lineStarts source).Pairwise (· < ·) :=
  List.pairwise_cons.mpr ⟨fun s hs => ((lineStartsFrom_spec 0 source).2 s hs).1, (lineStartsFrom_spec 0 source).1⟩

lemma exists_append_of_mem_lineStarts {s : ℕ} (h : s ∈ lineStarts source) :
    ∃ pre suf, source = pre ++ suf ∧ utf8Len pre = s := by
  rcases List.mem_cons.mp h with rfl | h
  · exact ⟨[], source, rfl, rfl⟩
  · obtain ⟨-, pre, suf, hsource, rfl⟩ := (lineStartsFrom_spec 0 source).2 s h
    exact ⟨pre, suf, hsource, by rw [Nat.zero_add]⟩

lemma getD_le_getD (hsorted : starts.Pairwise (· < ·)) {i j : ℕ} (hij : i ≤ j)
    (hj : j < starts.length) : starts.getD i 0 ≤ starts.getD j 0 := by
  rcases Nat.lt_or_eq_of_le hij with hlt | rfl
  · rw [List.getD_eq_getElem _ _ (hlt.trans hj), List.getD_eq_getElem _ _ hj]
    exact (List.pairwise_iff_getElem.mp hsorted i j (hlt.trans hj) hj hlt).le
  · exact le_rfl

lemma lineAtOffset_spec (source : Text) (offset : ℕ) :
    lineAtOffset (lineStarts source) offset < (lineStarts source).length ∧
      (lineStarts source).getD (lineAtOffset (lineStarts source) offset) 0 ≤ offset := by
  have hhead : (lineStarts source).takeWhile (· ≤ offset) =
      0 :: (lineStartsFrom 0 source).takeWhile (· ≤ offset) := by
    rw [lineStarts, List.takeWhile_cons, if_pos (by simp)]
  have hlen := (List.takeWhile_prefix (l := lineStarts source) (fun s => decide (s ≤ offset))).length_le
  have hpos : 0 < ((lineStarts source).takeWhile (· ≤ offset)).length := by
    rw [hhead]
    exact Nat.succ_pos _
  have hlt : lineAtOffset (lineStarts source) offset < ((lineStarts source).takeWhile (· ≤ offset)).length := by
    unfold lineAtOffset
    omega
  refine ⟨hlt.trans_le hlen, ?_⟩
  have hmem := List.getElem_mem hlt
  rw [List.getD_eq_getElem _ _ (hlt.trans_le hlen)]
  rw [(List.takeWhile_prefix _).getElem hlt] at hmem
  simpa using List.mem_takeWhile_imp hmem

lemma not_getElem_length_takeWhile (p : ℕ → Bool) (l : List ℕ)
    (h : (l.takeWhile p).length < l.length) : p l[(l.takeWhile p).length] = false := by
  induction l with
  | nil => simp at h
  | cons n l ih =>
    by_cases hn : p n = true
    · simp only [List.takeWhile_cons_of_pos hn, List.length_cons] at h ⊢
      exact ih (by omega)
    · have hnone : List.takeWhile p (n :: l) = [] := List.takeWhile_cons_of_neg hn
      simp only [hnone, List.length_nil, List.getElem_cons_zero]
      simpa using hn

lemma lt_of_lineAtOffset {offset : ℕ} (h : lineAtOffset (lineStarts source) offset + 1 < (lineStarts source).length) :
    offset < (lineStarts source).getD (lineAtOffset (lineStarts source) offset + 1) 0 := by
  have hpos : 0 < ((lineStarts source).takeWhile (· ≤ offset)).length := by
    rw [lineStarts, List.takeWhile_cons, if_pos (by simp)]
    exact Nat.succ_pos _
  have hindex : lineAtOffset (lineStarts source) offset + 1 =
      ((lineStarts source).takeWhile (· ≤ offset)).length := by
    unfold lineAtOffset
    omega
  rw [hindex] at h ⊢
  rw [List.getD_eq_getElem _ _ h]
  simpa using not_getElem_length_takeWhile (fun s => decide (s ≤ offset)) _ h

lemma contextBounds_spec (hstop : stop ≤ utf8Len source) (radius : ℕ) :
    ∃ contextStart contextEnd, contextBounds source (lineStarts source)
        (lineAtOffset (lineStarts source) start) (lineAtOffset (lineStarts source) stop) radius =
          (contextStart, contextEnd) ∧ contextStart ≤ start ∧ stop ≤ contextEnd ∧
      (∃ pre suf, source = pre ++ suf ∧ utf8Len pre = contextStart) ∧
      ∃ pre suf, source = pre ++ suf ∧ utf8Len pre = contextEnd := by
  have hsorted := pairwise_lineStarts source
  obtain ⟨hlt, hle⟩ := lineAtOffset_spec source start
  refine ⟨_, _, rfl, ?_, ?_, ?_, ?_⟩
  · exact (getD_le_getD hsorted (Nat.sub_le _ _) hlt).trans hle
  · split_ifs with hnext
    · have hline : lineAtOffset (lineStarts source) stop + 1 ≤
          min (lineAtOffset (lineStarts source) stop + radius) ((lineStarts source).length - 1) + 1 := by
        omega
      have hbehind := lt_of_lineAtOffset (hline.trans_lt hnext)
      exact hbehind.le.trans (getD_le_getD hsorted hline hnext)
    · exact hstop
  · have hindex : lineAtOffset (lineStarts source) start - radius < (lineStarts source).length := by
      omega
    rw [List.getD_eq_getElem _ _ hindex]
    exact exists_append_of_mem_lineStarts (List.getElem_mem hindex)
  · split_ifs with hnext
    · rw [List.getD_eq_getElem _ _ hnext]
      exact exists_append_of_mem_lineStarts (List.getElem_mem hnext)
    · exact ⟨source, [], by simp, rfl⟩

lemma uniqueContext_spec {contextStart contextEnd : ℕ} {context : Text}
    (h : uniqueContext source start stop = some (contextStart, contextEnd, context)) :
    ∃ pre before middle behind suf, source = pre ++ (before ++ middle ++ behind) ++ suf ∧
      context = before ++ middle ++ behind ∧ context ≠ [] ∧
      utf8Len pre = contextStart ∧ utf8Len (pre ++ context) = contextEnd ∧
      utf8Len (pre ++ before) = start ∧ utf8Len (pre ++ before ++ middle) = stop ∧ matchCount source context = 1 := by
  unfold uniqueContext at h
  split_ifs at h with hbad
  push Not at hbad
  obtain ⟨hle, hstop, hbstart, hbstop⟩ := hbad
  rw [ne_eq, Bool.not_eq_false] at hbstart hbstop
  dsimp only at h
  revert h
  generalize List.range ((lineStarts source).length + 1) = radii
  intro h
  induction radii with
  | nil => simp [uniqueContextFrom] at h
  | cons radius radii ih =>
    obtain ⟨cs, ce, hbounds, hcs, hce, ⟨pre, rest, hpre, rfl⟩, ⟨upto, suf, hupto, rfl⟩⟩ :=
      @contextBounds_spec source start stop hstop radius
    unfold uniqueContextFrom at h
    rw [hbounds] at h
    dsimp only at h
    split_ifs at h with hlong hcounted
    · simp only [Option.some.injEq, Prod.mk.injEq] at h
      obtain ⟨rfl, rfl, hcontext⟩ := h
      -- The context is what stands between its two bounds.
      obtain ⟨mid, rfl, hrest⟩ := exists_append_of_utf8Len_le (hpre.symm.trans hupto)
        (hcs.trans (hle.trans hce))
      have hcut : takeBytes (dropBytes source (utf8Len pre))
          (utf8Len (pre ++ mid) - utf8Len pre) = mid := by
        rw [hpre, dropBytes_append_left, hrest, String.utf8Len_append, Nat.add_sub_cancel_left, takeBytes_append_left]
      rw [hcut] at hcontext hcounted
      obtain rfl := hcontext
      -- The edit divides it into three parts.
      obtain ⟨left, right, hleft, rfl⟩ := isBoundary_iff.mp hbstart
      obtain ⟨left', right', hleft', rfl⟩ := isBoundary_iff.mp hbstop
      obtain ⟨before, rfl, -⟩ := exists_append_of_utf8Len_le (hpre.symm.trans hleft) hcs
      obtain ⟨middle, rfl, -⟩ := exists_append_of_utf8Len_le (hleft.symm.trans hleft') hle
      obtain ⟨behind, hsplit, -⟩ := exists_append_of_utf8Len_le (hleft'.symm.trans hupto) hce
      have hmid : mid = before ++ middle ++ behind :=
        List.append_cancel_left (by rw [hsplit]; simp)
      refine ⟨pre, before, middle, behind, suf, ?_, hmid, hcounted.1, rfl, rfl, rfl, rfl, ?_⟩
      · rw [hupto, hsplit]
        simp
      · have hone := hcounted.2
        unfold occurrenceCount at hone
        rwa [if_neg hcounted.1] at hone
    · exact ih h

end

end AgzRustMcp
