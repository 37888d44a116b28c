import AgzRustMcp.Foundation.MapWeight
import AgzRustMcp.Repair.ItemSpans
import AgzRustMcp.Repair.Units

/-!
# Every reduction makes the tree smaller

The units that `plan_units` offers stand in files of the tree, and those in one file stand apart
(`wellPlanned_planUnits`).  Any group of such units can be applied, and removes at least a byte or a file
(`applyUnits_shrinks`).
-/

namespace AgzRustMcp

open Utf8Text
open String (utf8Len)
open Std (ExtTreeMap)

/-- The bytes of a tree and its files. -/
def treeSize (tree : SourceTree) : ℕ :=
  OrderedMap.weight (fun content => utf8Len content.toList + 1) tree

/-- A unit has a part of its file, or deletes a source file. -/
structure RemovalUnit.Fits (tree : SourceTree) (unit : RemovalUnit) : Prop where
  span : ∀ file start stop, unit.removes = some (file, start, stop) → ∃ content,
    tree[file]? = some content ∧ start < stop ∧ stop ≤ utf8Len content.toList ∧
      isBoundary content.toList start = true ∧ isBoundary content.toList stop = true
  file : unit.removes = none → ∃ file, unit.deletes = some file ∧ isRustSource file = true ∧
    ∃ content, tree[file]? = some content

/-- Two units remove nothing twice. -/
def RemovalUnit.Apart (left right : RemovalUnit) : Prop :=
  ∀ file start stop start' stop', left.removes = some (file, start, stop) →
    right.removes = some (file, start', stop') → stop ≤ start' ∨ stop' ≤ start

/-- Units that fit a tree and stand apart. -/
structure WellPlanned (tree : SourceTree) (units : List RemovalUnit) : Prop where
  fits : ∀ unit ∈ units, unit.Fits tree
  apart : units.Pairwise RemovalUnit.Apart

lemma treeSize_insert {tree : SourceTree} {file content : String} (new : String)
    (h : tree[file]? = some content) : treeSize (tree.insert file new) + utf8Len content.toList =
      treeSize tree + utf8Len new.toList := by
  have hweight : treeSize (tree.insert file new) + (utf8Len content.toList + 1) =
      treeSize tree + (utf8Len new.toList + 1) := OrderedMap.weight_insert h
  omega

lemma treeSize_erase {tree : SourceTree} {file content : String} (h : tree[file]? = some content) :
    treeSize (tree.erase file) + (utf8Len content.toList + 1) = treeSize tree :=
  OrderedMap.weight_erase h

section Planned

variable {tree : SourceTree} {units group : List RemovalUnit} {unit : RemovalUnit}

lemma RemovalUnit.Apart.symm {left right : RemovalUnit} (h : left.Apart right) : right.Apart left :=
  fun file start stop start' stop' hright hleft =>
    (h file start' stop' start stop hleft hright).symm

lemma WellPlanned.sublist (h : WellPlanned tree units) (hsub : group.Sublist units) : WellPlanned tree group :=
  ⟨fun unit hunit => h.fits unit (hsub.subset hunit), h.apart.sublist hsub⟩

lemma WellPlanned.perm (h : WellPlanned tree units) (hperm : group.Perm units) : WellPlanned tree group :=
  ⟨fun unit hunit => h.fits unit (hperm.subset hunit), (hperm.pairwise_iff fun hab => hab.symm).mpr h.apart⟩

lemma WellPlanned.push (h : WellPlanned tree units) (hfits : unit.Fits tree)
    (hapart : ∀ other ∈ units, other.Apart unit) : WellPlanned tree (units ++ [unit]) := by
  refine ⟨fun other hother => ?_, ?_⟩
  · rcases List.mem_append.mp hother with hold | hnew
    · exact h.fits other hold
    · rw [List.mem_singleton] at hnew
      exact hnew ▸ hfits
  · rw [List.pairwise_append]
    refine ⟨h.apart, List.pairwise_singleton _ _, fun other hother new hnew => ?_⟩
    rw [List.mem_singleton] at hnew
    exact hnew ▸ hapart other hother

/-! ## The plan -/

/-- The offers are well planned, in the files done so far. -/
structure Offers.Within (tree : SourceTree) (done : List String) (file : String) (bound : ℕ)
    (offers : Offers) : Prop where
  planned : WellPlanned tree offers.units
  removes : ∀ unit ∈ offers.units, ∀ f start stop, unit.removes = some (f, start, stop) →
    f ∈ done ∨ (f = file ∧ stop ≤ bound)

variable {scope : RepairReductionScope} {file content : String} {anchor : Option ℕ}
  {done : List String} {offers : Offers} {bound : ℕ}

lemma Offers.Within.mono {bound' : ℕ} (h : offers.Within tree done file bound)
    (hle : bound ≤ bound') : offers.Within tree done file bound' :=
  ⟨h.planned, fun unit hunit f start stop hremoves =>
    (h.removes unit hunit f start stop hremoves).imp_right fun h => ⟨h.1, h.2.trans hle⟩⟩

lemma Offers.Within.push {start stop : ℕ} (h : offers.Within tree done file bound)
    (hfile : file ∉ done) (hcontent : tree[file]? = some content)
    (hremoves : unit.removes = some (file, start, stop)) (hstart : bound ≤ start)
    (hlt : start < stop) (hlen : stop ≤ utf8Len content.toList) (hbstart : isBoundary content.toList start = true)
    (hbstop : isBoundary content.toList stop = true) : (offers.push unit).Within tree done file stop := by
  have hspan : ∀ f s e, unit.removes = some (f, s, e) → f = file ∧ s = start ∧ e = stop := by
    intro f s e hunit
    rw [hremoves, Option.some.injEq, Prod.mk.injEq, Prod.mk.injEq] at hunit
    exact ⟨hunit.1.symm, hunit.2.1.symm, hunit.2.2.symm⟩
  have hfits : unit.Fits tree := by
    refine ⟨fun f s e hunit => ?_, fun hnone => ?_⟩
    · obtain ⟨rfl, rfl, rfl⟩ := hspan f s e hunit
      exact ⟨content, hcontent, hlt, hlen, hbstart, hbstop⟩
    · rw [hremoves] at hnone
      exact absurd hnone (by simp)
  refine ⟨h.planned.push hfits fun other hother f s e s' e' hleft hright => ?_,
    fun other hother f s e hunit => ?_⟩
  · obtain ⟨rfl, rfl, rfl⟩ := hspan f s' e' hright
    rcases h.removes other hother f s e hleft with hdone | ⟨-, hle⟩
    · exact absurd hdone hfile
    · exact Or.inl (hle.trans hstart)
  · rcases List.mem_append.mp hother with hold | hnew
    · exact (h.removes other hold f s e hunit).imp_right fun h => ⟨h.1, by omega⟩
    · rw [List.mem_singleton] at hnew
      obtain ⟨rfl, rfl, rfl⟩ := hspan f s e (hnew ▸ hunit)
      exact Or.inr ⟨rfl, le_rfl⟩

lemma offerItem_units (tree : SourceTree) (scope : RepairReductionScope) (file : String)
    (item : ParsedItem) (offers : Offers) : (offerItem tree scope file item offers).units = offers.units ∨ ∃ unit,
      offerItem tree scope file item offers = offers.push unit ∧
        unit.removes = some (file, item.start, item.stop) := by
  unfold offerItem
  dsimp only
  split
  all_goals
    split
    next => exact Or.inl rfl
    next =>
      first
        | exact Or.inr ⟨_, rfl, rfl⟩
        | split
          next => exact Or.inl rfl
          next => exact Or.inr ⟨_, rfl, rfl⟩

lemma Offers.Within.congr {offers' : Offers} (h : offers.Within tree done file bound)
    (hunits : offers'.units = offers.units) : offers'.Within tree done file bound :=
  ⟨hunits ▸ h.planned, hunits ▸ h.removes⟩

lemma Offers.Within.planItems {start stop : ℕ} {items : List ParsedItem}
    (hfile : file ∉ done) (hcontent : tree[file]? = some content) (hlen : stop ≤ utf8Len content.toList)
    (hplaced : Placed content.toList start stop items) (h : offers.Within tree done file start) :
    (planItems tree scope file anchor items offers).Within tree done file stop := by
  induction hplaced generalizing offers with
  | nil le =>
    unfold AgzRustMcp.planItems
    exact h.mono le
  | @cons start stop item items start_le lt le_stop boundary_start boundary_stop _ _ ihchildren
      ihrest =>
    unfold AgzRustMcp.planItems
    split
    next => exact h.mono (by omega)
    next =>
      refine ihrest hlen ?_
      obtain ⟨kind, itemStart, itemStop, body, name, pathAttr, test, children⟩ := item
      unfold AgzRustMcp.planItem
      split
      next =>
        split
        next => exact ihchildren (le_stop.trans hlen) (h.mono start_le)
        next => exact h.mono (start_le.trans lt.le)
      next =>
        rcases offerItem_units tree scope file
            ⟨kind, itemStart, itemStop, body, name, pathAttr, test, children⟩ offers with
          hsame | ⟨unit, hpush, hremoves⟩
        · exact (h.congr hsame).mono (start_le.trans lt.le)
        · rw [hpush]
          exact h.push hfile hcontent hremoves start_le lt (le_stop.trans hlen) boundary_start
            boundary_stop

lemma Offers.Within.planFile {target : TargetSite} {entry : String × String}
    (hfile : entry.1 ∉ done) (hcontent : tree[entry.1]? = some entry.2) (h : offers.Within tree done entry.1 0) :
    (planFileItems tree scope target offers entry).Within tree done entry.1 (utf8Len entry.2.toList) := by
  unfold planFileItems
  split
  next => exact h.mono (Nat.zero_le _)
  next => exact h.planItems hfile hcontent le_rfl (placed_parseItems entry.2.toList)

lemma wellPlanned_foldl_planFileItems {target : TargetSite} (entries : List (String × String))
    (hentries : ∀ entry ∈ entries, tree[entry.1]? = some entry.2)
    (hnodup : (done ++ entries.map Prod.fst).Nodup) (hplanned : WellPlanned tree offers.units)
    (hdone : ∀ unit ∈ offers.units, ∀ f start stop, unit.removes = some (f, start, stop) → f ∈ done) :
    WellPlanned tree (entries.foldl (planFileItems tree scope target) offers).units := by
  induction entries generalizing done offers with
  | nil => exact hplanned
  | cons entry entries ih =>
    have hfile : entry.1 ∉ done := fun hmem =>
      (List.nodup_append.mp hnodup).2.2 _ hmem _ (List.mem_cons_self ..) rfl
    have hwithin : offers.Within tree done entry.1 0 :=
      ⟨hplanned, fun unit hunit f start stop hremoves => Or.inl (hdone unit hunit f start stop hremoves)⟩
    have hnext : (planFileItems tree scope target offers entry).Within tree done entry.1 _ :=
      hwithin.planFile hfile (hentries entry (List.mem_cons_self ..))
    have hrest : ((done ++ [entry.1]) ++ entries.map Prod.fst).Nodup := by simpa using hnodup
    refine ih (fun other hother => hentries other (List.mem_cons_of_mem _ hother)) hrest
      hnext.planned fun unit hunit f start stop hremoves => ?_
    rcases hnext.removes unit hunit f start stop hremoves with hold | ⟨rfl, -⟩
    · exact List.mem_append_left _ hold
    · exact List.mem_append_right _ (List.mem_singleton_self _)

lemma wellPlanned_planFiles {target : TargetSite} {referenced : List String} (h : WellPlanned tree offers.units) :
    WellPlanned tree (planFiles tree target referenced offers).units := by
  unfold planFiles
  have hkeys : ∀ file ∈ tree.keys, ∃ content, tree[file]? = some content := by
    intro file hfile
    rw [ExtTreeMap.mem_keys, ExtTreeMap.mem_iff_isSome_getElem?] at hfile
    exact Option.isSome_iff_exists.mp hfile
  generalize tree.keys = keys at hkeys
  induction keys generalizing offers with
  | nil => exact h
  | cons file keys ih =>
    refine ih ?_ fun other hother => hkeys other (List.mem_cons_of_mem _ hother)
    dsimp only
    split
    next => exact h
    next =>
    split
    next => exact h
    next hchecked =>
      have hsource : isRustSource file = true := by
        simp only [Bool.or_eq_true, Bool.not_eq_true', not_or, Bool.not_eq_false] at hchecked
        exact hchecked.1.1
      refine h.push ⟨by simp [RemovalUnit.removes], fun _ => ⟨file, rfl, hsource, ?_⟩⟩ ?_
      · exact hkeys file (List.mem_cons_self ..)
      · intro other _ f start stop start' stop' _ hright
        simp [RemovalUnit.removes] at hright

/-- The units that `plan_units` offers are well planned. -/
theorem wellPlanned_planUnits (tree : SourceTree) (scope : RepairReductionScope) (target : TargetSite)
    (skippedReferenced skippedScope : ℕ) :
    WellPlanned tree (planUnits tree scope target skippedReferenced skippedScope).units := by
  have hempty : WellPlanned tree (⟨[], skippedReferenced, skippedScope⟩ : Offers).units :=
    ⟨by simp, List.Pairwise.nil⟩
  have hitems : WellPlanned tree
      (if scope.includesItems || scope.includesModules then
        tree.toList.foldl (planFileItems tree scope target) ⟨[], skippedReferenced, skippedScope⟩
      else ⟨[], skippedReferenced, skippedScope⟩).units := by
    split
    next =>
      have hnodup : ([] ++ tree.toList.map Prod.fst).Nodup := OrderedMap.nodup_keys_toList tree
      refine wellPlanned_foldl_planFileItems tree.toList (fun entry hentry => ?_) hnodup hempty
        (by simp)
      exact ExtTreeMap.mem_toList_iff_getElem?_eq_some.mp hentry
    next => exact hempty
  unfold planUnits
  dsimp only
  refine WellPlanned.sublist (WellPlanned.perm ?_ (List.perm_insertionSort _ _)) (List.take_sublist _ _)
  split
  next => exact wellPlanned_planFiles hitems
  next => exact hitems

/-! ## Removing ranges from a text -/

section Ranges

variable {t : Text} {start stop last : ℕ} {ranges : List (ℕ × ℕ)}

lemma utf8Len_takeBytes_le (t : Text) {i j : ℕ} (h : i ≤ j) : utf8Len (takeBytes t i) ≤ utf8Len (takeBytes t j) := by
  induction t generalizing i j with
  | nil => exact le_rfl
  | cons c t ih =>
    unfold takeBytes
    by_cases hi : c.utf8Size ≤ i
    · rw [if_pos hi, if_pos (hi.trans h), String.utf8Len_cons, String.utf8Len_cons]
      have := ih (Nat.sub_le_sub_right h c.utf8Size)
      omega
    · rw [if_neg hi]
      exact Nat.zero_le _

lemma utf8Len_replaceRange_le (t : Text) (h : start ≤ stop) : utf8Len (replaceRange t start stop []) ≤ utf8Len t := by
  have hcut := congrArg utf8Len (takeBytes_append_dropBytes t stop)
  have hle := utf8Len_takeBytes_le t h
  rw [String.utf8Len_append] at hcut
  rw [replaceRange, List.append_nil, String.utf8Len_append]
  omega

lemma utf8Len_replaceRange_lt (hlt : start < stop) (hstart : isBoundary t start = true)
    (hstop : isBoundary t stop = true) : utf8Len (replaceRange t start stop []) < utf8Len t := by
  have hcut := congrArg utf8Len (takeBytes_append_dropBytes t stop)
  rw [String.utf8Len_append] at hcut
  rw [replaceRange, List.append_nil, String.utf8Len_append]
  simp only [isBoundary, beq_iff_eq] at hstart hstop
  omega

lemma utf8Len_removeRanges_lt (hfit : rangesFit t last ranges = true) (hne : ranges ≠ []) :
    utf8Len (removeRanges t ranges) < utf8Len t := by
  induction ranges generalizing last with
  | nil => exact absurd rfl hne
  | cons range ranges ih =>
    obtain ⟨start, stop⟩ := range
    simp only [rangesFit, Bool.and_eq_true, decide_eq_true_iff] at hfit
    obtain ⟨⟨⟨⟨⟨hlt, -⟩, -⟩, hstart⟩, hstop⟩, hrest⟩ := hfit
    by_cases hranges : ranges = []
    · subst hranges
      exact utf8Len_replaceRange_lt hlt hstart hstop
    · exact lt_of_le_of_lt (utf8Len_replaceRange_le _ hlt.le) (ih hrest hranges)

lemma rangesFit_of_pairwise (hranges : ∀ range ∈ ranges, range.1 < range.2 ∧ range.2 ≤ utf8Len t ∧
      isBoundary t range.1 = true ∧ isBoundary t range.2 = true) (hlast : ∀ range ∈ ranges, last ≤ range.1)
    (hpairwise : ranges.Pairwise fun left right => left.2 ≤ right.1) : rangesFit t last ranges = true := by
  induction ranges generalizing last with
  | nil => rfl
  | cons range ranges ih =>
    obtain ⟨hlt, hlen, hstart, hstop⟩ := hranges range (List.mem_cons_self ..)
    obtain ⟨hhead, htail⟩ := List.pairwise_cons.mp hpairwise
    have hrest := ih (fun other hother => hranges other (List.mem_cons_of_mem _ hother)) hhead htail
    have hfirst := hlast range (List.mem_cons_self ..)
    simp [rangesFit, hlt, hlen, hstart, hstop, hfirst, hrest]

lemma pairwise_sortedRanges (hlt : ∀ range ∈ ranges, range.1 < range.2)
    (hapart : ranges.Pairwise fun left right => left.2 ≤ right.1 ∨ right.2 ≤ left.1) :
    (ranges.insertionSort rangeBefore).Pairwise fun left right => left.2 ≤ right.1 := by
  have htotal : Std.Total rangeBefore := ⟨by
    intro a b
    unfold rangeBefore
    omega⟩
  have htrans : IsTrans (ℕ × ℕ) rangeBefore := ⟨by
    intro a b c hab hbc
    unfold rangeBefore at *
    omega⟩
  have hperm := List.perm_insertionSort rangeBefore ranges
  have hapart' : (ranges.insertionSort rangeBefore).Pairwise
      fun left right => left.2 ≤ right.1 ∨ right.2 ≤ left.1 :=
    (hperm.pairwise_iff fun {a b} h => h.symm).mpr hapart
  refine ((List.pairwise_insertionSort rangeBefore ranges).and hapart').imp_of_mem ?_
  rintro left right hleft hright ⟨hbefore, hor⟩
  have hl := hlt left (hperm.mem_iff.mp hleft)
  have hr := hlt right (hperm.mem_iff.mp hright)
  unfold rangeBefore at hbefore
  omega

end Ranges

/-! ## Applying a group -/

def RemovalUnit.rangeIn (file : String) (unit : RemovalUnit) : Option (ℕ × ℕ) :=
  match unit.removes with
  | some (f, range) => if f = file then some range else none
  | none => none

lemma RemovalUnit.rangeIn_eq_some_iff {file : String} {range : ℕ × ℕ} :
    unit.rangeIn file = some range ↔ unit.removes = some (file, range) := by
  unfold RemovalUnit.rangeIn
  split
  next f found hremoves =>
    rw [hremoves]
    by_cases hf : f = file <;> simp [hf]
  next hremoves => simp [hremoves]

lemma getElem?_removalsOf (group : List RemovalUnit) (file : String) :
    (removalsOf group)[file]? = if group.filterMap (RemovalUnit.rangeIn file) = [] then none
      else some (group.filterMap (RemovalUnit.rangeIn file)) := by
  induction group using List.reverseRecOn with
  | nil => simp [removalsOf]
  | append_singleton group unit ih =>
    have hlast : removalsOf (group ++ [unit]) = noteRemoval (removalsOf group) unit := by
      simp [removalsOf, List.foldl_append]
    rw [hlast, List.filterMap_append]
    unfold noteRemoval
    cases hremoves : unit.removes with
    | none =>
      have hnone : unit.rangeIn file = none := by simp [RemovalUnit.rangeIn, hremoves]
      simp [hnone, ih]
    | some removed =>
      obtain ⟨f, range⟩ := removed
      dsimp only
      by_cases hf : f = file
      · subst hf
        have hsome : unit.rangeIn f = some range := RemovalUnit.rangeIn_eq_some_iff.mpr hremoves
        rw [ExtTreeMap.getElem?_insert_self, ExtTreeMap.getD_eq_getD_getElem?, ih]
        simp only [List.filterMap_cons, hsome, List.filterMap_nil]
        split
        next hempty => simp [hempty]
        next => simp
      · have hnone : unit.rangeIn file = none := by simp [RemovalUnit.rangeIn, hremoves, hf]
        rw [OrderedMap.getElem?_insert_of_ne (Ne.symm hf)]
        simp [hnone, ih]

/-- A file from which ranges are removed that fit, after which it is shorter. -/
def RemovalFits (tree : SourceTree) (removal : String × List (ℕ × ℕ)) : Prop :=
  ∃ content, tree[removal.1]? = some content ∧ removal.2 ≠ [] ∧
    rangesFit content.toList 0 (removal.2.insertionSort rangeBefore) = true

lemma WellPlanned.removalFits (h : WellPlanned tree group) {removal : String × List (ℕ × ℕ)}
    (hmem : removal ∈ (removalsOf group).toList) : RemovalFits tree removal := by
  obtain ⟨file, ranges⟩ := removal
  have hget := ExtTreeMap.mem_toList_iff_getElem?_eq_some.mp hmem
  rw [getElem?_removalsOf] at hget
  split at hget
  next => simp at hget
  next hne =>
  obtain rfl := Option.some.inj hget
  have hspans : ∀ range ∈ group.filterMap (RemovalUnit.rangeIn file), ∃ content,
      tree[file]? = some content ∧ range.1 < range.2 ∧ range.2 ≤ utf8Len content.toList ∧
        isBoundary content.toList range.1 = true ∧ isBoundary content.toList range.2 = true := by
    intro range hrange
    obtain ⟨unit, hunit, hin⟩ := List.mem_filterMap.mp hrange
    exact (h.fits unit hunit).span file range.1 range.2 (RemovalUnit.rangeIn_eq_some_iff.mp hin)
  obtain ⟨first, hfirst⟩ := List.exists_mem_of_ne_nil _ hne
  obtain ⟨content, hcontent, -⟩ := hspans first hfirst
  have hranges : ∀ range ∈ group.filterMap (RemovalUnit.rangeIn file), range.1 < range.2 ∧
      range.2 ≤ utf8Len content.toList ∧ isBoundary content.toList range.1 = true ∧
        isBoundary content.toList range.2 = true := by
    intro range hrange
    obtain ⟨other, hother, hspan⟩ := hspans range hrange
    obtain rfl := Option.some.inj (hcontent.symm.trans hother)
    exact hspan
  have hapart : (group.filterMap (RemovalUnit.rangeIn file)).Pairwise
      fun left right => left.2 ≤ right.1 ∨ right.2 ≤ left.1 := by
    refine List.Pairwise.filterMap _ ?_ h.apart
    intro left right hleftright l hl r hr
    rw [RemovalUnit.rangeIn_eq_some_iff] at hl hr
    exact hleftright file l.1 l.2 r.1 r.2 hl hr
  have hperm := List.perm_insertionSort rangeBefore (group.filterMap (RemovalUnit.rangeIn file))
  exact ⟨content, hcontent, hne, rangesFit_of_pairwise
    (fun range hrange => hranges range (hperm.mem_iff.mp hrange)) (fun _ _ => Nat.zero_le _)
    (pairwise_sortedRanges (fun range hrange => (hranges range hrange).1) hapart)⟩

lemma removeFrom_shrinks {removal : String × List (ℕ × ℕ)} (h : RemovalFits tree removal) :
    ∃ next, removeFrom tree removal = some next ∧ treeSize next < treeSize tree ∧ (next[removal.1]?).isSome = true ∧
      ∀ file, file ≠ removal.1 → next[file]? = tree[file]? := by
  obtain ⟨content, hcontent, hne, hfit⟩ := h
  have hne' : removal.2.insertionSort rangeBefore ≠ [] := fun hempty =>
    hne (List.perm_nil.mp (hempty ▸ (List.perm_insertionSort rangeBefore removal.2).symm))
  have hshorter := utf8Len_removeRanges_lt hfit hne'
  refine ⟨tree.insert removal.1 (String.ofList
    (removeRanges content.toList (removal.2.insertionSort rangeBefore))), ?_, ?_, ?_, ?_⟩
  · simp [removeFrom, hcontent, hfit]
  · have hweight := treeSize_insert (String.ofList
      (removeRanges content.toList (removal.2.insertionSort rangeBefore))) hcontent
    rw [String.toList_ofList] at hweight
    omega
  · simp
  · exact fun file hfile => OrderedMap.getElem?_insert_of_ne hfile

lemma exists_foldlM_removeFrom (entries : List (String × List (ℕ × ℕ)))
    (hnodup : (entries.map Prod.fst).Nodup) (h : ∀ entry ∈ entries, RemovalFits tree entry) :
    ∃ next : SourceTree, entries.foldlM removeFrom tree = some next ∧ treeSize next + entries.length ≤ treeSize tree ∧
      ∀ file : String, (next[file]?).isSome = (tree[file]?).isSome := by
  induction entries generalizing tree with
  | nil => exact ⟨tree, rfl, le_rfl, fun _ => rfl⟩
  | cons entry entries ih =>
    obtain ⟨mid, hmid, hsmaller, hself, hothers⟩ := removeFrom_shrinks (h entry (List.mem_cons_self ..))
    rw [List.map_cons, List.nodup_cons] at hnodup
    have hmidFits : ∀ other ∈ entries, RemovalFits mid other := by
      intro other hother
      obtain ⟨content, hcontent, hfits⟩ := h other (List.mem_cons_of_mem _ hother)
      refine ⟨content, ?_, hfits⟩
      rw [hothers other.1 fun heq => hnodup.1 (heq ▸ List.mem_map_of_mem hother)]
      exact hcontent
    obtain ⟨next, hnext, hsize, hkeys⟩ := ih hnodup.2 hmidFits
    refine ⟨next, by simp [hmid, hnext], by simp only [List.length_cons]; omega, fun file => ?_⟩
    rw [hkeys file]
    by_cases hfile : file = entry.1
    · obtain ⟨content, hcontent, -⟩ := h entry (List.mem_cons_self ..)
      rw [hfile, hself, hcontent]
      rfl
    · rw [hothers file hfile]

lemma treeSize_foldl_deleteSource_le (tree : SourceTree) (files : List String) :
    treeSize (files.foldl deleteSource tree) ≤ treeSize tree := by
  induction files generalizing tree with
  | nil => exact le_rfl
  | cons file files ih =>
    refine (ih (deleteSource tree file)).trans ?_
    unfold deleteSource
    split
    next =>
      cases hfile : tree[file]? with
      | none => rw [OrderedMap.weight_erase_of_none hfile]
      | some content =>
        exact Nat.le_of_add_right_le (treeSize_erase hfile).le
    next => exact le_rfl

lemma treeSize_foldl_deleteSource_lt {files : List String} {file : String} (hmem : file ∈ files)
    (hsource : isRustSource file = true) (hfile : (tree[file]?).isSome = true) :
    treeSize (files.foldl deleteSource tree) < treeSize tree := by
  induction files generalizing tree with
  | nil => simp at hmem
  | cons other files ih =>
    rw [List.foldl_cons]
    by_cases heq : other = file
    · subst heq
      obtain ⟨content, hcontent⟩ := Option.isSome_iff_exists.mp hfile
      have hweight := treeSize_erase hcontent
      have hle := treeSize_foldl_deleteSource_le (deleteSource tree other) files
      rw [deleteSource, if_pos hsource] at hle ⊢
      omega
    · have hkept : ((deleteSource tree other)[file]?).isSome = true := by
        unfold deleteSource
        split
        next => rwa [OrderedMap.getElem?_erase_of_ne (Ne.symm heq)]
        next => exact hfile
      have hrest := ih ((List.mem_cons.mp hmem).resolve_left (Ne.symm heq)) hkept
      have hle := treeSize_foldl_deleteSource_le tree [other]
      exact lt_of_lt_of_le hrest hle

/-- Every group of well planned units can be applied, and makes the tree smaller. -/
theorem applyUnits_shrinks (h : WellPlanned tree group) (hne : group ≠ []) :
    ∃ trial, applyUnits tree group = some trial ∧ treeSize trial < treeSize tree := by
  have hnodup := OrderedMap.nodup_keys_toList (removalsOf group)
  obtain ⟨next, hnext, hsize, hkeys⟩ := exists_foldlM_removeFrom _ hnodup fun _ => h.removalFits
  refine ⟨_, by rw [applyUnits, hnext]; rfl, ?_⟩
  obtain ⟨unit, hunit⟩ := List.exists_mem_of_ne_nil _ hne
  cases hremoves : unit.removes with
  | some removed =>
    -- Some file loses a range.
    have hrange : (removalsOf group)[removed.1]? ≠ none := by
      have hmem : removed.2 ∈ group.filterMap (RemovalUnit.rangeIn removed.1) :=
        List.mem_filterMap.mpr ⟨unit, hunit, RemovalUnit.rangeIn_eq_some_iff.mpr hremoves⟩
      rw [getElem?_removalsOf, if_neg (List.ne_nil_of_mem hmem)]
      simp
    obtain ⟨ranges, hranges⟩ := Option.ne_none_iff_exists'.mp hrange
    have hpos := List.length_pos_of_mem (ExtTreeMap.mem_toList_iff_getElem?_eq_some.mpr hranges)
    have hle := treeSize_foldl_deleteSource_le next (group.filterMap RemovalUnit.deletes)
    omega
  | none =>
    obtain ⟨file, hdeletes, hsource, content, hcontent⟩ := (h.fits unit hunit).file hremoves
    have hlt := treeSize_foldl_deleteSource_lt
      (List.mem_filterMap.mpr ⟨unit, hunit, hdeletes⟩) hsource
      ((hkeys file).trans (by rw [hcontent]; rfl))
    omega

end Planned

end AgzRustMcp
