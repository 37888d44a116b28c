import AgzRustMcp.Migrate.Compose
import AgzRustMcp.Foundation.Sorting

/-!
# Windows that grow

The text of a window occurs once in the original (`countOccurrences_eq_one_iff`), and a window that
is widened keeps its start and takes up at most the next line (`Cluster.Framed.expand`).  So windows
that are apart never come to overlap, the loop goes on only while windows are merged
(`growWindows_add`), and it ends with windows one behind another (`growWindows_spec`).
-/

namespace AgzRustMcp.Compose

open String (utf8Len)
open Utf8Text

section

variable {content needle : Text}

lemma occursAt_behind {pre rest : Text} {c : Char} :
    (∃ j, OccursAt rest needle j) ↔ ∃ j, utf8Len pre < j ∧ OccursAt (pre ++ c :: rest) needle j := by
  have hpos := c.utf8Size_pos
  constructor
  · rintro ⟨j, before, behind, rfl, rfl⟩
    refine ⟨utf8Len (pre ++ c :: before), ?_, pre ++ c :: before, behind, by simp, rfl⟩
    rw [String.utf8Len_append, String.utf8Len_cons]
    omega
  · rintro ⟨j, hlt, before, behind, heq, rfl⟩
    rw [List.append_assoc] at heq
    obtain ⟨mid, rfl, hrest⟩ := exists_append_of_utf8Len_le heq hlt.le
    cases mid with
    | nil => simp at hlt
    | cons d mid =>
      obtain ⟨rfl, rfl⟩ := List.cons.inj hrest
      exact ⟨utf8Len mid, mid, behind, by simp, rfl⟩

lemma countOccurrences_eq_one_iff (hne : needle ≠ []) :
    countOccurrences content needle = 1 ↔ ∃ i, OccursOnceAt content needle i := by
  have hloop : countOccurrences content needle = 1 ↔ ∃ found, find? content needle = some found ∧
      find? ((dropBytes content found).drop 1) needle = none := by
    unfold countOccurrences
    rw [if_neg hne]
    unfold countLoop
    cases hfind : find? content needle with
    | none => simp
    | some found =>
      have hnil : find? [] needle = none := by simp [find?, hne]
      dsimp only
      rw [if_neg (by omega)]
      simp only [Option.some.injEq, exists_eq_left']
      by_cases hbehind : (dropBytes content found).drop 1 = []
      · rw [if_pos hbehind, hbehind]
        simp [hnil]
      · rw [if_neg hbehind]
        have hlength : content.length ≠ 0 := by
          intro hzero
          rw [List.length_eq_zero_iff.mp hzero] at hbehind
          exact hbehind rfl
        obtain ⟨fuel, hfuel⟩ := Nat.exists_eq_succ_of_ne_zero hlength
        rw [hfuel, Nat.succ_eq_add_one, countLoop]
        cases find? ((dropBytes content found).drop 1) needle with
        | none => simp
        | some again => simp
  rw [hloop]
  constructor
  · rintro ⟨found, hfind, hnone⟩
    obtain ⟨⟨pre, suf, rfl, rfl⟩, hmin⟩ := find?_eq_some_iff.mp hfind
    obtain ⟨c, cs, rfl⟩ := List.exists_cons_of_ne_nil hne
    rw [List.append_assoc, dropBytes_append_left] at hnone
    refine ⟨utf8Len pre, fun j => ⟨fun hj => ?_, ?_⟩⟩
    · by_contra hji
      have hlt : utf8Len pre < j := lt_of_le_of_ne (hmin j hj) (Ne.symm hji)
      rw [List.append_assoc] at hj
      obtain ⟨k, hk⟩ := occursAt_behind.mpr ⟨j, hlt, hj⟩
      exact find?_eq_none_iff.mp hnone k hk
    · rintro rfl
      exact ⟨pre, suf, rfl, rfl⟩
  · rintro ⟨i, honce⟩
    have hfind := (occursOnceAt_iff.mp honce).1
    refine ⟨i, hfind, find?_eq_none_iff.mpr fun k hk => ?_⟩
    obtain ⟨pre, suf, rfl, rfl⟩ := (honce i).mpr rfl
    obtain ⟨c, cs, rfl⟩ := List.exists_cons_of_ne_nil hne
    rw [List.append_assoc, dropBytes_append_left] at hk
    obtain ⟨j, hlt, hj⟩ := occursAt_behind.mp ⟨k, hk⟩
    have hagain : OccursAt (pre ++ c :: cs ++ suf) (c :: cs) j := by
      rw [List.append_assoc]
      exact hj
    exact absurd ((honce j).mp hagain) hlt.ne'

lemma occursOnceAt_append {rest : Text} {i : ℕ} (honce : OccursOnceAt content needle i)
    (h : OccursAt content (needle ++ rest) i) : OccursOnceAt content (needle ++ rest) i := by
  intro j
  constructor
  · rintro ⟨pre, suf, hcontent, rfl⟩
    exact (honce _).mp ⟨pre, rest ++ suf, by rw [hcontent]; simp, rfl⟩
  · rintro rfl
    exact h

end

section

variable {original : Text} {start stop : ℕ}

lemma getD_lineAtOffset {place : ℕ} (h : place ∈ lineStarts original) :
    (lineStarts original).getD (lineAtOffset (lineStarts original) place) 0 = place := by
  obtain ⟨m, hm, rfl⟩ := List.getElem_of_mem h
  have hsorted := pairwise_lineStarts original
  obtain ⟨hlt, hle⟩ := lineAtOffset_spec original (lineStarts original)[m]
  refine hle.antisymm ?_
  rw [← List.getD_eq_getElem _ 0 hm]
  by_contra hlater
  rw [not_le] at hlater
  have hindex : lineAtOffset (lineStarts original) ((lineStarts original).getD m 0) < m := by
    by_contra hge
    exact absurd (getD_le_getD hsorted (not_lt.mp hge) (by rwa [List.getD_eq_getElem _ 0 hm]))
      (not_le.mpr hlater)
  have hnext := @lt_of_lineAtOffset original ((lineStarts original).getD m 0) (by omega)
  exact absurd (getD_le_getD hsorted hindex hm) (not_le.mpr hnext)

lemma slice?_contextBounds (hle : start ≤ stop) (hstop : stop ≤ utf8Len original) (radius : ℕ) :
    ∃ text windowStart windowStop,
      contextBounds original (lineStarts original) (lineAtOffset (lineStarts original) start)
        (lineAtOffset (lineStarts original) stop) radius = (windowStart, windowStop) ∧
      slice? original windowStart windowStop = some text ∧ windowStart ≤ start ∧ stop ≤ windowStop ∧
      windowStart ∈ lineStarts original := by
  obtain ⟨cs, ce, hbounds, hcs, hce, ⟨pre, rest, hpre, rfl⟩, ⟨upto, suf, hupto, rfl⟩⟩ :=
    @contextBounds_spec original start stop hstop radius
  obtain ⟨text, rfl, hrest⟩ := exists_append_of_utf8Len_le (hpre.symm.trans hupto)
    (hcs.trans (hle.trans hce))
  refine ⟨text, utf8Len pre, utf8Len (pre ++ text), hbounds, ?_, hcs, hce, ?_⟩
  · exact slice?_eq_some_iff.mpr ⟨pre, suf, hupto, rfl, rfl⟩
  · have hfirst : utf8Len pre = (lineStarts original).getD
        (lineAtOffset (lineStarts original) start - radius) 0 := (Prod.mk.inj hbounds).1.symm
    obtain ⟨hlt, -⟩ := lineAtOffset_spec original start
    have hindex : lineAtOffset (lineStarts original) start - radius < (lineStarts original).length := by
      omega
    rw [hfirst, List.getD_eq_getElem _ 0 hindex]
    exact List.getElem_mem hindex

lemma contextBounds_stop_le {place windowStart windowStop : ℕ} (hplace : place ∈ lineStarts original)
    (hlt : stop < place) (h : contextBounds original (lineStarts original) (lineAtOffset (lineStarts original) start)
      (lineAtOffset (lineStarts original) stop) 0 = (windowStart, windowStop)) : windowStop ≤ place := by
  have hsorted := pairwise_lineStarts original
  obtain ⟨m, hm, rfl⟩ := List.getElem_of_mem hplace
  rw [← List.getD_eq_getElem _ 0 hm] at hlt ⊢
  obtain ⟨hline, hle⟩ := lineAtOffset_spec original stop
  have hindex : lineAtOffset (lineStarts original) stop < m := by
    by_contra hge
    exact absurd (getD_le_getD hsorted (not_lt.mp hge) hline) (by omega)
  have hmin : min (lineAtOffset (lineStarts original) stop + 0)
      ((lineStarts original).length - 1) = lineAtOffset (lineStarts original) stop := by
    omega
  have hstop := (Prod.mk.inj h).2
  rw [hmin, if_pos (by omega)] at hstop
  rw [← hstop]
  exact getD_le_getD hsorted hindex hm

lemma uniqueContext_spec (hle : start ≤ stop) (hstop : stop ≤ utf8Len original)
    {windowStart windowStop : ℕ} (h : uniqueContext original start stop = some (windowStart, windowStop)) :
    ∃ text, slice? original windowStart windowStop = some text ∧ text ≠ [] ∧
      OccursOnceAt original text windowStart ∧ windowStart ≤ start ∧ stop ≤ windowStop ∧
      windowStart ∈ lineStarts original := by
  unfold uniqueContext at h
  dsimp only at h
  revert h
  generalize List.range (min (lineStarts original).length maxContextRadius + 1) = radii
  intro h
  induction radii with
  | nil => simp [uniqueContextFrom] at h
  | cons radius radii ih =>
    obtain ⟨text, ws, we, hbounds, hslice, hws, hwe, hmem⟩ := slice?_contextBounds hle hstop radius
    unfold uniqueContextFrom at h
    rw [hbounds] at h
    dsimp only at h
    rw [hslice] at h
    dsimp only at h
    split_ifs at h with hlong hcounted
    · simp only [Option.some.injEq, Prod.mk.injEq] at h
      obtain ⟨rfl, rfl⟩ := h
      obtain ⟨i, honce⟩ := (countOccurrences_eq_one_iff hcounted.1).mp hcounted.2
      obtain ⟨pre, suf, htext, hlen, -⟩ := slice?_eq_some_iff.mp hslice
      obtain rfl : ws = i := (honce ws).mp ⟨pre, suf, htext, hlen⟩
      exact ⟨text, hslice, hcounted.1, honce, hws, hwe, hmem⟩
    · exact ih h

end

/-- A window begins with a line, occurs once, and holds its edits. -/
structure Cluster.Framed (original : Text) (cluster : Cluster) : Prop where
  start_mem : cluster.start ∈ lineStarts original
  once : ∃ text, slice? original cluster.start cluster.stop = some text ∧ text ≠ [] ∧
    OccursOnceAt original text cluster.start
  inside : ∀ edit ∈ cluster.edits, edit.ValidIn original ∧ cluster.start ≤ edit.start ∧ edit.stop ≤ cluster.stop

section

variable {original : Text} {cluster last : Cluster} {clusters : List Cluster}

lemma Cluster.Framed.bounds (h : cluster.Framed original) :
    cluster.start < cluster.stop ∧ isBoundary original cluster.stop = true ∧ cluster.stop ≤ utf8Len original := by
  obtain ⟨text, hslice, hne, -⟩ := h.once
  obtain ⟨pre, suf, htext, hstart, hstop⟩ := slice?_eq_some_iff.mp hslice
  have hpos : utf8Len text ≠ 0 := fun hzero => hne (String.utf8Len_eq_zero.mp hzero)
  refine ⟨?_, isBoundary_iff.mpr ⟨_, _, htext, hstop⟩, ?_⟩
  · rw [← hstart, ← hstop, String.utf8Len_append]
    omega
  · rw [← hstop, htext, String.utf8Len_append (pre ++ text)]
    omega

lemma exists_slice?_widened {start stop wider : ℕ} {text : Text}
    (hslice : slice? original start stop = some text) (honce : OccursOnceAt original text start)
    (hwider : isBoundary original wider = true) (hle : stop ≤ wider) :
    ∃ rest, slice? original start wider = some (text ++ rest) ∧ OccursOnceAt original (text ++ rest) start := by
  obtain ⟨pre, suf, htext, rfl, rfl⟩ := slice?_eq_some_iff.mp hslice
  obtain ⟨upto, behind, hupto, rfl⟩ := isBoundary_iff.mp hwider
  obtain ⟨rest, rfl, -⟩ := exists_append_of_utf8Len_le (htext.symm.trans hupto) hle
  have hsplit : original = pre ++ (text ++ rest) ++ behind := by
    rw [hupto]
    simp
  refine ⟨rest, slice?_eq_some_iff.mpr ⟨pre, behind, hsplit, rfl, by rw [List.append_assoc]⟩, ?_⟩
  exact occursOnceAt_append honce ⟨pre, behind, hsplit, rfl⟩

lemma Cluster.Framed.expand (h : cluster.Framed original) :
    (cluster.expand original).1.Framed original ∧ (cluster.expand original).1.start = cluster.start ∧
      (cluster.expand original).1.edits = cluster.edits ∧
      ∀ place ∈ lineStarts original, cluster.stop < place → (cluster.expand original).1.stop ≤ place := by
  obtain ⟨hlt, -, hstop⟩ := h.bounds
  obtain ⟨text, hslice, hne, honce⟩ := h.once
  obtain ⟨text', ws, we, hbounds, hslice', -, hwe, -⟩ := slice?_contextBounds hlt.le hstop 0
  have hws : ws = cluster.start := by
    rw [← (Prod.mk.inj hbounds).1, Nat.sub_zero]
    exact getD_lineAtOffset h.start_mem
  have hboundary : isBoundary original we = true := by
    obtain ⟨pre, suf, htext, -, hend⟩ := slice?_eq_some_iff.mp hslice'
    exact isBoundary_iff.mpr ⟨_, _, htext, hend⟩
  rw [hws] at hbounds hslice'
  obtain ⟨rest, hwidened, honce'⟩ := exists_slice?_widened hslice honce hboundary hwe
  obtain rfl : text ++ rest = text' := Option.some.inj (hwidened.symm.trans hslice')
  have hne' : text ++ rest ≠ [] := List.append_ne_nil_of_left_ne_nil hne rest
  -- The window at radius zero is unique, so it is returned unless it is too long.
  have hcontext : uniqueContext original cluster.start cluster.stop = none ∨
      uniqueContext original cluster.start cluster.stop = some (cluster.start, we) := by
    unfold uniqueContext
    dsimp only
    rw [List.range_succ_eq_map, uniqueContextFrom, hbounds]
    dsimp only
    rw [hslice']
    dsimp only
    by_cases hlong : (text ++ rest).length > maxContextChars
    · exact Or.inl (if_pos hlong)
    · rw [if_neg hlong, if_pos ⟨hne', (countOccurrences_eq_one_iff hne').mpr ⟨_, honce'⟩⟩]
      exact Or.inr rfl
  unfold Cluster.expand
  rcases hcontext with hnone | hsome
  · rw [hnone]
    exact ⟨h, rfl, rfl, fun place _ hplace => hplace.le⟩
  · rw [hsome]
    refine ⟨⟨h.start_mem, ⟨_, hslice', hne', honce'⟩, fun edit hedit => ?_⟩, rfl, rfl, ?_⟩
    · obtain ⟨hvalid, hfrom, hto⟩ := h.inside edit hedit
      exact ⟨hvalid, hfrom, hto.trans hwe⟩
    · exact fun place hplace hbehind => contextBounds_stop_le hplace hbehind hbounds

lemma Cluster.Framed.join (hlast : last.Framed original) (h : cluster.Framed original)
    (hle : last.start ≤ cluster.start) : Cluster.Framed original
      ⟨last.start, max last.stop cluster.stop, last.edits ++ cluster.edits⟩ := by
  obtain ⟨text, hslice, hne, honce⟩ := hlast.once
  refine ⟨hlast.start_mem, ?_, fun edit hedit => ?_⟩
  · have hboundary : isBoundary original (max last.stop cluster.stop) = true := by
      rcases max_choice last.stop cluster.stop with hmax | hmax <;> rw [hmax]
      · exact hlast.bounds.2.1
      · exact h.bounds.2.1
    obtain ⟨rest, hslice', honce'⟩ := exists_slice?_widened hslice honce hboundary (le_max_left _ _)
    exact ⟨_, hslice', List.append_ne_nil_of_left_ne_nil hne rest, honce'⟩
  · rcases List.mem_append.mp hedit with hedit | hedit
    · obtain ⟨hvalid, hfrom, hto⟩ := hlast.inside edit hedit
      exact ⟨hvalid, hfrom, hto.trans (le_max_left _ _)⟩
    · obtain ⟨hvalid, hfrom, hto⟩ := h.inside edit hedit
      exact ⟨hvalid, hle.trans hfrom, hto.trans (le_max_right _ _)⟩

lemma mergeInto_spec (hlast : last.Framed original) (h : ∀ c ∈ clusters, c.Framed original)
    (hsorted : (last :: clusters).Pairwise fun c d => c.start ≤ d.start) :
    (∀ c ∈ (mergeInto last clusters).1, c.Framed original ∧ last.start ≤ c.start) ∧
      (mergeInto last clusters).1.Pairwise (fun c d => c.stop < d.start) ∧
      (mergeInto last clusters).1.flatMap Cluster.edits = last.edits ++ clusters.flatMap Cluster.edits ∧
      (mergeInto last clusters).1.length ≤ clusters.length + 1 ∧
      ((mergeInto last clusters).2 = true → (mergeInto last clusters).1.length < clusters.length + 1) := by
  induction clusters generalizing last with
  | nil =>
    refine ⟨fun c hc => ?_, List.pairwise_singleton _ _, by simp [mergeInto], by simp [mergeInto],
      by simp [mergeInto]⟩
    obtain rfl := List.mem_singleton.mp hc
    exact ⟨hlast, le_rfl⟩
  | cons cluster clusters ih =>
    obtain ⟨hfirst, hrest⟩ := List.pairwise_cons.mp hsorted
    have hnext := h cluster List.mem_cons_self
    have hlater : ∀ c ∈ clusters, c.Framed original := fun c hc => h c (List.mem_cons_of_mem _ hc)
    have hle := hfirst cluster List.mem_cons_self
    unfold mergeInto
    by_cases hmeet : cluster.start ≤ last.stop
    · rw [if_pos hmeet]
      dsimp only
      obtain ⟨hframed, hgaps, hedits, hlength, -⟩ := @ih
        ⟨last.start, max last.stop cluster.stop, last.edits ++ cluster.edits⟩
        (hlast.join hnext hle) hlater (List.pairwise_cons.mpr
          ⟨fun c hc => hfirst c (List.mem_cons_of_mem _ hc), (List.pairwise_cons.mp hrest).2⟩)
      rw [List.length_cons]
      refine ⟨hframed, hgaps, ?_, by omega, fun _ => by omega⟩
      rw [hedits, List.flatMap_cons, List.append_assoc]
    · rw [if_neg hmeet]
      dsimp only
      obtain ⟨hframed, hgaps, hedits, hlength, hshorter⟩ := ih hnext hlater hrest
      rw [List.length_cons, List.length_cons]
      refine ⟨fun c hc => ?_, List.pairwise_cons.mpr ⟨fun c hc => ?_, hgaps⟩, ?_, by omega,
        fun hmerged => ?_⟩
      · rcases List.mem_cons.mp hc with rfl | hc
        · exact ⟨hlast, le_rfl⟩
        · exact ⟨(hframed c hc).1, hle.trans (hframed c hc).2⟩
      · exact (not_le.mp hmeet).trans_le (hframed c hc).2
      · rw [List.flatMap_cons, hedits, List.flatMap_cons]
      · have := hshorter hmerged
        omega

lemma mergeClusters_spec (h : ∀ c ∈ clusters, c.Framed original)
    (hsorted : clusters.Pairwise fun c d => c.start ≤ d.start) :
    (∀ c ∈ (mergeClusters clusters).1, c.Framed original) ∧
      (mergeClusters clusters).1.Pairwise (fun c d => c.stop < d.start) ∧
      (mergeClusters clusters).1.flatMap Cluster.edits = clusters.flatMap Cluster.edits ∧
      ((mergeClusters clusters).2 = true → (mergeClusters clusters).1.length < clusters.length) := by
  cases clusters with
  | nil => simp [mergeClusters]
  | cons cluster clusters =>
    obtain ⟨hframed, hgaps, hedits, -, hshorter⟩ := mergeInto_spec (h cluster List.mem_cons_self)
      (fun c hc => h c (List.mem_cons_of_mem _ hc)) hsorted
    exact ⟨fun c hc => (hframed c hc).1, hgaps, hedits, hshorter⟩

/-! ## The loop -/

/-- The clusters in the order of their windows. -/
def sortedClusters (clusters : List Cluster) : List Cluster :=
  clusters.insertionSort fun left right => left.start ≤ right.start

/-- The order of the windows compares all of them. -/
instance : Std.Total fun left right : Cluster => left.start ≤ right.start :=
  ⟨fun left right => le_total left.start right.start⟩

/-- The order of the windows is transitive. -/
instance : IsTrans Cluster fun left right => left.start ≤ right.start :=
  ⟨fun _ _ _ hab hbc => hab.trans hbc⟩

/-- The windows after one round. -/
def grownClusters (original : Text) (clusters : List Cluster) : List Cluster :=
  (mergeClusters (sortedClusters clusters)).1.map fun cluster => (cluster.expand original).1

lemma grownClusters_spec (h : ∀ c ∈ clusters, c.Framed original) :
    (∀ c ∈ grownClusters original clusters, c.Framed original) ∧
      (grownClusters original clusters).Pairwise (fun c d => c.stop ≤ d.start) ∧
      (grownClusters original clusters).flatMap Cluster.edits = (sortedClusters clusters).flatMap Cluster.edits ∧
      ((mergeClusters (sortedClusters clusters)).2 = true →
        (grownClusters original clusters).length < clusters.length) := by
  have hframed : ∀ c ∈ sortedClusters clusters, c.Framed original :=
    fun c hc => h c ((List.perm_insertionSort _ _).mem_iff.mp hc)
  obtain ⟨hmerged, hgaps, hedits, hshorter⟩ := mergeClusters_spec hframed
    (List.pairwise_insertionSort _ _)
  unfold grownClusters
  refine ⟨fun c hc => ?_, ?_, ?_, fun hany => ?_⟩
  · obtain ⟨d, hd, rfl⟩ := List.mem_map.mp hc
    exact (hmerged d hd).expand.1
  · rw [List.pairwise_map]
    refine hgaps.imp_of_mem fun {c d} hc hd hgap => ?_
    obtain ⟨-, -, -, hgrown⟩ := (hmerged c hc).expand
    obtain ⟨-, hstart, -, -⟩ := (hmerged d hd).expand
    rw [hstart]
    exact hgrown d.start (hmerged d hd).start_mem hgap
  · rw [List.flatMap_map, ← hedits]
    refine List.flatMap_congr fun c hc => ?_
    exact (hmerged c hc).expand.2.2.1
  · rw [List.length_map]
    have := hshorter hany
    rwa [sortedClusters, List.length_insertionSort] at this

lemma overlapping_eq_false (h : clusters.Pairwise fun c d => c.stop ≤ d.start) : overlapping clusters = false := by
  induction clusters with
  | nil => rfl
  | cons c clusters ih =>
    obtain ⟨hfirst, hrest⟩ := List.pairwise_cons.mp h
    cases clusters with
    | nil => rfl
    | cons d clusters =>
      rw [overlapping, ih hrest, Bool.or_false, decide_eq_false_iff_not, not_lt]
      exact hfirst d List.mem_cons_self

lemma growWindows_succ (h : ∀ c ∈ clusters, c.Framed original) :
    (∀ rounds, growWindows original (rounds + 1) clusters = grownClusters original clusters) ∨
      (mergeClusters (sortedClusters clusters)).2 = true ∧ ∀ rounds, growWindows original (rounds + 1) clusters =
          growWindows original rounds (grownClusters original clusters) := by
  have hoverlap := overlapping_eq_false (grownClusters_spec h).2.1
  have hround : ∀ rounds, growWindows original (rounds + 1) clusters =
      if ¬ overlapping (grownClusters original clusters) ∧
        ¬ (mergeClusters (sortedClusters clusters)).1.any fun c => (c.expand original).2 then
        grownClusters original clusters
      else if ¬ (mergeClusters (sortedClusters clusters)).2 ∧
        ¬ overlapping (grownClusters original clusters) then grownClusters original clusters
      else growWindows original rounds (grownClusters original clusters) := fun _ => rfl
  simp only [hoverlap, Bool.false_eq_true, not_false_eq_true, true_and, and_true] at hround
  by_cases hexpanded : ((mergeClusters (sortedClusters clusters)).1.any
      fun c => (c.expand original).2) = true
  · by_cases hmerged : (mergeClusters (sortedClusters clusters)).2 = true
    · refine Or.inr ⟨hmerged, fun rounds => ?_⟩
      rw [hround, if_neg (not_not.mpr hexpanded), if_neg (not_not.mpr hmerged)]
    · refine Or.inl fun rounds => ?_
      rw [hround, if_neg (not_not.mpr hexpanded), if_pos hmerged]
  · refine Or.inl fun rounds => ?_
    rw [hround, if_pos hexpanded]

/-- With more rounds than windows, further rounds change nothing. -/
theorem growWindows_add (h : ∀ c ∈ clusters, c.Framed original) {rounds : ℕ}
    (hrounds : clusters.length < rounds) (more : ℕ) :
    growWindows original (rounds + more) clusters = growWindows original rounds clusters := by
  induction rounds generalizing clusters with
  | zero => omega
  | succ rounds ih =>
    have hmore : rounds + 1 + more = (rounds + more) + 1 := by omega
    rw [hmore]
    rcases growWindows_succ h with hlast | ⟨hmerged, hnext⟩
    · rw [hlast, hlast]
    · obtain ⟨hframed, -, -, hshorter⟩ := grownClusters_spec h
      have hless := hshorter hmerged
      rw [hnext, hnext, ih hframed (by omega)]

/-- The loop ends with framed windows in order, with the same edits. -/
theorem growWindows_spec (h : ∀ c ∈ clusters, c.Framed original) (rounds : ℕ) :
    (∀ c ∈ growWindows original (rounds + 1) clusters, c.Framed original) ∧
      (growWindows original (rounds + 1) clusters).Pairwise (fun c d => c.stop ≤ d.start) ∧
      (growWindows original (rounds + 1) clusters).flatMap Cluster.edits =
        (sortedClusters clusters).flatMap Cluster.edits := by
  induction rounds generalizing clusters with
  | zero =>
    obtain ⟨hframed, hapart, hedits, -⟩ := grownClusters_spec h
    rcases growWindows_succ h with hlast | ⟨-, hnext⟩
    · rw [hlast]
      exact ⟨hframed, hapart, hedits⟩
    · rw [hnext, growWindows]
      exact ⟨hframed, hapart, hedits⟩
  | succ rounds ih =>
    obtain ⟨hframed, hapart, hedits, -⟩ := grownClusters_spec h
    rcases growWindows_succ h with hlast | ⟨-, hnext⟩
    · rw [hlast]
      exact ⟨hframed, hapart, hedits⟩
    · rw [hnext]
      obtain ⟨hframed', hapart', hedits'⟩ := ih hframed
      refine ⟨hframed', hapart', hedits'.trans (Eq.trans ?_ hedits)⟩
      -- Widened windows stand in their order already.
      have hsorted : (grownClusters original clusters).Pairwise fun c d => c.start ≤ d.start := by
        refine hapart.imp_of_mem fun {c d} hc _ hle => ?_
        exact (hframed c hc).bounds.1.le.trans hle
      rw [sortedClusters, hsorted.insertionSort_eq]

end

end AgzRustMcp.Compose
