import AgzRustMcp.Repair.Mechanical

/-!
# Mechanical candidates and the line that they are for

`unique_window` looks for the text of an edit from the start of the window.  When the window had to be
widened, a line above the anchor may hold the text too, and is edited in its place
(`mechanical_edits_line_iff`).
-/

namespace AgzRustMcp

open Utf8Text TextScan
open String (utf8Len)

/-! ## The window of an edit -/

/-- The lines around the anchor occur once and hold the text of the edit. -/
def MechanicalEdit.Fits (edit : MechanicalEdit) (source excerpt : Text) : Prop :=
  excerpt ≠ [] ∧ countOccurrences source excerpt = 1 ∧ (find? excerpt edit.needle).isSome

structure MechanicalEdit.Window (edit : MechanicalEdit) (source : Text) (radius : ℕ) (excerpt : Text) : Prop where
  radius_lt : radius < 9
  excerpt_eq : windowAt source (edit.line - 1) radius = some excerpt
  fits : edit.Fits source excerpt
  least : ∀ smaller < radius, ∀ other, windowAt source (edit.line - 1) smaller = some other → ¬ edit.Fits source other

/-- The offset of a line, counted from zero. -/
def lineStart (source : Text) (line : ℕ) : ℕ := (((lineBounds source)[line]?).map Prod.fst).getD 0

/-- What stands between the two places of the inserted text. -/
def MechanicalEdit.between (edit : MechanicalEdit) (source : Text) (radius : ℕ) (excerpt : Text) : Text :=
  let anchor := edit.line - 1
  let first := (find? excerpt edit.needle).getD 0
  let aimed := lineStart source anchor - lineStart source (anchor - radius) +
    (((strLines source)[anchor]?).bind fun line => find? line edit.needle).getD 0
  takeBytes (dropBytes excerpt (first + utf8Len edit.head)) (aimed - first)

/-- The smallest window stands once, with its first place on the anchor line. -/
def MechanicalEdit.Aims (edit : MechanicalEdit) (source : Text) : Prop :=
  ∀ radius excerpt, edit.Window source radius excerpt →
    (∀ i, OccursAt source excerpt i → i = lineStart source (edit.line - 1 - radius)) ∧
      edit.between source radius excerpt ++ edit.inserted = edit.inserted ++ edit.between source radius excerpt

/-- A patch inserts its text on the anchor line. -/
def MechanicalEdit.EditsLine (edit : MechanicalEdit) (source : Text) (patch : PatchInput) : Prop :=
  ∃ pre lead rest post, source = pre ++ (lead ++ edit.needle ++ rest) ++ post ∧
    (lineBounds source)[edit.line - 1]? = some (utf8Len pre, utf8Len (pre ++ (lead ++ edit.needle ++ rest))) ∧
    find? (lead ++ edit.needle ++ rest) edit.needle = some (utf8Len lead) ∧
    ∃ i, OccursOnceAt source patch.oldString.toList i ∧
      replaceRange source i (i + utf8Len patch.oldString.toList) patch.newString.toList =
        pre ++ (lead ++ edit.replacement ++ rest) ++ post

structure MechanicalEdit.OnLine (edit : MechanicalEdit) (source line : Text) : Prop where
  positive : 0 < edit.line
  line_eq : (strLines source)[edit.line - 1]? = some line
  found : (find? line edit.needle).isSome

section

variable {source needle replacement line : Text} {edit : MechanicalEdit}

lemma exists_of_find? {t : Text} {i : ℕ} (h : find? t needle = some i) :
    ∃ u v, t = u ++ needle ++ v ∧ utf8Len u = i := by
  obtain ⟨⟨u, v, ht, hu⟩, -⟩ := find?_eq_some_iff.mp h
  exact ⟨u, v, ht, hu⟩

variable {anchor radius : ℕ} {excerpt before lead rest after u v : Text}

lemma searchWindow_eq_some {radii : List ℕ} {found : Text × Text}
    (h : searchWindow source anchor needle replacement radii = some found) :
    ∃ done radius todo excerpt offset, radii = done ++ radius :: todo ∧
      (∀ other ∈ done, ∀ excerpt', windowAt source anchor other = some excerpt' →
        ¬ (excerpt' ≠ [] ∧ countOccurrences source excerpt' = 1 ∧ (find? excerpt' needle).isSome)) ∧
      windowAt source anchor radius = some excerpt ∧ excerpt ≠ [] ∧
      countOccurrences source excerpt = 1 ∧ find? excerpt needle = some offset ∧
      found = (excerpt, takeBytes excerpt offset ++ replacement ++ dropBytes excerpt (offset + utf8Len needle)) := by
  induction radii with
  | nil => simp [searchWindow] at h
  | cons radius radii ih =>
    rw [searchWindow] at h
    cases hwindow : windowAt source anchor radius with
    | none => simp [hwindow] at h
    | some excerpt =>
      rw [hwindow, Option.bind_some] at h
      have hor : (∃ offset, excerpt ≠ [] ∧ countOccurrences source excerpt = 1 ∧
          find? excerpt needle = some offset ∧ found = (excerpt,
            takeBytes excerpt offset ++ replacement ++ dropBytes excerpt (offset + utf8Len needle))) ∨
          (¬ (excerpt ≠ [] ∧ countOccurrences source excerpt = 1 ∧ (find? excerpt needle).isSome) ∧
            searchWindow source anchor needle replacement radii = some found) := by
        split_ifs at h with hskip
        · refine .inr ⟨fun hfits => ?_, h⟩
          rcases hskip with hnil | hmany
          · exact hfits.1 hnil
          · exact hmany hfits.2.1
        · rw [not_or, not_not] at hskip
          cases hfind : find? excerpt needle with
          | none =>
            rw [hfind] at h
            exact .inr ⟨fun hfits => by simp at hfits, h⟩
          | some offset =>
            rw [hfind] at h
            exact .inl ⟨offset, hskip.1, hskip.2, rfl, (Option.some.inj h).symm⟩
      rcases hor with ⟨offset, hne, honce, hfind, hfound⟩ | ⟨hnot, hrest⟩
      · exact ⟨[], radius, radii, excerpt, offset, rfl, by simp, hwindow, hne, honce, hfind, hfound⟩
      · obtain ⟨done, radius', todo, excerpt', offset, hradii, hdone, hfound⟩ := ih hrest
        refine ⟨radius :: done, radius', todo, excerpt', offset, by rw [hradii]; rfl, ?_, hfound⟩
        intro other hother excerpt'' hexcerpt
        rcases List.mem_cons.mp hother with rfl | hlater
        · rw [hwindow] at hexcerpt
          rwa [← Option.some.inj hexcerpt]
        · exact hdone other hlater excerpt'' hexcerpt

lemma MechanicalEdit.window_of_patch {file : String} {patch : PatchInput}
    (h : edit.patch file source = some patch) : ∃ radius excerpt offset, edit.Window source radius excerpt ∧
      find? excerpt edit.needle = some offset ∧ patch.oldString.toList = excerpt ∧
      patch.newString.toList = takeBytes excerpt offset ++ edit.replacement ++
        dropBytes excerpt (offset + utf8Len edit.needle) := by
  unfold MechanicalEdit.patch uniqueWindow at h
  split_ifs at h
  · simp at h
  obtain ⟨found, hfound, rfl⟩ := Option.map_eq_some_iff.mp h
  obtain ⟨done, radius, todo, excerpt, offset, hradii, hdone, hwindow, hne, honce, hfind, rfl⟩ :=
    searchWindow_eq_some hfound
  have hlength : radius = done.length := by
    have hget := congrArg (fun radii => radii[done.length]?) hradii
    rw [List.getElem?_append_right le_rfl, Nat.sub_self, List.getElem?_cons_zero] at hget
    obtain ⟨hlt, heq⟩ := List.getElem?_eq_some_iff.mp hget
    rw [List.getElem_range] at heq
    exact heq.symm
  refine ⟨radius, excerpt, offset, ⟨?_, hwindow, ⟨hne, honce, by simp [hfind]⟩, ?_⟩, hfind, ?_, ?_⟩
  · have hcount := congrArg List.length hradii
    rw [List.length_range, List.length_append, List.length_cons] at hcount
    omega
  · intro smaller hsmaller other hother
    apply hdone smaller _ other hother
    have hget := congrArg (fun radii => radii[smaller]?) hradii
    rw [List.getElem?_append_left (by omega)] at hget
    have hin : (List.range 9)[smaller]? = some smaller := by
      rw [List.getElem?_range]
      have hcount := congrArg List.length hradii
      rw [List.length_range, List.length_append, List.length_cons] at hcount
      omega
    rw [hin] at hget
    exact List.mem_of_getElem? hget.symm
  · simp
  · simp

lemma searchWindow_isSome {radii : List ℕ}
    (hread : ∀ other, (windowAt source anchor other).isSome) (hmem : radius ∈ radii)
    (hwindow : windowAt source anchor radius = some excerpt) (hne : excerpt ≠ [])
    (honce : countOccurrences source excerpt = 1) (hfind : (find? excerpt needle).isSome) :
    (searchWindow source anchor needle replacement radii).isSome := by
  induction radii with
  | nil => simp at hmem
  | cons first radii ih =>
    obtain ⟨other, hother⟩ := Option.isSome_iff_exists.mp (hread first)
    rw [searchWindow, hother, Option.bind_some]
    rcases List.mem_cons.mp hmem with rfl | hlater
    · obtain rfl := Option.some.inj (hwindow.symm.trans hother)
      obtain ⟨offset, hoffset⟩ := Option.isSome_iff_exists.mp hfind
      rw [if_neg (by simp [hne, honce]), hoffset]
      rfl
    · split_ifs
      · exact ih hlater
      · cases find? other needle with
        | none => exact ih hlater
        | some offset => rfl

lemma MechanicalEdit.Window.unique {radius' : ℕ} {excerpt' : Text}
    (h : edit.Window source radius excerpt) (h' : edit.Window source radius' excerpt') :
    radius' = radius ∧ excerpt' = excerpt := by
  have hsame : radius' = radius := by
    rcases lt_trichotomy radius' radius with hlt | heq | hgt
    · exact absurd h'.fits (h.least radius' hlt excerpt' h'.excerpt_eq)
    · exact heq
    · exact absurd h.fits (h'.least radius hgt excerpt h.excerpt_eq)
  subst hsame
  exact ⟨rfl, Option.some.inj (h'.excerpt_eq.symm.trans h.excerpt_eq)⟩

/-! ## Where the window stands -/

lemma lineAt_of_getElem? {k : ℕ} (h : (strLines source)[k]? = some line) :
    ∃ bounds, (lineBounds source)[k]? = some bounds ∧ LineAt source bounds line := by
  have hall := lineAt_lineBounds source
  obtain ⟨hk, rfl⟩ := List.getElem?_eq_some_iff.mp h
  have hlen := hall.length_eq
  exact ⟨(lineBounds source)[k], List.getElem?_eq_getElem (hlen ▸ hk), hall.get (hlen ▸ hk) hk⟩

lemma fst_le_snd_of_getElem? {k : ℕ} {bounds : ℕ × ℕ} (h : (lineBounds source)[k]? = some bounds) :
    bounds.1 ≤ bounds.2 := by
  have hall := lineAt_lineBounds source
  obtain ⟨hk, rfl⟩ := List.getElem?_eq_some_iff.mp h
  obtain ⟨pre, post, -, hstart, hstop⟩ := hall.get hk (hall.length_eq ▸ hk)
  simp only [List.get_eq_getElem] at hstart hstop
  rw [← hstart, ← hstop, String.utf8Len_append]
  omega

lemma start_le_stop {i j : ℕ} {first last : ℕ × ℕ} (hle : i ≤ j)
    (hfirst : (lineBounds source)[i]? = some first) (hlast : (lineBounds source)[j]? = some last) :
    first.1 ≤ last.2 := by
  rcases Nat.eq_or_lt_of_le hle with rfl | hlt
  · obtain rfl := Option.some.inj (hfirst.symm.trans hlast)
    exact fst_le_snd_of_getElem? hfirst
  · exact (fst_le_snd_of_getElem? hfirst).trans
      ((lineBounds_le hlt hfirst hlast).trans (fst_le_snd_of_getElem? hlast))

lemma windowAt_isSome (h : anchor < (lineBounds source).length) (radius : ℕ) :
    (windowAt source anchor radius).isSome := by
  have hall := lineAt_lineBounds source
  have hlt : anchor - radius < (lineBounds source).length := by omega
  have hlt' : min (anchor + radius) ((lineBounds source).length - 1) < (lineBounds source).length := by
    omega
  obtain ⟨pre, post, hsource, hpre, -⟩ := hall.get hlt (hall.length_eq ▸ hlt)
  obtain ⟨pre', post', hsource', -, hstop⟩ := hall.get hlt' (hall.length_eq ▸ hlt')
  simp only [List.get_eq_getElem] at hsource hpre hsource' hstop
  have hle : ((lineBounds source)[anchor - radius]).1 ≤
      ((lineBounds source)[min (anchor + radius) ((lineBounds source).length - 1)]).2 := by
    apply start_le_stop _ (List.getElem?_eq_getElem hlt) (List.getElem?_eq_getElem hlt')
    omega
  unfold windowAt
  dsimp only
  rw [List.getElem?_eq_getElem hlt, Option.bind_some, List.getElem?_eq_getElem hlt', Option.bind_some]
  unfold slice?
  rw [if_pos]
  · rfl
  · refine ⟨hle, isBoundary_iff.mpr ?_, isBoundary_iff.mpr ?_⟩
    · exact ⟨pre, _, by rw [hsource, List.append_assoc], hpre⟩
    · exact ⟨_, post', hsource', hstop⟩

lemma MechanicalEdit.Window.patch_isSome (file : String)
    (h : edit.Window source radius excerpt) (hon : edit.OnLine source line) : (edit.patch file source).isSome := by
  obtain ⟨bounds, hbounds, -⟩ := lineAt_of_getElem? hon.line_eq
  have hlt := (List.getElem?_eq_some_iff.mp hbounds).1
  have hpos := hon.positive
  unfold MechanicalEdit.patch uniqueWindow
  rw [Option.isSome_map, if_neg (by omega)]
  obtain ⟨hne, honce, hfind⟩ := h.fits
  exact searchWindow_isSome (windowAt_isSome hlt) (List.mem_range.mpr h.radius_lt) h.excerpt_eq hne
    honce hfind

lemma windowAt_eq_some (h : windowAt source anchor radius = some excerpt)
    (hline : (strLines source)[anchor]? = some line) :
    ∃ pre before after post, source = pre ++ (before ++ line ++ after) ++ post ∧
      excerpt = before ++ line ++ after ∧ utf8Len pre = lineStart source (anchor - radius) ∧
      utf8Len (pre ++ before) = lineStart source anchor ∧
      (lineBounds source)[anchor]? = some (utf8Len (pre ++ before), utf8Len (pre ++ before ++ line)) := by
  obtain ⟨bounds, hbounds, head, tail, hsource, hhead, htail⟩ := lineAt_of_getElem? hline
  unfold windowAt at h
  dsimp only at h
  obtain ⟨start, hstart, h⟩ := Option.bind_eq_some_iff.mp h
  obtain ⟨stop, hstop, h⟩ := Option.bind_eq_some_iff.mp h
  obtain ⟨pre, post, hwindow, hpre, hpost⟩ := slice?_eq_some_iff.mp h
  have hfirst : start.1 ≤ bounds.1 := by
    rcases Nat.eq_or_lt_of_le (Nat.sub_le anchor radius) with heq | hlt
    · rw [heq, hbounds] at hstart
      rw [Option.some.inj hstart]
    · exact (fst_le_snd_of_getElem? hstart).trans (lineBounds_le hlt hstart hbounds)
  have hlast : bounds.2 ≤ stop.2 := by
    have hlt := (List.getElem?_eq_some_iff.mp hbounds).1
    have hle : anchor ≤ min (anchor + radius) ((lineBounds source).length - 1) := by omega
    rcases Nat.eq_or_lt_of_le hle with heq | hlt'
    · rw [← heq, hbounds] at hstop
      rw [Option.some.inj hstop]
    · exact (lineBounds_le hlt' hbounds hstop).trans (fst_le_snd_of_getElem? hstop)
  have hleft : pre ++ (excerpt ++ post) = head ++ (line ++ tail) := by
    rw [← List.append_assoc, ← List.append_assoc, ← hwindow, ← hsource]
  obtain ⟨before, rfl, -⟩ := exists_append_of_utf8Len_le hleft (by omega)
  have hright : (pre ++ before ++ line) ++ tail = (pre ++ excerpt) ++ post := by
    rw [← hsource, hwindow]
  obtain ⟨after, hafter, -⟩ := exists_append_of_utf8Len_le hright (by omega)
  have hexcerpt : excerpt = before ++ line ++ after := by
    rw [List.append_assoc, List.append_assoc, List.append_cancel_left_eq] at hafter
    rw [hafter, List.append_assoc]
  refine ⟨pre, before, after, post, by rw [hwindow, hexcerpt], hexcerpt, ?_, ?_, ?_⟩
  · rw [lineStart, hstart]
    exact hpre
  · rw [lineStart, hbounds]
    exact hhead
  · rw [hbounds, hhead, htail]

lemma le_of_find?_append {offset : ℕ} (h : find? (before ++ (lead ++ needle ++ rest) ++ after) needle = some offset) :
    offset ≤ utf8Len (before ++ lead) := by
  obtain ⟨-, hmin⟩ := find?_eq_some_iff.mp h
  exact hmin _ ⟨before ++ lead, rest ++ after, by simp, rfl⟩

lemma exists_between (hexcerpt : excerpt = before ++ (lead ++ edit.needle ++ rest) ++ after)
    (hfirst : excerpt = u ++ edit.needle ++ v) (hle : utf8Len u ≤ utf8Len (before ++ lead)) :
    ∃ mid, before ++ lead ++ edit.head = u ++ edit.head ++ mid ∧
      edit.tail ++ v = mid ++ (edit.tail ++ rest ++ after) := by
  have heq : (u ++ edit.head) ++ (edit.tail ++ v) =
      (before ++ lead ++ edit.head) ++ (edit.tail ++ rest ++ after) := by
    have hboth := hfirst.symm.trans hexcerpt
    simpa [MechanicalEdit.needle] using hboth
  apply exists_append_of_utf8Len_le heq
  rw [String.utf8Len_append, String.utf8Len_append _ edit.head]
  omega

lemma between_eq {mid pre : Text}
    (hfirst : excerpt = u ++ edit.needle ++ v) (hfind : find? excerpt edit.needle = some (utf8Len u))
    (hmid : before ++ lead ++ edit.head = u ++ edit.head ++ mid)
    (htail : edit.tail ++ v = mid ++ (edit.tail ++ rest ++ after))
    (hpre : utf8Len pre = lineStart source (edit.line - 1 - radius))
    (hbefore : utf8Len (pre ++ before) = lineStart source (edit.line - 1))
    (hline : (strLines source)[edit.line - 1]? = some line)
    (hlead : find? line edit.needle = some (utf8Len lead)) : edit.between source radius excerpt = mid := by
  have hlen := congrArg utf8Len hmid
  simp only [String.utf8Len_append] at hlen hbefore
  have hdrop : dropBytes excerpt (utf8Len u + utf8Len edit.head) = mid ++ (edit.tail ++ rest ++ after) := by
    have hcut : excerpt = (u ++ edit.head) ++ (mid ++ (edit.tail ++ rest ++ after)) := by
      rw [hfirst, ← htail]
      simp [MechanicalEdit.needle]
    rw [hcut, ← String.utf8Len_append, dropBytes_append_left]
  unfold MechanicalEdit.between
  simp only [hfind, hline, Option.bind_some, hlead, Option.getD_some, hdrop, ← hbefore, ← hpre]
  rw [show utf8Len pre + utf8Len before - utf8Len pre + utf8Len lead - utf8Len u = utf8Len mid by
    omega]
  exact takeBytes_append_left _ _

lemma inserted_iff {mid : Text} (hmid : before ++ lead ++ edit.head = u ++ edit.head ++ mid)
    (htail : edit.tail ++ v = mid ++ (edit.tail ++ rest ++ after)) :
    u ++ edit.replacement ++ v = before ++ (lead ++ edit.replacement ++ rest) ++ after ↔
      mid ++ edit.inserted = edit.inserted ++ mid := by
  have hhere : u ++ edit.replacement ++ v =
      (u ++ edit.head) ++ ((edit.inserted ++ mid) ++ (edit.tail ++ rest ++ after)) := by
    rw [List.append_assoc edit.inserted, ← htail]
    simp [MechanicalEdit.replacement]
  have hthere : before ++ (lead ++ edit.replacement ++ rest) ++ after =
      (u ++ edit.head) ++ ((mid ++ edit.inserted) ++ (edit.tail ++ rest ++ after)) := by
    calc before ++ (lead ++ edit.replacement ++ rest) ++ after
        = (before ++ lead ++ edit.head) ++ (edit.inserted ++ (edit.tail ++ rest ++ after)) := by
          simp [MechanicalEdit.replacement]
      _ = (u ++ edit.head) ++ ((mid ++ edit.inserted) ++ (edit.tail ++ rest ++ after)) := by
          rw [hmid]
          simp
  rw [hhere, hthere, List.append_cancel_left_eq, List.append_cancel_right_eq]
  exact eq_comm

lemma MechanicalEdit.editsLine_iff {file : String} {patch : PatchInput}
    (hon : edit.OnLine source line) (hpatch : edit.patch file source = some patch) :
    edit.EditsLine source patch ↔ edit.Aims source := by
  obtain ⟨radius, excerpt, offset, hwindow, hfind, hold, hnew⟩ := window_of_patch hpatch
  obtain ⟨pre, before, after, post, hsource, hexcerpt, hpre, hbefore, hbounds⟩ :=
    windowAt_eq_some hwindow.excerpt_eq hon.line_eq
  obtain ⟨k, hk⟩ := Option.isSome_iff_exists.mp hon.found
  obtain ⟨lead, rest, rfl, rfl⟩ := exists_of_find? hk
  obtain ⟨u, v, hfirst, rfl⟩ := exists_of_find? hfind
  have hle : utf8Len u ≤ utf8Len (before ++ lead) := le_of_find?_append (hexcerpt ▸ hfind)
  obtain ⟨mid, hmid, htail⟩ := exists_between hexcerpt hfirst hle
  have hbetween := between_eq hfirst hfind hmid htail hpre hbefore hon.line_eq hk
  have hreplaced : patch.newString.toList = u ++ edit.replacement ++ v := by
    rw [hnew, hfirst, ← String.utf8Len_append, List.append_assoc u, takeBytes_append_left,
      ← List.append_assoc u, dropBytes_append_left]
  have hrange : replaceRange source (utf8Len pre)
      (utf8Len pre + utf8Len patch.oldString.toList) patch.newString.toList =
        pre ++ (u ++ edit.replacement ++ v) ++ post := by
    rw [hold, hreplaced, hsource, ← hexcerpt, replaceRange_append]
  constructor
  · rintro ⟨pre', lead', rest', post', hsource', hbounds', hfind', i, honce, hreplace⟩
    intro radius' excerpt' hwindow'
    obtain ⟨rfl, rfl⟩ := hwindow.unique hwindow'
    rw [hold] at honce
    have hi : i = utf8Len pre := ((honce _).mp ⟨pre, post, by rw [hsource, ← hexcerpt], rfl⟩).symm
    refine ⟨fun j hj => ?_, ?_⟩
    · rw [(honce j).mp hj, hi, hpre]
    · -- the line divides the source in one way
      rw [hbounds, Option.some.injEq, Prod.mk.injEq] at hbounds'
      have hwhole : (pre ++ before ++ (lead ++ edit.needle ++ rest)) ++ (after ++ post) =
          (pre' ++ (lead' ++ edit.needle ++ rest')) ++ post' := by
        rw [← hsource', hsource]
        simp
      obtain ⟨hupto, rfl⟩ := append_inj_of_utf8Len hwhole hbounds'.2
      obtain ⟨rfl, hlines⟩ := append_inj_of_utf8Len hupto hbounds'.1
      rw [← hlines, hk, Option.some.injEq] at hfind'
      rw [List.append_assoc lead, List.append_assoc lead'] at hlines
      obtain ⟨rfl, hrests⟩ := append_inj_of_utf8Len hlines hfind'
      obtain rfl := List.append_cancel_left hrests
      rw [hi, hrange] at hreplace
      have hinner : u ++ edit.replacement ++ v = before ++ (lead ++ edit.replacement ++ rest) ++ after := by
        have hassoc : pre ++ (u ++ edit.replacement ++ v) ++ post =
            pre ++ (before ++ (lead ++ edit.replacement ++ rest) ++ after) ++ post := by
          rw [hreplace]
          simp
        exact List.append_cancel_left (List.append_cancel_right hassoc)
      rw [hbetween]
      exact (inserted_iff hmid htail).mp hinner
  · intro haims
    obtain ⟨honce, hcomm⟩ := haims radius excerpt hwindow
    rw [hbetween] at hcomm
    have hinner := (inserted_iff hmid htail).mpr hcomm
    refine ⟨pre ++ before, lead, rest, after ++ post, ?_, hbounds, hk, utf8Len pre, ?_, ?_⟩
    · rw [hsource]
      simp
    · rw [hold]
      intro j
      constructor
      · intro hj
        rw [honce j hj, hpre]
      · rintro rfl
        exact ⟨pre, post, by rw [hsource, ← hexcerpt], rfl⟩
    · rw [hrange, hinner]
      simp

/-! ## The candidates -/

lemma exists_trim (t : Text) : ∃ lead rest, t = lead ++ trim t ++ rest := by
  have hend := @List.takeWhile_append_dropWhile _ isWhitespace (t.dropWhile isWhitespace).reverse
  have hstart := @List.takeWhile_append_dropWhile _ isWhitespace t
  refine ⟨t.takeWhile isWhitespace, ((t.dropWhile isWhitespace).reverse.takeWhile isWhitespace).reverse, ?_⟩
  have hmid : t.dropWhile isWhitespace =
      trim t ++ ((t.dropWhile isWhitespace).reverse.takeWhile isWhitespace).reverse := by
    unfold trim
    rw [← List.reverse_append, hend, List.reverse_reverse]
  rw [List.append_assoc, ← hmid, hstart]

lemma find?_isSome {t : Text} (h : t = lead ++ needle ++ rest) : (find? t needle).isSome := by
  cases hfind : find? t needle with
  | none => exact absurd ⟨lead, rest, h, rfl⟩ (find?_eq_none_iff.mp hfind (utf8Len lead))
  | some offset => rfl

variable {diagnostic : ChangeDiagnosticData}

lemma onLine_of_cloneAtMoveEdit (h : cloneAtMoveEdit diagnostic source = some edit) :
    ∃ line, edit.OnLine source line := by
  obtain ⟨symbol, -, h⟩ := Option.bind_eq_some_iff.mp h
  obtain ⟨number, hnumber, h⟩ := Option.bind_eq_some_iff.mp h
  obtain ⟨text, htext, h⟩ := Option.bind_eq_some_iff.mp h
  obtain ⟨offset, hoffset, h⟩ := Option.bind_eq_some_iff.mp h
  split_ifs at h
  obtain rfl := Option.some.inj h
  obtain ⟨-, hpos⟩ := Option.filter_eq_some_iff.mp hnumber
  refine ⟨text, by simpa using hpos, htext, ?_⟩
  rw [MechanicalEdit.needle, List.append_nil, hoffset]
  rfl

lemma deriveAttribute_eq_some {derived : Text} (h : deriveAttribute line = some derived) :
    derived = trim line ∧ derived.take (derived.length - 2) ++ ")]".toList = derived := by
  unfold deriveAttribute at h
  split_ifs at h with hshape
  obtain rfl := Option.some.inj h
  refine ⟨rfl, ?_⟩
  rw [Bool.and_eq_true] at hshape
  obtain ⟨inner, hinner⟩ := List.isSuffixOf_iff_suffix.mp hshape.2
  rw [← hinner]
  simp

lemma onLine_of_deriveEditAt {definition : ℕ} {text traitName : Text}
    (htext : (strLines source)[definition]? = some text)
    (h : deriveEditAt (strLines source) definition text traitName = some edit) : ∃ line, edit.OnLine source line := by
  unfold deriveEditAt at h
  dsimp only at h
  cases hderived : (if definition = 0 then none else (strLines source)[definition - 1]?).bind
      deriveAttribute with
  | none =>
    rw [hderived] at h
    obtain rfl := Option.some.inj h
    exact ⟨text, Nat.succ_pos _, htext, @find?_isSome _ [] [] text (by simp [MechanicalEdit.needle])⟩
  | some derived =>
    rw [hderived] at h
    dsimp only at h
    split_ifs at h
    obtain rfl := Option.some.inj h
    obtain ⟨previous, hprevious, hattribute⟩ := Option.bind_eq_some_iff.mp hderived
    split_ifs at hprevious with hzero
    obtain ⟨rfl, hneedle⟩ := deriveAttribute_eq_some hattribute
    obtain ⟨lead, rest, hline⟩ := exists_trim previous
    refine ⟨previous, Nat.pos_of_ne_zero hzero, hprevious, ?_⟩
    rw [MechanicalEdit.needle, hneedle]
    exact find?_isSome hline

lemma onLine_of_deriveTraitEdit (h : deriveTraitEdit diagnostic source = some edit) :
    ∃ line, edit.OnLine source line := by
  obtain ⟨⟨typeName, traitName⟩, -, h⟩ := Option.bind_eq_some_iff.mp h
  obtain ⟨typeName, -, h⟩ := Option.bind_eq_some_iff.mp h
  dsimp only at h
  split_ifs at h
  obtain ⟨definition, -, h⟩ := Option.bind_eq_some_iff.mp h
  obtain ⟨text, htext, h⟩ := Option.bind_eq_some_iff.mp h
  exact onLine_of_deriveEditAt htext h

lemma onLine_of_knownImportEdit (h : knownImportEdit diagnostic source = some edit) :
    ∃ line, edit.OnLine source line := by
  obtain ⟨name, -, h⟩ := Option.bind_eq_some_iff.mp h
  obtain ⟨entry, -, h⟩ := Option.bind_eq_some_iff.mp h
  dsimp only at h
  split_ifs at h
  obtain ⟨anchor, -, h⟩ := Option.bind_eq_some_iff.mp h
  obtain ⟨text, htext, rfl⟩ := Option.map_eq_some_iff.mp h
  exact ⟨text, Nat.succ_pos _, htext, @find?_isSome _ [] [] text (by simp [MechanicalEdit.needle])⟩

end

/-- The transforms of `mechanical_candidates`. -/
inductive MechanicalTransform where
  | cloneAtMove
  | deriveTrait
  | knownImport

def MechanicalTransform.edit? : MechanicalTransform → ChangeDiagnosticData → Text → Option MechanicalEdit
  | .cloneAtMove => cloneAtMoveEdit
  | .deriveTrait => deriveTraitEdit
  | .knownImport => knownImportEdit

def MechanicalTransform.patch? : MechanicalTransform → ChangeDiagnosticData → String → Text → Option PatchInput
  | .cloneAtMove => AgzRustMcp.cloneAtMove
  | .deriveTrait => AgzRustMcp.deriveTrait
  | .knownImport => AgzRustMcp.knownImport

lemma MechanicalTransform.patch?_eq (transform : MechanicalTransform)
    (diagnostic : ChangeDiagnosticData) (file : String) (source : Text) : transform.patch? diagnostic file source =
      (transform.edit? diagnostic source).bind fun edit => edit.patch file source := by
  cases transform <;> rfl

lemma MechanicalTransform.onLine {transform : MechanicalTransform} {diagnostic : ChangeDiagnosticData}
    {source : Text} {edit : MechanicalEdit} (h : transform.edit? diagnostic source = some edit) :
    ∃ line, edit.OnLine source line := by
  cases transform with
  | cloneAtMove => exact onLine_of_cloneAtMoveEdit h
  | deriveTrait => exact onLine_of_deriveTraitEdit h
  | knownImport => exact onLine_of_knownImportEdit h

/-- A transform edits its line, and nothing else, exactly when its edit aims at it. -/
theorem mechanical_edits_line_iff (transform : MechanicalTransform)
    (diagnostic : ChangeDiagnosticData) (file : String) (source : Text) :
    (∀ patch, transform.patch? diagnostic file source = some patch →
        ∃ edit, transform.edit? diagnostic source = some edit ∧ edit.EditsLine source patch) ↔
      ∀ edit, transform.edit? diagnostic source = some edit → edit.Aims source := by
  rw [transform.patch?_eq]
  constructor
  · intro h edit hedit radius excerpt hwindow
    obtain ⟨line, hon⟩ := transform.onLine hedit
    obtain ⟨patch, hpatch⟩ := Option.isSome_iff_exists.mp (hwindow.patch_isSome file hon)
    obtain ⟨edit', hedit', hedits⟩ := h patch (by rw [hedit, Option.bind_some, hpatch])
    obtain rfl := Option.some.inj (hedit.symm.trans hedit')
    exact (edit.editsLine_iff hon hpatch).mp hedits radius excerpt hwindow
  · intro h patch hpatch
    obtain ⟨edit, hedit, hpatch⟩ := Option.bind_eq_some_iff.mp hpatch
    obtain ⟨line, hon⟩ := transform.onLine hedit
    exact ⟨edit, hedit, (edit.editsLine_iff hon hpatch).mpr (h edit hedit)⟩

/-- A source in which a value is moved on two equal lines. -/
def movedTwice : Text := "fn f(v: V) \x7b\n    g(v);\n    g(v);\n\x7d\n".toList

/-- The diagnostic of the second move. -/
def movedDiagnostic : ChangeDiagnosticData where
  level := "error"
  code := some "E0382"
  file := some "src/lib.rs"
  line := some 3
  message := "use of moved value: `v`"

/-- What the clone of the second move means to edit. -/
def movedEdit : MechanicalEdit := ⟨3, ['v'], ".clone()".toList, []⟩

/-- The clone stands on the line of the first move. -/
theorem clone_of_another_line :
    ¬ ∀ (transform : MechanicalTransform) (diagnostic : ChangeDiagnosticData) (file : String)
      (source : Text) (patch : PatchInput), transform.patch? diagnostic file source = some patch →
        ∃ edit, transform.edit? diagnostic source = some edit ∧ edit.EditsLine source patch := by
  intro h
  have hedit : MechanicalTransform.cloneAtMove.edit? movedDiagnostic movedTwice = some movedEdit := by
    decide +kernel
  have hpatch : MechanicalTransform.cloneAtMove.patch? movedDiagnostic "src/lib.rs" movedTwice =
      some ⟨"src/lib.rs", "    g(v);\n    g(v);\n\x7d", "    g(v.clone());\n    g(v);\n\x7d"⟩ := by
    decide +kernel
  obtain ⟨edit, hsame, hedits⟩ := h .cloneAtMove movedDiagnostic "src/lib.rs" movedTwice _ hpatch
  obtain rfl := Option.some.inj (hedit.symm.trans hsame)
  obtain ⟨line, hon⟩ := MechanicalTransform.onLine hedit
  rw [MechanicalTransform.patch?_eq, hedit, Option.bind_some] at hpatch
  have haims := (movedEdit.editsLine_iff hon hpatch).mp hedits
  have hwindow : movedEdit.Window movedTwice 1 "    g(v);\n    g(v);\n\x7d".toList := by
    refine ⟨by decide, by decide +kernel, ⟨by decide, by decide +kernel, by decide +kernel⟩, ?_⟩
    intro smaller hsmaller other hother hfits
    obtain rfl : smaller = 0 := by omega
    have hnarrow : windowAt movedTwice 2 0 = some "    g(v);".toList := by decide +kernel
    obtain rfl := Option.some.inj (hnarrow.symm.trans hother)
    exact absurd hfits.2.1 (by decide +kernel)
  exact absurd (haims 1 _ hwindow).2 (by decide +kernel)

end AgzRustMcp
