import AgzRustMcp.Foundation.Utf8Text

/-!
# Edit scripts

A `Script` tells how a text came out of another one: it alternates between stretches that were kept
and stretches `old` that were replaced by `new`.  `before` reads the old text off it and `after` the
new one.

Sequential editors keep the byte ranges they have written and refuse a replacement that meets one;
`exists_edits_of_disjoint` and `Edits.disjoint` say that this accepts exactly the replacements
inside a kept stretch.
-/

namespace Splice

open String (utf8Len)
open Utf8Text

/-! ## Scripts -/

/-- A text with disjoint replacements, and kept stretches between. -/
inductive Script where
  | last (kept : Text)
  | edit (kept old new : Text) (rest : Script)

namespace Script

def before : Script → Text
  | last kept => kept
  | edit kept old _ rest => kept ++ old ++ rest.before

def after : Script → Text
  | last kept => kept
  | edit kept _ new rest => kept ++ new ++ rest.after

/-- The byte ranges that the replacements wrote, from `pos` on. -/
def spans : ℕ → Script → List (ℕ × ℕ)
  | _, last _ => []
  | pos, edit kept _ new rest =>
    (pos + utf8Len kept, pos + utf8Len kept + utf8Len new) :: rest.spans (pos + utf8Len kept + utf8Len new)

lemma spans_add (s : Script) (pos k : ℕ) : s.spans (pos + k) = (s.spans pos).map fun r => (r.1 + k, r.2 + k) := by
  induction s generalizing pos with
  | last kept => rfl
  | edit kept old new rest ih =>
    have h : pos + k + utf8Len kept + utf8Len new = pos + utf8Len kept + utf8Len new + k := by omega
    simp only [spans, List.map_cons, h, ih]
    simp only [List.cons.injEq, Prod.mk.injEq, and_true]
    omega

lemma bounds_of_mem_spans {s : Script} {pos : ℕ} {r : ℕ × ℕ} (h : r ∈ s.spans pos) :
    pos ≤ r.1 ∧ r.1 ≤ r.2 ∧ r.2 ≤ pos + utf8Len s.after := by
  induction s generalizing pos with
  | last kept => simp [spans] at h
  | edit kept old new rest ih =>
    simp only [after, String.utf8Len_append]
    rcases List.mem_cons.mp h with rfl | h
    · refine ⟨by simp, by simp, ?_⟩
      simp only
      omega
    · have := ih h
      omega

/-- `s'` is `s` with `old`, at offset `i`, replaced by `new`. -/
inductive Edits (old new : Text) : Script → ℕ → Script → Prop
  | last (a b : Text) :
      Edits old new (last (a ++ old ++ b)) (utf8Len a) (edit a old new (last b))
  | here (a b old' new' : Text) (rest : Script) :
      Edits old new (edit (a ++ old ++ b) old' new' rest) (utf8Len a)
        (edit a old new (edit b old' new' rest))
  | later (kept old' new' : Text) {rest rest' : Script} {i : ℕ} :
      Edits old new rest i rest' →
      Edits old new (edit kept old' new' rest) (utf8Len kept + utf8Len new' + i)
        (edit kept old' new' rest')

section Edits

variable {old new : Text} {s s' : Script} {i : ℕ}

lemma Edits.before_eq (h : Edits old new s i s') : s'.before = s.before := by
  induction h with
  | last a b => simp [before]
  | here a b old' new' rest => simp [before]
  | later kept old' new' _ ih => simp [before, ih]

lemma Edits.after_eq (h : Edits old new s i s') :
    ∃ pre suf, s.after = pre ++ old ++ suf ∧ utf8Len pre = i ∧ s'.after = pre ++ new ++ suf := by
  induction h with
  | last a b => exact ⟨a, b, rfl, rfl, by simp [after]⟩
  | here a b old' new' rest =>
    exact ⟨a, b ++ new' ++ rest.after, by simp [after], rfl, by simp [after]⟩
  | later kept old' new' _ ih =>
    obtain ⟨pre, suf, hs, rfl, hs'⟩ := ih
    exact ⟨kept ++ new' ++ pre, suf, by simp [after, hs], by
      simp [Nat.add_assoc], by simp [after, hs']⟩

lemma Edits.spans_eq (h : Edits old new s i s') (pos : ℕ) : ∃ left right, s.spans pos = left ++ right ∧
      (∀ r ∈ left, r.2 ≤ pos + i) ∧ (∀ r ∈ right, pos + i + utf8Len old ≤ r.1) ∧
      s'.spans pos = left ++ (pos + i, pos + i + utf8Len new) ::
        right.map fun r => (r.1 - utf8Len old + utf8Len new, r.2 - utf8Len old + utf8Len new) := by
  induction h generalizing pos with
  | last a b => exact ⟨[], [], by simp [spans], by simp, by simp, by simp [spans]⟩
  | here a b old' new' rest =>
    refine ⟨[], (edit (a ++ old ++ b) old' new' rest).spans pos, rfl, by simp, ?_, ?_⟩
    · intro r hr
      rcases List.mem_cons.mp hr with rfl | hr
      · simp only [String.utf8Len_append]
        omega
      · have := (bounds_of_mem_spans hr).1
        simp only [String.utf8Len_append] at this
        omega
    · have hold := spans_add (edit b old' new' rest) (pos + utf8Len a) (utf8Len old)
      have hnew := spans_add (edit b old' new' rest) (pos + utf8Len a) (utf8Len new)
      have hsame : (edit (a ++ old ++ b) old' new' rest).spans pos =
          (edit b old' new' rest).spans (pos + utf8Len a + utf8Len old) := by
        simp only [spans, String.utf8Len_append, Nat.add_assoc]
      rw [hsame, hold, List.map_map]
      simp only [spans, List.nil_append, List.cons.injEq, true_and] at hnew ⊢
      rw [hnew]
      simp [Function.comp_def]
  | @later kept old' new' _ _ i _ ih =>
    obtain ⟨left, right, hs, hleft, hright, hs'⟩ := ih (pos + utf8Len kept + utf8Len new')
    refine ⟨(pos + utf8Len kept, pos + utf8Len kept + utf8Len new') :: left, right, ?_, ?_, ?_, ?_⟩
    · simp [spans, hs]
    · intro r hr
      rcases List.mem_cons.mp hr with rfl | hr
      · simp only
        omega
      · have := hleft r hr
        omega
    · intro r hr
      have := hright r hr
      omega
    · have hi : pos + (utf8Len kept + utf8Len new' + i) = pos + utf8Len kept + utf8Len new' + i := by omega
      simp only [spans, hs', List.cons_append, hi]

end Edits

lemma exists_edits_of_disjoint {old : Text} (new : Text) {s : Script} {pre suf : Text} {pos : ℕ}
    (hs : s.after = pre ++ old ++ suf)
    (hdisj : ∀ r ∈ s.spans pos, ¬ (r.1 < pos + utf8Len pre + utf8Len old ∧ pos + utf8Len pre < r.2)) :
    ∃ s', Edits old new s (utf8Len pre) s' := by
  induction s generalizing pre pos with
  | last kept =>
    obtain rfl : kept = pre ++ old ++ suf := hs
    exact ⟨_, .last pre suf⟩
  | edit kept old' new' rest ih =>
    have hfirst := hdisj _ List.mem_cons_self
    simp only at hfirst
    by_cases hin : utf8Len (pre ++ old) ≤ utf8Len kept
    · -- The match ends before the first replacement begins.
      have hs' : (pre ++ old) ++ suf = kept ++ (new' ++ rest.after) := by
        rw [← hs]
        simp [after]
      obtain ⟨b, rfl, -⟩ := exists_append_of_utf8Len_le hs' hin
      exact ⟨_, .here pre b old' new' rest⟩
    · -- The match begins after the first replacement ends.
      rw [String.utf8Len_append] at hin
      have hle : utf8Len (kept ++ new') ≤ utf8Len pre := by
        rw [String.utf8Len_append]
        omega
      have hs' : (kept ++ new') ++ rest.after = pre ++ (old ++ suf) := by
        rw [← List.append_assoc pre, ← hs]
        simp [after]
      obtain ⟨mid, rfl, hrest⟩ := exists_append_of_utf8Len_le hs' hle
      rw [← List.append_assoc] at hrest
      have hdisj' : ∀ r ∈ rest.spans (pos + utf8Len kept + utf8Len new'),
          ¬ (r.1 < pos + utf8Len kept + utf8Len new' + utf8Len mid + utf8Len old ∧
            pos + utf8Len kept + utf8Len new' + utf8Len mid < r.2) := by
        intro r hr
        have := hdisj r (List.mem_cons_of_mem _ hr)
        simp only [String.utf8Len_append] at this
        omega
      obtain ⟨rest', hrest'⟩ := ih hrest hdisj'
      refine ⟨edit kept old' new' rest', ?_⟩
      rw [String.utf8Len_append, String.utf8Len_append]
      exact Edits.later kept old' new' hrest'

end Script

/-! ## Simultaneous application -/

/-- One replacement of a byte range of a text. -/
structure Edit where
  start : ℕ
  stop : ℕ
  new : Text
  deriving DecidableEq

/-- The edit replaces an occurrence of `old` in the text by `new`. -/
def Edit.Replaces (text old new : Text) (e : Edit) : Prop :=
  OccursAt text old e.start ∧ e.stop = e.start + utf8Len old ∧ e.new = new

/-- The edits have a byte in common. -/
def Edit.Meets (e e' : Edit) : Prop := e.start < e'.stop ∧ e'.start < e.stop

/-- What the edits, sorted by offset, make of the part of the text from `pos` on. -/
def applyFrom (base : Text) : ℕ → List Edit → Text
  | pos, [] => dropBytes base pos
  | pos, e :: edits =>
    takeBytes (dropBytes base pos) (e.start - pos) ++ e.new ++ applyFrom base e.stop edits

/-- The replacements of a script, as edits of the text before them. -/
def Script.edits : ℕ → Script → List Edit
  | _, last _ => []
  | pos, edit kept old new rest =>
    ⟨pos + utf8Len kept, pos + utf8Len kept + utf8Len old, new⟩ :: rest.edits (pos + utf8Len kept + utf8Len old)

lemma applyFrom_edits (s : Script) (pre : Text) :
    applyFrom (pre ++ s.before) (utf8Len pre) (s.edits (utf8Len pre)) = s.after := by
  induction s generalizing pre with
  | last kept => simp [applyFrom, Script.edits, Script.before, Script.after]
  | edit kept old new rest ih =>
    have hih := ih (pre ++ kept ++ old)
    simp only [String.utf8Len_append, List.append_assoc, ← Nat.add_assoc] at hih
    simp only [Script.edits, applyFrom, Script.before, Script.after, List.append_assoc,
      dropBytes_append_left, Nat.add_sub_cancel_left, takeBytes_append_left, hih]

/-! ## The edits of a script -/

section ScriptEdits

open Script

variable {old new : Text} {s s' t : Script} {i : ℕ}

/-- The edits of a script are nonempty ranges when it replaces no empty text. -/
def Script.Proper : Script → Prop
  | .last _ => True
  | .edit _ old _ rest => old ≠ [] ∧ rest.Proper

lemma Script.Edits.proper (h : Edits old new s i s') (hold : old ≠ []) (hs : s.Proper) : s'.Proper := by
  induction h with
  | last a b => exact ⟨hold, trivial⟩
  | here a b old' new' rest => exact ⟨hold, hs⟩
  | later kept old' new' _ ih => exact ⟨hs.1, ih hs.2⟩

lemma Script.Edits.edits_eq (h : Edits old new s i s') (pos : ℕ) :
    ∃ pre suf left right, s.before = pre ++ old ++ suf ∧ s.edits pos = left ++ right ∧ s'.edits pos = left ++
        ⟨pos + utf8Len pre, pos + utf8Len pre + utf8Len old, new⟩ :: right := by
  induction h generalizing pos with
  | last a b => exact ⟨a, b, [], [], rfl, rfl, rfl⟩
  | here a b old' new' rest =>
    refine ⟨a, b ++ old' ++ rest.before, [], (edit (a ++ old ++ b) old' new' rest).edits pos, ?_, rfl, ?_⟩
    · simp [before]
    · simp only [Script.edits, String.utf8Len_append, List.nil_append, Nat.add_assoc]
  | later kept old' new' _ ih =>
    obtain ⟨pre, suf, left, right, hbefore, hedits, hedits'⟩ :=
      ih (pos + utf8Len kept + utf8Len old')
    refine ⟨kept ++ old' ++ pre, suf,
      ⟨pos + utf8Len kept, pos + utf8Len kept + utf8Len old', new'⟩ :: left, right, ?_, ?_, ?_⟩
    · simp [before, hbefore]
    · simp [Script.edits, hedits]
    · have hpre : pos + utf8Len (kept ++ old' ++ pre) = pos + utf8Len kept + utf8Len old' + utf8Len pre := by
        simp only [String.utf8Len_append]
        omega
      rw [hpre, Script.edits, hedits', List.cons_append]

lemma Script.pairwise_edits (s : Script) (pos : ℕ) :
    (s.edits pos).Pairwise (fun e e' => e.stop ≤ e'.start) ∧ ∀ e ∈ s.edits pos, pos ≤ e.start ∧ e.start ≤ e.stop := by
  induction s generalizing pos with
  | last kept => simp [Script.edits]
  | edit kept old new rest ih =>
    obtain ⟨hpairwise, hbounds⟩ := ih (pos + utf8Len kept + utf8Len old)
    refine ⟨List.pairwise_cons.mpr ⟨fun e he => (hbounds e he).1, hpairwise⟩, ?_⟩
    intro e he
    rcases List.mem_cons.mp he with rfl | he
    · simp only
      omega
    · have := hbounds e he
      omega

lemma Script.Proper.start_lt_stop (hs : s.Proper) {pos : ℕ} {e : Edit} (he : e ∈ s.edits pos) : e.start < e.stop := by
  induction s generalizing pos with
  | last kept => simp [Script.edits] at he
  | edit kept old new rest ih =>
    rcases List.mem_cons.mp he with rfl | he
    · have hpos : utf8Len old ≠ 0 := fun h => hs.1 (String.utf8Len_eq_zero.mp h)
      simp only
      omega
    · exact ih hs.2 he

lemma Script.Edits.unique (hold : old ≠ []) (h : Edits old new s i s') (h' : Edits old new s i t) : s' = t := by
  have hpos : 0 < utf8Len old := Nat.pos_of_ne_zero fun h => hold (String.utf8Len_eq_zero.mp h)
  have hsplit : ∀ {a b a' b' : Text}, a ++ old ++ b = a' ++ old ++ b' → utf8Len a = utf8Len a' → a = a' ∧ b = b' := by
    intro a b a' b' heq hlen
    rw [List.append_assoc, List.append_assoc] at heq
    obtain ⟨rfl, hrest⟩ := append_inj_of_utf8Len heq hlen
    exact ⟨rfl, List.append_cancel_left hrest⟩
  induction h generalizing t with
  | last a b =>
    generalize hkept : a ++ old ++ b = kept at h'
    generalize hlen : utf8Len a = n at h'
    cases h' with
    | last a' b' =>
      obtain ⟨rfl, rfl⟩ := hsplit hkept hlen
      rfl
  | here a b old' new' rest =>
    generalize hkept : a ++ old ++ b = kept at h'
    generalize hlen : utf8Len a = n at h'
    cases h' with
    | here a' b' =>
      obtain ⟨rfl, rfl⟩ := hsplit hkept hlen
      rfl
    | later _ _ _ h' =>
      rw [← hkept] at hlen
      simp only [String.utf8Len_append] at hlen
      omega
  | later kept old' new' hedits ih =>
    rename_i rest rest' m
    generalize hlen : utf8Len kept + utf8Len new' + m = n at h'
    cases h' with
    | here a' b' =>
      simp only [String.utf8Len_append] at hlen
      omega
    | later _ _ _ h' =>
      obtain rfl := Nat.add_left_cancel hlen
      rw [ih h']

lemma Script.exists_edits_of_before {old : Text} (new : Text) {s : Script} {pre suf : Text} (pos : ℕ)
    (hs : s.before = pre ++ old ++ suf)
    (hdisj : ∀ e ∈ s.edits pos, ¬ (e.start < pos + utf8Len pre + utf8Len old ∧ pos + utf8Len pre < e.stop)) :
    ∃ i s', Edits old new s i s' ∧ (s'.edits pos).Perm
      (⟨pos + utf8Len pre, pos + utf8Len pre + utf8Len old, new⟩ :: s.edits pos) := by
  induction s generalizing pre pos with
  | last kept =>
    obtain rfl : kept = pre ++ old ++ suf := hs
    exact ⟨_, _, .last pre suf, .rfl⟩
  | edit kept old' new' rest ih =>
    have hfirst := hdisj _ List.mem_cons_self
    simp only at hfirst
    by_cases hin : utf8Len (pre ++ old) ≤ utf8Len kept
    · -- The occurrence ends before the first edit begins.
      have hs' : (pre ++ old) ++ suf = kept ++ (old' ++ rest.before) := by
        rw [← hs]
        simp [before]
      obtain ⟨b, rfl, -⟩ := exists_append_of_utf8Len_le hs' hin
      refine ⟨_, _, .here pre b old' new' rest, ?_⟩
      simp only [Script.edits, String.utf8Len_append, Nat.add_assoc]
      exact .rfl
    · -- The occurrence begins after the first edit ends.
      rw [String.utf8Len_append] at hin
      have hle : utf8Len (kept ++ old') ≤ utf8Len pre := by
        rw [String.utf8Len_append]
        omega
      have hs' : (kept ++ old') ++ rest.before = pre ++ (old ++ suf) := by
        rw [← List.append_assoc pre, ← hs]
        simp [before]
      obtain ⟨mid, rfl, hrest⟩ := exists_append_of_utf8Len_le hs' hle
      rw [← List.append_assoc] at hrest
      have hdisj' : ∀ e ∈ rest.edits (pos + utf8Len kept + utf8Len old'),
          ¬ (e.start < pos + utf8Len kept + utf8Len old' + utf8Len mid + utf8Len old ∧
            pos + utf8Len kept + utf8Len old' + utf8Len mid < e.stop) := by
        intro e he
        have := hdisj e (List.mem_cons_of_mem _ he)
        simp only [String.utf8Len_append] at this
        omega
      obtain ⟨i, rest', hrest', hperm⟩ := ih _ hrest hdisj'
      refine ⟨_, _, Edits.later kept old' new' hrest', ?_⟩
      have hcons := (hperm.cons ⟨pos + utf8Len kept, pos + utf8Len kept + utf8Len old', new'⟩).trans
        (List.Perm.swap _ _ _)
      simpa only [Script.edits, String.utf8Len_append, Nat.add_assoc] using hcons

lemma Script.after_eq_of_perm (hs : s.Proper) (ht : t.Proper) (hbefore : s.before = t.before)
    (hperm : (s.edits 0).Perm (t.edits 0)) : s.after = t.after := by
  have hsorted : ∀ {u : Script}, u.Proper → (u.edits 0).Pairwise fun e e' => e.start < e'.start := by
    intro u hu
    refine List.Pairwise.imp_of_mem ?_ (u.pairwise_edits 0).1
    intro e e' he _ hle
    exact (hu.start_lt_stop he).trans_le hle
  have hedits : s.edits 0 = t.edits 0 := by
    refine List.Perm.eq_of_pairwise ?_ (hsorted hs) (hsorted ht) hperm
    intro e e' _ _ hlt hlt'
    omega
  have hs' := applyFrom_edits s []
  have ht' := applyFrom_edits t []
  simp only [List.nil_append, String.utf8Len_nil] at hs' ht'
  rw [← hs', ← ht', hbefore, hedits]

end ScriptEdits

end Splice
