import AgzRustMcp.Foundation.Splice

/-!
# Edits applied from the last to the first

Edits that lie one behind another may be made at once, or one by one from the last to the first
(`applyFrom_concat`); the edits before an offset do not see the text behind it (`applyFrom_append`).
-/

namespace Splice

open String (utf8Len)
open Utf8Text

/-- The edit replaces a part of the text. -/
def Edit.Inside (text : Text) (e : Edit) : Prop :=
  ∃ left middle right, text = left ++ middle ++ right ∧ utf8Len left = e.start ∧ utf8Len (left ++ middle) = e.stop

/-- The edits lie one behind another, from an offset on. -/
def Ascending : ℕ → List Edit → Prop
  | _, [] => True
  | pos, e :: edits => pos ≤ e.start ∧ e.start ≤ e.stop ∧ Ascending e.stop edits

section

variable {text rest : Text} {edits later : List Edit}

lemma Edit.Inside.of_append {e : Edit} (h : e.Inside (text ++ rest)) (hle : e.stop ≤ utf8Len text) :
    e.Inside text := by
  obtain ⟨left, middle, right, heq, hstart, hstop⟩ := h
  obtain ⟨right', rfl, -⟩ := exists_append_of_utf8Len_le heq.symm (hstop ▸ hle)
  exact ⟨left, middle, right', rfl, hstart, hstop⟩

lemma takeBytes_zero (t : Text) : takeBytes t 0 = [] := by
  simpa using takeBytes_append_left [] t

lemma takeBytes_append_add (pre suf : Text) (k : ℕ) :
    takeBytes (pre ++ suf) (utf8Len pre + k) = pre ++ takeBytes suf k := by
  induction pre with
  | nil => simp
  | cons c pre ih =>
    have hle : c.utf8Size ≤ utf8Len pre + c.utf8Size + k := by omega
    have hrest : utf8Len pre + c.utf8Size + k - c.utf8Size = utf8Len pre + k := by omega
    rw [String.utf8Len_cons, List.cons_append, takeBytes, if_pos hle, hrest, ih, List.cons_append]

lemma applyFrom_of_le (done text rest : Text) (hlater : ∀ e ∈ later, utf8Len (done ++ text) ≤ e.start) :
    applyFrom (done ++ text ++ rest) (utf8Len done) later =
      text ++ applyFrom (done ++ text ++ rest) (utf8Len (done ++ text)) later := by
  cases later with
  | nil =>
    simp only [applyFrom]
    rw [dropBytes_append_left, List.append_assoc, dropBytes_append_left]
  | cons e later =>
    have hle := hlater e List.mem_cons_self
    rw [String.utf8Len_append] at hle
    obtain ⟨k, hk⟩ : ∃ k, e.start = utf8Len done + utf8Len text + k :=
      ⟨e.start - (utf8Len done + utf8Len text), by omega⟩
    have hsum : e.start - utf8Len done = utf8Len text + k := by omega
    have hsum' : e.start - utf8Len (done ++ text) = k := by
      rw [String.utf8Len_append]
      omega
    simp only [applyFrom]
    rw [hsum, hsum', dropBytes_append_left, List.append_assoc done, dropBytes_append_left, takeBytes_append_add]
    simp only [List.append_assoc]

lemma applyFrom_append (done text rest : Text) (hinside : ∀ e ∈ edits, e.Inside (done ++ text))
    (hascending : Ascending (utf8Len done) edits) (hlater : ∀ e ∈ later, utf8Len (done ++ text) ≤ e.start) :
    applyFrom (done ++ text ++ rest) (utf8Len done) (edits ++ later) =
      applyFrom (done ++ text) (utf8Len done) edits ++
        applyFrom (done ++ text ++ rest) (utf8Len (done ++ text)) later := by
  induction edits generalizing done text with
  | nil =>
    rw [List.nil_append, applyFrom_of_le done text rest hlater, applyFrom, dropBytes_append_left]
  | cons e edits ih =>
    obtain ⟨hpos, hle, hrest⟩ := hascending
    obtain ⟨left, middle, right, heq, hstart, hstop⟩ := hinside e List.mem_cons_self
    obtain ⟨kept, rfl, -⟩ := exists_append_of_utf8Len_le (heq.trans (List.append_assoc _ _ _)) (by omega)
    obtain rfl : text = kept ++ middle ++ right := by
      rw [List.append_assoc, List.append_assoc] at heq
      rw [List.append_assoc]
      exact List.append_cancel_left heq
    have hsplit : done ++ (kept ++ middle ++ right) = (done ++ kept ++ middle) ++ right := by simp
    have hih := ih (done ++ kept ++ middle) right
      (fun e' he' => hsplit ▸ hinside e' (List.mem_cons_of_mem _ he')) (hstop ▸ hrest)
      (by rw [← hsplit]; exact hlater)
    rw [hstop] at hih
    have hcut : e.start - utf8Len done = utf8Len kept := by
      rw [← hstart, String.utf8Len_append, Nat.add_sub_cancel_left]
    rw [List.cons_append, applyFrom, applyFrom, hsplit, hih, hcut]
    simp only [List.append_assoc, dropBytes_append_left, takeBytes_append_left]

/-- Making the last edit first and then the others is making all of them at once. -/
theorem applyFrom_concat (left middle right new : Text) (hinside : ∀ e ∈ edits, e.Inside left)
    (hascending : Ascending 0 edits) :
    applyFrom (left ++ new ++ right) 0 edits = applyFrom (left ++ middle ++ right) 0
        (edits ++ [⟨utf8Len left, utf8Len (left ++ middle), new⟩]) := by
  have hnone : ∀ e ∈ ([] : List Edit), utf8Len ([] ++ left) ≤ e.start := by simp
  have hone : ∀ e ∈ [(⟨utf8Len left, utf8Len (left ++ middle), new⟩ : Edit)],
      utf8Len ([] ++ left) ≤ e.start := by simp
  have hfirst := applyFrom_append [] left (new ++ right) hinside hascending hnone
  have hsecond := applyFrom_append [] left (middle ++ right) hinside hascending hone
  simp only [List.nil_append, List.append_nil, String.utf8Len_nil, ← List.append_assoc] at hfirst hsecond
  rw [hfirst, hsecond]
  congr 1
  simp only [applyFrom, Nat.sub_self]
  rw [List.append_assoc left new, dropBytes_append_left, dropBytes_append_left, takeBytes_zero, List.nil_append]

end

end Splice
