import AgzRustMcp.Foundation.Numerals

/-!
# Fields that end in a delimiter

A record is printed as its fields, each followed by a delimiter.  The fields can be read back as
long as none contains the delimiter (`eq_of_terminated_eq`); one that contains it prints as two
(`terminated_join`).
-/

namespace Delimited

section

variable {α : Type*} {d : α}

/-- The fields, each followed by the delimiter. -/
def terminated (d : α) (fields : List (List α)) : List α := fields.flatMap (· ++ [d])

@[simp] lemma terminated_nil : terminated d [] = [] := rfl

@[simp] lemma terminated_cons (field : List α) (fields : List (List α)) :
    terminated d (field :: fields) = field ++ d :: terminated d fields := by
  simp [terminated]

@[simp] lemma terminated_append (fields rest : List (List α)) :
    terminated d (fields ++ rest) = terminated d fields ++ terminated d rest := by
  simp [terminated]

lemma terminated_join (x y : List α) : terminated d [x ++ d :: y] = terminated d [x, y] := by
  simp

lemma eq_of_terminated_eq {xs ys : List (List α)} (hxs : ∀ x ∈ xs, d ∉ x) (hys : ∀ y ∈ ys, d ∉ y)
    (h : terminated d xs = terminated d ys) : xs = ys := by
  induction xs generalizing ys with
  | nil =>
    cases ys with
    | nil => rfl
    | cons y ys => simp at h
  | cons x xs ih =>
    cases ys with
    | nil => simp at h
    | cons y ys =>
      simp only [terminated_cons] at h
      obtain ⟨hfield, hrest⟩ := Numerals.append_cons_inj (hxs x List.mem_cons_self)
        (hys y List.mem_cons_self) h
      have hfields := ih (fun z hz => hxs z (List.mem_cons_of_mem _ hz))
        (fun z hz => hys z (List.mem_cons_of_mem _ hz)) hrest
      rw [hfield, hfields]

lemma notMem_of_mem_splitOn [BEq α] [LawfulBEq α] {xs : List α} {piece : List α} (h : piece ∈ xs.splitOn d) :
    d ∉ piece := by
  induction xs generalizing piece with
  | nil =>
    rw [List.splitOn_nil, List.mem_singleton] at h
    rw [h]
    exact List.not_mem_nil
  | cons x xs ih =>
    rw [List.splitOn_cons_eq_if_modifyHead] at h
    split_ifs at h with hx
    · rcases List.mem_cons.mp h with rfl | h
      · exact List.not_mem_nil
      · exact ih h
    · cases hsplit : xs.splitOn d with
      | nil => exact absurd hsplit (List.splitOn_ne_nil d xs)
      | cons first rest =>
        rw [hsplit] at h ih
        rcases List.mem_cons.mp h with rfl | h
        · rw [List.mem_cons, not_or]
          exact ⟨fun heq => hx (beq_iff_eq.mpr heq.symm), ih List.mem_cons_self⟩
        · exact ih (List.mem_cons_of_mem _ h)

lemma count_terminated [DecidableEq α] (fields : List (List α)) :
    (terminated d fields).count d = fields.length + (fields.map (List.count d)).sum := by
  induction fields with
  | nil => rfl
  | cons field fields ih =>
    simp only [terminated_cons, List.count_append, List.count_cons_self, List.length_cons,
      List.map_cons, List.sum_cons]
    omega

lemma length_le_count_terminated [DecidableEq α] (fields : List (List α)) :
    fields.length ≤ (terminated d fields).count d := by
  rw [count_terminated]
  exact Nat.le_add_right _ _

lemma notMem_of_count_terminated [DecidableEq α] {fields : List (List α)}
    (h : (terminated d fields).count d ≤ fields.length) : ∀ field ∈ fields, d ∉ field := by
  intro field hfield
  rw [count_terminated] at h
  have hle := List.single_le_sum (by simp) _ (List.mem_map_of_mem (f := List.count d) hfield)
  exact List.count_eq_zero.mp (by omega)

lemma count_terminated_of_notMem [DecidableEq α] {fields : List (List α)}
    (h : ∀ x ∈ fields, d ∉ x) : (terminated d fields).count d = fields.length := by
  have hzero : (fields.map (List.count d)).sum = 0 := by
    refine List.sum_eq_zero fun n hn => ?_
    obtain ⟨field, hfield, rfl⟩ := List.mem_map.mp hn
    exact List.count_eq_zero.mpr (h field hfield)
  rw [count_terminated, hzero, Nat.add_zero]

lemma exists_terminated_eq (field : List α) (fields : List (List α)) :
    ∃ x, terminated d [x] = terminated d (field :: fields) := by
  induction fields generalizing field with
  | nil => exact ⟨field, rfl⟩
  | cons next fields ih =>
    obtain ⟨x, hx⟩ := ih next
    refine ⟨field ++ d :: x, ?_⟩
    rw [terminated_join, terminated_cons, hx, terminated_cons field]

lemma eq_of_flatMap_eq {β γ : Type*} {f : β → List γ} {n : ℕ} (hn : 0 < n)
    (hlen : ∀ b, (f b).length = n) {xs ys : List β}
    (hinj : ∀ x ∈ xs, ∀ y ∈ ys, f x = f y → x = y) (h : xs.flatMap f = ys.flatMap f) : xs = ys := by
  induction xs generalizing ys with
  | nil =>
    cases ys with
    | nil => rfl
    | cons y ys =>
      have hzero := congrArg List.length h
      simp only [List.flatMap_nil, List.flatMap_cons, List.length_append, List.length_nil, hlen] at hzero
      omega
  | cons x xs ih =>
    cases ys with
    | nil =>
      have hzero := congrArg List.length h
      simp only [List.flatMap_nil, List.flatMap_cons, List.length_append, List.length_nil, hlen] at hzero
      omega
    | cons y ys =>
      simp only [List.flatMap_cons] at h
      obtain ⟨hrecord, hrest⟩ := List.append_inj h (by rw [hlen, hlen])
      have hfirst := hinj x List.mem_cons_self y List.mem_cons_self hrecord
      have hothers := ih (fun a ha b hb => hinj a (List.mem_cons_of_mem _ ha) b
        (List.mem_cons_of_mem _ hb)) hrest
      rw [hfirst, hothers]

end

end Delimited
