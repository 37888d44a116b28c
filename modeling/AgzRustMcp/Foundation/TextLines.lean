import AgzRustMcp.Foundation.Utf8Text

/-!
# Lines and where they stand

`strLines` is `str::lines`: a line ends at a line feed, and a carriage return before it belongs to the
end.  `lineBounds` are the byte offsets of the lines.  `lineAt_lineBounds` connects the two.
-/

namespace Utf8Text

open String (utf8Len)

/-- `str::lines` behind the part of a line. -/
def strLinesFrom (line : Text) : Text → List Text
  | [] => if line = [] then [] else [line]
  | c :: t =>
    if c = '\n' then (if line.getLast? = some '\r' then line.dropLast else line) :: strLinesFrom [] t
    else strLinesFrom (line ++ [c]) t

/-- `str::lines`. -/
def strLines (t : Text) : List Text := strLinesFrom [] t

/-- The offsets of the lines behind a part of one that may end in a carriage return. -/
def lineBoundsFrom (start index : ℕ) (afterReturn : Bool) : Text → List (ℕ × ℕ)
  | [] => if start < index then [(start, index)] else []
  | c :: t =>
    if c = '\n' then
      (start, if start < index ∧ afterReturn = true then index - 1 else index) ::
        lineBoundsFrom (index + 1) (index + 1) false t
    else lineBoundsFrom start (index + c.utf8Size) (c = '\r') t

/-- The start and the end of every line. -/
def lineBounds (t : Text) : List (ℕ × ℕ) := lineBoundsFrom 0 0 false t

/-- `str::trim_start_matches` for a text that is not empty. -/
def trimStartMatches (lead : Text) : ℕ → Text → Text
  | 0, t => t
  | fuel + 1, t => if lead.isPrefixOf t then trimStartMatches lead fuel (t.drop lead.length) else t

/-- A line stands between two offsets of a text. -/
def LineAt (t : Text) (bounds : ℕ × ℕ) (line : Text) : Prop :=
  ∃ pre post, t = pre ++ line ++ post ∧ utf8Len pre = bounds.1 ∧ utf8Len (pre ++ line) = bounds.2

variable {t rest pre line : Text}

lemma lineAt_lineBoundsFrom (ht : t = pre ++ line ++ rest) {afterReturn : Bool}
    (hreturn : afterReturn = true ↔ line.getLast? = some '\r') : List.Forall₂ (LineAt t)
      (lineBoundsFrom (utf8Len pre) (utf8Len (pre ++ line)) afterReturn rest) (strLinesFrom line rest) := by
  induction rest generalizing pre line afterReturn with
  | nil =>
    unfold lineBoundsFrom strLinesFrom
    by_cases hline : line = []
    · subst hline
      simp
    · have hpos : utf8Len line ≠ 0 := fun h => hline (String.utf8Len_eq_zero.mp h)
      rw [if_neg hline, if_pos (by rw [String.utf8Len_append]; omega)]
      exact .cons ⟨pre, [], by simpa using ht, rfl, rfl⟩ .nil
  | cons c rest ih =>
    unfold lineBoundsFrom strLinesFrom
    by_cases hc : c = '\n'
    · subst hc
      rw [if_pos rfl, if_pos rfl]
      have hnext : t = (pre ++ line ++ ['\n']) ++ [] ++ rest := by simpa using ht
      have hlen : utf8Len (pre ++ line) + 1 = utf8Len (pre ++ line ++ ['\n']) := by
        rw [String.utf8Len_append _ ['\n']]
        rfl
      refine .cons ?_ ?_
      · by_cases hcr : line.getLast? = some '\r'
        · obtain ⟨body, rfl⟩ : ∃ body, line = body ++ ['\r'] :=
            ⟨line.dropLast, (List.dropLast_append_getLast? _ hcr).symm⟩
          have hbody : utf8Len (pre ++ (body ++ ['\r'])) = utf8Len (pre ++ body) + 1 := by
            rw [← List.append_assoc, String.utf8Len_append (pre ++ body)]
            rfl
          have hstart : utf8Len pre < utf8Len (pre ++ (body ++ ['\r'])) := by
            rw [hbody, String.utf8Len_append]
            omega
          rw [if_pos hcr, if_pos ⟨hstart, hreturn.mpr hcr⟩, List.dropLast_concat]
          refine ⟨pre, '\r' :: '\n' :: rest, by simpa using ht, rfl, ?_⟩
          dsimp only
          omega
        · rw [if_neg hcr, if_neg fun h => hcr (hreturn.mp h.2)]
          exact ⟨pre, '\n' :: rest, ht, rfl, rfl⟩
      · have hrec := @ih (pre ++ line ++ ['\n']) [] hnext false (by simp)
        rw [List.append_nil, ← hlen] at hrec
        exact hrec
    · rw [if_neg hc, if_neg hc]
      have hnext : t = pre ++ (line ++ [c]) ++ rest := by simpa using ht
      have hrec := @ih pre (line ++ [c]) hnext (decide (c = '\r')) (by simp)
      have hlen : utf8Len (pre ++ (line ++ [c])) = utf8Len (pre ++ line) + c.utf8Size := by
        rw [← List.append_assoc, String.utf8Len_append (pre ++ line)]
        simp
      rw [hlen] at hrec
      exact hrec

lemma lineAt_lineBounds (t : Text) : List.Forall₂ (LineAt t) (lineBounds t) (strLines t) :=
  @lineAt_lineBoundsFrom t t [] [] rfl false (by simp)

lemma pairwise_lineBoundsFrom (start index : ℕ) (afterReturn : Bool) (h : start ≤ index) (t : Text) :
    (lineBoundsFrom start index afterReturn t).Pairwise (fun a b => a.2 ≤ b.1) ∧
      ∀ bounds ∈ lineBoundsFrom start index afterReturn t, start ≤ bounds.1 := by
  induction t generalizing start index afterReturn with
  | nil =>
    unfold lineBoundsFrom
    split_ifs
    · simp
    · simp
  | cons c t ih =>
    unfold lineBoundsFrom
    split_ifs with hc hcr
    · obtain ⟨hpairs, hstarts⟩ := ih (index + 1) (index + 1) false le_rfl
      constructor
      · refine List.pairwise_cons.mpr ⟨fun bounds hbounds => ?_, hpairs⟩
        have hle := hstarts bounds hbounds
        dsimp only
        omega
      · rintro bounds (- | ⟨-, hbounds⟩)
        · exact le_rfl
        · have hle := hstarts bounds hbounds
          omega
    · obtain ⟨hpairs, hstarts⟩ := ih (index + 1) (index + 1) false le_rfl
      constructor
      · refine List.pairwise_cons.mpr ⟨fun bounds hbounds => ?_, hpairs⟩
        have hle := hstarts bounds hbounds
        dsimp only
        omega
      · rintro bounds (- | ⟨-, hbounds⟩)
        · exact le_rfl
        · have hle := hstarts bounds hbounds
          omega
    · exact ih start _ _ (by omega)

lemma lineBounds_le {t : Text} {i j : ℕ} {a b : ℕ × ℕ} (hij : i < j)
    (hi : (lineBounds t)[i]? = some a) (hj : (lineBounds t)[j]? = some b) : a.2 ≤ b.1 := by
  obtain ⟨hpairs, -⟩ := pairwise_lineBoundsFrom 0 0 false le_rfl t
  obtain ⟨hilt, rfl⟩ := List.getElem?_eq_some_iff.mp hi
  obtain ⟨hjlt, rfl⟩ := List.getElem?_eq_some_iff.mp hj
  exact List.pairwise_iff_getElem.mp hpairs i j hilt hjlt hij

end Utf8Text
