import AgzRustMcp.Foundation.Utf8Text

/-!
# Positions by line and UTF-16 column

A position in a text is a line, counted by line feeds, and a column in UTF-16 code units.  The
position of a prefix leads back to it (`prefixAt_positionOf`), and replacing between two such
positions replaces what stands there (`replaceBetween_positionOf`).
-/

namespace Utf16Position

open Utf8Text

/-- A line and a column in UTF-16 code units. -/
structure Position where
  line : ℕ
  character : ℕ
  deriving DecidableEq

/-- The number of UTF-16 code units of a character. -/
def utf16Size (c : Char) : ℕ := if c.toNat < 0x10000 then 1 else 2

/-- The number of UTF-16 code units of a text. -/
def utf16Len (t : Text) : ℕ := (t.map utf16Size).sum

/-- The position behind one more character. -/
def advance (p : Position) (c : Char) : Position :=
  if c = '\n' then ⟨p.line + 1, 0⟩ else ⟨p.line, p.character + utf16Size c⟩

def positionFrom (p : Position) (t : Text) : Position := t.foldl advance p

def positionOf (t : Text) : Position := positionFrom ⟨0, 0⟩ t

/-- The part of a text before a position, or before the end of its line. -/
def prefixAt : Text → ℕ → ℕ → Text
  | [], _, _ => []
  | c :: t, line + 1, character =>
    if c = '\n' then c :: prefixAt t line character else c :: prefixAt t (line + 1) character
  | c :: t, 0, character =>
    if character = 0 ∨ c = '\n' then [] else c :: prefixAt t 0 (character - utf16Size c)

/-- Replaces the part of a text between two positions. -/
def replaceBetween (t : Text) (start stop : Position) (new : Text) : Text :=
  t.take (prefixAt t start.line start.character).length ++ new ++ t.drop (prefixAt t stop.line stop.character).length

lemma utf16Size_pos (c : Char) : 0 < utf16Size c := by
  unfold utf16Size
  split <;> decide

@[simp] lemma utf16Len_cons (c : Char) (t : Text) : utf16Len (c :: t) = utf16Size c + utf16Len t := List.sum_cons

lemma utf16Len_append (s t : Text) : utf16Len (s ++ t) = utf16Len s + utf16Len t := by
  simp [utf16Len]

@[simp] lemma positionFrom_cons (p : Position) (c : Char) (t : Text) :
    positionFrom p (c :: t) = positionFrom (advance p c) t := rfl

lemma line_le_positionFrom (p : Position) (t : Text) : p.line ≤ (positionFrom p t).line := by
  induction t generalizing p with
  | nil => exact le_rfl
  | cons c t ih =>
    refine le_trans ?_ (ih (advance p c))
    unfold advance
    split
    · exact Nat.le_succ _
    · exact le_rfl

lemma character_le_positionFrom {p : Position} {t : Text} (h : (positionFrom p t).line = p.line) :
    p.character ≤ (positionFrom p t).character := by
  induction t generalizing p with
  | nil => exact le_rfl
  | cons c t ih =>
    rw [positionFrom_cons] at h ⊢
    have hline := line_le_positionFrom (advance p c) t
    by_cases hc : c = '\n'
    · have hadvance : advance p c = ⟨p.line + 1, 0⟩ := if_pos hc
      rw [hadvance] at h hline
      dsimp only at hline
      omega
    · have hadvance : advance p c = ⟨p.line, p.character + utf16Size c⟩ := if_neg hc
      rw [hadvance] at h ⊢
      exact (Nat.le_add_right _ _).trans (ih h)

lemma prefixAt_positionFrom (p : Position) (pre post : Text) :
    prefixAt (pre ++ post) ((positionFrom p pre).line - p.line)
      (if (positionFrom p pre).line = p.line then (positionFrom p pre).character - p.character
        else (positionFrom p pre).character) = pre := by
  induction pre generalizing p with
  | nil =>
    cases post with
    | nil => rfl
    | cons c post => simp [positionFrom, prefixAt]
  | cons c pre ih =>
    rw [positionFrom_cons, List.cons_append]
    have hrec := ih (advance p c)
    have hline := line_le_positionFrom (advance p c) pre
    have hcol := character_le_positionFrom (p := advance p c) (t := pre)
    have hsize := utf16Size_pos c
    generalize hq : positionFrom (advance p c) pre = q at hrec hline hcol ⊢
    by_cases hc : c = '\n'
    · -- A line feed: the rest is counted from the start of the next line.
      have hadvance : advance p c = ⟨p.line + 1, 0⟩ := if_pos hc
      rw [hadvance] at hrec hline
      dsimp only at hrec hline
      have hnext : q.line - p.line = (q.line - (p.line + 1)) + 1 := by omega
      rw [if_neg (by omega), hnext, prefixAt, if_pos hc]
      congr 1
      rw [Nat.sub_zero, ite_self] at hrec
      exact hrec
    · have hadvance : advance p c = ⟨p.line, p.character + utf16Size c⟩ := if_neg hc
      rw [hadvance] at hrec hline hcol
      dsimp only at hrec hline hcol
      by_cases hsame : q.line = p.line
      · rw [if_pos hsame] at hrec ⊢
        rw [hsame, Nat.sub_self] at hrec ⊢
        have hle := hcol hsame
        rw [prefixAt, if_neg (by simp only [not_or]; exact ⟨by omega, hc⟩), Nat.sub_sub]
        rw [hrec]
      · rw [if_neg hsame] at hrec ⊢
        obtain ⟨k, hk⟩ : ∃ k, q.line - p.line = k + 1 := ⟨q.line - p.line - 1, by omega⟩
        rw [hk] at hrec ⊢
        rw [prefixAt, if_neg hc, hrec]

lemma prefixAt_positionOf (pre post : Text) :
    prefixAt (pre ++ post) (positionOf pre).line (positionOf pre).character = pre := by
  have h := prefixAt_positionFrom ⟨0, 0⟩ pre post
  simpa [positionOf] using h

lemma replaceBetween_positionOf (pre mid post new : Text) :
    replaceBetween (pre ++ mid ++ post) (positionOf pre) (positionOf (pre ++ mid)) new = pre ++ new ++ post := by
  have hstart := prefixAt_positionOf pre (mid ++ post)
  have hstop := prefixAt_positionOf (pre ++ mid) post
  rw [← List.append_assoc] at hstart
  rw [replaceBetween, hstart, hstop, List.drop_left, List.append_assoc pre mid post, List.take_left]

end Utf16Position
