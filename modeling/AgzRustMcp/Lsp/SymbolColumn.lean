import AgzRustMcp.Foundation.Utf16Position

/-!
# Columns of symbols

`find_symbol_column` takes the first match in a line that has a character on one of its sides which
cannot be part of a word.  So a piece of a longer identifier may be taken, and a line that is the
symbol and nothing else is passed over (`findSymbolColumn_exact_iff`).
-/

namespace AgzRustMcp.Lsp

open Utf8Text Utf16Position
open String (utf8Len)

section

variable (isAlphanumeric : Char → Bool)

/-- A character of a word; `isAlphanumeric` is `char::is_alphanumeric`. -/
def wordChar (c : Char) : Bool := isAlphanumeric c || c == '_'

/-- The closure `is_word` of `find_symbol_column`. -/
def isWord : Option Char → Bool
  | none => true
  | some c => wordChar isAlphanumeric c

/-- `utf16_len`, a sum of 32 bits. -/
def utf16LenU32 (t : Text) : ℕ := utf16Len t % 2 ^ 32

/-- The loop of `find_symbol_column`, from an offset in bytes. -/
def findSymbolFrom (line symbol : Text) : ℕ → ℕ → Option ℕ
  | 0, _ => none
  | fuel + 1, offset =>
    match find? (dropBytes line offset) symbol with
    | none => none
    | some found =>
      let start := offset + found
      let stop := start + utf8Len symbol
      let before := (takeBytes line start).getLast?
      let after := (dropBytes line stop).head?
      if !isWord isAlphanumeric before || !isWord isAlphanumeric after then
        some (utf16LenU32 (takeBytes line start))
      else if utf8Len line ≤ stop then none
      else findSymbolFrom line symbol fuel stop

/-- `find_symbol_column`, with as many turns as there are characters. -/
def findSymbolColumn (line symbol : Text) : Option ℕ :=
  if symbol = [] then none else findSymbolFrom isAlphanumeric line symbol (line.length + 1) 0

/-! ## Whole words -/

def IsIdentifier (symbol : Text) : Prop := symbol ≠ [] ∧ ∀ c ∈ symbol, wordChar isAlphanumeric c = true

/-- There is no character, or one that is not of a word. -/
def Outside (c : Option Char) : Prop := ∀ d, c = some d → wordChar isAlphanumeric d = false

/-- What stands between two texts is a whole word. -/
def Whole (around : Text × Text) : Prop :=
  Outside isAlphanumeric around.1.getLast? ∧ Outside isAlphanumeric around.2.head?

/-- A character of a word is on exactly one of the sides. -/
def HalfWord (around : Text × Text) : Prop :=
  (isWord isAlphanumeric around.1.getLast? = false ∧ ¬ Outside isAlphanumeric around.2.head?) ∨
    (¬ Outside isAlphanumeric around.1.getLast? ∧ isWord isAlphanumeric around.2.head? = false)

def FirstWholeWord (line symbol : Text) (column : ℕ) : Prop :=
  ∃ around : Text × Text, line = around.1 ++ symbol ++ around.2 ∧ Whole isAlphanumeric around ∧
    column = utf16Len around.1 ∧
    ∀ other : Text × Text, line = other.1 ++ symbol ++ other.2 → Whole isAlphanumeric other →
      around.1.length ≤ other.1.length

end

/-- The matches of a symbol apart from each other, as their surroundings. -/
def matchesFrom (symbol : Text) : ℕ → Text → Text → List (Text × Text)
  | 0, _, _ => []
  | fuel + 1, front, rest =>
    match find? rest symbol with
    | none => []
    | some found =>
      let before := front ++ takeBytes rest found
      let after := dropBytes rest (found + utf8Len symbol)
      (before, after) :: matchesFrom symbol fuel (before ++ symbol) after

/-- `str::match_indices`, as what stands around the matches. -/
def matchesOf (line symbol : Text) : List (Text × Text) := matchesFrom symbol (line.length + 1) [] line

section

variable {isAlphanumeric : Char → Bool} {line symbol front rest : Text} {around other : Text × Text} {fuel : ℕ}

lemma find?_parts {found : ℕ} (h : find? rest symbol = some found) :
    ∃ skipped after, rest = skipped ++ symbol ++ after ∧ takeBytes rest found = skipped ∧
      dropBytes rest (found + utf8Len symbol) = after ∧ found = utf8Len skipped ∧
        ∀ mid behind, rest = mid ++ symbol ++ behind → ∃ more, mid = skipped ++ more := by
  obtain ⟨⟨skipped, after, rfl, rfl⟩, hmin⟩ := find?_eq_some_iff.mp h
  refine ⟨skipped, after, rfl, ?_, ?_, rfl, ?_⟩
  · rw [List.append_assoc]
    exact takeBytes_append_left skipped (symbol ++ after)
  · rw [← String.utf8Len_append]
    exact dropBytes_append_left (skipped ++ symbol) after
  · intro mid behind hmid
    have hle := hmin (utf8Len mid) ⟨mid, behind, hmid, rfl⟩
    rw [List.append_assoc, List.append_assoc] at hmid
    obtain ⟨more, hmore, -⟩ := exists_append_of_utf8Len_le hmid hle
    exact ⟨more, hmore⟩

lemma of_mem_matchesFrom (h : around ∈ matchesFrom symbol fuel front rest) :
    front ++ rest = around.1 ++ symbol ++ around.2 ∧ front.length ≤ around.1.length := by
  induction fuel generalizing front rest with
  | zero => exact absurd h List.not_mem_nil
  | succ fuel ih =>
    rw [matchesFrom] at h
    cases hfind : find? rest symbol with
    | none => simp [hfind] at h
    | some found =>
      obtain ⟨skipped, after, hrest, htake, hdrop, -, -⟩ := find?_parts hfind
      simp only [hfind, htake, hdrop, List.mem_cons] at h
      rcases h with rfl | h
      · rw [hrest]
        exact ⟨by simp, by simp⟩
      · obtain ⟨hline, hlen⟩ := ih h
        rw [hrest, ← hline]
        refine ⟨by simp, le_trans ?_ hlen⟩
        rw [List.length_append, List.length_append]
        omega

lemma pairwise_matchesFrom (hne : symbol ≠ []) :
    (matchesFrom symbol fuel front rest).Pairwise fun a b => a.1.length < b.1.length := by
  induction fuel generalizing front rest with
  | zero => exact List.Pairwise.nil
  | succ fuel ih =>
    rw [matchesFrom]
    cases hfind : find? rest symbol with
    | none => exact List.Pairwise.nil
    | some found =>
      refine List.Pairwise.cons (fun other hother => ?_) ih
      have hlen := (of_mem_matchesFrom hother).2
      rw [List.length_append] at hlen
      have := List.length_pos_iff.mpr hne
      dsimp only
      omega

lemma mem_matchesFrom_of_whole (hidentifier : IsIdentifier isAlphanumeric symbol)
    (hwhole : Whole isAlphanumeric around) (hline : front ++ rest = around.1 ++ symbol ++ around.2)
    (hfront : ∃ mid, around.1 = front ++ mid) (hfuel : rest.length < fuel) :
    around ∈ matchesFrom symbol fuel front rest := by
  induction fuel generalizing front rest with
  | zero => omega
  | succ fuel ih =>
    obtain ⟨before, behind⟩ := around
    obtain ⟨mid, rfl⟩ := hfront
    have hrest : rest = mid ++ symbol ++ behind := by
      dsimp only at hline
      rw [List.append_assoc, List.append_assoc] at hline
      rw [List.append_cancel_left hline, List.append_assoc]
    rw [matchesFrom]
    cases hfind : find? rest symbol with
    | none => exact absurd ⟨mid, behind, hrest, rfl⟩ (find?_eq_none_iff.mp hfind (utf8Len mid))
    | some found =>
      obtain ⟨skipped, after, hparts, htake, hdrop, -, hfirst⟩ := find?_parts hfind
      simp only [htake, hdrop, List.mem_cons]
      obtain ⟨more, rfl⟩ := hfirst mid behind hrest
      rw [hparts, List.append_assoc, List.append_assoc, List.append_assoc] at hrest
      have hsuffix := List.append_cancel_left hrest
      by_cases hmore : more = []
      · left
        subst hmore
        rw [List.nil_append] at hsuffix
        rw [List.append_nil, List.append_cancel_left hsuffix]
      · right
        -- The first match ends before the word.
        have hends : ∃ gap, more = symbol ++ gap := by
          rcases List.append_eq_append_iff.mp hsuffix with ⟨gap, hgap, -⟩ | ⟨inside, hinside, hoverlap⟩
          · exact ⟨gap, hgap⟩
          · have hlast : more.getLast hmore ∈ symbol := by
              rw [hinside]
              exact List.mem_append_left _ (List.getLast_mem hmore)
            have hword := hidentifier.2 _ hlast
            have hout := hwhole.1 (more.getLast hmore) (by
              dsimp only
              rw [← List.append_assoc, List.getLast?_append_of_ne_nil _ hmore, List.getLast?_eq_some_getLast hmore])
            rw [hword] at hout
            exact absurd hout (by decide)
        obtain ⟨gap, rfl⟩ := hends
        refine ih ?_ ⟨gap, by simp⟩ ?_
        · rw [List.append_assoc] at hsuffix
          rw [List.append_cancel_left hsuffix]
          simp
        · rw [hparts, List.length_append, List.length_append] at hfuel
          have := List.length_pos_iff.mpr hidentifier.1
          omega

/-! ## What the search takes -/

/-- The condition of `find_symbol_column` for a match. -/
def accepted (isAlphanumeric : Char → Bool) (around : Text × Text) : Bool :=
  !isWord isAlphanumeric around.1.getLast? || !isWord isAlphanumeric around.2.head?

lemma matchesFrom_nil (hne : symbol ≠ []) (fuel : ℕ) (front : Text) : matchesFrom symbol fuel front [] = [] := by
  cases fuel with
  | zero => rfl
  | succ fuel => simp [matchesFrom, find?, hne]

lemma findSymbolFrom_eq (hne : symbol ≠ []) (hline : line = front ++ rest) :
    findSymbolFrom isAlphanumeric line symbol fuel (utf8Len front) =
      ((matchesFrom symbol fuel front rest).find? (accepted isAlphanumeric)).map
        fun around => utf16LenU32 around.1 := by
  induction fuel generalizing front rest with
  | zero => rfl
  | succ fuel ih =>
    have hdropFront : dropBytes line (utf8Len front) = rest := by rw [hline, dropBytes_append_left]
    rw [findSymbolFrom, matchesFrom, hdropFront]
    cases hfind : find? rest symbol with
    | none => rfl
    | some found =>
      obtain ⟨skipped, after, hparts, htake, hdrop, hfound, -⟩ := find?_parts hfind
      have hstart : utf8Len front + found = utf8Len (front ++ skipped) := by
        rw [hfound, String.utf8Len_append]
      have hstop : utf8Len (front ++ skipped) + utf8Len symbol = utf8Len (front ++ skipped ++ symbol) :=
        (String.utf8Len_append _ _).symm
      have hlineParts : line = front ++ skipped ++ (symbol ++ after) := by
        rw [hline, hparts]
        simp
      have hbefore : takeBytes line (utf8Len (front ++ skipped)) = front ++ skipped := by
        rw [hlineParts, takeBytes_append_left]
      have hafter : dropBytes line (utf8Len (front ++ skipped ++ symbol)) = after := by
        rw [hlineParts, ← List.append_assoc, dropBytes_append_left]
      simp only [htake, hdrop, hstop, hstart, hbefore, hafter]
      rw [List.find?_cons]
      by_cases haccepted : accepted isAlphanumeric (front ++ skipped, after) = true
      · have hcondition : (!isWord isAlphanumeric (front ++ skipped).getLast? ||
            !isWord isAlphanumeric after.head?) = true := haccepted
        rw [haccepted, if_pos hcondition]
        rfl
      · rw [Bool.not_eq_true] at haccepted
        have hcondition : ¬ ((!isWord isAlphanumeric (front ++ skipped).getLast? ||
            !isWord isAlphanumeric after.head?) = true) := by
          rw [Bool.not_eq_true]
          exact haccepted
        rw [haccepted, if_neg hcondition]
        dsimp only
        split_ifs with hend
        · have hnothing : after = [] := by
            rw [hlineParts, ← List.append_assoc, String.utf8Len_append] at hend
            exact String.utf8Len_eq_zero.mp (by omega)
          rw [hnothing, matchesFrom_nil hne]
          rfl
        · exact ih (by rw [hlineParts]; simp)

lemma accepted_of_whole (hwhole : Whole isAlphanumeric around) (hline : line = around.1 ++ symbol ++ around.2)
    (hne : line ≠ symbol) : accepted isAlphanumeric around = true := by
  obtain ⟨before, after⟩ := around
  obtain ⟨hbefore, hafter⟩ := hwhole
  unfold accepted
  dsimp only at hbefore hafter hline ⊢
  cases hlast : before.getLast? with
  | some c => simp [isWord, hbefore c hlast]
  | none =>
    cases hhead : after.head? with
    | some c => simp [isWord, hafter c hhead]
    | none =>
      rw [List.getLast?_eq_none_iff.mp hlast, List.head?_eq_none_iff.mp hhead] at hline
      exact absurd (by simpa using hline) hne

lemma halfWord_of_accepted (haccepted : accepted isAlphanumeric around = true)
    (hwhole : ¬ Whole isAlphanumeric around) : HalfWord isAlphanumeric around := by
  have houtside : ∀ c : Option Char, isWord isAlphanumeric c = false → Outside isAlphanumeric c := by
    intro c hc d hd
    rw [hd] at hc
    exact hc
  unfold accepted at haccepted
  rw [Bool.or_eq_true, Bool.not_eq_true', Bool.not_eq_true'] at haccepted
  unfold Whole at hwhole
  unfold HalfWord
  rcases haccepted with hbefore | hafter
  · have := houtside _ hbefore
    tauto
  · have := houtside _ hafter
    tauto

lemma accepted_of_halfWord (h : HalfWord isAlphanumeric around) : accepted isAlphanumeric around = true := by
  unfold accepted
  rw [Bool.or_eq_true, Bool.not_eq_true', Bool.not_eq_true']
  exact h.imp And.left And.right

lemma eq_or_lt_of_find? {matched : List (Text × Text)}
    (hpairwise : matched.Pairwise fun a b => a.1.length < b.1.length)
    (hfind : matched.find? (accepted isAlphanumeric) = some around) (hmem : other ∈ matched)
    (haccepted : accepted isAlphanumeric other = true) : other = around ∨ around.1.length < other.1.length := by
  obtain ⟨-, before, behind, rfl, hbefore⟩ := List.find?_eq_some_iff_append.mp hfind
  rcases List.mem_append.mp hmem with hmem | hmem
  · have hnot := hbefore other hmem
    rw [haccepted] at hnot
    exact absurd hnot (by decide)
  · rcases List.mem_cons.mp hmem with rfl | hmem
    · exact Or.inl rfl
    · exact Or.inr ((List.pairwise_cons.mp (List.pairwise_append.mp hpairwise).2.1).1 other hmem)

lemma exists_append_of_le (hline : line = around.1 ++ symbol ++ around.2)
    (hother : line = other.1 ++ symbol ++ other.2) (hle : around.1.length ≤ other.1.length) :
    ∃ more, other.1 = around.1 ++ more := by
  have hshort : around.1 <+: line := by
    rw [hline, List.append_assoc]
    exact List.prefix_append _ _
  have hlong : other.1 <+: line := by
    rw [hother, List.append_assoc]
    exact List.prefix_append _ _
  obtain ⟨more, hmore⟩ := List.prefix_of_prefix_length_le hshort hlong hle
  exact ⟨more, hmore.symm⟩

lemma utf16Len_lt_of_lt (hline : line = around.1 ++ symbol ++ around.2)
    (hother : line = other.1 ++ symbol ++ other.2) (hlt : around.1.length < other.1.length) :
    utf16Len around.1 < utf16Len other.1 := by
  obtain ⟨more, hmore⟩ := exists_append_of_le hline hother hlt.le
  rw [hmore, utf16Len_append]
  cases more with
  | nil =>
    rw [hmore, List.append_nil] at hlt
    exact absurd hlt (lt_irrefl _)
  | cons c more =>
    have := utf16Size_pos c
    rw [utf16Len_cons]
    omega

lemma not_whole_of_halfWord (h : HalfWord isAlphanumeric around) : ¬ Whole isAlphanumeric around := by
  rintro ⟨hbefore, hafter⟩
  rcases h with h | h
  · exact h.2 hafter
  · exact h.1 hbefore

end

/-! ## When the column is the one of a whole word -/

/-- A column is found exactly when there is a whole word: its first one. -/
def ColumnOfWholeWord (isAlphanumeric : Char → Bool) (line symbol : Text) : Prop :=
  ∀ column, findSymbolColumn isAlphanumeric line symbol = some column ↔
    FirstWholeWord isAlphanumeric line symbol column

/-- No half word is matched before the first whole word. -/
def WordsFirst (isAlphanumeric : Char → Bool) (line symbol : Text) : Prop :=
  line ≠ symbol ∧ (∀ around ∈ matchesOf line symbol, HalfWord isAlphanumeric around →
      ∃ earlier ∈ matchesOf line symbol, Whole isAlphanumeric earlier ∧ earlier.1.length < around.1.length) ∧
    ∀ column, FirstWholeWord isAlphanumeric line symbol column → column < 2 ^ 32

/-- The column is that of the first whole word exactly when half words come later. -/
theorem findSymbolColumn_exact_iff (isAlphanumeric : Char → Bool) (line symbol : Text)
    (hidentifier : IsIdentifier isAlphanumeric symbol) :
    ColumnOfWholeWord isAlphanumeric line symbol ↔ WordsFirst isAlphanumeric line symbol := by
  have hfound : findSymbolColumn isAlphanumeric line symbol =
      ((matchesOf line symbol).find? (accepted isAlphanumeric)).map fun around => utf16LenU32 around.1 := by
    unfold findSymbolColumn matchesOf
    rw [if_neg hidentifier.1]
    change findSymbolFrom isAlphanumeric line symbol (line.length + 1) (utf8Len []) = _
    exact findSymbolFrom_eq hidentifier.1 rfl
  have hpairwise : (matchesOf line symbol).Pairwise fun a b => a.1.length < b.1.length :=
    pairwise_matchesFrom hidentifier.1
  have hline : ∀ around ∈ matchesOf line symbol, line = around.1 ++ symbol ++ around.2 :=
    fun around h => (of_mem_matchesFrom h).1
  have hwholeMem : ∀ around : Text × Text, line = around.1 ++ symbol ++ around.2 →
      Whole isAlphanumeric around → around ∈ matchesOf line symbol := fun around h hwhole =>
    mem_matchesFrom_of_whole hidentifier hwhole h ⟨around.1, rfl⟩ (Nat.lt_succ_self _)
  constructor
  · intro h
    have hne : line ≠ symbol := by
      rintro rfl
      have hword : FirstWholeWord isAlphanumeric line line 0 :=
        ⟨([], []), by simp, ⟨by simp [Outside], by simp [Outside]⟩, rfl, fun _ _ _ => Nat.zero_le _⟩
      have hsome := (h 0).mpr hword
      rw [hfound, Option.map_eq_some_iff] at hsome
      obtain ⟨around, hfind, -⟩ := hsome
      -- The only match is the whole line, which has no character beside it.
      have hsame := hline around (List.mem_of_find?_eq_some hfind)
      have hlen := congrArg List.length hsame
      simp only [List.length_append] at hlen
      have hbefore : around.1 = [] := List.eq_nil_of_length_eq_zero (by omega)
      have hafter : around.2 = [] := List.eq_nil_of_length_eq_zero (by omega)
      have haccepted := List.find?_some hfind
      simp [accepted, hbefore, hafter, isWord] at haccepted
    refine ⟨hne, fun around hmem hhalf => ?_, fun column hfirst => ?_⟩
    · by_contra hnone
      push Not at hnone
      obtain ⟨first, hfirst⟩ : ∃ first, (matchesOf line symbol).find? (accepted isAlphanumeric) = some first := by
        rw [← Option.isSome_iff_exists, List.find?_isSome]
        exact ⟨around, hmem, accepted_of_halfWord hhalf⟩
      have hfirstMem := List.mem_of_find?_eq_some hfirst
      -- What is found is no whole word, so the first whole word comes later and has a larger column.
      have hfirstHalf : ¬ Whole isAlphanumeric first := by
        intro hwhole
        rcases eq_or_lt_of_find? hpairwise hfirst hmem (accepted_of_halfWord hhalf) with rfl | hlt
        · exact not_whole_of_halfWord hhalf hwhole
        · exact absurd hlt (not_lt.mpr (hnone first hfirstMem hwhole))
      obtain ⟨word, hword, hwordWhole, hcolumn, -⟩ := (h (utf16LenU32 first.1)).mp (by rw [hfound, hfirst]; rfl)
      have hwordAccepted := accepted_of_whole hwordWhole hword hne
      rcases eq_or_lt_of_find? hpairwise hfirst (hwholeMem word hword hwordWhole) hwordAccepted with rfl | hlt
      · exact hfirstHalf hwordWhole
      · have hunits := utf16Len_lt_of_lt (hline first hfirstMem) hword hlt
        have hmod : utf16LenU32 first.1 ≤ utf16Len first.1 := Nat.mod_le _ _
        omega
    · have hsome := (h column).mpr hfirst
      rw [hfound, Option.map_eq_some_iff] at hsome
      obtain ⟨around, -, rfl⟩ := hsome
      exact Nat.mod_lt _ (by norm_num)
  · rintro ⟨hne, hhalf, hbound⟩ column
    rw [hfound]
    cases hfind : (matchesOf line symbol).find? (accepted isAlphanumeric) with
    | none =>
      constructor
      · intro h
        exact absurd h (by simp)
      · rintro ⟨word, hword, hwhole, -, -⟩
        have hnone := List.find?_eq_none.mp hfind word (hwholeMem word hword hwhole)
        exact absurd (accepted_of_whole hwhole hword hne) hnone
    | some first =>
      have hfirstMem := List.mem_of_find?_eq_some hfind
      have hleast : ∀ other : Text × Text, line = other.1 ++ symbol ++ other.2 →
          Whole isAlphanumeric other → first.1.length ≤ other.1.length := by
        intro other hother hwhole
        rcases eq_or_lt_of_find? hpairwise hfind (hwholeMem other hother hwhole)
          (accepted_of_whole hwhole hother hne) with rfl | hlt
        · exact le_rfl
        · exact hlt.le
      have hwhole : Whole isAlphanumeric first := by
        by_contra hnot
        obtain ⟨earlier, hearlier, hearlierWhole, hlt⟩ := hhalf first hfirstMem
          (halfWord_of_accepted (List.find?_some hfind) hnot)
        exact absurd (hleast earlier (hline earlier hearlier) hearlierWhole) (not_le.mpr hlt)
      have hword : FirstWholeWord isAlphanumeric line symbol (utf16Len first.1) :=
        ⟨first, hline first hfirstMem, hwhole, rfl, hleast⟩
      have hunits : utf16LenU32 first.1 = utf16Len first.1 := Nat.mod_eq_of_lt (hbound _ hword)
      rw [Option.map_some, Option.some.injEq, hunits]
      constructor
      · rintro rfl
        exact hword
      · rintro ⟨other, hother, hotherWhole, rfl, hotherLeast⟩
        have hle := hleast other hother hotherWhole
        have hge := hotherLeast first (hline first hfirstMem) hwhole
        obtain ⟨more, hmore⟩ := exists_append_of_le (hline first hfirstMem) hother hle
        have hlen := congrArg List.length hmore
        rw [List.length_append] at hlen
        rw [hmore, List.eq_nil_of_length_eq_zero (l := more) (by omega), List.append_nil]

lemma isIdentifier_foo : IsIdentifier Char.isAlphanum "foo".toList :=
  ⟨by decide, List.all_eq_true.mp (by decide +kernel)⟩

theorem findSymbolColumn_exact_let :
    ColumnOfWholeWord Char.isAlphanum "let foo = foobar;".toList "foo".toList := by
  refine (findSymbolColumn_exact_iff Char.isAlphanum "let foo = foobar;".toList "foo".toList
    isIdentifier_foo).mpr ⟨by decide +kernel, ?_, ?_⟩
  · have hmatches : matchesOf "let foo = foobar;".toList "foo".toList =
        [("let ".toList, " = foobar;".toList), ("let foo = ".toList, "bar;".toList)] := by decide +kernel
    have hwhole : Whole Char.isAlphanum ("let ".toList, " = foobar;".toList) := by
      refine ⟨?_, ?_⟩
      · rintro d hd
        obtain rfl : ' ' = d := by simpa using hd
        decide
      · rintro d hd
        obtain rfl : ' ' = d := by simpa using hd
        decide
    rw [hmatches]
    intro around hmem hhalf
    rcases List.mem_cons.mp hmem with rfl | hmem
    · exact absurd hwhole (not_whole_of_halfWord hhalf)
    · rw [List.mem_singleton.mp hmem]
      exact ⟨_, List.mem_cons_self, hwhole, by decide⟩
  · rintro column ⟨around, hline, -, rfl, -⟩
    have hunits := congrArg utf16Len hline
    rw [utf16Len_append, utf16Len_append] at hunits
    have hall : utf16Len "let foo = foobar;".toList = 17 := by decide +kernel
    omega

/-- The column of a longer identifier is taken for the one of its first part. -/
theorem column_of_longer_identifier :
    ¬ ColumnOfWholeWord Char.isAlphanum "let foobar = 1;".toList "foo".toList := by
  intro h
  have hfound : findSymbolColumn Char.isAlphanum "let foobar = 1;".toList "foo".toList = some 4 := by
    decide +kernel
  obtain ⟨around, hline, hwhole, -, -⟩ := (h 4).mp hfound
  have hmatches : matchesOf "let foobar = 1;".toList "foo".toList = [("let ".toList, "bar = 1;".toList)] := by
    decide +kernel
  have hmem : around ∈ matchesOf "let foobar = 1;".toList "foo".toList :=
    mem_matchesFrom_of_whole isIdentifier_foo hwhole hline ⟨around.1, rfl⟩ (Nat.lt_succ_self _)
  rw [hmatches, List.mem_singleton] at hmem
  have hafter := hwhole.2 'b' (by rw [hmem]; rfl)
  exact absurd hafter (by decide)

end AgzRustMcp.Lsp
