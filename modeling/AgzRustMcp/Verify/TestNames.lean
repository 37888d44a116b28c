import AgzRustMcp.Verify.TestLines

/-!
# Requested test names

A requested name stands for the tests whose path is the name or ends in it behind `::`, but the
reader compares it with the line, decorations included.  `shows_iff` says what it takes a line for,
and `exact_names_iff` when the requested test is reported as it should be.
-/

namespace AgzRustMcp.Verify

open Utf8Text TextScan

/-- A path is a name, or ends in it behind two colons. -/
def NameEnds (path name : Text) : Prop := path = name ∨ "::".toList ++ name <:+ path

lemma testNameMatches_iff {observed requested : Text} :
    testNameMatches observed requested = true ↔ NameEnds observed requested := by
  unfold testNameMatches NameEnds
  rw [Bool.or_eq_true, decide_eq_true_eq]
  refine or_congr_right ?_
  unfold stripSuffix
  split_ifs with hsuffix
  · rw [Option.any_some, List.isSuffixOf_iff_suffix]
    rw [List.isSuffixOf_iff_suffix] at hsuffix
    obtain ⟨front, rfl⟩ := hsuffix
    rw [List.length_append, Nat.add_sub_cancel, List.take_left' rfl]
    constructor
    · rintro ⟨start, rfl⟩
      exact ⟨start, by rw [List.append_assoc]⟩
    · rintro ⟨start, hstart⟩
      rw [← List.append_assoc] at hstart
      exact ⟨start, List.append_cancel_right hstart⟩
  · refine iff_of_false (by simp) fun hlong => hsuffix ?_
    rw [List.isSuffixOf_iff_suffix]
    exact (List.suffix_append _ _).trans hlong

lemma nameEnds_marked_iff {path mark name : Text} (hmark : ':' ∉ mark) :
    NameEnds (path ++ mark) name ↔ ∃ s, name = s ++ mark ∧ NameEnds path s := by
  constructor
  · rintro (rfl | ⟨front, hfront⟩)
    · exact ⟨path, rfl, Or.inl rfl⟩
    · rw [← List.append_assoc] at hfront
      rcases List.append_eq_append_iff.mp hfront with ⟨mid, hpath, rfl⟩ | ⟨mid, hcolons, rfl⟩
      · exact ⟨mid, rfl, Or.inr ⟨front, by rw [hpath, List.append_assoc]⟩⟩
      · obtain hnil | ⟨start, c, hmid⟩ := List.eq_nil_or_concat' mid
        · rw [hnil, List.append_nil] at hcolons
          exact ⟨[], by rw [hnil, List.nil_append, List.nil_append], Or.inr ⟨front, by rw [List.append_nil, hcolons]⟩⟩
        · -- The last of the colons would stand in the mark.
          exfalso
          have hlast := congrArg List.getLast? hcolons
          rw [hmid, ← List.append_assoc, List.getLast?_concat,
            show front ++ "::".toList = (front ++ [':']) ++ [':'] by rw [List.append_assoc]; rfl,
            List.getLast?_concat] at hlast
          refine hmark (List.mem_append_left _ ?_)
          rw [hmid, ← Option.some.inj hlast]
          exact List.mem_append_right _ List.mem_cons_self
  · rintro ⟨s, rfl, rfl | ⟨front, rfl⟩⟩
    · exact Or.inl rfl
    · exact Or.inr ⟨front, by simp only [List.append_assoc]⟩

lemma nameEnds_words_iff {binary path name : Text} : NameEnds (binary ++ ' ' :: path) name ↔
      "::".toList ++ name <:+ path ∨ ∃ s, name = s ++ ' ' :: path ∧ NameEnds binary s := by
  constructor
  · rintro (rfl | ⟨front, hfront⟩)
    · exact Or.inr ⟨binary, rfl, Or.inl rfl⟩
    · rw [← List.append_assoc] at hfront
      rcases List.append_eq_append_iff.mp hfront with ⟨mid, hbinary, rfl⟩ | ⟨mid, hcolons, hpath⟩
      · exact Or.inr ⟨mid, rfl, Or.inr ⟨front, by rw [hbinary, List.append_assoc]⟩⟩
      · cases mid with
        | nil =>
          rw [List.append_nil] at hcolons
          exact Or.inr ⟨[], hpath.symm, Or.inr ⟨front, by rw [List.append_nil, hcolons]⟩⟩
        | cons c mid =>
          left
          obtain ⟨rfl, rfl⟩ := List.cons.inj hpath
          rw [List.append_cons] at hcolons
          rcases List.append_eq_append_iff.mp hcolons with ⟨rest, hrest, hmid⟩ | ⟨rest, -, rfl⟩
          · -- The blank would be one of the colons.
            obtain hnil | ⟨start, c, hlast⟩ := List.eq_nil_or_concat' rest
            · rw [hnil, List.nil_append] at hmid
              rw [← hmid]
              exact List.suffix_refl _
            · exfalso
              rw [hlast, ← List.append_assoc] at hrest
              have hblank : ' ' = c := by
                have hends := congrArg List.getLast? hrest
                rw [List.getLast?_concat, List.getLast?_concat] at hends
                exact Option.some.inj hends
              have hmem : ' ' ∈ "::".toList := by
                rw [hmid, hlast, ← hblank]
                exact List.mem_append_left _ (List.mem_append_right _ List.mem_cons_self)
              exact absurd hmem (by decide)
          · exact ⟨rest, (List.append_assoc rest _ name).symm⟩
  · rintro (⟨front, rfl⟩ | ⟨s, rfl, rfl | ⟨front, rfl⟩⟩)
    · exact Or.inr ⟨binary ++ ' ' :: front, by simp only [List.append_assoc, List.cons_append]⟩
    · exact Or.inl rfl
    · exact Or.inr ⟨front, by simp only [List.append_assoc]⟩

/-! ## Lines about a test -/

/-- How a result line of libtest reports its test. -/
def TestEnd.kind : TestEnd → NameKind
  | .ok => .executed
  | .failed => .executed
  | .ignored _ => .ignored

/-- A line reports a test with the requested name. -/
def OutputLine.IsFor (requested : Text) (kind : NameKind) : OutputLine → Prop
  | .libtest path _ ended => ended.kind = kind ∧ NameEnds path.text requested
  | .nextest _ _ _ _ _ path => kind = .executed ∧ NameEnds path.text requested
  | .libtestSummary _ _ => False
  | .nextestSummary _ _ => False

/-- A decoration hides the test: a marker, a reason, or a binary. -/
def OutputLine.Hidden (requested : Text) : OutputLine → Prop
  | .libtest _ shouldPanic ended => shouldPanic = true ∨ ∃ reason, ended = .ignored (some reason)
  | .nextest _ _ _ _ _ path => path.text = requested
  | .libtestSummary _ _ => False
  | .nextestSummary _ _ => False

/-- A decoration makes a line look like one about the name. -/
def OutputLine.Deceives (requested : Text) (kind : NameKind) : OutputLine → Prop
  | .libtest path shouldPanic ended =>
    (shouldPanic = true ∧ (∀ reason, ended ≠ .ignored (some reason)) ∧ ended.kind = kind ∧
      ∃ s, requested = s ++ " - should panic".toList ∧ NameEnds path.text s) ∨
    ∃ reason front back, ended = .ignored (some reason) ∧ ended.inner = some (front, back) ∧
      outcomeKind (trim back) = some kind ∧
      NameEnds (trim (path.text ++ panicMark shouldPanic ++ " ... ".toList ++ front)) requested
  | .nextest _ _ _ _ binary path =>
    kind = .executed ∧ ∃ s, requested = s ++ ' ' :: path.text ∧ NameEnds binary.text s
  | .libtestSummary _ _ => False
  | .nextestSummary _ _ => False

/-- A line is read as one about the requested name. -/
def OutputLine.Shows (requested : Text) (kind : NameKind) (line : OutputLine) : Prop :=
  ∃ name, line.reads = some (name, kind) ∧ NameEnds name requested

section

variable {requested : Text} {kind : NameKind}

lemma outcomeKind_of_inner_eq_none {ended : TestEnd} : ((∀ reason, ended ≠ .ignored (some reason)) →
      ended.inner = none ∧ outcomeKind (trim (dropEndWhile isWhitespace ended.text)) = some ended.kind) ∧
    ∀ reason, ended = .ignored (some reason) → outcomeKind (trim (dropEndWhile isWhitespace ended.text)) = none := by
  constructor
  · intro hplain
    cases ended with
    | ok => exact ⟨by decide, by decide⟩
    | failed => exact ⟨by decide, by decide⟩
    | ignored reason =>
      cases reason with
      | none => exact ⟨by decide, by decide⟩
      | some reason => exact absurd rfl (hplain reason)
  · rintro reason rfl
    -- The comma stays.
    have hcomma : ∃ rest, trim (dropEndWhile isWhitespace (TestEnd.ignored (some reason)).text) =
        "ignored,".toList ++ rest := by
      have hdrop := fun rest => dropEndWhile_append (p := isWhitespace) (c := ',') (by decide)
        "ignored".toList rest
      have htext : (TestEnd.ignored (some reason)).text = "ignored".toList ++ [','] ++ ' ' :: reason.text := rfl
      have htrim : ∀ rest, trim ("ignored".toList ++ [','] ++ rest) =
          dropEndWhile isWhitespace ("ignored".toList ++ [','] ++ rest) := fun _ => rfl
      rw [htext, hdrop, htrim, hdrop]
      exact ⟨_, rfl⟩
    obtain ⟨rest, hrest⟩ := hcomma
    rw [hrest]
    have hne : ∀ word : Text, ',' ∉ word → "ignored,".toList ++ rest ≠ word := by
      rintro word hword rfl
      exact hword (List.mem_append_left _ (by decide))
    rw [outcomeKind, if_neg (not_or.mpr ⟨hne _ (by decide), hne _ (by decide)⟩), if_neg (hne _ (by decide))]

lemma shows_libtest_iff (path : Word) (shouldPanic : Bool) (ended : TestEnd) :
    (OutputLine.libtest path shouldPanic ended).Shows requested kind ↔
      ((OutputLine.libtest path shouldPanic ended).IsFor requested kind ∧
        ¬ (OutputLine.libtest path shouldPanic ended).Hidden requested) ∨
      (OutputLine.libtest path shouldPanic ended).Deceives requested kind := by
  unfold OutputLine.Shows
  simp only [reads_libtest_iff]
  by_cases hreason : ∃ reason, ended = .ignored (some reason)
  · -- The line shows what its reason holds.
    obtain ⟨reason, hended⟩ := hreason
    have hnone := outcomeKind_of_inner_eq_none.2 reason hended
    have hhidden : (OutputLine.libtest path shouldPanic ended).Hidden requested := Or.inr ⟨reason, hended⟩
    rw [or_iff_right fun h => h.2 hhidden, OutputLine.Deceives, or_iff_right fun h => h.2.1 reason hended]
    unfold readLibtest
    constructor
    · rintro ⟨name, ⟨hname, hkind⟩, hends⟩
      cases hinner : ended.inner with
      | none =>
        rw [hinner] at hkind
        exact absurd (hnone.symm.trans hkind) (by simp)
      | some parts =>
        rw [hinner] at hname hkind
        obtain rfl := hname
        exact ⟨reason, parts.1, parts.2, hended, rfl, hkind, hends⟩
    · rintro ⟨_, front, back, -, hinner, hkind, hends⟩
      rw [hinner]
      exact ⟨_, ⟨rfl, hkind⟩, hends⟩
  · -- The line shows its marked path.
    have hplain : ∀ reason, ended ≠ .ignored (some reason) := fun reason h => hreason ⟨reason, h⟩
    obtain ⟨hinner, hkind⟩ := outcomeKind_of_inner_eq_none.1 hplain
    unfold readLibtest
    rw [hinner]
    dsimp only
    rw [hkind, Option.some.injEq]
    have hshow : (∃ name, (path.text ++ panicMark shouldPanic = name ∧ ended.kind = kind) ∧ NameEnds name requested) ↔
        ended.kind = kind ∧ NameEnds (path.text ++ panicMark shouldPanic) requested := by
      constructor
      · rintro ⟨name, ⟨rfl, hsame⟩, hends⟩
        exact ⟨hsame, hends⟩
      · rintro ⟨hsame, hends⟩
        exact ⟨_, ⟨rfl, hsame⟩, hends⟩
    rw [hshow]
    unfold OutputLine.IsFor OutputLine.Hidden OutputLine.Deceives
    dsimp only
    have hinside : ¬ ∃ reason front back, ended = .ignored (some reason) ∧
        ended.inner = some (front, back) ∧ outcomeKind (trim back) = some kind ∧
        NameEnds (trim (path.text ++ panicMark shouldPanic ++ " ... ".toList ++ front)) requested := by
      rintro ⟨reason, -, -, hended, -⟩
      exact hplain reason hended
    rw [or_iff_left hinside, or_iff_left hreason]
    cases shouldPanic with
    | false =>
      rw [panicMark, if_neg Bool.false_ne_true, List.append_nil]
      simp
    | true =>
      rw [panicMark, if_pos rfl, nameEnds_marked_iff (by decide)]
      simp [hplain]

/-- What a line is taken for: its test, or what a decoration makes of it. -/
theorem shows_iff (line : OutputLine) : line.Shows requested kind ↔
    (line.IsFor requested kind ∧ ¬ line.Hidden requested) ∨ line.Deceives requested kind := by
  cases line with
  | libtest path shouldPanic ended => exact shows_libtest_iff path shouldPanic ended
  | nextest indent passed time bracket binary path =>
    have hshow : (OutputLine.nextest indent passed time bracket binary path).Shows requested kind ↔
        kind = .executed ∧ NameEnds (binary.text ++ ' ' :: path.text) requested := by
      unfold OutputLine.Shows OutputLine.reads
      constructor
      · rintro ⟨name, hreads, hends⟩
        obtain ⟨rfl, rfl⟩ := Prod.mk.inj (Option.some.inj hreads)
        exact ⟨rfl, hends⟩
      · rintro ⟨rfl, hends⟩
        exact ⟨_, rfl, hends⟩
    have hbehind : "::".toList ++ requested <:+ path.text ↔ NameEnds path.text requested ∧ path.text ≠ requested := by
      constructor
      · refine fun h => ⟨Or.inr h, fun heq => ?_⟩
        have hlen := h.length_le
        rw [heq, List.length_append] at hlen
        exact absurd hlen (by simp)
      · rintro ⟨hends, hne⟩
        exact hends.resolve_left hne
    rw [hshow, nameEnds_words_iff, hbehind]
    unfold OutputLine.IsFor OutputLine.Hidden OutputLine.Deceives
    tauto
  | libtestSummary tally no_dots =>
    refine iff_of_false ?_ (fun h => h.elim And.left id)
    rintro ⟨_, hreads, -⟩
    simp [OutputLine.reads] at hreads
  | nextestSummary indent tally =>
    refine iff_of_false ?_ (fun h => h.elim And.left id)
    rintro ⟨_, hreads, -⟩
    simp [OutputLine.reads] at hreads

end

/-! ## Outputs -/

def Reported (output : List OutputLine) (requested : Text) : NameKind → Bool
  | .executed => (observeTestOutput (renderOutput output)).executed.any (testNameMatches · requested)
  | .ignored => (observeTestOutput (renderOutput output)).ignoredNames.any (testNameMatches · requested)

lemma reported_iff (output : List OutputLine) (requested : Text) (kind : NameKind) :
    Reported output requested kind = true ↔ ∃ line ∈ output, line.Shows requested kind := by
  have hobserved := mem_observed_iff output
  cases kind with
  | executed =>
    rw [Reported, List.any_eq_true]
    constructor
    · rintro ⟨name, hname, hmatches⟩
      obtain ⟨line, hline, hreads⟩ := (hobserved name).1.mp hname
      exact ⟨line, hline, name, hreads, testNameMatches_iff.mp hmatches⟩
    · rintro ⟨line, hline, name, hreads, hends⟩
      exact ⟨name, (hobserved name).1.mpr ⟨line, hline, hreads⟩, testNameMatches_iff.mpr hends⟩
  | ignored =>
    rw [Reported, List.any_eq_true]
    constructor
    · rintro ⟨name, hname, hmatches⟩
      obtain ⟨line, hline, hreads⟩ := (hobserved name).2.mp hname
      exact ⟨line, hline, name, hreads, testNameMatches_iff.mp hmatches⟩
    · rintro ⟨line, hline, name, hreads, hends⟩
      exact ⟨name, (hobserved name).2.mpr ⟨line, hline, hreads⟩, testNameMatches_iff.mpr hends⟩

/-- What decorations hide or make up is on other lines too. -/
def Undisturbed (output : List OutputLine) (requested : Text) (kind : NameKind) : Prop :=
  (∀ line ∈ output, line.IsFor requested kind → line.Hidden requested →
    ∃ other ∈ output, (other.IsFor requested kind ∧ ¬ other.Hidden requested) ∨ other.Deceives requested kind) ∧
  ∀ line ∈ output, line.Deceives requested kind → ∃ other ∈ output, other.IsFor requested kind

lemma reported_iff_isFor (output : List OutputLine) (requested : Text) (kind : NameKind) :
    (Reported output requested kind = true ↔ ∃ line ∈ output, line.IsFor requested kind) ↔
      Undisturbed output requested kind := by
  rw [reported_iff]
  simp only [shows_iff]
  constructor
  · intro h
    refine ⟨fun line hline hfor _ => h.mpr ⟨line, hline, hfor⟩, fun line hline hdeceives => ?_⟩
    exact h.mp ⟨line, hline, Or.inr hdeceives⟩
  · rintro ⟨hhidden, hdeceives⟩
    constructor
    · rintro ⟨line, hline, ⟨hfor, -⟩ | hmade⟩
      · exact ⟨line, hline, hfor⟩
      · exact hdeceives line hline hmade
    · rintro ⟨line, hline, hfor⟩
      by_cases hhide : line.Hidden requested
      · exact hhidden line hline hfor hhide
      · exact ⟨line, hline, Or.inl ⟨hfor, hhide⟩⟩

/-- A name is reported as executed or ignored when a test with it was, exactly when nothing disturbs it.
-/
theorem exact_names_iff (output : List OutputLine) (requested : Text) :
    ((Reported output requested .executed = true ↔ ∃ line ∈ output, line.IsFor requested .executed) ∧
      (Reported output requested .ignored = true ↔ ∃ line ∈ output, line.IsFor requested .ignored)) ↔
    Undisturbed output requested .executed ∧ Undisturbed output requested .ignored :=
  and_congr (reported_iff_isFor output requested .executed) (reported_iff_isFor output requested .ignored)

/-! ## A test that should panic -/

def boomPath : Word where
  text := "tests::boom".toList
  ne_nil := by decide
  no_space c hc := by
    have hall : ("tests::boom".toList.all fun c => !isWhitespace c) = true := by decide
    simpa using List.all_eq_true.mp hall c hc

/-- A test that panics as it should is executed, and it is not reported under its path. -/
theorem exact_names_should_panic :
    ¬ ((Reported [.libtest boomPath true .ok] "tests::boom".toList .executed = true ↔
        ∃ line ∈ [OutputLine.libtest boomPath true .ok], line.IsFor "tests::boom".toList .executed) ∧
      (Reported [.libtest boomPath true .ok] "tests::boom".toList .ignored = true ↔
        ∃ line ∈ [OutputLine.libtest boomPath true .ok], line.IsFor "tests::boom".toList .ignored)) := by
  rintro ⟨hexecuted, -⟩
  have hreported := hexecuted.mpr ⟨_, List.mem_singleton.mpr rfl, rfl, Or.inl rfl⟩
  exact absurd hreported (by decide +kernel)

end AgzRustMcp.Verify
