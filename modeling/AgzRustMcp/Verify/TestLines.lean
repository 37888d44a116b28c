import AgzRustMcp.Verify.TestOutput

/-!
# Result lines of test runners

The lines that libtest and nextest print about single tests, with their decorations, and what the
reader of `observe_test_output` takes from each.  `Shows` says when a line is taken as one about a
requested test; `shows_iff` compares that with the path that it was printed for.
-/

namespace AgzRustMcp.Verify

open Utf8Text TextScan

/-! ## Lines -/

/-- A text without blanks: the path of a test, or the name of a binary. -/
structure Word where
  text : Text
  ne_nil : text ≠ []
  no_space : ∀ c ∈ text, isWhitespace c = false

structure LineText where
  text : Text
  no_break : '\n' ∉ text

/-- How a result line of libtest ends. -/
inductive TestEnd
  | ok
  | failed
  | ignored (reason : Option LineText)

/-- A line of a test run. -/
inductive OutputLine
  | libtest (path : Word) (shouldPanic : Bool) (ended : TestEnd)
  | nextest (indent : ℕ) (passed : Bool) (time : LineText) (no_bracket : ']' ∉ time.text) (binary path : Word)
  | libtestSummary (tally : LineText) (no_dots : ¬ "..".toList <:+: tally.text)
  | nextestSummary (indent : ℕ) (tally : LineText)

/-- The end of a result line. -/
def TestEnd.text : TestEnd → Text
  | .ok => "ok".toList
  | .failed => "FAILED".toList
  | .ignored none => "ignored".toList
  | .ignored (some reason) => "ignored, ".toList ++ reason.text

def panicMark (shouldPanic : Bool) : Text := if shouldPanic then " - should panic".toList else []

/-- The marker of a result line of nextest. -/
def nextestMark (passed : Bool) : Text := if passed then "PASS ".toList else "FAIL ".toList

def OutputLine.render : OutputLine → Text
  | .libtest path shouldPanic ended =>
    "test ".toList ++ (path.text ++ panicMark shouldPanic ++ " ... ".toList ++ ended.text)
  | .nextest indent passed time _ binary path =>
    List.replicate indent ' ' ++ (nextestMark passed ++ ('[' :: time.text ++ "] ".toList ++
      (binary.text ++ ' ' :: path.text)))
  | .libtestSummary tally _ => "test ".toList ++ ("result: ".toList ++ tally.text)
  | .nextestSummary indent tally => List.replicate indent ' ' ++ ("Summary ".toList ++ tally.text)

/-- An output: its lines, each with its end. -/
def renderOutput (output : List OutputLine) : Text := output.flatMap fun line => line.render ++ ['\n']

/-! ## Blanks -/

section

variable {t s : Text} {path binary : Word}

lemma stripPrefix_append (pre t : Text) : stripPrefix pre (pre ++ t) = some t := by
  unfold stripPrefix
  rw [if_pos (List.isPrefixOf_iff_prefix.mpr (List.prefix_append _ _)), List.drop_left']
  rfl

lemma dropEndWhile_append {p : Char → Bool} {c : Char} (hc : p c = false) (t s : Text) :
    dropEndWhile p (t ++ [c] ++ s) = t ++ [c] ++ dropEndWhile p s := by
  unfold dropEndWhile
  rw [List.reverse_append, List.dropWhile_append]
  split_ifs with hempty
  · rw [List.isEmpty_iff] at hempty
    rw [hempty, List.reverse_append, List.reverse_singleton, List.singleton_append,
      List.dropWhile_cons_of_neg (by rw [hc]; exact Bool.false_ne_true)]
    simp
  · simp

lemma dropEndWhile_concat {p : Char → Bool} {c : Char} (hc : p c = false) (t : Text) :
    dropEndWhile p (t ++ [c]) = t ++ [c] := by
  have happend := dropEndWhile_append hc t []
  rw [List.append_nil] at happend
  rw [happend, show dropEndWhile p [] = [] from rfl, List.append_nil]

lemma trim_eq_self {c d : Char} (hc : isWhitespace c = false) (hd : isWhitespace d = false)
    (h : t = c :: s) (h' : ∃ front, t = front ++ [d]) : trim t = t := by
  obtain ⟨front, hfront⟩ := h'
  unfold trim
  rw [h, List.dropWhile_cons_of_neg (by rw [hc]; exact Bool.false_ne_true), ← h]
  have hdrop := dropEndWhile_concat hd front
  rw [← hfront] at hdrop
  exact hdrop

lemma Word.exists_head (word : Word) : ∃ c s, word.text = c :: s ∧ isWhitespace c = false := by
  obtain ⟨c, s, h⟩ := List.exists_cons_of_ne_nil word.ne_nil
  exact ⟨c, s, h, word.no_space c (h ▸ List.mem_cons_self)⟩

lemma Word.exists_last (word : Word) : ∃ front d, word.text = front ++ [d] ∧ isWhitespace d = false := by
  obtain hnil | ⟨front, d, h⟩ := List.eq_nil_or_concat' word.text
  · exact absurd hnil word.ne_nil
  · exact ⟨front, d, h, word.no_space d (h ▸ List.mem_append_right _ List.mem_cons_self)⟩

lemma trim_marked (path : Word) (shouldPanic : Bool) :
    trim (path.text ++ panicMark shouldPanic) = path.text ++ panicMark shouldPanic := by
  obtain ⟨c, s, hhead, hc⟩ := path.exists_head
  have hlast : ∃ front d, path.text ++ panicMark shouldPanic = front ++ [d] ∧ isWhitespace d = false := by
    cases shouldPanic with
    | false =>
      obtain ⟨front, d, h, hd⟩ := path.exists_last
      exact ⟨front, d, by rw [panicMark, if_neg Bool.false_ne_true, List.append_nil, h], hd⟩
    | true =>
      refine ⟨path.text ++ " - should pani".toList, 'c', ?_, by decide⟩
      rw [panicMark, if_pos rfl, List.append_assoc]
      rfl
  obtain ⟨front, d, hlast, hd⟩ := hlast
  exact trim_eq_self hc hd (by rw [hhead]; rfl) ⟨front, hlast⟩

lemma trim_words (binary path : Word) : trim (binary.text ++ ' ' :: path.text) = binary.text ++ ' ' :: path.text := by
  obtain ⟨c, s, hhead, hc⟩ := binary.exists_head
  obtain ⟨front, d, hlast, hd⟩ := path.exists_last
  refine trim_eq_self hc hd (by rw [hhead]; rfl) ⟨binary.text ++ ' ' :: front, ?_⟩
  rw [hlast, List.append_assoc]
  rfl

lemma marked_ne_nil (path : Word) (rest : Text) : path.text ++ rest ≠ [] :=
  fun h => path.ne_nil (List.append_eq_nil_iff.mp h).1

end

/-- The end of a result line, read as if a result line ended in it. -/
def TestEnd.inner (ended : TestEnd) : Option (Text × Text) :=
  rsplitOnce " ... ".toList (dropEndWhile isWhitespace ended.text)

/-- The name and the outcome that are read from a result line of libtest. -/
def readLibtest (path : Word) (shouldPanic : Bool) (ended : TestEnd) : Text × Text :=
  match ended.inner with
  | none => (path.text ++ panicMark shouldPanic, trim (dropEndWhile isWhitespace ended.text))
  | some (front, back) => (trim (path.text ++ panicMark shouldPanic ++ " ... ".toList ++ front), trim back)

lemma dropEndWhile_ended (front : Text) (ended : TestEnd) :
    dropEndWhile isWhitespace (front ++ ended.text) = front ++ dropEndWhile isWhitespace ended.text := by
  have hword : ∀ (word : Text) (c : Char), isWhitespace c = false → ∀ rest,
      dropEndWhile isWhitespace (front ++ (word ++ [c] ++ rest)) =
        front ++ dropEndWhile isWhitespace (word ++ [c] ++ rest) := by
    intro word c hc rest
    rw [dropEndWhile_append hc, ← List.append_assoc, ← List.append_assoc, dropEndWhile_append hc]
    simp only [List.append_assoc]
  cases ended with
  | ok => exact hword "o".toList 'k' (by decide) []
  | failed => exact hword "FAILE".toList 'D' (by decide) []
  | ignored reason =>
    cases reason with
    | none => exact hword "ignore".toList 'd' (by decide) []
    | some reason => exact hword "ignored".toList ',' (by decide) (' ' :: reason.text)

lemma notMem_take_ended (ended : TestEnd) : ' ' ∉ (dropEndWhile isWhitespace ended.text).take 4 := by
  cases ended with
  | ok => decide
  | failed => decide
  | ignored reason =>
    cases reason with
    | none => decide
    | some reason =>
      have hdrop := dropEndWhile_append (p := isWhitespace) (c := ',') (by decide) "ignored".toList
        (' ' :: reason.text)
      rw [show (TestEnd.ignored (some reason)).text = "ignored".toList ++ [','] ++ ' ' :: reason.text from rfl,
        hdrop, List.append_assoc, List.take_append_of_le_length (by decide)]
      decide

/-- What is read from a result line of libtest. -/
theorem libtestResult_render (path : Word) (shouldPanic : Bool) (ended : TestEnd) :
    libtestResult (dropEndWhile isWhitespace (OutputLine.libtest path shouldPanic ended).render) =
      some (readLibtest path shouldPanic ended) := by
  rw [OutputLine.render, ← List.append_assoc, dropEndWhile_ended, List.append_assoc, libtestResult,
    stripPrefix_append]
  dsimp only
  have hneedle : " ... ".toList = " ...".toList ++ [' '] := rfl
  unfold readLibtest
  cases hinner : ended.inner with
  | none =>
    have hlast : rsplitOnce " ... ".toList
        (path.text ++ panicMark shouldPanic ++ " ... ".toList ++ dropEndWhile isWhitespace ended.text) =
          some (path.text ++ panicMark shouldPanic, dropEndWhile isWhitespace ended.text) := by
      unfold TestEnd.inner at hinner
      rw [hneedle] at hinner ⊢
      exact rsplitOnce_of_last hinner (notMem_take_ended ended)
    rw [hlast]
    dsimp only
    rw [trim_marked, if_neg (marked_ne_nil path _)]
  | some parts =>
    obtain ⟨front, back⟩ := parts
    rw [rsplitOnce_append hinner]
    dsimp only
    rw [if_neg]
    -- The path is not trimmed away.
    obtain ⟨c, s, hhead, hc⟩ := path.exists_head
    intro hempty
    have htrim : trim (path.text ++ panicMark shouldPanic ++ " ... ".toList ++ front) =
        dropEndWhile isWhitespace (path.text ++ panicMark shouldPanic ++ " ... ".toList ++ front) := by
      unfold trim dropEndWhile
      rw [hhead, List.cons_append, List.cons_append, List.cons_append,
        List.dropWhile_cons_of_neg (by rw [hc]; exact Bool.false_ne_true)]
    have hkept := dropEndWhile_append hc [] (s ++ panicMark shouldPanic ++ " ... ".toList ++ front)
    rw [htrim, hhead] at hempty
    simp only [List.nil_append, List.cons_append] at hkept hempty
    rw [hkept] at hempty
    exact absurd hempty (by simp)

/-! ## What is read from the other lines -/

section

variable {t : Text}

lemma stripPrefix_of_head_ne {c d : Char} (h : c ≠ d) (pre t : Text) : stripPrefix (c :: pre) (d :: t) = none := by
  unfold stripPrefix
  rw [if_neg]
  rw [List.isPrefixOf_iff_prefix]
  exact fun hprefix => h (List.cons_prefix_cons.mp hprefix).1

lemma dropEndWhile_prefix (p : Char → Bool) (t : Text) : dropEndWhile p t <+: t := by
  unfold dropEndWhile
  have hsuffix := List.dropWhile_suffix (l := t.reverse) p
  rwa [← List.reverse_prefix, List.reverse_reverse] at hsuffix

lemma dropWhile_indent (indent : ℕ) {c : Char} (hc : isWhitespace c = false) (t : Text) :
    (List.replicate indent ' ' ++ c :: t).dropWhile isWhitespace = c :: t := by
  induction indent with
  | zero =>
    rw [List.replicate_zero, List.nil_append, List.dropWhile_cons_of_neg (by rw [hc]; exact Bool.false_ne_true)]
  | succ indent ih =>
    rw [List.replicate_succ, List.cons_append, List.dropWhile_cons_of_pos (by decide), ih]

lemma libtestResult_indent (indent : ℕ) {c : Char} (hc : c ≠ 't') (t : Text) :
    libtestResult (List.replicate indent ' ' ++ c :: t) = none := by
  have hprefix : stripPrefix "test ".toList (List.replicate indent ' ' ++ c :: t) = none := by
    cases indent with
    | zero => exact stripPrefix_of_head_ne hc.symm _ _
    | succ indent => exact stripPrefix_of_head_ne (by decide) _ _
  rw [libtestResult, hprefix]

lemma nextestMark_eq_cons (passed : Bool) :
    ∃ c mark, nextestMark passed = c :: mark ∧ c ≠ 't' ∧ c ≠ 'S' ∧ isWhitespace c = false := by
  cases passed with
  | true => exact ⟨'P', "ASS ".toList, rfl, by decide, by decide, by decide⟩
  | false => exact ⟨'F', "AIL ".toList, rfl, by decide, by decide, by decide⟩

lemma nextestResult_of_head {c : Char} (hc : c = 't' ∨ c = 'S') (passed : Bool) (indent : ℕ) (t : Text) :
    nextestResult (nextestMark passed) (List.replicate indent ' ' ++ c :: t) = none := by
  obtain ⟨d, mark, hmark, hdt, hdS, -⟩ := nextestMark_eq_cons passed
  have hne : d ≠ c := by rcases hc with rfl | rfl <;> assumption
  have hblank : isWhitespace c = false := by rcases hc with rfl | rfl <;> decide
  rw [nextestResult, hmark, dropWhile_indent indent hblank, stripPrefix_of_head_ne hne]

lemma nextestResult_render (indent : ℕ) (passed marker : Bool) (time : LineText)
    (no_bracket : ']' ∉ time.text) (binary path : Word) : nextestResult (nextestMark marker)
        (dropEndWhile isWhitespace (OutputLine.nextest indent passed time no_bracket binary path).render) =
      if marker = passed then some (binary.text ++ ' ' :: path.text) else none := by
  obtain ⟨front, d, hlast, hd⟩ := path.exists_last
  have hkept : dropEndWhile isWhitespace (OutputLine.nextest indent passed time no_bracket binary path).render =
      (OutputLine.nextest indent passed time no_bracket binary path).render := by
    have hconcat : (OutputLine.nextest indent passed time no_bracket binary path).render =
        (List.replicate indent ' ' ++ (nextestMark passed ++ ('[' :: time.text ++ "] ".toList ++
          (binary.text ++ ' ' :: front)))) ++ [d] := by
      simp only [OutputLine.render, hlast, List.append_assoc, List.cons_append]
    rw [hconcat, dropEndWhile_concat hd]
  obtain ⟨c, mark, hmark, -, -, hc⟩ := nextestMark_eq_cons passed
  rw [hkept, OutputLine.render, nextestResult, hmark, List.cons_append, dropWhile_indent indent hc,
    ← List.cons_append, ← hmark]
  by_cases hsame : marker = passed
  · rw [if_pos hsame, hsame, stripPrefix_append]
    dsimp only
    have hbracket : ']' ∉ '[' :: time.text := by
      rw [List.mem_cons, not_or]
      exact ⟨by decide, no_bracket⟩
    rw [show "] ".toList = ']' :: [' '] from rfl, splitOnce_of_head_notMem hbracket]
    dsimp only
    rw [trim_words, if_neg (marked_ne_nil binary _)]
  · have hnone : ∀ t, stripPrefix (nextestMark marker) (nextestMark passed ++ t) = none := by
      intro t
      cases marker <;> cases passed <;> first | exact absurd rfl hsame | exact stripPrefix_of_head_ne (by decide) _ _
    rw [if_neg hsame, hnone]

lemma infix_of_head_notMem {c : Char} {needle x y : Text} (hx : c ∉ x) (h : c :: needle <:+: x ++ y) :
    c :: needle <:+: y := by
  obtain ⟨a, b, hab⟩ := h
  rw [List.append_assoc] at hab
  rcases List.append_eq_append_iff.mp hab with ⟨mid, rfl, hmid⟩ | ⟨mid, rfl, hmid⟩
  · cases mid with
    | nil => exact ⟨[], b, hmid⟩
    | cons d mid =>
      have hd : c = d := (List.cons.inj hmid).1
      exact absurd (List.mem_append_right _ (hd ▸ List.mem_cons_self)) hx
  · exact ⟨mid, b, by rw [hmid, List.append_assoc]⟩

lemma libtestResult_libtestSummary (tally : LineText) (no_dots : ¬ "..".toList <:+: tally.text) :
    libtestResult (dropEndWhile isWhitespace (OutputLine.libtestSummary tally no_dots).render) = none := by
  unfold libtestResult
  cases hprefix : stripPrefix "test ".toList
      (dropEndWhile isWhitespace (OutputLine.libtestSummary tally no_dots).render) with
  | none => rfl
  | some rest =>
    dsimp only
    cases hsplit : rsplitOnce " ... ".toList rest with
    | none => rfl
    | some parts =>
      obtain ⟨front, back⟩ := parts
      exfalso
      unfold stripPrefix at hprefix
      split_ifs at hprefix with hstart
      rw [List.isPrefixOf_iff_prefix] at hstart
      obtain ⟨tail, htail⟩ := hstart
      have hrest : tail = rest := by
        rw [← htail, List.drop_left'] at hprefix
        · exact Option.some.inj hprefix
        · rfl
      have hline : rest <+: "result: ".toList ++ tally.text := by
        have hwhole := dropEndWhile_prefix isWhitespace (OutputLine.libtestSummary tally no_dots).render
        rw [← htail, OutputLine.render, List.prefix_append_right_inj, hrest] at hwhole
        exact hwhole
      have hparts : rest = front ++ " ... ".toList ++ back := by
        obtain ⟨⟨x, y⟩, hx, hxy⟩ := Option.map_eq_some_iff.mp hsplit
        obtain ⟨rfl, rfl⟩ := Prod.mk.inj hxy
        have happend := congrArg List.reverse (append_of_splitOnce hx)
        rw [List.reverse_reverse] at happend
        rw [happend]
        simp
      have hnone : ¬ ['.', '.'] <:+: tally.text := no_dots
      refine hnone (@infix_of_head_notMem '.' ['.'] "result: ".toList tally.text (by decide) ?_)
      refine List.IsInfix.trans ?_ hline.isInfix
      have hdots : " ... ".toList = [' '] ++ ['.', '.'] ++ ". ".toList := by decide
      rw [hparts, hdots]
      exact ⟨front ++ [' '], ". ".toList ++ back, by simp only [List.append_assoc]⟩

end

/-! ## Names and kinds -/

/-- How a test is reported: as executed or as ignored. -/
inductive NameKind
  | executed
  | ignored
  deriving DecidableEq

def outcomeKind (outcome : Text) : Option NameKind :=
  if outcome = "ok".toList ∨ outcome = "FAILED".toList then some .executed
  else if outcome = "ignored".toList then some .ignored
  else none

def OutputLine.reads : OutputLine → Option (Text × NameKind)
  | .libtest path shouldPanic ended =>
    (outcomeKind (readLibtest path shouldPanic ended).2).map fun kind =>
      ((readLibtest path shouldPanic ended).1, kind)
  | .nextest _ _ _ _ binary path => some (binary.text ++ ' ' :: path.text, .executed)
  | .libtestSummary _ _ => none
  | .nextestSummary _ _ => none

section

variable {line : OutputLine} {name : Text}

lemma exists_dropEndWhile_keyword (t : Text) :
    ∃ rest, dropEndWhile isWhitespace ("test ".toList ++ t) = 't' :: rest :=
  ⟨_, dropEndWhile_append (p := isWhitespace) (c := 't') (by decide) [] ("est ".toList ++ t)⟩

lemma exists_dropEndWhile_summary (indent : ℕ) (tally : LineText) :
    ∃ rest, dropEndWhile isWhitespace (OutputLine.nextestSummary indent tally).render =
      List.replicate indent ' ' ++ 'S' :: rest := by
  have hkept := dropEndWhile_append (p := isWhitespace) (c := 'S') (by decide) (List.replicate indent ' ')
    ("ummary ".toList ++ tally.text)
  refine ⟨dropEndWhile isWhitespace ("ummary ".toList ++ tally.text), ?_⟩
  rw [← List.singleton_append, ← List.append_assoc, ← hkept, List.append_assoc]
  rfl

lemma nextestResult_eq_none (passed : Bool) (h : ∀ indent pass time bracket binary path,
    line ≠ .nextest indent pass time bracket binary path) :
    nextestResult (nextestMark passed) (dropEndWhile isWhitespace line.render) = none := by
  cases line with
  | libtest path shouldPanic ended =>
    obtain ⟨rest, hrest⟩ := exists_dropEndWhile_keyword
      (path.text ++ panicMark shouldPanic ++ " ... ".toList ++ ended.text)
    rw [OutputLine.render, hrest]
    exact nextestResult_of_head (Or.inl rfl) passed 0 rest
  | nextest indent pass time bracket binary path => exact absurd rfl (h indent pass time bracket binary path)
  | libtestSummary tally no_dots =>
    obtain ⟨rest, hrest⟩ := exists_dropEndWhile_keyword ("result: ".toList ++ tally.text)
    rw [OutputLine.render, hrest]
    exact nextestResult_of_head (Or.inl rfl) passed 0 rest
  | nextestSummary indent tally =>
    obtain ⟨rest, hrest⟩ := exists_dropEndWhile_summary indent tally
    rw [hrest]
    exact nextestResult_of_head (Or.inr rfl) passed indent rest

lemma libtestResult_eq_none (h : ∀ path shouldPanic ended, line ≠ .libtest path shouldPanic ended) :
    libtestResult (dropEndWhile isWhitespace line.render) = none := by
  cases line with
  | libtest path shouldPanic ended => exact absurd rfl (h path shouldPanic ended)
  | nextest indent passed time bracket binary path =>
    obtain ⟨c, mark, hmark, hct, -, hc⟩ := nextestMark_eq_cons passed
    have hkept := dropEndWhile_append hc (List.replicate indent ' ')
      (mark ++ ('[' :: time.text ++ "] ".toList ++ (binary.text ++ ' ' :: path.text)))
    have hrender : (OutputLine.nextest indent passed time bracket binary path).render =
        List.replicate indent ' ' ++ [c] ++
          (mark ++ ('[' :: time.text ++ "] ".toList ++ (binary.text ++ ' ' :: path.text))) := by
      simp only [OutputLine.render, hmark, List.append_assoc, List.cons_append, List.nil_append]
    rw [hrender, hkept, List.append_assoc]
    exact libtestResult_indent indent hct _
  | libtestSummary tally no_dots => exact libtestResult_libtestSummary tally no_dots
  | nextestSummary indent tally =>
    obtain ⟨rest, hrest⟩ := exists_dropEndWhile_summary indent tally
    rw [hrest]
    exact libtestResult_indent indent (by decide) rest

lemma outcomeKind_eq_executed {outcome : Text} :
    outcomeKind outcome = some .executed ↔ (libtestOutcome outcome).isSome = true := by
  rw [isSome_libtestOutcome, outcomeKind]
  split_ifs with hexecuted
  · exact iff_of_true rfl hexecuted
  · exact iff_of_false (by simp) hexecuted
  · exact iff_of_false (by simp) hexecuted

lemma outcomeKind_eq_ignored {outcome : Text} : outcomeKind outcome = some .ignored ↔ outcome = "ignored".toList := by
  rw [outcomeKind]
  split_ifs with hexecuted hignored
  · refine iff_of_false (by simp) ?_
    rcases hexecuted with rfl | rfl <;> decide
  · exact iff_of_true rfl hignored
  · exact iff_of_false (by simp) hignored

lemma reads_libtest_iff {path : Word} {shouldPanic : Bool} {ended : TestEnd} {kind : NameKind} :
    (OutputLine.libtest path shouldPanic ended).reads = some (name, kind) ↔
      (readLibtest path shouldPanic ended).1 = name ∧
        outcomeKind (readLibtest path shouldPanic ended).2 = some kind := by
  rw [OutputLine.reads, Option.map_eq_some_iff]
  constructor
  · rintro ⟨kind', hkind, heq⟩
    obtain ⟨hname, rfl⟩ := Prod.mk.inj heq
    exact ⟨hname, hkind⟩
  · rintro ⟨hname, hkind⟩
    exact ⟨kind, hkind, by rw [hname]⟩

/-- The executed names of a line are those that are read from it. -/
theorem exists_mem_reportLine_render :
    (∃ outcome, (name, outcome) ∈ reportLine line.render) ↔ line.reads = some (name, .executed) := by
  rw [exists_mem_reportLine]
  have hmarks : "PASS ".toList = nextestMark true ∧ "FAIL ".toList = nextestMark false := ⟨rfl, rfl⟩
  rw [hmarks.1, hmarks.2]
  cases hline : line with
  | libtest path shouldPanic ended =>
    rw [nextestResult_eq_none _ (by simp), nextestResult_eq_none _ (by simp), libtestResult_render, reads_libtest_iff]
    simp [outcomeKind_eq_executed]
  | nextest indent passed time bracket binary path =>
    rw [nextestResult_render, nextestResult_render, libtestResult_eq_none (by simp)]
    cases passed <;> simp [OutputLine.reads]
  | libtestSummary tally no_dots =>
    rw [nextestResult_eq_none _ (by simp), nextestResult_eq_none _ (by simp), libtestResult_eq_none (by simp)]
    simp [OutputLine.reads]
  | nextestSummary indent tally =>
    rw [nextestResult_eq_none _ (by simp), nextestResult_eq_none _ (by simp), libtestResult_eq_none (by simp)]
    simp [OutputLine.reads]

/-- The ignored names of a line are those that are read from it. -/
theorem libtestResult_eq_ignored_iff :
    libtestResult (dropEndWhile isWhitespace line.render) = some (name, "ignored".toList) ↔
      line.reads = some (name, .ignored) := by
  cases hline : line with
  | libtest path shouldPanic ended =>
    rw [libtestResult_render, reads_libtest_iff, outcomeKind_eq_ignored, Option.some.injEq, Prod.ext_iff]
  | nextest indent passed time bracket binary path =>
    rw [libtestResult_eq_none (by simp)]
    simp [OutputLine.reads]
  | libtestSummary tally no_dots =>
    rw [libtestResult_eq_none (by simp)]
    simp [OutputLine.reads]
  | nextestSummary indent tally =>
    rw [libtestResult_eq_none (by simp)]
    simp [OutputLine.reads]

end

lemma break_notMem_word (word : Word) : '\n' ∉ word.text :=
  fun h => absurd (word.no_space '\n' h) (by decide)

lemma break_notMem_render (line : OutputLine) : '\n' ∉ line.render := by
  have hindent : ∀ indent : ℕ, '\n' ∉ List.replicate indent ' ' :=
    fun indent h => absurd (List.eq_of_mem_replicate h) (by decide)
  cases line with
  | libtest path shouldPanic ended =>
    have hended : '\n' ∉ ended.text := by
      cases ended with
      | ok => decide
      | failed => decide
      | ignored reason =>
        cases reason with
        | none => decide
        | some reason =>
          have hword : '\n' ∉ "ignored, ".toList := by decide
          exact fun hmem => (List.mem_append.mp hmem).elim hword reason.no_break
    have hmark : '\n' ∉ panicMark shouldPanic := by cases shouldPanic <;> decide
    simp only [OutputLine.render, List.mem_append, not_or]
    exact ⟨by decide, ⟨⟨break_notMem_word path, hmark⟩, by decide⟩, hended⟩
  | nextest indent passed time bracket binary path =>
    have hmark : '\n' ∉ nextestMark passed := by cases passed <;> decide
    simp only [OutputLine.render, List.mem_append, List.mem_cons, not_or]
    exact ⟨hindent indent, hmark, ⟨⟨by decide, time.no_break⟩, by decide⟩,
      break_notMem_word binary, by decide, break_notMem_word path⟩
  | libtestSummary tally no_dots =>
    simp only [OutputLine.render, List.mem_append, not_or]
    exact ⟨by decide, by decide, tally.no_break⟩
  | nextestSummary indent tally =>
    simp only [OutputLine.render, List.mem_append, not_or]
    exact ⟨hindent indent, by decide, tally.no_break⟩

lemma lines_renderOutput (output : List OutputLine) : lines (renderOutput output) = output.map OutputLine.render := by
  induction output with
  | nil => rfl
  | cons line output ih =>
    have hcons : renderOutput (line :: output) = line.render ++ '\n' :: renderOutput output := by
      rw [renderOutput, List.flatMap_cons, List.append_assoc]
      rfl
    rw [hcons, lines_append (break_notMem_render line), ih, List.map_cons]

/-- The names that are observed in an output are those that are read from its lines. -/
theorem mem_observed_iff (output : List OutputLine) (name : Text) :
    (name ∈ (observeTestOutput (renderOutput output)).executed ↔
      ∃ line ∈ output, line.reads = some (name, .executed)) ∧
    (name ∈ (observeTestOutput (renderOutput output)).ignoredNames ↔
      ∃ line ∈ output, line.reads = some (name, .ignored)) := by
  constructor
  · rw [mem_executed_iff, testReport, lines_renderOutput]
    constructor
    · rintro ⟨outcome, hmem⟩
      obtain ⟨text, htext, hreport⟩ := List.mem_flatMap.mp hmem
      obtain ⟨line, hline, rfl⟩ := List.mem_map.mp htext
      exact ⟨line, hline, exists_mem_reportLine_render.mp ⟨outcome, hreport⟩⟩
    · rintro ⟨line, hline, hreads⟩
      obtain ⟨outcome, hreport⟩ := exists_mem_reportLine_render.mpr hreads
      exact ⟨outcome, List.mem_flatMap.mpr ⟨_, List.mem_map.mpr ⟨line, hline, rfl⟩, hreport⟩⟩
  · rw [mem_ignoredNames_iff, lines_renderOutput]
    simp only [List.mem_map, exists_exists_and_eq_and, libtestResult_eq_ignored_iff]

end AgzRustMcp.Verify
