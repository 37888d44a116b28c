import AgzRustMcp.Explain.CfgReadBack

/-!
# The round trip of a cfg predicate

`parse_cfg` returns a printed predicate with the bytes of its values as characters
(`parseCfg_of_prints`), and `extract_cfg_condition` prefers an inner attribute wherever one begins
in its line.  `cfg_round_trip_iff` says when both give back what was printed.
-/

namespace AgzRustMcp.Explain

open Utf8Text TextScan Latin1
open String (utf8Len)

/-! ## Values as bytes -/

lemma escapeValue_append (s t : Text) : escapeValue (s ++ t) = escapeValue s ++ escapeValue t := List.flatMap_append

lemma length_le_escapeValue (value : Text) : value.length ≤ (escapeValue value).length := by
  induction value with
  | nil => exact Nat.zero_le _
  | cons c value ih =>
    have hchar : 1 ≤ (if c = '"' ∨ c = '\\' then ['\\', c] else [c]).length := by
      split_ifs <;> simp
    rw [escapeValue, List.flatMap_cons, List.length_append, ← escapeValue, List.length_cons]
    omega

variable {t inside text : Text} {expr : CfgExpr}

lemma escapeValue_of_plain (h : ∀ c ∈ t, ¬ (c = '"' ∨ c = '\\')) : escapeValue t = t := by
  induction t with
  | nil => rfl
  | cons c t ih =>
    rw [escapeValue, List.flatMap_cons, if_neg (h c List.mem_cons_self), ← escapeValue,
      ih fun d hd => h d (List.mem_cons_of_mem _ hd)]
    rfl

lemma byteChars_escapeValue (value : Text) : byteChars (escapeValue value) = escapeValue (byteChars value) := by
  induction value with
  | nil => rfl
  | cons c value ih =>
    have hchar : byteChars (if c = '"' ∨ c = '\\' then ['\\', c] else [c]) = escapeValue (charBytes c) := by
      rcases lt_or_ge c.toNat 128 with hc | hc
      · rw [charBytes_of_lt hc]
        split_ifs with hescaped
        · rcases hescaped with rfl | rfl <;> decide
        · rw [escapeValue_of_plain (by simpa using hescaped)]
          exact byteChars_of_isAscii (by simpa [IsAscii] using hc)
      · have hplain : ∀ d ∈ charBytes c, ¬ (d = '"' ∨ d = '\\') := by
          rintro d hd (rfl | rfl)
          · exact absurd (le_of_mem_charBytes hc hd) (by decide)
          · exact absurd (le_of_mem_charBytes hc hd) (by decide)
        rw [escapeValue_of_plain hplain, if_neg]
        · exact List.flatMap_singleton _ _
        · rintro (rfl | rfl)
          · exact absurd hc (by decide)
          · exact absurd hc (by decide)
    have hescape : escapeValue (c :: value) =
        (if c = '"' ∨ c = '\\' then ['\\', c] else [c]) ++ escapeValue value := rfl
    have hbytes : byteChars (c :: value) = charBytes c ++ byteChars value := rfl
    rw [hescape, hbytes, byteChars_append, hchar, ih, escapeValue_append]

lemma isAscii_of_isIdentChar (h : ∀ c ∈ t, isIdentChar c = true) : IsAscii t := by
  intro c hc
  have hident := h c hc
  simp only [isIdentChar, Bool.or_eq_true, beq_iff_eq] at hident
  rcases hident with (hident | rfl) | rfl
  · simp only [Char.isAlphanum, Char.isAlpha, Char.isUpper, Char.isLower, Char.isDigit, Bool.or_eq_true,
      Bool.and_eq_true, decide_eq_true_eq, ge_iff_le, UInt32.le_iff_toNat_le] at hident
    have htoNat : c.val.toNat = c.toNat := rfl
    have hbounds : 'Z'.val.toNat = 90 ∧ 'z'.val.toNat = 122 ∧ '9'.val.toNat = 57 := by decide
    omega
  · decide
  · decide

lemma Blank.isAscii (h : Blank t) : IsAscii t := by
  intro c hc
  have hblank := h c hc
  simp only [isBlank, Bool.or_eq_true, beq_iff_eq] at hblank
  rcases hblank with (((rfl | rfl) | rfl) | rfl) | rfl
  all_goals decide

lemma byteChars_spaced {word front : Text} (hword : IsName word) (h : Spaced word front) :
    byteChars front = front := by
  obtain ⟨before, after, hbefore, hafter, rfl⟩ := h
  rw [byteChars_append, byteChars_append, byteChars_of_isAscii hbefore.isAscii,
    byteChars_of_isAscii hafter.isAscii, byteChars_of_isAscii (isAscii_of_isIdentChar hword.2)]

lemma byteChars_cons_of_lt {c : Char} (h : c.toNat < 128) (t : Text) : byteChars (c :: t) = c :: byteChars t := by
  rw [byteChars, List.flatMap_cons, charBytes_of_lt h, ← byteChars]
  rfl

lemma call_byteChars {keyword : Text} (hkeyword : IsName keyword) (h : Call keyword inside t) :
    Call keyword (byteChars inside) (byteChars t) := by
  obtain ⟨front, after, hfront, hafter, rfl⟩ := h
  refine ⟨front, after, hfront, hafter, ?_⟩
  rw [byteChars_append, byteChars_append, byteChars_cons_of_lt (by decide), byteChars_cons_of_lt (by decide),
    byteChars_spaced hkeyword hfront, byteChars_of_isAscii hafter.isAscii]

lemma prints_byteChars (h : expr.Prints text) : (expr.mapValues byteChars).Prints (byteChars text) := by
  have hitems : ∀ items : List CfgExpr,
      (∀ item ∈ items, ∀ text, item.Prints text → (item.mapValues byteChars).Prints (byteChars text)) →
        ∀ inside, ItemsPrint items inside → ItemsPrint (mapItems byteChars items) (byteChars inside) := by
    intro items ih
    induction items with
    | nil =>
      intro inside hinside
      rw [byteChars_of_isAscii hinside.isAscii]
      exact hinside
    | cons item items ihItems =>
      rintro inside ⟨text, htext, hrest⟩
      refine ⟨_, ih item List.mem_cons_self text htext, ?_⟩
      rcases hrest with ⟨rfl, rfl⟩ | ⟨rest, hrest, rfl⟩
      · exact Or.inl ⟨rfl, rfl⟩
      · refine Or.inr ⟨_, ihItems (fun next hnext => ih next (List.mem_cons_of_mem _ hnext)) rest hrest, ?_⟩
        rw [byteChars_append, byteChars_cons_of_lt (by decide)]
  induction expr using CfgExpr.induct generalizing text with
  | all items ih =>
    obtain ⟨inside, hinside, hcall⟩ := h
    exact ⟨_, hitems items (fun item hitem _ => ih item hitem) inside hinside, call_byteChars isName_keyword.1 hcall⟩
  | any items ih =>
    obtain ⟨inside, hinside, hcall⟩ := h
    exact ⟨_, hitems items (fun item hitem _ => ih item hitem) inside hinside, call_byteChars isName_keyword.2.1 hcall⟩
  | not inner ih =>
    obtain ⟨inside, hinside, hcall⟩ := h
    exact ⟨_, ih hinside, call_byteChars isName_keyword.2.2 hcall⟩
  | flag key value =>
    cases value with
    | none =>
      rw [byteChars_spaced h.1 h.2]
      exact h
    | some value =>
      obtain ⟨hkey, front, middle, after, hfront, hmiddle, hafter, rfl⟩ := h
      refine ⟨hkey, front, middle, after, hfront, hmiddle, hafter, ?_⟩
      have hequals : '='.toNat < 128 := by decide
      have hquote : '"'.toNat < 128 := by decide
      simp only [byteChars_append, List.append_assoc, List.cons_append, byteChars_cons_of_lt hequals,
        byteChars_cons_of_lt hquote, byteChars_spaced hkey hfront, byteChars_escapeValue,
        byteChars_of_isAscii hmiddle.isAscii, byteChars_of_isAscii hafter.isAscii]

lemma nesting_mapValues (f : Text → Text) (expr : CfgExpr) : (expr.mapValues f).nesting = expr.nesting := by
  have hitems : ∀ items : List CfgExpr, (∀ item ∈ items, (item.mapValues f).nesting = item.nesting) →
      itemsNesting (mapItems f items) = itemsNesting items := by
    intro items ih
    induction items with
    | nil => rfl
    | cons item items ihItems =>
      rw [mapItems, itemsNesting, itemsNesting, ih item List.mem_cons_self,
        ihItems fun next hnext => ih next (List.mem_cons_of_mem _ hnext)]
  induction expr using CfgExpr.induct with
  | all items ih => exact hitems items ih
  | any items ih => exact hitems items ih
  | not inner ih => exact congrArg (· + 1) ih
  | flag key value => rfl

lemma mapValues_eq_iff {f : Text → Text} : expr.mapValues f = expr ↔ ∀ value ∈ expr.values, f value = value := by
  have hitems : ∀ items : List CfgExpr,
      (∀ item ∈ items, item.mapValues f = item ↔ ∀ value ∈ item.values, f value = value) →
        (mapItems f items = items ↔ ∀ value ∈ (itemPredicates items).filterMap Prod.snd, f value = value) := by
    intro items ih
    rw [forall_itemPredicates]
    induction items with
    | nil => exact ⟨fun _ _ h => absurd h List.not_mem_nil, fun _ => rfl⟩
    | cons item items ihItems =>
      rw [mapItems, List.cons.injEq, List.forall_mem_cons, ih item List.mem_cons_self,
        ihItems fun next hnext => ih next (List.mem_cons_of_mem _ hnext)]
  induction expr using CfgExpr.induct with
  | all items ih => rw [CfgExpr.mapValues, CfgExpr.all.injEq]; exact hitems items ih
  | any items ih => rw [CfgExpr.mapValues, CfgExpr.any.injEq]; exact hitems items ih
  | not inner ih => rw [CfgExpr.mapValues, CfgExpr.not.injEq]; exact ih
  | flag key value =>
    have hvalues : (CfgExpr.flag key value).values = value.toList := by cases value <;> rfl
    rw [CfgExpr.mapValues, CfgExpr.flag.injEq, hvalues]
    cases value <;> simp

lemma length_le_of_prints (h : expr.Prints text) : ∀ value ∈ expr.values, value.length ≤ text.length := by
  have hitems : ∀ items : List CfgExpr,
      (∀ item ∈ items, ∀ text, item.Prints text → ∀ value ∈ item.values, value.length ≤ text.length) →
        ∀ inside, ItemsPrint items inside → ∀ value ∈ (itemPredicates items).filterMap Prod.snd,
          value.length ≤ inside.length := by
    intro items ih
    induction items with
    | nil => exact fun _ _ _ hvalue => absurd hvalue List.not_mem_nil
    | cons item items ihItems =>
      rintro inside ⟨text, htext, hrest⟩
      have hfirst := ih item List.mem_cons_self text htext
      rw [forall_itemPredicates]
      rcases hrest with ⟨rfl, rfl⟩ | ⟨rest, hrest, rfl⟩
      · exact List.forall_mem_cons.mpr ⟨hfirst, fun _ hnext => absurd hnext List.not_mem_nil⟩
      · have hothers := ihItems (fun next hnext => ih next (List.mem_cons_of_mem _ hnext)) rest hrest
        rw [forall_itemPredicates] at hothers
        refine List.forall_mem_cons.mpr ⟨fun value hvalue => ?_, fun next hnext value hvalue => ?_⟩
        · have := hfirst value hvalue
          rw [List.length_append]
          omega
        · have := hothers next hnext value hvalue
          rw [List.length_append, List.length_cons]
          omega
  have hcalls : ∀ {keyword inside t : Text}, Call keyword inside t → inside.length ≤ t.length := by
    rintro keyword inside t ⟨front, after, -, -, rfl⟩
    simp only [List.length_append, List.length_cons]
    omega
  induction expr using CfgExpr.induct generalizing text with
  | all items ih =>
    obtain ⟨inside, hinside, hcall⟩ := h
    exact fun value hvalue =>
      (hitems items (fun item hitem _ => ih item hitem) inside hinside value hvalue).trans (hcalls hcall)
  | any items ih =>
    obtain ⟨inside, hinside, hcall⟩ := h
    exact fun value hvalue =>
      (hitems items (fun item hitem _ => ih item hitem) inside hinside value hvalue).trans (hcalls hcall)
  | not inner ih =>
    obtain ⟨inside, hinside, hcall⟩ := h
    exact fun value hvalue => (ih hinside value hvalue).trans (hcalls hcall)
  | flag key value =>
    cases value with
    | none => exact fun _ hvalue => absurd hvalue List.not_mem_nil
    | some value =>
      obtain ⟨-, front, middle, after, -, -, -, rfl⟩ := h
      have hlen := length_le_escapeValue value
      have hvalues : (CfgExpr.flag key (some value)).values = [value] := rfl
      rw [hvalues, List.forall_mem_singleton]
      simp only [List.length_append, List.length_cons]
      omega

/-- `parse_cfg` gives a printed predicate with the bytes of its values. -/
theorem parseCfg_of_prints (htext : expr.Prints text)
    (hbytes : utf8Len text ≤ maxCfgBytes) (hdepth : expr.nesting < maxCfgDepth) :
    parseCfg text = (expr.mapValues byteChars).readBack := by
  have hnesting : (expr.mapValues byteChars).nesting < maxCfgDepth := by rwa [nesting_mapValues]
  obtain ⟨blanks, hblanks, hparse⟩ :=
    readsBack _ _ (prints_byteChars htext) maxCfgDepth hnesting [] (fun _ hc => by simp at hc)
  rw [List.append_nil, List.append_nil] at hparse
  rw [parseCfg, if_neg (not_lt.mpr hbytes), hparse]
  cases (expr.mapValues byteChars).readBack with
  | error message => rfl
  | ok expr =>
    have hblank : skipWhitespace blanks = [] := List.dropWhile_eq_nil_iff.mpr hblanks
    dsimp only [Except.map]
    rw [if_pos hblank]

/-- `parse_cfg` gives a printed predicate back exactly when its values are ASCII. -/
theorem parseCfg_eq_iff (htext : expr.Prints text)
    (hbytes : utf8Len text ≤ maxCfgBytes) (hdepth : expr.nesting < maxCfgDepth) :
    parseCfg text = .ok expr ↔ ∀ value ∈ expr.values, IsAscii value := by
  rw [parseCfg_of_prints htext hbytes hdepth]
  have hsame : expr.mapValues byteChars = expr ↔ ∀ value ∈ expr.values, IsAscii value := by
    rw [mapValues_eq_iff]
    exact forall₂_congr fun _ _ => byteChars_eq_iff
  rw [← hsame, CfgExpr.readBack]
  split_ifs with hfits
  · exact ⟨fun h => Except.ok.inj h, fun h => congrArg _ h⟩
  · refine iff_of_false (fun h => by cases h) fun h => hfits fun value hvalue => ?_
    rw [h] at hvalue
    have hascii := hsame.mp h value hvalue
    rw [← length_byteChars, byteChars_of_isAscii hascii]
    exact (length_le_of_prints htext value hvalue).trans ((length_le_utf8Len text).trans hbytes)

/-! ## The condition of an attribute -/

/-- `balanced_end` passes over the text. -/
def Passes (text : Text) : Prop :=
  ∀ depth t, 0 < depth → balancedEnd depth false false (text ++ t) = (balancedEnd depth false false t).map (text ++ ·)

lemma Passes.append {s : Text} (hs : Passes s) (ht : Passes t) : Passes (s ++ t) := by
  intro depth u hdepth
  rw [List.append_assoc, hs depth _ hdepth, ht depth u hdepth, Option.map_map]
  refine congrFun (congrArg _ (funext fun rest => ?_)) _
  exact (List.append_assoc s t rest).symm

lemma passes_of_plain (h : ∀ c ∈ text, c ≠ '"' ∧ c ≠ '(' ∧ c ≠ ')') : Passes text := by
  induction text with
  | nil => exact fun depth t _ => (congrFun Option.map_id _).symm
  | cons c text ih =>
    obtain ⟨hquote, hopen, hclose⟩ := h c List.mem_cons_self
    intro depth t hdepth
    rw [List.cons_append, balancedEnd, if_neg hquote, if_neg hopen, if_neg hclose,
      ih (fun d hd => h d (List.mem_cons_of_mem _ hd)) depth t hdepth, Option.map_map]
    rfl

lemma Blank.passes (h : Blank text) : Passes text := by
  refine passes_of_plain fun c hc => ⟨?_, ?_, ?_⟩
  all_goals
    rintro rfl
    exact absurd (h _ hc) (by decide)

lemma Spaced.passes {word front : Text} (hword : IsName word) (h : Spaced word front) : Passes front := by
  obtain ⟨before, after, hbefore, hafter, rfl⟩ := h
  refine (hbefore.passes.append (passes_of_plain fun c hc => ⟨?_, ?_, ?_⟩)).append hafter.passes
  all_goals
    rintro rfl
    exact absurd (hword.2 _ hc) (by decide)

lemma balancedEnd_escapeValue (depth : ℕ) (value t : Text) :
    balancedEnd depth true false (escapeValue value ++ '"' :: t) =
      (balancedEnd depth false false t).map (escapeValue value ++ '"' :: ·) := by
  induction value with
  | nil =>
    have hempty : escapeValue [] = [] := rfl
    rw [hempty, List.nil_append, balancedEnd, if_neg (by decide), if_neg (by decide)]
    rfl
  | cons c value ih =>
    rw [escapeValue, List.flatMap_cons, ← escapeValue]
    by_cases hescaped : c = '"' ∨ c = '\\'
    · rw [if_pos hescaped, List.append_assoc, List.cons_append, List.cons_append, List.nil_append, balancedEnd,
        if_neg (by decide), if_pos rfl, balancedEnd, if_pos rfl, ih, Option.map_map, Option.map_map]
      rfl
    · rw [if_neg hescaped, List.append_assoc, List.singleton_append]
      rw [not_or] at hescaped
      rw [balancedEnd, if_neg (by decide), if_neg hescaped.2, decide_eq_true hescaped.1, ih, Option.map_map]
      rfl

lemma passes_quoted (value : Text) : Passes ('"' :: escapeValue value ++ ['"']) := by
  intro depth t _
  rw [List.append_assoc, List.cons_append, balancedEnd, if_pos rfl, List.singleton_append,
    balancedEnd_escapeValue, Option.map_map]
  refine congrFun (congrArg _ (funext fun rest => ?_)) _
  simp

lemma passes_parenthesized (h : Passes inside) : Passes ('(' :: inside ++ [')']) := by
  intro depth t hdepth
  rw [List.append_assoc, List.cons_append, List.singleton_append, balancedEnd, if_neg (by decide), if_pos rfl,
    h (depth + 1) _ (Nat.succ_pos depth), balancedEnd, if_neg (by decide), if_neg (by decide), if_pos rfl,
    if_neg (by omega), Nat.add_sub_cancel, Option.map_map, Option.map_map]
  refine congrFun (congrArg _ (funext fun rest => ?_)) _
  simp

lemma Call.passes {keyword : Text} (h : Call keyword inside t) (hkeyword : IsName keyword)
    (hinside : Passes inside) : Passes t := by
  obtain ⟨front, after, hfront, hafter, rfl⟩ := h
  have hcall := ((hfront.passes hkeyword).append (passes_parenthesized hinside)).append hafter.passes
  simpa only [List.append_assoc, List.cons_append, List.nil_append] using hcall

/-- A printed predicate is balanced. -/
theorem CfgExpr.Prints.passes (h : expr.Prints text) : Passes text := by
  have hitems : ∀ items : List CfgExpr, (∀ item ∈ items, ∀ text, item.Prints text → Passes text) →
      ∀ inside, ItemsPrint items inside → Passes inside := by
    intro items ih
    induction items with
    | nil => exact fun inside hinside => Blank.passes hinside
    | cons item items ihItems =>
      rintro inside ⟨text, htext, hrest⟩
      have hfirst := ih item List.mem_cons_self text htext
      rcases hrest with ⟨-, rfl⟩ | ⟨rest, hrest, rfl⟩
      · exact hfirst
      · have hcomma : Passes [','] := passes_of_plain (by simp)
        exact hfirst.append
          (hcomma.append (ihItems (fun next hnext => ih next (List.mem_cons_of_mem _ hnext)) rest hrest))
  induction expr using CfgExpr.induct generalizing text with
  | all items ih =>
    obtain ⟨inside, hinside, hcall⟩ := h
    exact hcall.passes isName_keyword.1 (hitems items (fun item hitem _ => ih item hitem) inside hinside)
  | any items ih =>
    obtain ⟨inside, hinside, hcall⟩ := h
    exact hcall.passes isName_keyword.2.1 (hitems items (fun item hitem _ => ih item hitem) inside hinside)
  | not inner ih =>
    obtain ⟨inside, hinside, hcall⟩ := h
    exact hcall.passes isName_keyword.2.2 (ih hinside)
  | flag key value =>
    cases value with
    | none => exact h.2.passes h.1
    | some value =>
      obtain ⟨hkey, front, middle, after, hfront, hmiddle, hafter, rfl⟩ := h
      have hequals : Passes ['='] := passes_of_plain (by simp)
      have hvalue := ((hfront.passes hkey).append hequals).append
        ((hmiddle.passes.append (passes_quoted value)).append hafter.passes)
      simpa only [List.append_assoc, List.cons_append, List.nil_append] using hvalue

def attributeLine (text rest : Text) : Text := outerMarker ++ (text ++ ')' :: ']' :: rest)

/-- An inner attribute in the line of an attribute has the same condition. -/
def InnerAgrees (text rest : Text) : Prop :=
  ∀ before after, splitOnce innerMarker (attributeLine text rest) = some (before, after) →
    (balancedEnd 1 false false after).map trim = some (trim text)

/-- The condition is found in its line, unless an inner attribute is. -/
theorem extractCfgCondition_iff (htext : expr.Prints text) (rest : Text) :
    extractCfgCondition (attributeLine text rest) = some (trim text) ↔ InnerAgrees text rest := by
  unfold extractCfgCondition InnerAgrees
  cases splitOnce innerMarker (attributeLine text rest) with
  | none =>
    refine iff_of_true ?_ fun _ _ h => by simp at h
    have hmarker : outerMarker ≠ [] := by decide
    have houter : splitOnce outerMarker ([] ++ outerMarker ++ (text ++ ')' :: ']' :: rest)) =
        some ([], text ++ ')' :: ']' :: rest) :=
      splitOnce_of_first hmarker fun front c rest h => absurd h (by simp)
    have hclose : balancedEnd 1 false false (text ++ ')' :: ']' :: rest) = some text := by
      rw [htext.passes 1 _ Nat.one_pos, balancedEnd, if_neg (by decide), if_neg (by decide), if_pos rfl, if_pos rfl]
      simp
    rw [List.nil_append] at houter
    rw [Option.none_or, attributeLine, houter, Option.bind_some, hclose]
    rfl
  | some parts =>
    rw [Option.some_or, Option.bind_some]
    constructor
    · rintro h before after hparts
      rw [Option.some.inj hparts] at h
      exact h
    · exact fun h => h parts.1 parts.2 rfl

/-! ## The round trip -/

/-- A printed predicate is parsed again, and found as the condition of its attribute. -/
def RoundTrips (expr : CfgExpr) (text rest : Text) : Prop :=
  parseCfg text = .ok expr ∧ extractCfgCondition (attributeLine text rest) = some (trim text)

/-- A printed predicate comes back exactly when its values are ASCII and no other inner attribute is
found. -/
theorem cfg_round_trip_iff {expr : CfgExpr} {text : Text} (htext : expr.Prints text)
    (hbytes : utf8Len text ≤ maxCfgBytes) (hdepth : expr.nesting < maxCfgDepth) (rest : Text) :
    RoundTrips expr text rest ↔ (∀ value ∈ expr.values, IsAscii value) ∧ InnerAgrees text rest := by
  rw [RoundTrips, parseCfg_eq_iff htext hbytes hdepth, extractCfgCondition_iff htext]

/-- A name alone makes the round trip. -/
theorem cfg_round_trip_unix : RoundTrips (.flag "unix".toList none) "unix".toList " fn f() {}".toList := by
  have hname : IsName "unix".toList := ⟨by decide, List.all_eq_true.mp (by decide)⟩
  have hempty : Blank [] := fun _ h => absurd h List.not_mem_nil
  have hprints : (CfgExpr.flag "unix".toList none).Prints "unix".toList :=
    ⟨hname, [], [], hempty, hempty, by decide⟩
  refine (cfg_round_trip_iff hprints (by decide) (by decide) _).mpr ⟨fun _ h => absurd h List.not_mem_nil, ?_⟩
  intro before after h
  have hnone : splitOnce innerMarker (attributeLine "unix".toList " fn f() {}".toList) = none := by decide
  rw [hnone] at h
  exact absurd h (by simp)

/-- A value with an accent. -/
def accentedExpr : CfgExpr := .flag "feature".toList (some ['\u00e9'])

def accentedText : Text := "feature = \"".toList ++ '\u00e9' :: "\"".toList

lemma accentedExpr_prints : accentedExpr.Prints accentedText := by
  have hname : IsName "feature".toList := ⟨by decide, List.all_eq_true.mp (by decide)⟩
  have hblank : Blank [' '] := List.all_eq_true.mp (by decide)
  have hempty : Blank [] := fun _ h => absurd h List.not_mem_nil
  exact ⟨hname, "feature ".toList, [' '], [], ⟨[], [' '], hempty, hblank, by decide⟩, hblank, hempty, by decide⟩

/-- A value with an accent is not read back. -/
theorem accented_value_is_misread :
    ¬ ∀ (expr : CfgExpr) (text rest : Text), expr.Prints text → utf8Len text ≤ maxCfgBytes →
      expr.nesting < maxCfgDepth → RoundTrips expr text rest := by
  intro h
  have hread := (h accentedExpr accentedText [] accentedExpr_prints (by decide) (by decide)).1
  have hascii := (parseCfg_eq_iff accentedExpr_prints (by decide) (by decide)).mp hread ['\u00e9']
    (List.mem_singleton.mpr rfl) '\u00e9' (List.mem_singleton.mpr rfl)
  exact absurd hascii (by decide)

end AgzRustMcp.Explain
