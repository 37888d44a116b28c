import AgzRustMcp.Explain.CfgParser

/-!
# Printed cfg predicates

`CfgExpr.Prints` says which texts a predicate is printed as: with any blanks between its words and a comma
behind the last item or not.  `readsBack` follows the parser through such a text, item by item.
-/

namespace AgzRustMcp.Explain

open Utf8Text
open String (utf8Len)

/-! ## Printed forms -/

/-- Blanks only. -/
def Blank (t : Text) : Prop := ∀ c ∈ t, isBlank c = true

/-- A name: letters, digits, underscores and dashes. -/
def IsName (t : Text) : Prop := t ≠ [] ∧ ∀ c ∈ t, isIdentChar c = true

/-- A value within quotes, with a backslash before every quote and backslash. -/
def escapeValue (value : Text) : Text :=
  value.flatMap fun c => if c = '"' ∨ c = '\\' then ['\\', c] else [c]

/-- A name or keyword with blanks around it. -/
def Spaced (word t : Text) : Prop := ∃ before after, Blank before ∧ Blank after ∧ t = before ++ word ++ after

def Call (keyword inside t : Text) : Prop :=
  ∃ front after, Spaced keyword front ∧ Blank after ∧ t = front ++ '(' :: inside ++ ')' :: after

mutual

def CfgExpr.Prints : CfgExpr → Text → Prop
  | .all items, t => ∃ inside, ItemsPrint items inside ∧ Call "all".toList inside t
  | .any items, t => ∃ inside, ItemsPrint items inside ∧ Call "any".toList inside t
  | .not inner, t => ∃ inside, inner.Prints inside ∧ Call "not".toList inside t
  | .flag key none, t => IsName key ∧ Spaced key t
  | .flag key (some value), t => IsName key ∧ ∃ front middle after, Spaced key front ∧ Blank middle ∧
      Blank after ∧ t = front ++ '=' :: middle ++ '"' :: escapeValue value ++ '"' :: after

/-- The texts of items with commas between them, and perhaps one behind the last. -/
def ItemsPrint : List CfgExpr → Text → Prop
  | [], t => Blank t
  | item :: items, t => ∃ text, item.Prints text ∧
      ((items = [] ∧ t = text) ∨ ∃ rest, ItemsPrint items rest ∧ t = text ++ ',' :: rest)

end

mutual

/-- How many calls are around the innermost name. -/
def CfgExpr.nesting : CfgExpr → ℕ
  | .all items => itemsNesting items
  | .any items => itemsNesting items
  | .not inner => inner.nesting + 1
  | .flag _ _ => 0

def itemsNesting : List CfgExpr → ℕ
  | [] => 0
  | item :: items => max (item.nesting + 1) (itemsNesting items)

end

def CfgExpr.values (expr : CfgExpr) : List Text := expr.predicates.filterMap Prod.snd

mutual

/-- A predicate with its values replaced. -/
def CfgExpr.mapValues (f : Text → Text) : CfgExpr → CfgExpr
  | .all items => .all (mapItems f items)
  | .any items => .any (mapItems f items)
  | .not inner => .not (inner.mapValues f)
  | .flag key value => .flag key (value.map f)

def mapItems (f : Text → Text) : List CfgExpr → List CfgExpr
  | [] => []
  | item :: items => item.mapValues f :: mapItems f items

end

/-! ## Single parsers -/

lemma skipWhitespace_append {blanks : Text} (h : Blank blanks) (t : Text) :
    skipWhitespace (blanks ++ t) = skipWhitespace t :=
  List.dropWhile_append_of_pos h

variable {c : Char} {word t inside : Text} {items : List CfgExpr} {room : ℕ}

lemma skipWhitespace_cons (h : isBlank c = false) (t : Text) : skipWhitespace (c :: t) = c :: t := by
  rw [skipWhitespace, List.dropWhile_cons_of_neg (by simp [h])]

lemma not_blank_of_isIdentChar (h : isIdentChar c = true) : isBlank c = false := by
  by_contra hblank
  rw [Bool.not_eq_false] at hblank
  simp only [isBlank, Bool.or_eq_true, beq_iff_eq] at hblank
  rcases hblank with (((rfl | rfl) | rfl) | rfl) | rfl
  all_goals exact absurd h (by decide)

lemma parseIdent_append {before : Text} (hbefore : Blank before) (hword : IsName word)
    (ht : ∀ c ∈ t.head?, isIdentChar c = false) :
    parseIdent (skipWhitespace (before ++ word ++ t)) = .ok (word, t) := by
  obtain ⟨hne, hchars⟩ := hword
  obtain ⟨c, rest, rfl⟩ := List.exists_cons_of_ne_nil hne
  have hskip : skipWhitespace (before ++ (c :: rest) ++ t) = c :: rest ++ t := by
    rw [List.append_assoc, skipWhitespace_append hbefore, List.cons_append,
      skipWhitespace_cons (not_blank_of_isIdentChar (hchars c List.mem_cons_self))]
  have htake : (c :: rest ++ t).takeWhile isIdentChar = c :: rest := by
    rw [List.takeWhile_append_of_pos hchars]
    cases t with
    | nil => simp
    | cons d t => simp [ht d rfl]
  have hdrop : (c :: rest ++ t).dropWhile isIdentChar = t := by
    rw [List.dropWhile_append_of_pos hchars]
    cases t with
    | nil => simp
    | cons d t => simp [ht d rfl]
  rw [hskip, parseIdent, htake, hdrop, if_neg (List.cons_ne_nil _ _)]

lemma parseQuoted_quote (acc t : Text) : parseQuoted acc ('"' :: t) = .ok (acc, t) := by
  rw [parseQuoted.eq_def]
  exact if_pos rfl

lemma parseQuoted_cons (acc : Text) (c : Char) (t : Text) :
    parseQuoted acc ((if c = '"' ∨ c = '\\' then ['\\', c] else [c]) ++ t) =
      if maxCfgBytes < utf8Len (acc ++ [c]) then .error "cfg value is too long"
      else parseQuoted (acc ++ [c]) t := by
  by_cases hescaped : c = '"' ∨ c = '\\'
  · rw [if_pos hescaped, parseQuoted.eq_def]
    exact (if_neg (by decide)).trans (if_pos rfl)
  · rw [if_neg hescaped, parseQuoted.eq_def]
    rw [not_or] at hescaped
    exact (if_neg hescaped.1).trans (if_neg hescaped.2)

lemma parseQuoted_escapeValue (acc value t : Text) (hacc : utf8Len acc ≤ maxCfgBytes) :
    parseQuoted acc (escapeValue value ++ '"' :: t) =
      if utf8Len (acc ++ value) ≤ maxCfgBytes then .ok (acc ++ value, t) else .error "cfg value is too long" := by
  induction value generalizing acc with
  | nil =>
    rw [List.append_nil, if_pos hacc]
    exact parseQuoted_quote acc t
  | cons c value ih =>
    have hassoc : acc ++ c :: value = acc ++ [c] ++ value := by simp
    rw [escapeValue, List.flatMap_cons, List.append_assoc, parseQuoted_cons, hassoc]
    split_ifs with hlong hfits hfits
    · rw [String.utf8Len_append] at hfits
      omega
    · rfl
    · rw [← escapeValue, ih _ (not_lt.mp hlong), if_pos hfits]
    · rw [← escapeValue, ih _ (not_lt.mp hlong), if_neg hfits]

/-! ## Predicates -/

/-- The next character neither is a blank nor continues a name. -/
def Separates (t : Text) : Prop := ∀ c ∈ t.head?, isBlank c = false ∧ isIdentChar c = false

/-- A text that may follow an item: nothing, a comma or a closing parenthesis. -/
def Ends (t : Text) : Prop := ∀ c ∈ t.head?, c = ',' ∨ c = ')'

lemma separates_cons (h : isBlank c = false ∧ isIdentChar c = false) (t : Text) : Separates (c :: t) := by
  intro d hd
  obtain rfl := Option.some.inj hd
  exact h

lemma Ends.separates (h : Ends t) : Separates t := by
  intro c hc
  rcases h c hc with rfl | rfl <;> decide

lemma Separates.skipWhitespace {t : Text} (h : Separates t) : skipWhitespace t = t := by
  cases t with
  | nil => rfl
  | cons c t => exact skipWhitespace_cons (h c rfl).1 t

lemma eat_cons_self (c : Char) (t : Text) : eat c (c :: t) = some t := if_pos rfl

lemma eat_cons_of_ne {d : Char} (h : d ≠ c) (t : Text) : eat c (d :: t) = none := if_neg h

lemma Ends.eat {t : Text} (h : Ends t) {c : Char} (hcomma : c ≠ ',') (hclose : c ≠ ')') : eat c t = none := by
  cases t with
  | nil => rfl
  | cons d t =>
    refine eat_cons_of_ne (fun heq => ?_) t
    rcases h d rfl with rfl | rfl
    · exact hcomma heq.symm
    · exact hclose heq.symm

lemma isName_keyword : IsName "all".toList ∧ IsName "any".toList ∧ IsName "not".toList := by
  have hname : ∀ word : Text, word ≠ [] → word.all isIdentChar = true → IsName word :=
    fun word hne hall => ⟨hne, List.all_eq_true.mp hall⟩
  exact ⟨hname _ (by decide) (by decide), hname _ (by decide) (by decide), hname _ (by decide) (by decide)⟩

lemma parseExpr_spaced {front : Text} (hword : IsName word) (hfront : Spaced word front)
    (ht : Separates t) (room : ℕ) : parseExpr (room + 1) (front ++ t) = parseOperand (parseExpr room) word t := by
  obtain ⟨before, after, hbefore, hafter, rfl⟩ := hfront
  have hnext : ∀ c ∈ (after ++ t).head?, isIdentChar c = false := by
    intro c hc
    cases after with
    | nil => exact (ht c hc).2
    | cons d after =>
      obtain rfl : d = c := Option.some.inj hc
      rw [Bool.eq_false_iff]
      intro hident
      have hblank := not_blank_of_isIdentChar hident
      rw [hafter d List.mem_cons_self] at hblank
      exact Bool.noConfusion hblank
  rw [parseExpr, List.append_assoc, parseIdent_append hbefore hword hnext]
  dsimp only
  rw [skipWhitespace_append hafter, ht.skipWhitespace]

lemma parseExpr_skipWhitespace (room : ℕ) (t : Text) : parseExpr room (skipWhitespace t) = parseExpr room t := by
  have hidem : skipWhitespace (skipWhitespace t) = skipWhitespace t := List.dropWhile_idempotent _ t
  cases room with
  | zero => rfl
  | succ room => rw [parseExpr, parseExpr, hidem]

lemma Spaced.exists_head {front : Text} (hword : IsName word) (hfront : Spaced word front) (t : Text) :
    ∃ c rest, skipWhitespace (front ++ t) = c :: rest ∧ isIdentChar c = true := by
  obtain ⟨before, after, hbefore, -, rfl⟩ := hfront
  obtain ⟨c, rest, rfl⟩ := List.exists_cons_of_ne_nil hword.1
  have hc := hword.2 c List.mem_cons_self
  refine ⟨c, rest ++ (after ++ t), ?_, hc⟩
  rw [List.append_assoc, List.append_assoc, skipWhitespace_append hbefore, List.cons_append,
    skipWhitespace_cons (not_blank_of_isIdentChar hc)]

lemma CfgExpr.Prints.exists_front {expr : CfgExpr} {text : Text} (h : expr.Prints text) :
    ∃ word front rest, IsName word ∧ Spaced word front ∧ text = front ++ rest := by
  cases expr with
  | all items =>
    obtain ⟨inside, -, front, after, hfront, -, rfl⟩ := h
    exact ⟨_, front, _, isName_keyword.1, hfront, List.append_assoc _ _ _⟩
  | any items =>
    obtain ⟨inside, -, front, after, hfront, -, rfl⟩ := h
    exact ⟨_, front, _, isName_keyword.2.1, hfront, List.append_assoc _ _ _⟩
  | not inner =>
    obtain ⟨inside, -, front, after, hfront, -, rfl⟩ := h
    exact ⟨_, front, _, isName_keyword.2.2, hfront, List.append_assoc _ _ _⟩
  | flag key value =>
    cases value with
    | none => exact ⟨key, text, [], h.1, h.2, (List.append_nil _).symm⟩
    | some value =>
      obtain ⟨hkey, front, middle, after, hfront, -, -, rfl⟩ := h
      refine ⟨key, front, '=' :: middle ++ '"' :: escapeValue value ++ '"' :: after, hkey, hfront, ?_⟩
      simp [List.append_assoc]

/-- What is read of a printed predicate, unless a value is too long. -/
def CfgExpr.readBack (expr : CfgExpr) : Except String CfgExpr :=
  if ∀ value ∈ expr.values, utf8Len value ≤ maxCfgBytes then .ok expr else .error "cfg value is too long"

/-- A printed predicate is read back from the front of a text. -/
def ReadsBack (expr : CfgExpr) : Prop :=
  ∀ text, expr.Prints text → ∀ room, expr.nesting < room → ∀ t, Ends t → ∃ blanks, Blank blanks ∧
      parseExpr room (text ++ t) = expr.readBack.map fun expr => (expr, blanks ++ t)

lemma length_le_of_itemsPrint (h : ItemsPrint items inside) : items.length ≤ inside.length := by
  induction items generalizing inside with
  | nil => exact Nat.zero_le _
  | cons item items ih =>
    obtain ⟨text, htext, hrest⟩ := h
    obtain ⟨word, front, rest, hword, ⟨before, after, -, -, rfl⟩, rfl⟩ := htext.exists_front
    have hlen := List.length_pos_of_ne_nil hword.1
    rcases hrest with ⟨rfl, rfl⟩ | ⟨rest', hrest', rfl⟩
    · simp only [List.length_append, List.length_cons, List.length_nil]
      omega
    · have := ih hrest'
      simp only [List.length_append, List.length_cons]
      omega

lemma parseItems_turn {item : CfgExpr} (hitem : ReadsBack item) (hroom : item.nesting < room)
    {text : Text} (htext : item.Prints text) (ht : Ends t) (turns : ℕ) (acc : List CfgExpr) :
    parseItems (parseExpr room) (turns + 1) acc (text ++ t) =
      if ∀ value ∈ item.values, utf8Len value ≤ maxCfgBytes then
        match eat ',' t with
        | some rest => parseItems (parseExpr room) turns (acc ++ [item]) rest
        | none =>
          match eat ')' t with
          | some rest => .ok (acc ++ [item], rest)
          | none => .error "expected `,` or `)` in cfg list"
      else .error "cfg value is too long" := by
  have hopen : eat ')' (skipWhitespace (text ++ t)) = none := by
    obtain ⟨word, front, rest, hword, hfront, rfl⟩ := htext.exists_front
    obtain ⟨c, rest', hhead, hc⟩ := hfront.exists_head hword (rest ++ t)
    rw [List.append_assoc, hhead]
    exact eat_cons_of_ne (fun heq => absurd hc (by rw [heq]; decide)) _
  obtain ⟨blanks, hblanks, hparse⟩ := hitem text htext room hroom t ht
  rw [parseItems, hopen, parseExpr_skipWhitespace, hparse, CfgExpr.readBack]
  split_ifs with hfits
  · dsimp only [Except.map]
    rw [skipWhitespace_append hblanks, ht.separates.skipWhitespace] <;> rfl
  · rfl

lemma parseItems_prints (hitems : ∀ item ∈ items, ReadsBack item)
    (hroom : itemsNesting items ≤ room) (hinside : ItemsPrint items inside) {turns : ℕ}
    (hturns : items.length < turns) (acc : List CfgExpr) (t : Text) :
    parseItems (parseExpr room) turns acc (inside ++ ')' :: t) =
      if ∀ item ∈ items, ∀ value ∈ item.values, utf8Len value ≤ maxCfgBytes then .ok (acc ++ items, t)
      else .error "cfg value is too long" := by
  obtain ⟨turns, rfl⟩ : ∃ n, turns = n + 1 := ⟨turns - 1, by omega⟩
  have hclose : isBlank ')' = false ∧ isIdentChar ')' = false := by decide
  induction items generalizing inside turns acc with
  | nil =>
    rw [if_pos (fun _ h => absurd h List.not_mem_nil), List.append_nil, parseItems,
      skipWhitespace_append hinside, (separates_cons hclose t).skipWhitespace, eat_cons_self]
  | cons item items ih =>
    obtain ⟨text, htext, hrest⟩ := hinside
    rw [itemsNesting, max_le_iff] at hroom
    rw [List.length_cons] at hturns
    have hitem := hitems item List.mem_cons_self
    have hall : (∀ next ∈ item :: items, ∀ value ∈ next.values, utf8Len value ≤ maxCfgBytes) ↔
        (∀ value ∈ item.values, utf8Len value ≤ maxCfgBytes) ∧
          ∀ next ∈ items, ∀ value ∈ next.values, utf8Len value ≤ maxCfgBytes := List.forall_mem_cons
    simp only [hall, ite_and]
    rcases hrest with ⟨rfl, rfl⟩ | ⟨rest, hrest, rfl⟩
    · have hends : Ends (')' :: t) := fun c hc => Or.inr (Option.some.inj hc).symm
      rw [parseItems_turn hitem hroom.1 htext hends, eat_cons_of_ne (by decide), eat_cons_self]
      simp
    · have hends : Ends (',' :: (rest ++ ')' :: t)) := fun c hc => Or.inl (Option.some.inj hc).symm
      obtain ⟨turns, rfl⟩ : ∃ n, turns = n + 1 := ⟨turns - 1, by omega⟩
      rw [List.append_assoc, List.cons_append, parseItems_turn hitem hroom.1 htext hends, eat_cons_self]
      dsimp only
      rw [ih (fun next hnext => hitems next (List.mem_cons_of_mem _ hnext)) hroom.2 hrest _ _ (by omega),
        List.append_assoc, List.singleton_append]

lemma forall_itemPredicates {P : Text → Prop} : (∀ value ∈ (itemPredicates items).filterMap Prod.snd, P value) ↔
      ∀ item ∈ items, ∀ value ∈ item.values, P value := by
  rw [itemPredicates_eq, List.filterMap_flatMap]
  simp only [List.mem_flatMap, CfgExpr.values]
  exact ⟨fun h item hitem value hvalue => h value ⟨item, hitem, hvalue⟩,
    fun h value ⟨item, hitem, hvalue⟩ => h item hitem value hvalue⟩

lemma parseItems_call (hitems : ∀ item ∈ items, ReadsBack item)
    (hroom : itemsNesting items < room + 1) (hinside : ItemsPrint items inside)
    (call : List CfgExpr → CfgExpr) (hcall : (call items).values = (itemPredicates items).filterMap Prod.snd)
    (t : Text) : (parseItems (parseExpr room) ((inside ++ ')' :: t).length + 1) [] (inside ++ ')' :: t)).map
        (fun parsed => (call parsed.1, parsed.2)) = (call items).readBack.map fun expr => (expr, t) := by
  have hlen := length_le_of_itemsPrint hinside
  have hturns : items.length < (inside ++ ')' :: t).length + 1 := by
    rw [List.length_append]
    omega
  rw [parseItems_prints hitems (Nat.lt_succ_iff.mp hroom) hinside hturns, CfgExpr.readBack, hcall]
  simp only [forall_itemPredicates, List.nil_append]
  split_ifs <;> rfl

/-- Every printed predicate is read back. -/
theorem readsBack (expr : CfgExpr) : ReadsBack expr := by
  have hopen : isBlank '(' = false ∧ isIdentChar '(' = false := by decide
  induction expr using CfgExpr.induct with
  | all items ih =>
    rintro text ⟨inside, hinside, front, after, hfront, hafter, rfl⟩ room hroom t -
    obtain ⟨room, rfl⟩ : ∃ n, room = n + 1 := ⟨room - 1, by omega⟩
    refine ⟨after, hafter, ?_⟩
    simp only [List.append_assoc, List.cons_append]
    rw [parseExpr_spaced isName_keyword.1 hfront (separates_cons hopen _), parseOperand, eat_cons_self]
    exact parseItems_call ih hroom hinside .all rfl (after ++ t)
  | any items ih =>
    rintro text ⟨inside, hinside, front, after, hfront, hafter, rfl⟩ room hroom t -
    obtain ⟨room, rfl⟩ : ∃ n, room = n + 1 := ⟨room - 1, by omega⟩
    refine ⟨after, hafter, ?_⟩
    simp only [List.append_assoc, List.cons_append]
    rw [parseExpr_spaced isName_keyword.2.1 hfront (separates_cons hopen _), parseOperand, eat_cons_self]
    exact parseItems_call ih hroom hinside .any rfl (after ++ t)
  | not inner ih =>
    rintro text ⟨inside, hinside, front, after, hfront, hafter, rfl⟩ room hroom t -
    obtain ⟨room, rfl⟩ : ∃ n, room = n + 1 := ⟨room - 1, by omega⟩
    refine ⟨after, hafter, ?_⟩
    have hclose : isBlank ')' = false ∧ isIdentChar ')' = false := by decide
    have hends : Ends (')' :: (after ++ t)) := fun c hc => Or.inr (Option.some.inj hc).symm
    obtain ⟨blanks, hblanks, hparse⟩ := ih inside hinside room (Nat.lt_of_succ_lt_succ hroom) _ hends
    simp only [List.append_assoc, List.cons_append]
    rw [parseExpr_spaced isName_keyword.2.2 hfront (separates_cons hopen _), parseOperand, eat_cons_self]
    dsimp only
    rw [parseCall, if_neg (by decide), if_neg (by decide), if_pos rfl, hparse]
    have hvalues : (CfgExpr.not inner).values = inner.values := rfl
    rw [CfgExpr.readBack, CfgExpr.readBack, hvalues]
    split_ifs
    · dsimp only [Except.map]
      rw [skipWhitespace_append hblanks, (separates_cons hclose _).skipWhitespace, eat_cons_self]
    · rfl
  | flag key value =>
    intro text htext room hroom t ht
    obtain ⟨room, rfl⟩ : ∃ n, room = n + 1 := ⟨room - 1, by omega⟩
    cases value with
    | none =>
      obtain ⟨hkey, hspaced⟩ := htext
      refine ⟨[], fun _ h => absurd h List.not_mem_nil, ?_⟩
      have hvalues : (CfgExpr.flag key none).values = [] := rfl
      rw [parseExpr_spaced hkey hspaced ht.separates, parseOperand, ht.eat (by decide) (by decide),
        ht.eat (by decide) (by decide), CfgExpr.readBack, hvalues, if_pos (fun _ h => absurd h List.not_mem_nil)]
      rfl
    | some value =>
      obtain ⟨hkey, front, middle, after, hfront, hmiddle, hafter, rfl⟩ := htext
      refine ⟨after, hafter, ?_⟩
      have hequals : isBlank '=' = false ∧ isIdentChar '=' = false := by decide
      have hquote : isBlank '"' = false ∧ isIdentChar '"' = false := by decide
      have hvalues : (CfgExpr.flag key (some value)).values = [value] := rfl
      simp only [List.append_assoc, List.cons_append]
      rw [parseExpr_spaced hkey hfront (separates_cons hequals _), parseOperand, eat_cons_of_ne (by decide),
        eat_cons_self]
      dsimp only
      rw [skipWhitespace_append hmiddle, (separates_cons hquote _).skipWhitespace, parseString, eat_cons_self]
      dsimp only
      rw [parseQuoted_escapeValue [] value _ (Nat.zero_le _), CfgExpr.readBack, hvalues]
      simp only [List.nil_append, List.mem_singleton, forall_eq]
      split_ifs <;> rfl

end AgzRustMcp.Explain
