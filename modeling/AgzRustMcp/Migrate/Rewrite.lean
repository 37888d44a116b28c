import AgzRustMcp.Migrate.Lexer

/-!
# Delimiters and lists

`pair_delimiters` and `split_top_level` of `change/migrate/rewrite.rs`.  A delimiter that is closed behind
a nested text is paired with its closing delimiter (`pairs_of_group`).
-/

namespace AgzRustMcp

open Utf8Text

def Token.isPunct (token : Token) (c : Char) : Bool := token.kind == .punct c

def Token.isOpen (token : Token) : Bool :=
  match token.kind with
  | .opening _ => true
  | _ => false

def Token.isComment (token : Token) : Bool := token.kind == .comment

/-- The token is a closing delimiter. -/
def Token.isClose (token : Token) : Bool :=
  match token.kind with
  | .closing _ => true
  | _ => false

structure ParsedFile where
  tokens : List Token
  balanced : Bool

/-! ## Pairs of delimiters -/

/-- The state of `pair_delimiters`. -/
structure Pairing where
  tokens : List Token
  stack : List ℕ
  balanced : Bool

/-- The token has its partner. -/
def Token.withPair (pair : ℕ) (token : Token) : Token := { token with pair := some pair }

/-- The closing delimiter that is expected behind a token. -/
def expectedClose (token : Option Token) (close : Char) : Char :=
  match token.map Token.kind with
  | some (.opening '(') => ')'
  | some (.opening '[') => ']'
  | some (.opening '\x7b') => '\x7d'
  | _ => close

/-- One step of `pair_delimiters`. -/
def pairStep (state : Pairing) (index : ℕ) : Pairing :=
  match (state.tokens[index]?).map Token.kind with
  | some (.opening _) => { state with stack := index :: state.stack }
  | some (.closing close) =>
    match state.stack with
    | [] => { state with balanced := false }
    | openIndex :: stack =>
      ⟨(state.tokens.modify openIndex (Token.withPair index)).modify index (Token.withPair openIndex), stack,
        state.balanced && expectedClose state.tokens[openIndex]? close == close⟩
  | _ => state

def pairFrom (state : Pairing) (index count : ℕ) : Pairing :=
  (List.range' index count).foldl pairStep state

def pairDelimiters (tokens : List Token) : ParsedFile :=
  let state := pairFrom ⟨tokens, [], true⟩ 0 tokens.length
  ⟨state.tokens, state.balanced && state.stack.isEmpty⟩

def tokenize (classes : CharClasses) (source : Text) : ParsedFile := pairDelimiters (lex classes source)

/-! ## Lists -/

/-- The state of the loop of `split_top_level`. -/
structure SplitState where
  items : List (ℕ × ℕ) := []
  itemStart : Option ℕ := none
  angle : ℕ := 0
  deriving DecidableEq

/-- An item starts at a token, unless one has started before it. -/
def SplitState.start (state : SplitState) (token : Token) : SplitState :=
  { state with itemStart := some (state.itemStart.getD token.start) }

def SplitState.endItem (state : SplitState) (token : Token) : SplitState :=
  match state.itemStart with
  | some start => { state with items := state.items ++ [(start, token.start)], itemStart := none }
  | none => state

/-- What one token does in `split_top_level`. -/
def splitStep (state : SplitState) (token : Token) : SplitState :=
  if token.isOpen then state.start token
  else if token.isPunct '<' then { state.start token with angle := state.angle + 1 }
  else if token.isPunct '>' ∧ 0 < state.angle then { state with angle := state.angle - 1 }
  else if token.isPunct ',' ∧ state.angle = 0 then state.endItem token
  else state.start token

/-- The loop of `split_top_level`; `fuel` counts tokens and pairs. -/
def splitLoop (tokens : List Token) (close : ℕ) : ℕ → ℕ → SplitState → Option SplitState
  | 0, _, _ => none
  | fuel + 1, cursor, state =>
    if cursor < close then
      (tokens[cursor]?).bind fun token =>
        if token.isOpen then
          token.pair.bind fun pair => splitLoop tokens close fuel (pair + 1) (splitStep state token)
        else splitLoop tokens close fuel (cursor + 1) (splitStep state token)
    else some state

/-- The items, with the one that ends at the closing delimiter. -/
def SplitState.finish (state : SplitState) (close : ℕ) : List (ℕ × ℕ) :=
  match state.itemStart with
  | some start => state.items ++ [(start, close)]
  | none => state.items

def splitTopLevel (parsed : ParsedFile) (opener close : ℕ) : Option (List (ℕ × ℕ)) :=
  if ¬ parsed.balanced ∨ close ≤ opener ∨ parsed.tokens.length ≤ close then none
  else
    (splitLoop parsed.tokens close parsed.tokens.length (opener + 1) {}).bind fun state =>
      (parsed.tokens[close]?).map fun token =>
        (state.finish token.start).filter fun item => item.1 < item.2

/-! ## The pairs that are found -/

/-- The token without its partner. -/
def Token.bare (token : Token) : Token := { token with pair := none }

@[simp] lemma Token.bare_withPair (pair : ℕ) (token : Token) : (token.withPair pair).bare = token.bare := rfl

/-- A text whose delimiters are closed in it. -/
inductive Nested : List Token → Prop
  | nil : Nested []
  | leaf {token : Token} {tokens : List Token} : token.isOpen = false → token.isClose = false →
      Nested tokens → Nested (token :: tokens)
  | group {opener close : Token} {inner tokens : List Token} : opener.isOpen → Nested inner →
      close.isClose → Nested tokens → Nested (opener :: (inner ++ close :: tokens))

section

variable {state : Pairing} {tokens : List Token}

lemma map_bare_pairStep (state : Pairing) (index : ℕ) :
    (pairStep state index).tokens.map Token.bare = state.tokens.map Token.bare := by
  have hmodify : ∀ (tokens : List Token) (i pair : ℕ),
      (tokens.modify i (Token.withPair pair)).map Token.bare = tokens.map Token.bare := by
    intro tokens i pair
    induction tokens generalizing i with
    | nil => simp
    | cons token tokens ih =>
      cases i with
      | zero => simp
      | succ i => simp [ih]
  unfold pairStep
  split
  · rfl
  · split
    · rfl
    · rw [hmodify, hmodify]
  · rfl

lemma kind_of_map_bare {tokens tokens' : List Token} (h : tokens'.map Token.bare = tokens.map Token.bare) (i : ℕ) :
    (tokens'[i]?).map Token.kind = (tokens[i]?).map Token.kind := by
  have hget := congrArg (fun tokens : List Token => (tokens[i]?).map Token.kind) h
  simpa [List.getElem?_map, Option.map_map, Function.comp_def, Token.bare] using hget

lemma map_bare_pairFrom (state : Pairing) (index count : ℕ) :
    (pairFrom state index count).tokens.map Token.bare = state.tokens.map Token.bare := by
  unfold pairFrom
  induction count generalizing state index with
  | zero => rfl
  | succ count ih =>
    rw [List.range'_succ, List.foldl_cons, ih, map_bare_pairStep]

lemma pairFrom_add (state : Pairing) (index count count' : ℕ) :
    pairFrom state index (count + count') = pairFrom (pairFrom state index count) (index + count) count' := by
  unfold pairFrom
  rw [← List.range'_append_1, List.foldl_append]

lemma pairFrom_one (state : Pairing) (index : ℕ) : pairFrom state index 1 = pairStep state index := rfl

variable {index : ℕ} {token : Token} {all : List Token}

lemma stack_lt_pairFrom (h : ∀ i ∈ state.stack, i < index) (count : ℕ) :
    ∀ i ∈ (pairFrom state index count).stack, i < index + count := by
  induction count with
  | zero => exact h
  | succ count ih =>
    rw [pairFrom_add, pairFrom_one]
    intro i hi
    unfold pairStep at hi
    split at hi
    · rcases List.mem_cons.mp hi with rfl | hmem
      · omega
      · have hlt := ih i hmem
        omega
    · split at hi
      · have hlt := ih i hi
        omega
      next openIndex stack hstack =>
        have hlt := ih i (hstack ▸ List.mem_cons_of_mem _ hi)
        omega
    · have hlt := ih i hi
      omega

lemma getElem?_pairFrom {i : ℕ} (hlt : i < index) (h : i ∉ state.stack) (count : ℕ) :
    (pairFrom state index count).tokens[i]? = state.tokens[i]? ∧ i ∉ (pairFrom state index count).stack := by
  induction count with
  | zero => exact ⟨rfl, h⟩
  | succ count ih =>
    rw [pairFrom_add, pairFrom_one]
    obtain ⟨hsame, hnot⟩ := ih
    unfold pairStep
    split
    · refine ⟨hsame, fun hmem => ?_⟩
      rcases List.mem_cons.mp hmem with rfl | hmem
      · omega
      · exact hnot hmem
    · split
      · exact ⟨hsame, hnot⟩
      next openIndex stack hstack =>
        rw [hstack, List.mem_cons, not_or] at hnot
        refine ⟨?_, hnot.2⟩
        rw [List.getElem?_modify_ne _ _ (by omega), List.getElem?_modify_ne _ _ (Ne.symm hnot.1), hsame]
    · exact ⟨hsame, hnot⟩

def StandsAt (all tokens : List Token) (index : ℕ) : Prop :=
  ∃ before after, all = before ++ tokens ++ after ∧ before.length = index

lemma pairStep_of_isOpen (hopen : token.isOpen) (hkind : (state.tokens[index]?).map Token.kind = some token.kind) :
    pairStep state index = { state with stack := index :: state.stack } := by
  unfold pairStep
  rw [hkind]
  unfold Token.isOpen at hopen
  split at hopen
  next hk => rw [hk]
  next => simp at hopen

lemma pairStep_of_isClose {openIndex : ℕ} {stack : List ℕ}
    (hclose : token.isClose) (hkind : (state.tokens[index]?).map Token.kind = some token.kind)
    (hstack : state.stack = openIndex :: stack) :
    (pairStep state index).stack = stack ∧ (pairStep state index).tokens =
      (state.tokens.modify openIndex (Token.withPair index)).modify index (Token.withPair openIndex) := by
  unfold pairStep
  rw [hkind]
  unfold Token.isClose at hclose
  split at hclose
  next hk =>
    rw [hk]
    dsimp only
    rw [hstack]
    exact ⟨rfl, rfl⟩
  next => simp at hclose

lemma pairStep_of_leaf (hopen : token.isOpen = false) (hclose : token.isClose = false)
    (hkind : (state.tokens[index]?).map Token.kind = some token.kind) : pairStep state index = state := by
  unfold pairStep
  rw [hkind]
  unfold Token.isOpen at hopen
  unfold Token.isClose at hclose
  cases hk : token.kind with
  | opening c => simp [hk] at hopen
  | closing c => simp [hk] at hclose
  | _ => rfl

lemma StandsAt.group {inner rest : List Token} {opener close : Token}
    (h : StandsAt all (opener :: (inner ++ close :: rest)) index) :
    StandsAt all [opener] index ∧ StandsAt all inner (index + 1) ∧
      StandsAt all [close] (index + 1 + inner.length) ∧ StandsAt all rest (index + 1 + inner.length + 1) := by
  obtain ⟨before, after, rfl, rfl⟩ := h
  refine ⟨⟨before, inner ++ close :: rest ++ after, by simp, rfl⟩,
    ⟨before ++ [opener], close :: rest ++ after, by simp, by simp⟩,
    ⟨before ++ opener :: inner, rest ++ after, by simp, by simp; omega⟩,
    ⟨before ++ opener :: inner ++ [close], after, by simp, by simp; omega⟩⟩

lemma StandsAt.kind (h : StandsAt all [token] index) (hbare : state.tokens.map Token.bare = all.map Token.bare) :
    (state.tokens[index]?).map Token.kind = some token.kind := by
  obtain ⟨before, after, rfl, rfl⟩ := h
  rw [kind_of_map_bare hbare, List.append_assoc, List.getElem?_append_right le_rfl, Nat.sub_self]
  rfl

lemma StandsAt.tail (h : StandsAt all (token :: tokens) index) :
    StandsAt all [token] index ∧ StandsAt all tokens (index + 1) := by
  obtain ⟨before, after, rfl, rfl⟩ := h
  exact ⟨⟨before, tokens ++ after, by simp, rfl⟩, ⟨before ++ [token], after, by simp, by simp⟩⟩

lemma Nested.stack_pairFrom (hnested : Nested tokens)
    (hstands : StandsAt all tokens index) (hbare : state.tokens.map Token.bare = all.map Token.bare) :
    (pairFrom state index tokens.length).stack = state.stack := by
  induction hnested generalizing state index with
  | nil => rfl
  | leaf hopen hclose _ ih =>
    obtain ⟨hfirst, hrest⟩ := hstands.tail
    rw [List.length_cons, Nat.add_comm, pairFrom_add, pairFrom_one, pairStep_of_leaf hopen hclose (hfirst.kind hbare)]
    exact ih hrest hbare
  | @group opener close inner tokens hopen _ hclose _ ihinner ihrest =>
    obtain ⟨hfirst, hinner, hlast, hrest⟩ := hstands.group
    have hlength : (opener :: (inner ++ close :: tokens)).length = 1 + inner.length + 1 + tokens.length := by
      simp
      omega
    rw [hlength, pairFrom_add, pairFrom_add, pairFrom_add, pairFrom_one, pairFrom_one,
      pairStep_of_isOpen hopen (hfirst.kind hbare)]
    have hstack := @ihinner { state with stack := index :: state.stack } (index + 1) hinner hbare
    have hbare' := (map_bare_pairFrom { state with stack := index :: state.stack } (index + 1)
      inner.length).trans hbare
    obtain ⟨hpopped, -⟩ := pairStep_of_isClose hclose (hlast.kind hbare') hstack
    have hbare'' := (map_bare_pairStep _ (index + 1 + inner.length)).trans hbare'
    rw [← Nat.add_assoc index 1, ← Nat.add_assoc index (1 + inner.length), ← Nat.add_assoc index 1]
    exact (ihrest hrest hbare'').trans hpopped

lemma pairs_of_group {inner rest : List Token} {opener close : Token}
    (hopen : opener.isOpen) (hnested : Nested inner) (hclose : close.isClose)
    (hstands : StandsAt all (opener :: (inner ++ close :: rest)) index) :
    ((pairDelimiters all).tokens[index]?).bind Token.pair = some (index + 1 + inner.length) ∧
      ((pairDelimiters all).tokens[index + 1 + inner.length]?).bind Token.pair = some index := by
  obtain ⟨hfirst, hinner, hlast, hrest⟩ := hstands.group
  have hlength : ∃ more, all.length = index + 1 + inner.length + 1 + more := by
    obtain ⟨before, after, rfl, rfl⟩ := hstands
    exact ⟨rest.length + after.length, by simp; omega⟩
  obtain ⟨more, hmore⟩ := hlength
  unfold pairDelimiters
  dsimp only
  rw [hmore, pairFrom_add, pairFrom_add, pairFrom_add, pairFrom_add, pairFrom_one, pairFrom_one]
  simp only [Nat.zero_add]
  have hbare := map_bare_pairFrom ⟨all, [], true⟩ 0 index
  have hbelow := @stack_lt_pairFrom ⟨all, [], true⟩ 0 (by simp) index
  generalize pairFrom ⟨all, [], true⟩ 0 index = state at hbare hbelow ⊢
  rw [Nat.zero_add] at hbelow
  rw [pairStep_of_isOpen hopen (hfirst.kind hbare)]
  have hstack := @Nested.stack_pairFrom { state with stack := index :: state.stack } inner (index + 1) all
    hnested hinner hbare
  have hbare' := (map_bare_pairFrom { state with stack := index :: state.stack } (index + 1)
    inner.length).trans hbare
  generalize pairFrom { state with stack := index :: state.stack } (index + 1) inner.length = state'
    at hstack hbare' ⊢
  obtain ⟨hpopped, htokens⟩ := pairStep_of_isClose hclose (hlast.kind hbare') hstack
  have hclosed : ∀ i, index ≤ i → i ∉ (pairStep state' (index + 1 + inner.length)).stack := by
    intro i hi hmem
    rw [hpopped] at hmem
    exact absurd (hbelow i hmem) (Nat.not_lt.mpr hi)
  rw [(getElem?_pairFrom (by omega) (hclosed _ le_rfl) more).1,
    (getElem?_pairFrom (by omega) (hclosed _ (by omega)) more).1, htokens]
  obtain ⟨token, htoken, -⟩ := Option.map_eq_some_iff.mp (hfirst.kind hbare')
  obtain ⟨token', htoken', -⟩ := Option.map_eq_some_iff.mp (hlast.kind hbare')
  rw [List.getElem?_modify_ne _ _ (by omega), List.getElem?_modify_eq, htoken, List.getElem?_modify_eq,
    List.getElem?_modify_ne _ _ (by omega), htoken']
  exact ⟨rfl, rfl⟩

end

end AgzRustMcp
