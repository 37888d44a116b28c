import AgzRustMcp.Migrate.Rewrite

/-!
# Balanced delimiters

`pair_delimiters` of `change/migrate/rewrite.rs` keeps the opening delimiters that are not closed on a
stack.  It calls a list balanced exactly when the delimiters are well nested (`pair_delimiters_iff`), and
then every delimiter has its partner.
-/

namespace AgzRustMcp

/-- The closing token is of the kind of the opening one. -/
def Token.Closes (close opener : Token) : Prop :=
  (opener.kind = .opening '(' ∧ close.kind = .closing ')') ∨
    (opener.kind = .opening '[' ∧ close.kind = .closing ']') ∨
      (opener.kind = .opening '\x7b' ∧ close.kind = .closing '\x7d')

/-- Tokens whose delimiters are well nested. -/
inductive WellNested : List Token → Prop
  | nil : WellNested []
  | leaf {token : Token} {tokens : List Token} : token.isOpen = false → token.isClose = false →
      WellNested tokens → WellNested (token :: tokens)
  | group {opener close : Token} {inner tokens : List Token} : close.Closes opener → WellNested inner →
      WellNested tokens → WellNested (opener :: (inner ++ close :: tokens))

/-- Tokens with the delimiters at some indices left open, the last of them first. -/
inductive OpenAt : List Token → List ℕ → Prop
  | nested {tokens : List Token} : WellNested tokens → OpenAt tokens []
  | opener {before inner : List Token} {opener : Token} {stack : List ℕ} : OpenAt before stack →
      opener.isOpen → WellNested inner → OpenAt (before ++ opener :: inner) (before.length :: stack)

section

variable {opener close token : Token} {tokens more before after : List Token} {stack : List ℕ} {state : Pairing}

lemma Token.Closes.isOpen (h : close.Closes opener) : opener.isOpen := by
  unfold Token.isOpen
  rcases h with ⟨h, -⟩ | ⟨h, -⟩ | ⟨h, -⟩ <;> rw [h]

lemma Token.Closes.isClose (h : close.Closes opener) : close.isClose := by
  unfold Token.isClose
  rcases h with ⟨-, h⟩ | ⟨-, h⟩ | ⟨-, h⟩ <;> rw [h]

lemma Token.Closes.not_isClose (h : close.Closes opener) : opener.isClose = false := by
  unfold Token.isClose
  rcases h with ⟨h, -⟩ | ⟨h, -⟩ | ⟨h, -⟩ <;> rw [h]

lemma Token.Closes.not_isOpen (h : close.Closes opener) : close.isOpen = false := by
  unfold Token.isOpen
  rcases h with ⟨-, h⟩ | ⟨-, h⟩ | ⟨-, h⟩ <;> rw [h]

lemma Token.Closes.bracket (h : close.Closes opener) : ∃ c ∈ ['(', '[', '\x7b'], opener.kind = .opening c := by
  rcases h with ⟨h, -⟩ | ⟨h, -⟩ | ⟨h, -⟩
  · exact ⟨_, by simp, h⟩
  · exact ⟨_, by simp, h⟩
  · exact ⟨_, by simp, h⟩

lemma WellNested.nested (h : WellNested tokens) : Nested tokens := by
  induction h with
  | nil => exact .nil
  | leaf hopen hclose _ ih => exact .leaf hopen hclose ih
  | group hcloses _ _ ihinner ihrest => exact .group hcloses.isOpen ihinner hcloses.isClose ihrest

lemma WellNested.append (h : WellNested tokens) (h' : WellNested more) : WellNested (tokens ++ more) := by
  induction h with
  | nil => exact h'
  | leaf hopen hclose _ ih => exact .leaf hopen hclose ih
  | group hcloses hinner _ _ ihrest =>
    have hgroup := WellNested.group hcloses hinner ihrest
    simpa using hgroup

lemma OpenAt.append (h : OpenAt tokens stack) (h' : WellNested more) : OpenAt (tokens ++ more) stack := by
  cases h with
  | nested h => exact .nested (h.append h')
  | opener hbefore hopen hinner =>
    rw [List.append_assoc, List.cons_append]
    exact .opener hbefore hopen (hinner.append h')

lemma balanced_pairStep_iff {index openIndex : ℕ} (hclose : close.isClose)
    (hkind : (state.tokens[index]?).map Token.kind = some close.kind)
    (hopener : (state.tokens[openIndex]?).map Token.kind = some opener.kind)
    (hbracket : ∃ c ∈ ['(', '[', '\x7b'], opener.kind = .opening c) (hstack : state.stack = openIndex :: stack) :
    (pairStep state index).balanced = true ↔ state.balanced = true ∧ close.Closes opener := by
  unfold pairStep
  rw [hkind]
  unfold Token.isClose at hclose
  split at hclose
  next c hc =>
    rw [hc, hstack]
    dsimp only
    obtain ⟨o, ho, hopening⟩ := hbracket
    rw [Bool.and_eq_true, beq_iff_eq, expectedClose, hopener, hopening]
    unfold Token.Closes
    simp only [List.mem_cons, List.not_mem_nil, or_false] at ho
    rcases ho with rfl | rfl | rfl <;> simp [hopening, hc, @eq_comm _ c]
  next => simp at hclose

lemma WellNested.balanced_pairFrom (h : WellNested tokens) {all : List Token} {index : ℕ}
    (hstands : StandsAt all tokens index) (hbare : state.tokens.map Token.bare = all.map Token.bare) :
    (pairFrom state index tokens.length).balanced = state.balanced := by
  induction h generalizing state index with
  | nil => rfl
  | leaf hopen hclose _ ih =>
    obtain ⟨hfirst, hrest⟩ := hstands.tail
    rw [List.length_cons, Nat.add_comm, pairFrom_add, pairFrom_one, pairStep_of_leaf hopen hclose (hfirst.kind hbare)]
    exact ih hrest hbare
  | @group opener close inner tokens hcloses hinner _ ihinner ihrest =>
    obtain ⟨hfirst, hinside, hlast, hrest⟩ := hstands.group
    have hlength : (opener :: (inner ++ close :: tokens)).length = 1 + inner.length + 1 + tokens.length := by
      simp
      omega
    rw [hlength, pairFrom_add, pairFrom_add, pairFrom_add, pairFrom_one, pairFrom_one,
      pairStep_of_isOpen hcloses.isOpen (hfirst.kind hbare), ← Nat.add_assoc index 1,
      ← Nat.add_assoc index (1 + inner.length), ← Nat.add_assoc index 1]
    have hstack := @Nested.stack_pairFrom { state with stack := index :: state.stack } inner (index + 1) all
      hinner.nested hinside hbare
    have hbalanced := @ihinner { state with stack := index :: state.stack } (index + 1) hinside hbare
    have hbare' := (map_bare_pairFrom { state with stack := index :: state.stack } (index + 1)
      inner.length).trans hbare
    generalize pairFrom { state with stack := index :: state.stack } (index + 1) inner.length = state'
      at hstack hbalanced hbare' ⊢
    have hstep := balanced_pairStep_iff hcloses.isClose (hlast.kind hbare') (hfirst.kind hbare')
      hcloses.bracket hstack
    rw [ihrest hrest ((map_bare_pairStep _ _).trans hbare'), Bool.eq_iff_iff, hstep, hbalanced]
    exact and_iff_left hcloses

lemma balanced_of_stack_nil {index : ℕ} (hclose : close.isClose)
    (hkind : (state.tokens[index]?).map Token.kind = some close.kind) (hstack : state.stack = []) :
    (pairStep state index).balanced = false := by
  unfold pairStep
  rw [hkind]
  unfold Token.isClose at hclose
  split at hclose
  next hc => rw [hc, hstack]
  next => simp at hclose

lemma balanced_of_pairStep {index : ℕ} (h : (pairStep state index).balanced = true) : state.balanced = true := by
  unfold pairStep at h
  split at h
  · exact h
  · split at h
    · simp at h
    · rw [Bool.and_eq_true] at h
      exact h.1
  · exact h

lemma openAt_pairFrom (hbrackets : ∀ token ∈ tokens, token.isOpen → ∃ c ∈ ['(', '[', '{'], token.kind = .opening c)
    {count : ℕ} (hcount : count ≤ tokens.length) (h : (pairFrom ⟨tokens, [], true⟩ 0 count).balanced = true) :
    OpenAt (tokens.take count) (pairFrom ⟨tokens, [], true⟩ 0 count).stack := by
  induction count with
  | zero => exact .nested .nil
  | succ count ih =>
    have hbare := map_bare_pairFrom ⟨tokens, [], true⟩ 0 count
    rw [pairFrom_add, pairFrom_one, Nat.zero_add] at h ⊢
    have hopen := ih (by omega) (balanced_of_pairStep h)
    obtain ⟨token, htoken⟩ : ∃ token, tokens[count]? = some token :=
      ⟨_, List.getElem?_eq_getElem (Nat.lt_of_succ_le hcount)⟩
    have htake : tokens.take (count + 1) = tokens.take count ++ [token] := by
      rw [List.take_add_one, htoken]
      rfl
    have hkind : ((pairFrom ⟨tokens, [], true⟩ 0 count).tokens[count]?).map Token.kind = some token.kind := by
      rw [kind_of_map_bare hbare, htoken]
      rfl
    rw [htake]
    generalize pairFrom ⟨tokens, [], true⟩ 0 count = state at h hopen hbare hkind ⊢
    by_cases hopener : token.isOpen
    · rw [pairStep_of_isOpen hopener hkind]
      have hpushed := OpenAt.opener hopen hopener .nil
      rwa [List.length_take, min_eq_left (by omega)] at hpushed
    by_cases hclose : token.isClose
    · cases hstack : state.stack with
      | nil =>
        rw [balanced_of_stack_nil hclose hkind hstack] at h
        simp at h
      | cons openIndex stack =>
        rw [hstack] at hopen
        generalize hbefore : tokens.take count = read at hopen ⊢
        cases hopen with
        | @opener before inner opener _ hrest hopener hinner =>
          have hsplit : tokens = before ++ opener :: (inner ++ tokens.drop count) := by
            have hcut := List.take_append_drop count tokens
            rw [hbefore] at hcut
            simpa using hcut.symm
          have hget : tokens[before.length]? = some opener := by
            rw [hsplit, List.getElem?_append_right le_rfl, Nat.sub_self]
            rfl
          have hopenerKind : (state.tokens[before.length]?).map Token.kind = some opener.kind := by
            rw [kind_of_map_bare hbare, hget]
            rfl
          have hbracket := hbrackets opener (List.mem_of_getElem? hget) hopener
          have hcloses := ((balanced_pairStep_iff hclose hkind hopenerKind hbracket hstack).mp h).2
          rw [(pairStep_of_isClose hclose hkind hstack).1, List.append_assoc]
          exact hrest.append (.group hcloses hinner .nil)
    · rw [pairStep_of_leaf (by simpa using hopener) (by simpa using hclose) hkind]
      exact hopen.append (.leaf (by simpa using hopener) (by simpa using hclose) .nil)

/-- The index is that of the opening or of the closing token of a group. -/
def InGroup (tokens : List Token) (i : ℕ) : Prop :=
  ∃ opener inner close rest index, StandsAt tokens (opener :: (inner ++ close :: rest)) index ∧
    close.Closes opener ∧ WellNested inner ∧ (i = index ∨ i = index + 1 + inner.length)

lemma InGroup.within {i : ℕ} (h : InGroup tokens i) (before after : List Token) :
    InGroup (before ++ (tokens ++ after)) (before.length + i) := by
  obtain ⟨opener, inner, close, rest, index, ⟨front, behind, rfl, rfl⟩, hcloses, hinner, hi⟩ := h
  exact ⟨opener, inner, close, rest, before.length + front.length,
    ⟨before ++ front, behind ++ after, by simp, by simp⟩, hcloses, hinner, by omega⟩

lemma WellNested.inGroup (h : WellNested tokens) {i : ℕ} (htoken : tokens[i]? = some token)
    (hbracket : token.isOpen ∨ token.isClose) : InGroup tokens i := by
  induction h generalizing i with
  | nil => simp at htoken
  | @leaf first tokens hopen hclose _ ih =>
    cases i with
    | zero =>
      obtain rfl : first = token := by simpa using htoken
      simp [hopen, hclose] at hbracket
    | succ i =>
      have hrest := (ih (by simpa using htoken)).within [first] []
      rwa [List.append_nil, Nat.add_comm] at hrest
  | @group opener close inner tokens hcloses hinner _ ihinner ihrest =>
    have hself : StandsAt (opener :: (inner ++ close :: tokens)) (opener :: (inner ++ close :: tokens)) 0 :=
      ⟨[], [], by simp, rfl⟩
    rcases Nat.lt_trichotomy i (inner.length + 1) with hlt | rfl | hgt
    · cases i with
      | zero => exact ⟨opener, inner, close, tokens, 0, hself, hcloses, hinner, Or.inl rfl⟩
      | succ i =>
        rw [List.getElem?_cons_succ, List.getElem?_append_left (by omega)] at htoken
        have hinside := (ihinner htoken).within [opener] (close :: tokens)
        rwa [Nat.add_comm] at hinside
    · exact ⟨opener, inner, close, tokens, 0, hself, hcloses, hinner, Or.inr (by omega)⟩
    · obtain ⟨more, rfl⟩ := Nat.exists_eq_add_of_lt hgt
      rw [List.getElem?_cons_succ, List.getElem?_append_right (by omega),
        show inner.length + 1 + more - inner.length = more + 1 by omega, List.getElem?_cons_succ] at htoken
      have hbehind := (ihrest htoken).within (opener :: (inner ++ [close])) []
      rw [show (opener :: (inner ++ [close])).length + more = inner.length + 1 + more + 1 by simp; omega] at hbehind
      simpa using hbehind

end

/-- Tokens are balanced exactly when their brackets are well nested, and then every bracket has a
partner of its kind whose partner it is, with well nested tokens between. -/
theorem pair_delimiters_iff (tokens : List Token)
    (hbrackets : ∀ token ∈ tokens, token.isOpen → ∃ c ∈ ['(', '[', '\x7b'], token.kind = .opening c) :
    ((pairDelimiters tokens).balanced = true ↔ WellNested tokens) ∧
      ((pairDelimiters tokens).balanced = true → ∀ i token, tokens[i]? = some token →
        token.isOpen ∨ token.isClose → ∃ j partner, tokens[j]? = some partner ∧ j ≠ i ∧
          ((pairDelimiters tokens).tokens[i]?).bind Token.pair = some j ∧
          ((pairDelimiters tokens).tokens[j]?).bind Token.pair = some i ∧
          (token.isOpen → i < j ∧ partner.Closes token ∧ WellNested ((tokens.drop (i + 1)).take (j - i - 1))) ∧
          (token.isClose → j < i ∧ token.Closes partner)) := by
  have hiff : (pairDelimiters tokens).balanced = true ↔ WellNested tokens := by
    have hall : StandsAt tokens tokens 0 := ⟨[], [], by simp, rfl⟩
    constructor
    · intro h
      unfold pairDelimiters at h
      dsimp only at h
      rw [Bool.and_eq_true, List.isEmpty_iff] at h
      have hopen := openAt_pairFrom hbrackets le_rfl h.1
      rw [List.take_length, h.2] at hopen
      cases hopen with
      | nested h => exact h
    · intro h
      unfold pairDelimiters
      dsimp only
      rw [h.balanced_pairFrom hall rfl, h.nested.stack_pairFrom hall rfl]
      rfl
  refine ⟨hiff, fun hbalanced i token htoken hbracket => ?_⟩
  obtain ⟨opener, inner, close, rest, index, hstands, hcloses, hinner, hi⟩ :=
    (hiff.mp hbalanced).inGroup htoken hbracket
  obtain ⟨hfirst, hlast⟩ := pairs_of_group hcloses.isOpen hinner.nested hcloses.isClose hstands
  obtain ⟨before, after, hsplit, rfl⟩ := hstands
  have hopener : tokens[before.length]? = some opener := by
    rw [hsplit]
    simp
  have hclose : tokens[before.length + 1 + inner.length]? = some close := by
    rw [hsplit, List.append_assoc, List.getElem?_append_right (by omega),
      show before.length + 1 + inner.length - before.length = inner.length + 1 by omega]
    simp
  have hbetween : (tokens.drop (before.length + 1)).take (before.length + 1 + inner.length - before.length - 1) =
      inner := by
    have hfront : before ++ opener :: (inner ++ close :: rest) ++ after =
        (before ++ [opener]) ++ (inner ++ (close :: rest ++ after)) := by
      simp
    rw [hsplit, hfront, show before.length + 1 = (before ++ [opener]).length by simp, List.drop_left,
      show (before ++ [opener]).length + inner.length - before.length - 1 = inner.length by simp; omega,
      List.take_left]
  rcases hi with rfl | rfl
  · obtain rfl := Option.some.inj (hopener.symm.trans htoken)
    refine ⟨_, close, hclose, by omega, hfirst, hlast,
      fun _ => ⟨by omega, hcloses, by rwa [hbetween]⟩, fun h => ?_⟩
    exact absurd h (by simp [hcloses.not_isClose])
  · obtain rfl := Option.some.inj (hclose.symm.trans htoken)
    refine ⟨_, opener, hopener, by omega, hlast, hfirst, fun h => ?_, fun _ => ⟨by omega, hcloses⟩⟩
    exact absurd h (by simp [hcloses.not_isOpen])

theorem pair_delimiters_iff_parens :
    (pairDelimiters [⟨0, 1, .opening '(', none⟩, ⟨1, 2, .closing ')', none⟩]).balanced = true ↔
      WellNested [⟨0, 1, .opening '(', none⟩, ⟨1, 2, .closing ')', none⟩] := by
  refine (pair_delimiters_iff _ fun token htoken hopen => ?_).1
  rcases List.mem_pair.mp htoken with rfl | rfl
  · exact ⟨'(', by decide, rfl⟩
  · exact absurd hopen (by decide)

end AgzRustMcp
