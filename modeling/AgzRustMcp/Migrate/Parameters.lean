import AgzRustMcp.Migrate.Rewrite

/-!
# Parameters and the items of a list

A parameter is a text in which `<` and `>` are written around generic arguments and in arrows.
`split_top_level` counts them without looking for arrows, and a comment behind the last comma is an
item of its own (`split_top_level_iff`).
-/

namespace AgzRustMcp

open Utf8Text

/-! ## The grammar of a list -/

/-- A text, and the text with every group of delimiters cut down to its opening one. -/
inductive Collapses : List Token → List Token → Prop
  | nil : Collapses [] []
  | leaf {token : Token} {tokens heads : List Token} : token.isOpen = false →
      token.isClose = false → Collapses tokens heads → Collapses (token :: tokens) (token :: heads)
  | group {opener close : Token} {inner tokens heads : List Token} : opener.isOpen → Nested inner →
      close.isClose → Collapses tokens heads →
      Collapses (opener :: (inner ++ close :: tokens)) (opener :: heads)

/-- A token that has no meaning for lists. -/
def Token.isPlain (token : Token) : Bool :=
  !token.isPunct '<' && !token.isPunct '>' && !token.isPunct ','

/-- A text between delimiters, with the commas of generic arguments if the flag is set. -/
inductive Written : Bool → List Token → Prop
  | nil {commas : Bool} : Written commas []
  | plain {commas : Bool} {token : Token} {heads : List Token} : token.isPlain →
      Written commas heads → Written commas (token :: heads)
  | comma {token : Token} {heads : List Token} : token.isPunct ',' →
      Written true heads → Written true (token :: heads)
  | arrow {commas : Bool} {dash angle : Token} {heads : List Token} : dash.isPunct '-' →
      angle.isPunct '>' → Written commas heads → Written commas (dash :: angle :: heads)
  | generics {commas : Bool} {opener close : Token} {arguments heads : List Token} :
      opener.isPunct '<' → Written true arguments → close.isPunct '>' → Written commas heads →
      Written commas (opener :: (arguments ++ close :: heads))

/-- A parameter, which is not only a comment. -/
structure Param where
  tokens : List Token
  heads : List Token
  collapses : Collapses tokens heads
  written : Written false heads
  real : ∃ token ∈ heads, token.isComment = false

/-- A list of parameters; comments alone only at its end. -/
inductive ParamList where
  | comments (tokens : List Token) (h : ∀ token ∈ tokens, token.isComment)
  | last (param : Param)
  | more (param : Param) (comma : Token) (h : comma.isPunct ',') (rest : ParamList)

/-- Before each comma of generic arguments there are more `<` than `>`. -/
def KeepsTogether (heads : List Token) : Prop :=
  ∀ before comma after, heads = before ++ comma :: after → comma.isPunct ',' →
    ∃ front stretch, before = front ++ stretch ∧
      stretch.countP (Token.isPunct · '>') < stretch.countP (Token.isPunct · '<')

/-- The offset at which a parameter starts. -/
def Param.start (param : Param) : ℕ := (param.heads.head?).elim 0 Token.start

def ParamList.tokens : ParamList → List Token
  | .comments tokens _ => tokens
  | .last param => param.tokens
  | .more param comma _ rest => param.tokens ++ comma :: rest.tokens

/-- The tokens of a list outside its groups. -/
def ParamList.heads : ParamList → List Token
  | .comments tokens _ => tokens
  | .last param => param.heads
  | .more param comma _ rest => param.heads ++ comma :: rest.heads

/-- The parameters of a list, up to the comma or delimiter behind each. -/
def ParamList.spans (close : ℕ) : ParamList → List (ℕ × ℕ)
  | .comments _ _ => []
  | .last param => [(param.start, close)]
  | .more param comma _ rest => (param.start, comma.start) :: rest.spans close

/-- No comment stands alone, and commas stay within parameters. -/
def ParamList.Kept : ParamList → Prop
  | .comments tokens _ => tokens = []
  | .last param => KeepsTogether param.heads
  | .more param _ _ rest => KeepsTogether param.heads ∧ rest.Kept

/-! ## The count of angle brackets -/

/-- What a token does to the count. -/
def angleStep (angle : ℕ) (token : Token) : ℕ :=
  if token.isPunct '<' then angle + 1 else if token.isPunct '>' then angle - 1 else angle

/-- The count behind some tokens. -/
def angleFrom (angle : ℕ) (tokens : List Token) : ℕ := tokens.foldl angleStep angle

variable {state : SplitState} {token : Token} {tokens heads : List Token}

lemma Token.isPunct_iff {c : Char} : token.isPunct c = true ↔ token.kind = .punct c := by
  simp [Token.isPunct]

lemma Token.isPunct_of_isOpen (h : token.isOpen) (c : Char) : token.isPunct c = false := by
  unfold Token.isOpen at h
  split at h
  next hkind => simp [Token.isPunct, hkind]
  next => simp at h

lemma splitStep_angle : (splitStep state token).angle = angleStep state.angle token := by
  unfold splitStep angleStep
  by_cases hopen : token.isOpen
  · simp [hopen, Token.isPunct_of_isOpen hopen, SplitState.start]
  · rw [if_neg hopen]
    by_cases hless : token.isPunct '<'
    · simp [hless]
    · rw [if_neg hless, if_neg hless]
      by_cases hgreater : token.isPunct '>'
      · have hcomma : token.isPunct ',' = false := by
          rw [Token.isPunct_iff] at hgreater
          simp [Token.isPunct, hgreater]
        rcases Nat.eq_zero_or_pos state.angle with hzero | hpos
        · simp [hgreater, hcomma, hzero, SplitState.start]
        · simp [hgreater, hpos]
      · rw [if_neg (by simp [hgreater]), if_neg hgreater]
        split
        · unfold SplitState.endItem
          split <;> rfl
        · rfl

lemma foldl_splitStep_angle : (tokens.foldl splitStep state).angle = angleFrom state.angle tokens := by
  induction tokens generalizing state with
  | nil => rfl
  | cons token tokens ih =>
    rw [List.foldl_cons, ih, splitStep_angle]
    rfl

lemma lt_angleFrom_iff {k : ℕ} : k < angleFrom 0 tokens ↔ ∃ front stretch, tokens = front ++ stretch ∧
      stretch.countP (Token.isPunct · '>') + k < stretch.countP (Token.isPunct · '<') := by
  induction tokens using List.reverseRecOn generalizing k with
  | nil => simp [angleFrom]
  | append_singleton tokens token ih =>
    have hstep : angleFrom 0 (tokens ++ [token]) = angleStep (angleFrom 0 tokens) token := by
      simp [angleFrom]
    have hsplit : ∀ P : List Token → Prop, ¬ P [] →
        ((∃ front stretch, tokens ++ [token] = front ++ stretch ∧ P stretch) ↔
          ∃ front stretch, tokens = front ++ stretch ∧ P (stretch ++ [token])) := by
      intro P hnil
      constructor
      · rintro ⟨front, stretch, heq, hP⟩
        rcases List.eq_nil_or_concat stretch with rfl | ⟨stretch, last, rfl⟩
        · exact absurd hP hnil
        · rw [List.concat_eq_append, ← List.append_assoc] at heq
          obtain ⟨hfront, hlast⟩ := List.append_inj' heq rfl
          obtain rfl := List.singleton_inj.mp hlast
          exact ⟨front, stretch, hfront, by simpa using hP⟩
      · rintro ⟨front, stretch, rfl, hP⟩
        exact ⟨front, stretch ++ [token], by simp, hP⟩
    rw [hstep, hsplit _ (by simp)]
    unfold angleStep
    by_cases hless : token.isPunct '<'
    · have hgreater : token.isPunct '>' = false := by
        rw [Token.isPunct_iff] at hless
        simp [Token.isPunct, hless]
      simp only [hless, if_true, List.countP_append, List.countP_singleton, hgreater]
      cases k with
      | zero => exact ⟨fun _ => ⟨tokens, [], by simp, by simp⟩, fun _ => Nat.succ_pos _⟩
      | succ k =>
        rw [Nat.add_lt_add_iff_right, ih]
        simp only [Bool.false_eq_true, if_false, Nat.add_zero, ← Nat.add_assoc, Nat.add_lt_add_iff_right]
    · rw [if_neg hless]
      by_cases hgreater : token.isPunct '>'
      · rw [if_pos hgreater, Nat.lt_sub_iff_add_lt, ih]
        simp only [List.countP_append, List.countP_singleton, hgreater, if_true, hless,
          Bool.false_eq_true, if_false, Nat.add_zero]
        simp only [Nat.add_assoc, Nat.add_comm 1]
      · rw [if_neg hgreater, ih]
        simp [List.countP_append, hless, hgreater]

lemma keepsTogether_iff : KeepsTogether heads ↔
    ∀ before comma after, heads = before ++ comma :: after → comma.isPunct ',' → 0 < angleFrom 0 before := by
  unfold KeepsTogether
  simp only [lt_angleFrom_iff, Nat.add_zero]

lemma Written.angleFrom_le {commas : Bool} (h : Written commas heads) (angle : ℕ) :
    angleFrom angle heads ≤ angle := by
  have happend : ∀ (angle : ℕ) (first second : List Token),
      angleFrom angle (first ++ second) = angleFrom (angleFrom angle first) second := by
    simp [angleFrom]
  have hcons : ∀ (angle : ℕ) (token : Token) (heads : List Token),
      angleFrom angle (token :: heads) = angleFrom (angleStep angle token) heads := fun _ _ _ => rfl
  induction h generalizing angle with
  | nil => exact le_rfl
  | @plain _ token heads hplain _ ih =>
    simp only [Token.isPlain, Bool.and_eq_true, Bool.not_eq_true'] at hplain
    rw [hcons, angleStep, if_neg (by simp [hplain.1.1]), if_neg (by simp [hplain.1.2])]
    exact ih angle
  | @comma token heads hcomma _ ih =>
    rw [Token.isPunct_iff] at hcomma
    rw [hcons, angleStep, if_neg (by simp [Token.isPunct, hcomma]), if_neg (by simp [Token.isPunct, hcomma])]
    exact ih angle
  | @arrow _ dash angle' heads hdash hangle _ ih =>
    rw [Token.isPunct_iff] at hdash hangle
    rw [hcons, hcons]
    have hstep : angleStep (angleStep angle dash) angle' = angle - 1 := by
      simp [angleStep, Token.isPunct, hdash, hangle]
    rw [hstep]
    exact (ih (angle - 1)).trans (Nat.sub_le _ _)
  | @generics _ opener close arguments heads hopener _ hclose _ iharguments ih =>
    rw [Token.isPunct_iff] at hopener hclose
    rw [hcons, happend, hcons]
    have hstep : angleStep angle opener = angle + 1 := by simp [angleStep, Token.isPunct, hopener]
    have hback : ∀ n, angleStep n close = n - 1 := by simp [angleStep, Token.isPunct, hclose]
    have hinner := iharguments (angle + 1)
    rw [hstep, hback]
    exact (ih _).trans (by omega)

/-! ## The items of a parameter -/

/-- Without an item no angle bracket is open. -/
def SplitState.Sound (state : SplitState) : Prop := state.itemStart = none → state.angle = 0

/-- The number of the items, with the one that has started. -/
def SplitState.count (state : SplitState) : ℕ :=
  state.items.length + if state.itemStart.isSome then 1 else 0

lemma splitStep_comma (hcomma : token.isPunct ',') : splitStep state token =
    if state.angle = 0 then state.endItem token else state.start token := by
  have hopen : token.isOpen = false := by
    rw [Token.isPunct_iff] at hcomma
    simp [Token.isOpen, hcomma]
  have hless : token.isPunct '<' = false := by
    rw [Token.isPunct_iff] at hcomma
    simp [Token.isPunct, hcomma]
  have hgreater : token.isPunct '>' = false := by
    rw [Token.isPunct_iff] at hcomma
    simp [Token.isPunct, hcomma]
  unfold splitStep
  simp [hopen, hless, hgreater, hcomma]

lemma splitStep_other (hcomma : token.isPunct ',' = false) : (splitStep state token).items = state.items ∧
      ((splitStep state token).itemStart = some (state.itemStart.getD token.start) ∨
        (splitStep state token).itemStart = state.itemStart ∧ 0 < state.angle) := by
  unfold splitStep
  split_ifs with _ _ hgreater hsplit
  · exact ⟨rfl, .inl rfl⟩
  · exact ⟨rfl, .inl rfl⟩
  · exact ⟨rfl, .inr ⟨rfl, hgreater.2⟩⟩
  · simp [hcomma] at hsplit
  · exact ⟨rfl, .inl rfl⟩

lemma splitStep_isSome (hsound : state.Sound) (hcomma : token.isPunct ',' = false) :
    (splitStep state token).itemStart = some (state.itemStart.getD token.start) := by
  rcases (@splitStep_other state token hcomma).2 with hstart | ⟨hsame, hpos⟩
  · exact hstart
  · rw [hsame]
    cases hnone : state.itemStart with
    | none => exact absurd (hsound hnone) hpos.ne'
    | some start => rfl

lemma SplitState.Sound.step (hsound : state.Sound) (token : Token) : (splitStep state token).Sound := by
  by_cases hcomma : token.isPunct ','
  · rw [splitStep_comma hcomma]
    split_ifs with hzero
    · cases hstart : state.itemStart with
      | none =>
        rw [SplitState.endItem, hstart]
        exact hsound
      | some start =>
        rw [SplitState.endItem, hstart]
        exact fun _ => hzero
    · intro hnone
      simp [SplitState.start] at hnone
  · intro hnone
    rw [splitStep_isSome hsound (by simpa using hcomma)] at hnone
    simp at hnone

lemma SplitState.length_endItem (state : SplitState) (token : Token) :
    (state.endItem token).items.length = state.count := by
  unfold SplitState.endItem SplitState.count
  cases state.itemStart <;> simp

lemma count_le_splitStep (state : SplitState) (token : Token) :
    state.count ≤ (splitStep state token).count ∧ state.items <+: (splitStep state token).items := by
  unfold SplitState.count
  by_cases hcomma : token.isPunct ','
  · rw [splitStep_comma hcomma]
    by_cases hzero : state.angle = 0
    · rw [if_pos hzero]
      cases hstart : state.itemStart <;> simp [SplitState.endItem, hstart]
    · rw [if_neg hzero]
      cases hstart : state.itemStart <;> simp [SplitState.start, hstart]
  · obtain ⟨hitems, hstart | ⟨hsame, -⟩⟩ := @splitStep_other state token (by simpa using hcomma)
    · rw [hitems, hstart]
      refine ⟨?_, List.prefix_refl _⟩
      split_ifs <;> simp_all
    · rw [hitems, hsame]
      exact ⟨le_rfl, List.prefix_refl _⟩

lemma foldl_splitStep_mono (tokens : List Token) (hsound : state.Sound) :
    (tokens.foldl splitStep state).Sound ∧ state.count ≤ (tokens.foldl splitStep state).count ∧
        state.items <+: (tokens.foldl splitStep state).items := by
  induction tokens generalizing state with
  | nil => exact ⟨hsound, le_rfl, List.prefix_refl _⟩
  | cons token tokens ih =>
    obtain ⟨hsound', hcount', hitems'⟩ := ih (hsound.step token)
    obtain ⟨hcount, hitems⟩ := count_le_splitStep state token
    exact ⟨hsound', hcount.trans hcount', hitems.trans hitems'⟩

lemma Written.getLast_isPunct {commas : Bool} (h : Written commas heads) {front : List Token}
    (heads_eq : heads = front ++ [token]) (hcomma : token.isPunct ',') : commas = true := by
  induction h generalizing front with
  | nil => simp at heads_eq
  | @plain _ first heads hplain _ ih =>
    cases front with
    | nil =>
      simp only [List.nil_append, List.cons.injEq] at heads_eq
      rw [heads_eq.1] at hplain
      simp [Token.isPlain, hcomma] at hplain
    | cons other front =>
      rw [List.cons_append, List.cons.injEq] at heads_eq
      exact ih heads_eq.2
  | comma => rfl
  | @arrow _ dash angle heads _ hangle _ ih =>
    cases front with
    | nil => simp at heads_eq
    | cons other front =>
      rw [List.cons_append, List.cons.injEq] at heads_eq
      cases front with
      | nil =>
        simp only [List.nil_append, List.cons.injEq] at heads_eq
        rw [heads_eq.2.1, Token.isPunct_iff] at hangle
        simp [Token.isPunct, hangle] at hcomma
      | cons third front =>
        rw [List.cons_append, List.cons.injEq] at heads_eq
        exact ih heads_eq.2.2
  | @generics _ opener close arguments heads _ _ hclose _ _ ih =>
    rcases List.eq_nil_or_concat heads with rfl | ⟨before, last, rfl⟩
    · rw [← List.cons_append] at heads_eq
      obtain ⟨-, hlast⟩ := List.append_inj' heads_eq rfl
      rw [List.singleton_inj.mp hlast, Token.isPunct_iff] at hclose
      simp [Token.isPunct, hclose] at hcomma
    · rw [List.concat_eq_append, show opener :: (arguments ++ close :: (before ++ [last])) =
        (opener :: (arguments ++ close :: before)) ++ [last] by simp] at heads_eq
      obtain ⟨-, hlast⟩ := List.append_inj' heads_eq rfl
      apply @ih before
      rw [List.concat_eq_append, List.singleton_inj.mp hlast]

lemma Written.head_isPunct {commas : Bool} (h : Written commas heads) {rest : List Token}
    (heads_eq : heads = token :: rest) (hcomma : token.isPunct ',') : commas = true := by
  cases h with
  | nil => simp at heads_eq
  | plain hplain _ =>
    rw [(List.cons.inj heads_eq).1] at hplain
    simp [Token.isPlain, hcomma] at hplain
  | comma => rfl
  | arrow hdash _ _ =>
    rw [(List.cons.inj heads_eq).1, Token.isPunct_iff] at hdash
    simp [Token.isPunct, hdash] at hcomma
  | generics hopener _ _ _ =>
    rw [(List.cons.inj heads_eq).1, Token.isPunct_iff] at hopener
    simp [Token.isPunct, hopener] at hcomma

lemma KeepsTogether.front {front rest : List Token} (h : KeepsTogether (front ++ rest)) : KeepsTogether front := by
  intro before comma after heq
  exact h before comma (after ++ rest) (by rw [heq]; simp)

lemma foldl_splitStep_of_keeps (items : List (ℕ × ℕ)) {rest : List Token}
    (hcomma : token.isPunct ',' = false) (hkeeps : KeepsTogether (token :: rest)) :
    ((token :: rest).foldl splitStep ⟨items, none, 0⟩).items = items ∧
      ((token :: rest).foldl splitStep ⟨items, none, 0⟩).itemStart = some token.start := by
  have hsound : SplitState.Sound ⟨items, none, 0⟩ := fun _ => rfl
  induction rest using List.reverseRecOn with
  | nil =>
    rw [List.foldl_cons, List.foldl_nil]
    exact ⟨(splitStep_other hcomma).1, splitStep_isSome hsound hcomma⟩
  | append_singleton rest last ih =>
    rw [← List.cons_append] at hkeeps ⊢
    obtain ⟨hitems, hstart⟩ := ih hkeeps.front
    rw [List.foldl_append, List.foldl_cons, List.foldl_nil]
    by_cases hlast : last.isPunct ','
    · have hpos := keepsTogether_iff.mp hkeeps (token :: rest) last [] rfl hlast
      have hangle := @foldl_splitStep_angle ⟨items, none, 0⟩ (token :: rest)
      rw [splitStep_comma hlast, if_neg (by rw [hangle]; exact hpos.ne')]
      refine ⟨hitems, ?_⟩
      unfold SplitState.start
      dsimp only
      rw [hstart]
      rfl
    · have hother : last.isPunct ',' = false := by simpa using hlast
      have hsound' := (foldl_splitStep_mono (token :: rest) hsound).1
      rw [(splitStep_other hother).1, splitStep_isSome hsound' hother, hstart]
      exact ⟨hitems, rfl⟩

lemma Param.foldl_splitStep (param : Param) (items : List (ℕ × ℕ)) :
    ∃ more start, param.heads.foldl splitStep ⟨items, none, 0⟩ = ⟨items ++ more, some start, 0⟩ ∧
      (KeepsTogether param.heads → more = [] ∧ start = param.start) ∧ (¬ KeepsTogether param.heads → more ≠ []) := by
  have hsound : SplitState.Sound ⟨items, none, 0⟩ := fun _ => rfl
  obtain ⟨hsound', -, more, hmore⟩ := foldl_splitStep_mono param.heads hsound
  have hangle := @foldl_splitStep_angle ⟨items, none, 0⟩ param.heads
  have hzero : angleFrom 0 param.heads = 0 := Nat.le_zero.mp (param.written.angleFrom_le 0)
  obtain ⟨real, hreal, -⟩ := param.real
  obtain ⟨first, rest, heads_eq⟩ := List.exists_cons_of_ne_nil (List.ne_nil_of_mem hreal)
  have hfirst : first.isPunct ',' = false := by
    by_contra hcomma
    exact absurd (param.written.head_isPunct heads_eq (by simpa using hcomma)) (by simp)
  -- the item has started, for the last token is no comma
  obtain ⟨start, hstart⟩ :
      ∃ start, (param.heads.foldl splitStep ⟨items, none, 0⟩).itemStart = some start := by
    obtain ⟨front, last, hlast⟩ := List.eq_nil_or_concat param.heads |>.resolve_left
      (List.ne_nil_of_mem hreal)
    rw [List.concat_eq_append] at hlast
    have hother : last.isPunct ',' = false := by
      by_contra hcomma
      exact absurd (param.written.getLast_isPunct hlast (by simpa using hcomma)) (by simp)
    rw [hlast, List.foldl_append, List.foldl_cons, List.foldl_nil]
    exact ⟨_, splitStep_isSome (foldl_splitStep_mono front hsound).1 hother⟩
  refine ⟨more, start, ?_, ?_, ?_⟩
  · rcases hstate : param.heads.foldl splitStep ⟨items, none, 0⟩ with ⟨items', start', angle'⟩
    rw [hstate] at hmore hstart hangle
    subst hmore hstart
    dsimp only at hangle
    rw [hangle, hzero]
  · intro hkeeps
    rw [heads_eq] at hkeeps hmore hstart
    obtain ⟨hitems, hstart'⟩ := foldl_splitStep_of_keeps items hfirst hkeeps
    rw [hitems] at hmore
    rw [hstart'] at hstart
    refine ⟨List.self_eq_append_right.mp hmore.symm, ?_⟩
    rw [Param.start, heads_eq]
    exact (Option.some.inj hstart).symm
  · intro hnot hnil
    rw [keepsTogether_iff] at hnot
    push Not at hnot
    obtain ⟨before, comma, after, hsplit, hcomma, hle⟩ := hnot
    have hzero' : angleFrom 0 before = 0 := Nat.le_zero.mp hle
    cases before with
    | nil =>
      rw [List.nil_append, heads_eq] at hsplit
      rw [(List.cons.inj hsplit).1, hcomma] at hfirst
      simp at hfirst
    | cons other before =>
      obtain rfl : first = other := by
        rw [heads_eq, List.cons_append] at hsplit
        exact (List.cons.inj hsplit).1
      -- one item has started before the comma, and ends there
      have hone : items.length + 1 ≤ ((first :: before).foldl splitStep ⟨items, none, 0⟩).count := by
        have hcount := (foldl_splitStep_mono before (hsound.step first)).2.1
        refine le_trans ?_ hcount
        unfold SplitState.count
        rw [(splitStep_other hfirst).1, splitStep_isSome hsound hfirst]
        simp
      have hends : items.length + 1 ≤
          ((first :: before ++ [comma]).foldl splitStep ⟨items, none, 0⟩).items.length := by
        rw [List.foldl_append, List.foldl_cons, List.foldl_nil, splitStep_comma hcomma,
          if_pos (by rw [foldl_splitStep_angle]; exact hzero')]
        rw [SplitState.length_endItem]
        exact hone
      have hsound'' := (foldl_splitStep_mono (first :: before ++ [comma]) hsound).1
      have hrest := (foldl_splitStep_mono after hsound'').2.2.length_le
      rw [← List.foldl_append, show first :: before ++ [comma] ++ after = param.heads by
        rw [hsplit]; simp, ← hmore, hnil, List.append_nil] at hrest
      exact absurd (hends.trans hrest) (by simp)

/-! ## The items of a list -/

lemma Token.isPunct_of_isComment (h : token.isComment) (c : Char) : token.isPunct c = false := by
  rw [Token.isComment, beq_iff_eq] at h
  simp [Token.isPunct, h]

lemma ParamList.finish_foldl (list : ParamList) (items : List (ℕ × ℕ)) (close : ℕ) :
    ∃ more, (list.heads.foldl splitStep ⟨items, none, 0⟩).finish close = items ++ more ∧
      (list.Kept → more = list.spans close) ∧ (¬ list.Kept → (list.spans close).length < more.length) ∧
      (list.spans close).length ≤ more.length := by
  induction list generalizing items with
  | comments tokens hcomments =>
    cases tokens with
    | nil => exact ⟨[], by simp [ParamList.heads, SplitState.finish], fun _ => rfl,
        fun h => absurd rfl h, le_rfl⟩
    | cons first rest =>
      have hkeeps : KeepsTogether (first :: rest) := by
        intro before comma after heq hcomma
        have hcomment := hcomments comma (by rw [heq]; simp)
        simp [Token.isPunct_of_isComment hcomment] at hcomma
      have hfirst := Token.isPunct_of_isComment (hcomments first List.mem_cons_self) ','
      obtain ⟨hitems, hstart⟩ := foldl_splitStep_of_keeps items hfirst hkeeps
      refine ⟨[(first.start, close)], ?_, fun h => by simp [ParamList.Kept] at h,
        fun _ => Nat.zero_lt_one, Nat.zero_le _⟩
      rw [ParamList.heads, SplitState.finish, hstart, hitems]
  | last param =>
    obtain ⟨more, start, hfold, hkept, hnot⟩ := param.foldl_splitStep items
    refine ⟨more ++ [(start, close)], ?_, ?_, ?_, ?_⟩
    · rw [ParamList.heads, hfold, ← List.append_assoc]
      rfl
    · intro h
      obtain ⟨rfl, rfl⟩ := hkept h
      rfl
    · intro h
      have hpos := List.length_pos_of_ne_nil (hnot h)
      simp only [ParamList.spans, List.length_append, List.length_singleton]
      omega
    · simp [ParamList.spans]
  | more param comma hcomma rest ih =>
    obtain ⟨more, start, hfold, hkept, hnot⟩ := param.foldl_splitStep items
    obtain ⟨later, hlater, hlaterKept, hlaterNot, hle⟩ :=
      ih (items ++ more ++ [(start, comma.start)])
    refine ⟨more ++ (start, comma.start) :: later, ?_, ?_, ?_, ?_⟩
    · rw [ParamList.heads, List.foldl_append, List.foldl_cons, hfold, splitStep_comma hcomma, if_pos rfl]
      refine hlater.trans ?_
      simp
    · rintro ⟨h, hrest⟩
      obtain ⟨rfl, rfl⟩ := hkept h
      rw [hlaterKept hrest]
      rfl
    · intro h
      simp only [ParamList.spans, List.length_append, List.length_cons]
      by_cases hparam : KeepsTogether param.heads
      · have hrest := hlaterNot fun hrest => h ⟨hparam, hrest⟩
        omega
      · have hpos := List.length_pos_of_ne_nil (hnot hparam)
        omega
    · simp only [ParamList.spans, List.length_append, List.length_cons]
      omega

/-- Items end behind their start, in order, before what follows. -/
def SplitState.Ordered (state : SplitState) (tokens : List Token) : Prop :=
  (∀ item ∈ state.items, item.1 < item.2) ∧ ∀ start ∈ state.itemStart, ∀ token ∈ tokens, start < token.start

lemma SplitState.Ordered.step (h : state.Ordered (token :: tokens)) (hne : token.start < token.stop)
    (hpairs : (token :: tokens).Pairwise Token.Before) : (splitStep state token).Ordered tokens := by
  have hlater : ∀ other ∈ tokens, token.start < other.start := fun other hother =>
    hne.trans_le (List.rel_of_pairwise_cons hpairs hother)
  have hold : ∀ start ∈ state.itemStart, ∀ other ∈ tokens, start < other.start :=
    fun start hstart other hother => h.2 start hstart other (List.mem_cons_of_mem _ hother)
  have hstarted : ∀ start ∈ some (state.itemStart.getD token.start), ∀ other ∈ tokens, start < other.start := by
    intro start hstart other hother
    obtain rfl := Option.some.inj hstart
    cases hitem : state.itemStart with
    | none => exact hlater other hother
    | some start => exact hold start hitem other hother
  by_cases hcomma : token.isPunct ','
  · rw [splitStep_comma hcomma]
    split_ifs
    · unfold SplitState.endItem
      cases hitem : state.itemStart with
      | none => exact ⟨h.1, hold⟩
      | some start =>
        refine ⟨fun item hitem' => ?_, by simp⟩
        rcases List.mem_append.mp hitem' with hmem | hmem
        · exact h.1 item hmem
        · obtain rfl := List.mem_singleton.mp hmem
          exact h.2 start hitem token List.mem_cons_self
    · exact ⟨h.1, hstarted⟩
  · obtain ⟨hitems, hstart | ⟨hsame, -⟩⟩ := @splitStep_other state token (by simpa using hcomma)
    · exact ⟨hitems ▸ h.1, hstart ▸ hstarted⟩
    · exact ⟨hitems ▸ h.1, hsame ▸ hold⟩

lemma SplitState.Ordered.foldl {close : Token} (h : state.Ordered (tokens ++ [close]))
    (hne : ∀ token ∈ tokens, token.start < token.stop) (hpairs : (tokens ++ [close]).Pairwise Token.Before) :
    (tokens.foldl splitStep state).Ordered [close] := by
  induction tokens generalizing state with
  | nil => exact h
  | cons token tokens ih =>
    have hstep := SplitState.Ordered.step h (hne token List.mem_cons_self) hpairs
    exact ih hstep (fun other hother => hne other (List.mem_cons_of_mem _ hother))
      (List.pairwise_cons.mp hpairs).2

lemma SplitState.Ordered.finish {close : Token} (h : state.Ordered [close]) :
    ∀ item ∈ state.finish close.start, item.1 < item.2 := by
  unfold SplitState.finish
  cases hitem : state.itemStart with
  | none => exact h.1
  | some start =>
    intro item hmem
    rcases List.mem_append.mp hmem with hold | hlast
    · exact h.1 item hold
    · obtain rfl := List.mem_singleton.mp hlast
      exact h.2 start hitem close List.mem_cons_self

lemma StandsAt.paired {all : List Token} {index : ℕ} (h : StandsAt all [token] index) :
    ∃ paired, (pairDelimiters all).tokens[index]? = some paired ∧ paired.bare = token.bare := by
  have hbare := congrArg (·[index]?) (map_bare_pairFrom ⟨all, [], true⟩ 0 all.length)
  obtain ⟨before, after, hall, rfl⟩ := h
  have htoken : all[before.length]? = some token := by
    rw [hall, List.append_assoc, List.getElem?_append_right le_rfl, Nat.sub_self]
    rfl
  simp only [List.getElem?_map, htoken, Option.map_some] at hbare
  obtain ⟨paired, hpaired, heq⟩ := Option.map_eq_some_iff.mp hbare
  exact ⟨paired, hpaired, heq⟩

lemma splitStep_of_bare {paired : Token} (h : paired.bare = token.bare) :
    paired.isOpen = token.isOpen ∧ paired.start = token.start ∧
      ∀ state, splitStep state paired = splitStep state token := by
  refine ⟨?_, ?_, fun state => ?_⟩
  · change paired.bare.isOpen = token.bare.isOpen
    rw [h]
  · change paired.bare.start = token.bare.start
    rw [h]
  · change splitStep state paired.bare = splitStep state token.bare
    rw [h]

lemma Collapses.splitLoop_eq {all : List Token} (h : Collapses tokens heads) {cursor fuel : ℕ}
    (hstands : StandsAt all tokens cursor) (hfuel : heads.length < fuel) (state : SplitState) :
    splitLoop (pairDelimiters all).tokens (cursor + tokens.length) fuel cursor state =
      some (heads.foldl splitStep state) := by
  induction h generalizing cursor fuel state with
  | nil =>
    obtain ⟨fuel, rfl⟩ := Nat.exists_eq_add_of_lt hfuel
    rw [splitLoop, if_neg (by simp)]
    rfl
  | @leaf token tokens heads hopen _ _ ih =>
    obtain ⟨fuel, rfl⟩ := Nat.exists_eq_add_of_lt hfuel
    obtain ⟨hfirst, hrest⟩ := hstands.tail
    obtain ⟨paired, hpaired, hbare⟩ := hfirst.paired
    obtain ⟨hkind, -, hstep⟩ := splitStep_of_bare hbare
    rw [splitLoop, if_pos (by simp), hpaired, Option.bind_some, hkind, hopen, if_neg (by simp), hstep,
      List.length_cons, Nat.add_comm tokens.length, ← Nat.add_assoc]
    exact ih hrest (by rw [List.length_cons]; omega) _
  | @group opener close inner tokens heads hopen hinner hclose _ ih =>
    obtain ⟨fuel, rfl⟩ := Nat.exists_eq_add_of_lt hfuel
    obtain ⟨hfirst, -, -, hrest⟩ := hstands.group
    have hpair := (pairs_of_group hopen hinner hclose hstands).1
    obtain ⟨paired, hpaired, hbare⟩ := hfirst.paired
    obtain ⟨hkind, -, hstep⟩ := splitStep_of_bare hbare
    rw [hpaired, Option.bind_some] at hpair
    rw [splitLoop, if_pos (by simp), hpaired, Option.bind_some, hkind, hopen, if_pos rfl, hpair,
      Option.bind_some, hstep, show cursor + (opener :: (inner ++ close :: tokens)).length =
        cursor + 1 + inner.length + 1 + tokens.length by simp; omega]
    exact ih hrest (by rw [List.length_cons]; omega) _

/-! ## Lists in a source -/

lemma Collapses.append {tokens' heads' : List Token} (h : Collapses tokens heads)
    (h' : Collapses tokens' heads') : Collapses (tokens ++ tokens') (heads ++ heads') := by
  induction h with
  | nil => exact h'
  | leaf hopen hclose _ ih => exact .leaf hopen hclose ih
  | group hopen hinner hclose _ ih =>
    rw [List.cons_append, List.append_assoc, List.cons_append, List.cons_append]
    exact .group hopen hinner hclose ih

lemma Collapses.sublist (h : Collapses tokens heads) : heads.Sublist tokens := by
  induction h with
  | nil => exact List.Sublist.refl _
  | leaf _ _ _ ih => exact ih.cons_cons _
  | @group opener close inner tokens heads _ _ _ _ ih =>
    exact ((ih.cons close).trans (List.sublist_append_right inner _)).cons_cons opener

lemma ParamList.collapses (list : ParamList) : Collapses list.tokens list.heads := by
  induction list with
  | comments tokens hcomments =>
    unfold ParamList.tokens ParamList.heads
    induction tokens with
    | nil => exact .nil
    | cons token tokens ih =>
      have hkind := hcomments token List.mem_cons_self
      rw [Token.isComment, beq_iff_eq] at hkind
      refine .leaf (by simp [Token.isOpen, hkind]) (by simp [Token.isClose, hkind]) ?_
      exact ih fun other hother => hcomments other (List.mem_cons_of_mem _ hother)
  | last param => exact param.collapses
  | more param comma hcomma rest ih =>
    rw [Token.isPunct_iff] at hcomma
    exact param.collapses.append
      (.leaf (by simp [Token.isOpen, hcomma]) (by simp [Token.isClose, hcomma]) ih)

/-- A list of parameters in parentheses, in a source whose delimiters are balanced. -/
structure SourceList (classes : CharClasses) (source : Text) where
  before : List Token
  opener : Token
  list : ParamList
  close : Token
  after : List Token
  opens : opener.kind = .opening '('
  closes : close.kind = .closing ')'
  lex_eq : lex classes source = before ++ opener :: (list.tokens ++ close :: after)
  balanced : (tokenize classes source).balanced = true

/-- `split_top_level` on the list of a source. -/
def SourceList.split {classes : CharClasses} {source : Text} (found : SourceList classes source) :
    Option (List (ℕ × ℕ)) :=
  splitTopLevel (tokenize classes source) found.before.length
    (found.before.length + 1 + found.list.tokens.length)

lemma SourceList.split_eq {classes : CharClasses} {source : Text} (found : SourceList classes source) :
    found.split = some ((found.list.heads.foldl splitStep {}).finish found.close.start) := by
  have hlist : StandsAt (lex classes source) found.list.tokens (found.before.length + 1) :=
    ⟨found.before ++ [found.opener], found.close :: found.after, by simp [found.lex_eq], by simp⟩
  have hclose : StandsAt (lex classes source) [found.close]
      (found.before.length + 1 + found.list.tokens.length) :=
    ⟨found.before ++ found.opener :: found.list.tokens, found.after, by simp [found.lex_eq],
      by simp; omega⟩
  have hlength : (tokenize classes source).tokens.length = (lex classes source).length := by
    have hlengths := congrArg List.length
      (map_bare_pairFrom ⟨lex classes source, [], true⟩ 0 (lex classes source).length)
    rwa [List.length_map, List.length_map] at hlengths
  have hcount : (lex classes source).length =
      found.before.length + 1 + found.list.tokens.length + 1 + found.after.length := by
    rw [found.lex_eq]
    simp
    omega
  have hheads := found.list.collapses.sublist.length_le
  unfold SourceList.split splitTopLevel
  rw [if_neg (by rw [found.balanced, hlength]; simp; omega),
    show tokenize classes source = pairDelimiters (lex classes source) from rfl,
    found.list.collapses.splitLoop_eq hlist (by rw [← tokenize, hlength]; omega), Option.bind_some]
  obtain ⟨paired, hpaired, hbare⟩ := hclose.paired
  obtain ⟨-, hstart, -⟩ := splitStep_of_bare hbare
  rw [hpaired, Option.map_some, hstart, Option.some.injEq, List.filter_eq_self]
  have hpairs : (found.list.heads ++ [found.close]).Pairwise Token.Before := by
    have hall := pairwise_lex classes source
    rw [found.lex_eq] at hall
    refine hall.sublist ?_
    refine List.Sublist.trans ?_ (List.sublist_append_right _ _)
    refine List.Sublist.trans ?_ (List.sublist_cons_self _ _)
    exact found.list.collapses.sublist.append (by simp)
  have hne : ∀ token ∈ found.list.heads, token.start < token.stop := by
    intro token htoken
    apply start_lt_stop_of_mem_lex classes source
    rw [found.lex_eq]
    simp [found.list.collapses.sublist.subset htoken]
  have hordered : SplitState.Ordered {} (found.list.heads ++ [found.close]) :=
    ⟨by simp, by simp⟩
  intro item hitem
  simpa using (hordered.foldl hne hpairs).finish item hitem

/-- `split_top_level` gives the parameters exactly when no comment stands alone and no arrow hides a
comma. -/
theorem split_top_level_iff (classes : CharClasses) (source : Text)
    (found : SourceList classes source) :
    found.split = some (found.list.spans found.close.start) ↔ found.list.Kept := by
  obtain ⟨more, hmore, hkept, hnot, -⟩ := found.list.finish_foldl [] found.close.start
  rw [found.split_eq, hmore, List.nil_append, Option.some.injEq]
  constructor
  · intro h
    by_contra hkeeps
    exact absurd (congrArg List.length h) (hnot hkeeps).ne'
  · exact hkept

def asciiClasses : CharClasses where
  isAlphabetic c := c.isAlpha
  isAlphanumeric c := c.isAlphanum
  alphabetic_of_ascii _ _ := rfl
  alphanumeric_of_ascii _ _ := rfl

/-- The parameter of a function that is given a function in a generic type. -/
def arrowParam : Param where
  tokens := [⟨5, 6, .ident, none⟩, ⟨6, 7, .punct ':', none⟩, ⟨8, 9, .ident, none⟩,
    ⟨9, 10, .punct '<', none⟩, ⟨10, 12, .ident, none⟩, ⟨12, 13, .opening '(', none⟩,
    ⟨13, 14, .closing ')', none⟩, ⟨15, 16, .punct '-', none⟩, ⟨16, 17, .punct '>', none⟩,
    ⟨18, 20, .ident, none⟩, ⟨20, 21, .punct ',', none⟩, ⟨22, 23, .ident, none⟩,
    ⟨23, 24, .punct '>', none⟩]
  heads := [⟨5, 6, .ident, none⟩, ⟨6, 7, .punct ':', none⟩, ⟨8, 9, .ident, none⟩,
    ⟨9, 10, .punct '<', none⟩, ⟨10, 12, .ident, none⟩, ⟨12, 13, .opening '(', none⟩,
    ⟨15, 16, .punct '-', none⟩, ⟨16, 17, .punct '>', none⟩,
    ⟨18, 20, .ident, none⟩, ⟨20, 21, .punct ',', none⟩, ⟨22, 23, .ident, none⟩,
    ⟨23, 24, .punct '>', none⟩]
  collapses := by
    iterate 5 refine .leaf rfl rfl ?_
    refine @Collapses.group _ _ [] _ _ rfl .nil rfl ?_
    iterate 6 refine .leaf rfl rfl ?_
    exact .nil
  written := by
    iterate 3 refine .plain rfl ?_
    refine @Written.generics _ _ _ [⟨10, 12, .ident, none⟩, ⟨12, 13, .opening '(', none⟩,
      ⟨15, 16, .punct '-', none⟩, ⟨16, 17, .punct '>', none⟩, ⟨18, 20, .ident, none⟩,
      ⟨20, 21, .punct ',', none⟩, ⟨22, 23, .ident, none⟩] [] rfl ?_ rfl .nil
    exact .plain rfl (.plain rfl (.arrow rfl rfl (.plain rfl (.comma rfl (.plain rfl .nil)))))
  real := ⟨⟨5, 6, .ident, none⟩, by simp, rfl⟩

/-- A signature with this parameter. -/
def arrowSignature : Text := "fn f(r: R<fn() -> u8, E>) {}".toList

def arrowList : SourceList asciiClasses arrowSignature where
  before := [⟨0, 2, .ident, none⟩, ⟨3, 4, .ident, none⟩]
  opener := ⟨4, 5, .opening '(', none⟩
  list := .last arrowParam
  close := ⟨24, 25, .closing ')', none⟩
  after := [⟨26, 27, .opening '{', none⟩, ⟨27, 28, .closing '}', none⟩]
  opens := rfl
  closes := rfl
  lex_eq := by decide +kernel
  balanced := by decide +kernel

/-- The comma behind an arrow ends an item within generic arguments. -/
theorem split_top_level_within_generics :
    ¬ ∀ (classes : CharClasses) (source : Text) (found : SourceList classes source),
      found.split = some (found.list.spans found.close.start) := by
  intro h
  have hsplit : arrowList.split = some [(5, 20), (22, 24)] := by decide +kernel
  have hparams : arrowList.list.spans arrowList.close.start = [(5, 24)] := by decide +kernel
  have hsame := h asciiClasses arrowSignature arrowList
  rw [hsplit, hparams] at hsame
  exact absurd hsame (by decide)

end AgzRustMcp
