import AgzRustMcp.Gate.Validation
import AgzRustMcp.Gate.ChangedSet

/-!
# Commands of the gate

A command is put together by four functions that insert, filter and rewrite arguments by position
and by their text.  `commands_carry_choices` says that the command of every target is a list of
pieces, whose values are exactly those that the options and the scope name.
-/

namespace AgzRustMcp.Gate

/-! ## Pieces of a command -/

/-- A piece of a command: a word, a flag with its value, or an argument. -/
inductive Piece
  | word (text : String)
  | value (flag text : String)
  | positional (text : String)
deriving DecidableEq

def Piece.args : Piece → List String
  | .word text => [text]
  | .value flag text => [flag, text]
  | .positional text => [text]

/-- A piece holds a text that the gate did not write. -/
def Piece.supplied : Piece → Bool
  | .word _ => false
  | .value _ _ => true
  | .positional _ => true

def Piece.text : Piece → String
  | .word text => text
  | .value _ text => text
  | .positional text => text

/-- The words that the gate writes into its commands. -/
def gateWords : List String :=
  ["check", "build", "clippy", "test", "fmt", "nextest", "run", "--locked", "--message-format=json",
    "--cargo-message-format=json", "--all-targets", "--doc", "--workspace", "--timings", "--lib",
    "--all-features", "--no-default-features", "--no-tests=fail", "--all", "--check", "--", "-D", "warnings"]

/-- The strings of a list, sorted and without repetition. -/
def sortedDistinct (texts : List String) : List String := texts.dedup.insertionSort (· ≤ ·)

/-! ## What the options supply -/

def CargoTargetSelection.piece : CargoTargetSelection → Piece
  | .lib => .word "--lib"
  | .bin name => .value "--bin" name
  | .test name => .value "--test" name
  | .example name => .value "--example" name
  | .bench name => .value "--bench" name

/-- The flags for features and the platform, as pieces. -/
def ValidationOptions.flagPieces (options : ValidationOptions) : List Piece :=
  (if options.allFeatures then [.word "--all-features"] else []) ++
    (if options.noDefaultFeatures then [.word "--no-default-features"] else []) ++
    (if options.features ≠ [] then
      [.value "--features" (",".intercalate (sortedDistinct options.features))] else []) ++
    options.targetTriple.toList.map fun triple => .value "--target" triple

inductive ScopeChoice
  | unset
  | workspace
  | packages (names : List String)

def ScopeChoice.args : ScopeChoice → List String
  | .unset => []
  | .workspace => ["--workspace"]
  | .packages names => packageArgs names

def ScopeChoice.pieces : ScopeChoice → List Piece
  | .unset => []
  | .workspace => [.word "--workspace"]
  | .packages names => names.map (.value "-p")

/-- What a command has from its request. -/
def suppliedPieces (options : ValidationOptions) (scope : ScopeChoice) (id : GateTargetId) : List Piece :=
  if id = .fmt then []
  else
    (scope.pieces ++ options.cargoTarget.toList.map CargoTargetSelection.piece ++ options.flagPieces).filter
      Piece.supplied ++ options.testFilter.toList.map .positional

/-- What stands behind the flags of Cargo. -/
def behindFlags (id : GateTargetId) : List String :=
  if id = .clippy then ["--", "-D", "warnings"] else []

/-- A text that is not read as a flag. -/
def Undashed (text : String) : Prop := text.toList.head? ≠ some '-'

/-- The arguments are pieces, and behind them, for clippy, the level of the lints.  Those that the
gate did not write are the manifest and what the request supplies, the positional one last. -/
structure CarriesChoices (options : ValidationOptions) (scope : ScopeChoice) (manifest : String)
    (id : GateTargetId) (pieces : List Piece) (args : List String) : Prop where
  args_eq : args = pieces.flatMap Piece.args ++ behindFlags id
  supplied : pieces.filter Piece.supplied =
    .value "--manifest-path" manifest :: suppliedPieces options scope id
  words : ∀ text, .word text ∈ pieces → text ∈ gateWords
  last : ∀ front text behind, pieces = front ++ .positional text :: behind → behind = []
  undashed : ∀ piece ∈ suppliedPieces options scope id, Undashed piece.text
  separator : "--" ∉ pieces.flatMap Piece.args
  features : ∀ value, .value "--features" value ∈ pieces →
    (value.toList.splitOn ',').map String.ofList = sortedDistinct options.features

/-! ## Operations on arguments, as operations on pieces -/

/-- A word other than the separator, or a flag with a value that is not read as a flag. -/
def Piece.Plain : Piece → Prop
  | .word text => text ∈ gateWords ∧ text ≠ "--"
  | .value flag text =>
    flag ∈ ["--manifest-path", "-p", "--bin", "--test", "--example", "--bench", "--features", "--target"] ∧
      Undashed text
  | .positional _ => False

section

variable {flags before args : List String} {pieces new : List Piece} {id : GateTargetId}

lemma Undashed.ne {text : String} (h : Undashed text) (word : String) (hword : word.toList.head? = some '-') :
    text ≠ word := by
  rintro rfl
  exact h hword

lemma Piece.Plain.word_of_mem {piece : Piece} {word : String} (h : piece.Plain) (hmem : word ∈ piece.args)
    (hdash : word.toList.head? = some '-')
    (hflag : word ∉ ["--manifest-path", "-p", "--bin", "--test", "--example", "--bench", "--features",
      "--target"]) : piece = .word word := by
  cases piece with
  | word text => rw [List.mem_singleton.mp hmem]
  | value flag text =>
    obtain ⟨hknown, htext⟩ := h
    rcases List.mem_cons.mp hmem with rfl | hmem
    · exact absurd hknown hflag
    · exact absurd (List.mem_singleton.mp hmem).symm (htext.ne _ hdash)
  | positional text => exact h.elim

lemma separator_notMem (h : ∀ piece ∈ pieces, piece.Plain) : "--" ∉ pieces.flatMap Piece.args := by
  intro hmem
  obtain ⟨piece, hpiece, hword⟩ := List.mem_flatMap.mp hmem
  have hplain := h piece hpiece
  rw [hplain.word_of_mem hword (by decide) (by decide)] at hplain
  exact hplain.2 rfl

lemma insertFlags_append_behind (h : "--" ∉ before) :
    insertFlags flags (before ++ behindFlags id) = before ++ flags ++ behindFlags id := by
  have hbefore : ∀ arg ∈ before, decide (arg ≠ "--") = true := by
    intro arg harg
    rw [decide_eq_true_eq]
    rintro rfl
    exact h harg
  unfold insertFlags
  rw [List.takeWhile_append_of_pos hbefore, List.dropWhile_append_of_pos hbefore]
  unfold behindFlags
  split_ifs <;> simp

lemma filter_args {word : String} (h : ∀ piece ∈ pieces, piece.Plain) (hdash : word.toList.head? = some '-')
    (hflag : word ∉ ["--manifest-path", "-p", "--bin", "--test", "--example", "--bench", "--features",
      "--target"]) :
    (pieces.flatMap Piece.args).filter (· ≠ word) = (pieces.filter (· ≠ .word word)).flatMap Piece.args := by
  induction pieces with
  | nil => rfl
  | cons piece pieces ih =>
    rw [List.flatMap_cons, List.filter_append, ih fun other hother => h other (List.mem_cons_of_mem _ hother),
      List.filter_cons]
    by_cases hpiece : piece = .word word
    · rw [hpiece]
      simp [Piece.args]
    · rw [if_pos (by simpa using hpiece), List.flatMap_cons, List.filter_eq_self.mpr]
      intro arg harg
      rw [decide_eq_true_eq]
      rintro rfl
      exact hpiece ((h piece List.mem_cons_self).word_of_mem harg hdash hflag)

/-- What an argument becomes in a command of nextest. -/
def nextestArg (arg : String) : String :=
  if arg = "--message-format=json" then "--cargo-message-format=json" else arg

/-- What a piece becomes in a command of nextest: a value stays as it is. -/
def Piece.forNextest : Piece → Piece
  | .word text => .word (nextestArg text)
  | .value flag text => .value flag text
  | .positional text => .positional text

lemma Piece.Plain.args_forNextest {piece : Piece} (h : piece.Plain) :
    piece.forNextest.args = piece.args.map nextestArg := by
  cases piece with
  | word text => rfl
  | value flag text =>
    obtain ⟨hknown, htext⟩ := h
    have hflag : nextestArg flag = flag := by
      refine if_neg ?_
      rintro rfl
      exact absurd hknown (by decide)
    have hvalue : nextestArg text = text := if_neg (htext.ne _ (by decide))
    rw [Piece.forNextest, Piece.args, List.map_cons, List.map_cons, hflag, hvalue, List.map_nil]
  | positional text => exact h.elim

lemma Piece.Plain.forNextest {piece : Piece} (h : piece.Plain) : piece.forNextest.Plain := by
  cases piece with
  | word text =>
    by_cases htext : text = "--message-format=json"
    · rw [Piece.forNextest, nextestArg, if_pos htext]
      exact ⟨by decide, by decide⟩
    · rw [Piece.forNextest, nextestArg, if_neg htext]
      exact h
  | value flag text => exact h
  | positional text => exact h

end

/-- Plain pieces with the subcommand; the given ones are not the gate's. -/
def Represents (supplied : List Piece) (id : GateTargetId) (args : List String) : Prop :=
  ∃ subcommand pieces, subcommand ≠ "--all-targets" ∧
    args = (.word subcommand :: pieces : List Piece).flatMap Piece.args ++ behindFlags id ∧
    (∀ piece ∈ (.word subcommand :: pieces : List Piece), piece.Plain) ∧
    pieces.filter Piece.supplied = supplied

section

variable {flags args : List String} {supplied new : List Piece} {id : GateTargetId}

lemma Represents.insert (h : Represents supplied id args) (hnew : ∀ piece ∈ new, piece.Plain)
    (hflags : flags = new.flatMap Piece.args) :
    Represents (supplied ++ new.filter Piece.supplied) id (insertFlags flags args) := by
  obtain ⟨subcommand, pieces, hsubcommand, rfl, hplain, rfl⟩ := h
  refine ⟨subcommand, pieces ++ new, hsubcommand, ?_, ?_, List.filter_append _ _⟩
  · rw [insertFlags_append_behind (separator_notMem hplain), hflags, ← List.flatMap_append, List.cons_append]
  · intro piece hpiece
    rw [← List.cons_append] at hpiece
    rcases List.mem_append.mp hpiece with hpiece | hpiece
    · exact hplain piece hpiece
    · exact hnew piece hpiece

lemma Represents.retain (h : Represents supplied id args) :
    Represents supplied id (args.filter (· ≠ "--all-targets")) := by
  obtain ⟨subcommand, pieces, hsubcommand, rfl, hplain, rfl⟩ := h
  have hfirst : ((.word subcommand :: pieces : List Piece).filter (· ≠ .word "--all-targets")) =
      .word subcommand :: pieces.filter (· ≠ .word "--all-targets") := by
    rw [List.filter_cons, if_pos]
    simpa using hsubcommand
  refine ⟨subcommand, pieces.filter (· ≠ .word "--all-targets"), hsubcommand, ?_, ?_, ?_⟩
  · have hbehind : (behindFlags id).filter (· ≠ "--all-targets") = behindFlags id := by
      unfold behindFlags
      split_ifs <;> decide
    rw [List.filter_append, filter_args hplain (by decide) (by decide), hfirst, hbehind]
  · rw [← hfirst]
    exact fun piece hpiece => hplain piece (List.mem_of_mem_filter hpiece)
  · rw [List.filter_filter]
    refine List.filter_congr fun piece _ => ?_
    cases piece <;> simp [Piece.supplied]

lemma Represents.nextest (h : Represents supplied .test args) : Represents supplied .test (nextestArgs args) := by
  obtain ⟨subcommand, pieces, -, rfl, hplain, rfl⟩ := h
  have hrest : ∀ piece ∈ pieces, piece.Plain := fun piece hpiece => hplain piece (List.mem_cons_of_mem _ hpiece)
  have hmapped : ∀ piece ∈ pieces, piece.args.map nextestArg = piece.forNextest.args :=
    fun piece hpiece => (hrest piece hpiece).args_forNextest.symm
  refine ⟨"nextest", .word "run" :: (pieces.map Piece.forNextest ++ [.word "--no-tests=fail"]), by decide, ?_,
    ?_, ?_⟩
  · have hargs : (pieces.flatMap Piece.args).map nextestArg = (pieces.map Piece.forNextest).flatMap Piece.args := by
      rw [List.map_flatMap, List.flatMap_map]
      exact List.flatMap_congr hmapped
    unfold nextestArgs
    simp only [List.flatMap_cons, Piece.args, List.flatMap_append, List.flatMap_nil, behindFlags, reduceCtorEq,
      if_false, List.append_nil, List.cons_append, List.nil_append, List.tail_cons, List.map_cons]
    rw [← hargs]
    rfl
  · intro piece hpiece
    rcases List.mem_cons.mp hpiece with rfl | hpiece
    · exact ⟨by decide, by decide⟩
    rcases List.mem_cons.mp hpiece with rfl | hpiece
    · exact ⟨by decide, by decide⟩
    rcases List.mem_append.mp hpiece with hpiece | hpiece
    · obtain ⟨other, hother, rfl⟩ := List.mem_map.mp hpiece
      exact (hrest other hother).forNextest
    · rw [List.mem_singleton.mp hpiece]
      exact ⟨by decide, by decide⟩
  · have hkept : ∀ piece : Piece, piece.forNextest.supplied = piece.supplied := by
      intro piece
      cases piece <;> rfl
    have hfixed : ∀ piece : Piece, piece.supplied = true → piece.forNextest = piece := by
      intro piece hpiece
      cases piece with
      | word text => exact absurd hpiece (by simp [Piece.supplied])
      | value flag text => rfl
      | positional text => rfl
    rw [List.filter_cons, if_neg (by simp [Piece.supplied]), List.filter_append, List.filter_map]
    have hcomp : (Piece.supplied ∘ Piece.forNextest) = Piece.supplied := funext hkept
    rw [hcomp, List.map_congr_left fun piece hpiece => hfixed piece (List.mem_filter.mp hpiece).2, List.map_id']
    simp [Piece.supplied]

end

/-- No text is a flag, no feature has a comma, nothing unused is given. -/
structure ValidationOptions.Admitted (options : ValidationOptions) (target : GateTargetId) : Prop where
  packages : ∀ name ∈ options.packages, Undashed name
  cargoTarget : ∀ selected ∈ options.cargoTarget, ∀ name ∈ selected.name?, Undashed name
  features : ∀ feature ∈ options.features, Undashed feature ∧ feature ≠ "" ∧ ',' ∉ feature.toList
  triple : ∀ triple ∈ options.targetTriple, Undashed triple
  filter : ∀ filter ∈ options.testFilter, target = .test ∧ Undashed filter
  unselected : target = .all ∨ target = .fmt → options.packages = [] ∧ options.cargoTarget = none

lemma undashed_of_exactName (isAlphanumeric : Char → Bool) {name : String}
    (h : exactName isAlphanumeric name = true) : Undashed name := by
  simp only [exactName, Bool.and_eq_true, bne_iff_ne] at h
  exact h.1.1.2

lemma admitted_of_boundedFeature {feature : String} (h : boundedFeature feature = true) :
    Undashed feature ∧ feature ≠ "" ∧ ',' ∉ feature.toList := by
  simp only [boundedFeature, Bool.and_eq_true, bne_iff_ne] at h
  refine ⟨h.1.1.2, by simpa using h.1.1.1.1, fun hmem => ?_⟩
  exact absurd (List.all_eq_true.mp h.2 ',' hmem) (by decide)

lemma admitted_of_validate {isAlphanumeric : Char → Bool} {options : ValidationOptions} {target : GateTargetId}
    (h : options.validate isAlphanumeric target = .ok ()) : options.Admitted target := by
  unfold ValidationOptions.validate at h
  cases hselection : validateSelection isAlphanumeric options target with
  | error message => simp [hselection] at h
  | ok accepted =>
    rw [hselection] at h
    dsimp only at h
    split_ifs at h with hfeatures hall htriple hfilter hrunner hfmt
    unfold validateSelection at hselection
    split_ifs at hselection with hnames hnarrow
    rw [not_or] at hnames hfeatures
    refine ⟨?_, ?_, ?_, ?_, ?_, ?_⟩
    · intro name hname
      refine undashed_of_exactName isAlphanumeric ?_
      simpa using mt (fun hbad => List.any_eq_true.mpr ⟨name, hname, hbad⟩) hnames.2
    · intro selected hselected name hname
      rw [Option.mem_def.mp hselected] at hselection
      dsimp only [validateCargoTarget] at hselection
      split_ifs at hselection with hempty hstage hbad
      rw [Option.mem_def.mp hname] at hbad
      exact undashed_of_exactName isAlphanumeric (by simpa using hbad)
    · intro feature hfeature
      refine admitted_of_boundedFeature ?_
      simpa using mt (fun hbad => List.any_eq_true.mpr ⟨feature, hfeature, hbad⟩) hfeatures.2
    · intro triple htripleMem
      rw [Option.mem_def.mp htripleMem] at htriple
      have hbounded : boundedTriple triple = true := by simpa using htriple
      simp only [boundedTriple, Bool.and_eq_true, bne_iff_ne] at hbounded
      exact hbounded.1.2
    · intro filter hfilterMem
      rw [Option.mem_def.mp hfilterMem] at hfilter
      have hbounded : target = .test ∧ boundedFilter filter = true := by simpa using hfilter
      have htext := hbounded.2
      simp only [boundedFilter, Bool.and_eq_true, bne_iff_ne] at htext
      exact ⟨hbounded.1, htext.1.2⟩
    · intro hwhole
      have hnone : ¬ (options.packages ≠ [] ∨ options.cargoTarget.isSome = true) :=
        fun hsome => hnarrow ⟨hsome, hwhole⟩
      rw [not_or, not_not, Bool.not_eq_true, Option.isSome_eq_false_iff, Option.isNone_iff_eq_none] at hnone
      exact hnone

/-! ## The command of a target -/

section

variable {options : ValidationOptions} {target : GateTarget} {requested id : GateTargetId}
  {manifest : String} {supplied : List Piece} {scope : ScopeChoice}

lemma represents_baseArgs (hmanifest : Undashed manifest) (allPackages : Bool) (hid : id ≠ .all) :
    Represents [.value "--manifest-path" manifest] id (baseArgs id manifest allPackages) := by
  have hplain : (Piece.value "--manifest-path" manifest).Plain := ⟨by decide, hmanifest⟩
  have hwords : ∀ words : List String, (∀ word ∈ words, word ∈ gateWords ∧ word ≠ "--") →
      ∀ piece ∈ Piece.value "--manifest-path" manifest :: words.map .word, piece.Plain := by
    intro words hwords piece hpiece
    rcases List.mem_cons.mp hpiece with rfl | hpiece
    · exact hplain
    · obtain ⟨word, hword, rfl⟩ := List.mem_map.mp hpiece
      exact hwords word hword
  have hrepresents : ∀ (subcommand : String) (words : List String),
      subcommand ∈ gateWords ∧ subcommand ≠ "--" → subcommand ≠ "--all-targets" →
        (∀ word ∈ words, word ∈ gateWords ∧ word ≠ "--") →
          Represents [.value "--manifest-path" manifest] id
            (subcommand :: "--manifest-path" :: manifest :: words ++ behindFlags id) := by
    intro subcommand words hsubcommand hall hknown
    refine ⟨subcommand, .value "--manifest-path" manifest :: words.map .word, hall, ?_, ?_, ?_⟩
    · have hflat : (words.map Piece.word).flatMap Piece.args = words := by
        rw [List.flatMap_map]
        exact List.flatMap_singleton' words
      simp [Piece.args, hflat]
    · intro piece hpiece
      rcases List.mem_cons.mp hpiece with rfl | hpiece
      · exact hsubcommand
      · exact hwords words hknown piece hpiece
    · rw [List.filter_cons, if_pos (by rfl), List.filter_map]
      simp [Function.comp_def, Piece.supplied]
  cases id with
  | check =>
    exact hrepresents "check" ["--locked", "--message-format=json"] (by decide) (by decide) (by decide)
  | build =>
    exact hrepresents "build" ["--locked", "--message-format=json"] (by decide) (by decide) (by decide)
  | clippy =>
    exact hrepresents "clippy" ["--locked", "--all-targets", "--message-format=json"] (by decide) (by decide)
      (by decide)
  | test =>
    exact hrepresents "test" ["--locked", "--all-targets", "--message-format=json"] (by decide) (by decide)
      (by decide)
  | doc =>
    exact hrepresents "test" ["--doc", "--locked", "--message-format=json"] (by decide) (by decide) (by decide)
  | fmt =>
    cases allPackages with
    | true => exact hrepresents "fmt" ["--all", "--check"] (by decide) (by decide) (by decide)
    | false => exact hrepresents "fmt" ["--check"] (by decide) (by decide) (by decide)
  | all => exact absurd rfl hid

lemma Represents.insertWord {args : List String} (h : Represents supplied id args) (word : String)
    (condition : Prop) [Decidable condition] (hword : word ∈ gateWords ∧ word ≠ "--") :
    Represents supplied id (if condition then insertFlags [word] args else args) := by
  by_cases hcondition : condition
  · have hplain : ∀ piece ∈ [Piece.word word], piece.Plain := by
      intro piece hpiece
      rw [List.mem_singleton.mp hpiece]
      exact hword
    have hflags : [word] = [Piece.word word].flatMap Piece.args := rfl
    have hinserted := h.insert hplain hflags
    rw [if_pos hcondition]
    simpa [Piece.supplied] using hinserted
  · rw [if_neg hcondition]
    exact h

lemma ScopeChoice.args_eq (scope : ScopeChoice) : scope.args = scope.pieces.flatMap Piece.args := by
  cases scope with
  | unset => rfl
  | workspace => rfl
  | packages names =>
    rw [ScopeChoice.args, ScopeChoice.pieces, packageArgs, List.flatMap_map]
    rfl

lemma ScopeChoice.plain (h : ∀ names, scope = .packages names → ∀ name ∈ names, Undashed name) :
    ∀ piece ∈ scope.pieces, piece.Plain := by
  intro piece hpiece
  cases scope with
  | unset => exact absurd hpiece List.not_mem_nil
  | workspace =>
    rw [List.mem_singleton.mp hpiece]
    exact ⟨by decide, by decide⟩
  | packages names =>
    obtain ⟨name, hname, rfl⟩ := List.mem_map.mp hpiece
    exact ⟨by decide, h names rfl name hname⟩

lemma Represents.insertScope {args : List String} {fullWorkspace : Bool}
    (h : Represents [.value "--manifest-path" manifest] id args)
    (hscope : ∀ names, scope = .packages names → ∀ name ∈ names, Undashed name)
    (hfull : fullWorkspace = true → scope = .unset) :
    Represents (.value "--manifest-path" manifest ::
        (if id = .fmt then [] else scope.pieces.filter Piece.supplied)) id
      (if fullWorkspace = false ∧ id ≠ .fmt ∧ scope.args ≠ [] then insertFlags scope.args args
        else args) := by
  by_cases hfmt : id = .fmt
  · rw [if_pos hfmt, if_neg (by tauto)]
    exact h
  rw [if_neg hfmt]
  by_cases hset : fullWorkspace = false ∧ scope.args ≠ []
  · rw [if_pos ⟨hset.1, hfmt, hset.2⟩]
    exact h.insert (ScopeChoice.plain hscope) scope.args_eq
  · rw [if_neg (by tauto)]
    have hnone : scope.pieces = [] := by
      rw [not_and_or, Bool.not_eq_false, not_not] at hset
      rcases hset with hset | hset
      · rw [hfull hset]
        rfl
      · rw [scope.args_eq, List.flatMap_eq_nil_iff] at hset
        refine List.eq_nil_iff_forall_not_mem.mpr fun piece hpiece => ?_
        have hempty := hset piece hpiece
        cases piece <;> exact absurd hempty (List.cons_ne_nil _ _)
    rw [hnone]
    exact h

lemma represents_targetFor {isVirtual fullWorkspace timings : Bool} (hmanifest : Undashed manifest)
    (hscope : ∀ names, scope = .packages names → ∀ name ∈ names, Undashed name)
    (hfull : fullWorkspace = true → scope = .unset)
    (h : targetFor id manifest isVirtual fullWorkspace timings scope.args = some target) :
    target.id = id ∧ Represents (.value "--manifest-path" manifest ::
      (if id = .fmt then [] else scope.pieces.filter Piece.supplied)) id target.args := by
  unfold targetFor at h
  by_cases hall : id = .all
  · rw [if_pos hall] at h
    exact absurd h (by simp)
  rw [if_neg hall] at h
  obtain rfl := Option.some.inj h
  have hbase := represents_baseArgs hmanifest (fullWorkspace || isVirtual) hall
  have hworkspace := hbase.insertWord "--workspace"
    (fullWorkspace ∧ (id = .build ∨ id = .clippy ∨ id = .test ∨ id = .doc)) (by decide)
  have hpackages := hworkspace.insertScope hscope hfull
  exact ⟨rfl, hpackages.insertWord _ (timings ∧ id ≠ .fmt) (by decide)⟩

/-! ## The options of a request -/

lemma CargoTargetSelection.flags_eq (selected : CargoTargetSelection) :
    selected.flags = [selected.piece].flatMap Piece.args := by
  cases selected <;> rfl

lemma CargoTargetSelection.plain {selected : CargoTargetSelection}
    (h : ∀ name ∈ selected.name?, Undashed name) : selected.piece.Plain := by
  cases selected
  case lib => exact ⟨by decide, by decide⟩
  all_goals exact ⟨by decide, h _ rfl⟩

lemma ValidationOptions.flags_eq (options : ValidationOptions) :
    options.flags = options.flagPieces.flatMap Piece.args := by
  unfold ValidationOptions.flags ValidationOptions.flagPieces sortedDistinct
  simp only [List.flatMap_append]
  cases options.targetTriple <;> split_ifs <;> rfl

lemma mem_sortedDistinct {texts : List String} {text : String} : text ∈ sortedDistinct texts ↔ text ∈ texts := by
  rw [sortedDistinct, List.mem_insertionSort, List.mem_dedup]

lemma sortedDistinct_ne_nil {texts : List String} (h : texts ≠ []) : sortedDistinct texts ≠ [] := by
  obtain ⟨text, htext⟩ := List.exists_mem_of_ne_nil _ h
  exact List.ne_nil_of_mem (mem_sortedDistinct.mpr htext)

lemma undashed_intercalate {texts : List String} (h : ∀ text ∈ texts, Undashed text ∧ text ≠ "")
    (hne : texts ≠ []) : Undashed (",".intercalate texts) := by
  cases texts with
  | nil => exact absurd rfl hne
  | cons first rest =>
    obtain ⟨hfirst, hempty⟩ := h first List.mem_cons_self
    unfold Undashed at hfirst ⊢
    have hhead : (",".intercalate (first :: rest)).toList.head? = first.toList.head? := by
      cases hlist : first.toList with
      | nil => exact absurd (String.toList_inj.mp (hlist.trans String.toList_empty.symm)) hempty
      | cons c cs =>
        cases rest <;> simp [String.toList_intercalate, List.intercalate, hlist]
    rwa [hhead]

lemma ValidationOptions.Admitted.plain (h : options.Admitted requested) :
    ∀ piece ∈ options.flagPieces, piece.Plain := by
  intro piece hpiece
  unfold ValidationOptions.flagPieces at hpiece
  simp only [List.mem_append, List.mem_map, Option.mem_toList] at hpiece
  rcases hpiece with ((hpiece | hpiece) | hpiece) | ⟨triple, htriple, rfl⟩
  · split_ifs at hpiece
    · rw [List.mem_singleton.mp hpiece]
      exact ⟨by decide, by decide⟩
    · exact absurd hpiece List.not_mem_nil
  · split_ifs at hpiece
    · rw [List.mem_singleton.mp hpiece]
      exact ⟨by decide, by decide⟩
    · exact absurd hpiece List.not_mem_nil
  · split_ifs at hpiece with hfeatures
    · rw [List.mem_singleton.mp hpiece]
      refine ⟨by decide, undashed_intercalate (fun feature hfeature => ?_) (sortedDistinct_ne_nil hfeatures)⟩
      obtain ⟨hdash, hempty, -⟩ := h.features feature (mem_sortedDistinct.mp hfeature)
      exact ⟨hdash, hempty⟩
    · exact absurd hpiece List.not_mem_nil
  · exact ⟨by decide, h.triple triple htriple⟩

lemma splitOn_intercalate_features (h : options.Admitted requested) (hfeatures : options.features ≠ []) :
    ((",".intercalate (sortedDistinct options.features)).toList.splitOn ',').map String.ofList =
      sortedDistinct options.features := by
  have hcommas : ∀ chars ∈ (sortedDistinct options.features).map String.toList, ',' ∉ chars := by
    intro chars hchars
    obtain ⟨feature, hfeature, rfl⟩ := List.mem_map.mp hchars
    exact (h.features feature (mem_sortedDistinct.mp hfeature)).2.2
  have hne : (sortedDistinct options.features).map String.toList ≠ [] := by
    simpa using sortedDistinct_ne_nil hfeatures
  have hcomma : ",".toList = [','] := rfl
  rw [String.toList_intercalate, hcomma, List.splitOn_intercalate ',' hcommas hne, List.map_map]
  simp [Function.comp_def]

/-- The first half of `apply`: the Cargo target. -/
def ValidationOptions.applySelection (options : ValidationOptions) (target : GateTarget) : GateTarget :=
  match options.cargoTarget with
  | some selected => selected.apply target
  | none => target

/-- The second half of `apply`: the flags, the runner and the filter of tests. -/
def ValidationOptions.applyFlags (options : ValidationOptions) (target : GateTarget) : GateTarget :=
  let target := { target with args := insertFlags options.flags target.args }
  if target.id = .test then
    let target := if options.runner = .nextest then
      { target with args := nextestArgs target.args, label := "cargo nextest run" } else target
    match options.testFilter with
    | some filter => { target with args := target.args ++ [filter] }
    | none => target
  else target

lemma ValidationOptions.apply_eq (options : ValidationOptions) (hfmt : target.id ≠ .fmt) :
    options.apply target = options.applyFlags (options.applySelection target) := by
  unfold ValidationOptions.apply
  rw [if_neg hfmt]
  rfl

lemma Represents.applySelection (h : Represents supplied target.id target.args)
    (hoptions : options.Admitted requested) : (options.applySelection target).id = target.id ∧
      Represents (supplied ++ (options.cargoTarget.toList.map CargoTargetSelection.piece).filter Piece.supplied)
        target.id (options.applySelection target).args := by
  unfold ValidationOptions.applySelection
  cases hcargo : options.cargoTarget with
  | none => exact ⟨rfl, by simpa using h⟩
  | some selected =>
    have hplain := CargoTargetSelection.plain (hoptions.cargoTarget selected hcargo)
    exact ⟨rfl, h.retain.insert (fun piece hpiece => List.mem_singleton.mp hpiece ▸ hplain) selected.flags_eq⟩

lemma Represents.applyFlags (h : Represents supplied target.id target.args)
    (hoptions : options.Admitted requested) : (options.applyFlags target).id = target.id ∧ ∃ args,
      Represents (supplied ++ options.flagPieces.filter Piece.supplied) target.id args ∧
        (options.applyFlags target).args = args ++ if target.id = .test then options.testFilter.toList else [] := by
  have hflags := h.insert hoptions.plain options.flags_eq
  unfold ValidationOptions.applyFlags
  dsimp only
  by_cases htest : target.id = .test
  · rw [if_pos htest, if_pos htest]
    rw [htest] at hflags ⊢
    by_cases hrunner : options.runner = .nextest
    · rw [if_pos hrunner]
      cases options.testFilter with
      | none => exact ⟨rfl, _, hflags.nextest, (List.append_nil _).symm⟩
      | some filter => exact ⟨rfl, _, hflags.nextest, rfl⟩
    · rw [if_neg hrunner]
      cases options.testFilter with
      | none => exact ⟨rfl, _, hflags, (List.append_nil _).symm⟩
      | some filter => exact ⟨rfl, _, hflags, rfl⟩
  · rw [if_neg htest, if_neg htest]
    exact ⟨rfl, _, hflags, (List.append_nil _).symm⟩

lemma Represents.apply (h : Represents supplied target.id target.args) (hoptions : options.Admitted requested)
    (hfmt : target.id ≠ .fmt) : (options.apply target).id = target.id ∧ ∃ args,
      Represents (supplied ++ (options.cargoTarget.toList.map CargoTargetSelection.piece).filter Piece.supplied ++
        options.flagPieces.filter Piece.supplied) target.id args ∧
      (options.apply target).args = args ++ if target.id = .test then options.testFilter.toList else [] := by
  obtain ⟨hid, hselected⟩ := h.applySelection hoptions
  rw [← hid] at hselected
  obtain ⟨hidFlags, args, hrepresents, hargs⟩ := hselected.applyFlags hoptions
  rw [options.apply_eq hfmt]
  rw [hid] at hidFlags hrepresents hargs
  exact ⟨hidFlags, args, hrepresents, hargs⟩

end

/-! ## The commands of a run -/

def targetsFor (snapshot : WorkspaceSnapshot) (target : GateTargetId) (timings : Bool)
    (scopeArgs : List String) : List GateTarget :=
  if target = .all then
    (fullOrder.filter fun id => id ≠ .doc || hasDoctestableTarget snapshot).filterMap fun id =>
      targetFor id snapshot.manifestPath snapshot.isVirtual true timings []
  else (targetFor target snapshot.manifestPath snapshot.isVirtual false timings scopeArgs).toList

/-- The arguments of the scope that a run starts with, or of the one that it chooses. -/
def GateRun.AsksFor (run : GateRun) (scopeArgs : List String) : Prop :=
  ∃ explicitScope, resolve run.snapshot run.request.options = .ok explicitScope ∧
    (scopeArgs = run.initialArgs explicitScope ∨
      ∃ changedPaths, scopeArgs = (run.chosenScope explicitScope changedPaths).args)

/-- Named packages are the scope, and none is read as a flag. -/
structure ScopeChoice.For (scope : ScopeChoice) (request : GateRequest) : Prop where
  named : request.options.packages ≠ [] → scope = .packages (sortedDistinct request.options.packages)
  whole : request.target = .all ∨ request.target = .fmt → scope = .unset
  undashed : ∀ names, scope = .packages names → ∀ name ∈ names, Undashed name

section

variable {run : GateRun} {scopeArgs : List String} {request : GateRequest}

lemma exists_scope_of_asksFor (hoptions : run.request.options.Admitted run.request.target)
    (h : run.AsksFor scopeArgs) : ∃ scope : ScopeChoice, scope.args = scopeArgs ∧ scope.For run.request := by
  obtain ⟨explicitScope, hresolve, hargs⟩ := h
  have hpackageNames : ∀ name ∈ sortedDistinct run.request.options.packages, Undashed name :=
    fun name hname => hoptions.packages name (mem_sortedDistinct.mp hname)
  by_cases hpackages : run.request.options.packages = []
  · -- Nothing is named: the scope is the whole workspace, or the affected packages.
    rw [resolve, if_pos hpackages] at hresolve
    obtain rfl := Except.ok.inj hresolve
    have hnamed : run.request.options.packages ≠ [] → ∀ scope : ScopeChoice,
        scope = .packages (sortedDistinct run.request.options.packages) := fun hne => absurd hpackages hne
    have hunset : ScopeChoice.For .unset run.request :=
      ⟨fun hne => hnamed hne _, fun _ => rfl, fun names hnames => by simp at hnames⟩
    by_cases hwhole : run.request.target = .all ∨ run.request.target = .fmt
    · have hinitial : run.initialArgs none = [] := if_pos hwhole
      refine ⟨.unset, ?_, hunset⟩
      rcases hargs with rfl | ⟨changedPaths, rfl⟩
      · exact hinitial.symm
      · unfold GateRun.chosenScope
        dsimp only
        rw [if_neg (fun hne => hne.2.2 hinitial), Option.getD_none]
        unfold checkScope
        rw [if_pos hwhole]
        rfl
    · have hworkspace : ScopeChoice.For .workspace run.request :=
        ⟨fun hne => hnamed hne _, fun hw => absurd hw hwhole, fun names hnames => by simp at hnames⟩
      rcases hargs with rfl | ⟨changedPaths, rfl⟩
      · exact ⟨.workspace, (if_neg hwhole).symm, hworkspace⟩
      · unfold GateRun.chosenScope
        dsimp only
        split_ifs
        · exact ⟨.workspace, rfl, hworkspace⟩
        · rw [Option.getD_none]
          unfold checkScope
          rw [if_neg hwhole]
          cases run.configured with
          | workspace => exact ⟨.workspace, rfl, hworkspace⟩
          | shadow =>
            dsimp only
            cases affectedPackages run.snapshot changedPaths with
            | ok found => exact ⟨.workspace, rfl, hworkspace⟩
            | error reason => exact ⟨.workspace, rfl, hworkspace⟩
          | affected =>
            dsimp only
            cases haffected : affectedPackages run.snapshot changedPaths with
            | ok found =>
              refine ⟨.packages found.1, rfl, fun hne => hnamed hne _, fun hw => absurd hw hwhole,
                fun names hnames => ?_⟩
              rw [← ScopeChoice.packages.inj hnames]
              exact affectedPackages_valid haffected
            | error reason => exact ⟨.workspace, rfl, hworkspace⟩
  · -- The named packages are the scope, whatever has changed.
    have hpartial : ¬ (run.request.target = .all ∨ run.request.target = .fmt) :=
      fun hwhole => hpackages (hoptions.unselected hwhole).1
    rw [resolve, if_neg hpackages] at hresolve
    dsimp only at hresolve
    cases hnames : resolveNames run.snapshot run.request.options.cargoTarget
        (run.request.options.packages.dedup.insertionSort (· ≤ ·)) with
    | error message => simp [hnames, Except.map] at hresolve
    | ok packageIds =>
      rw [hnames] at hresolve
      obtain rfl := Except.ok.inj hresolve
      refine ⟨.packages (sortedDistinct run.request.options.packages), ?_, fun _ => rfl,
        fun hwhole => absurd hwhole hpartial, fun names hsame => ?_⟩
      · rcases hargs with rfl | ⟨changedPaths, rfl⟩
        · rfl
        · unfold GateRun.chosenScope
          dsimp only
          rw [if_neg (fun hempty => hpackages hempty.1)]
          rfl
      · rw [← ScopeChoice.packages.inj hsame]
        exact hpackageNames

lemma CarriesChoices.of_represents {options : ValidationOptions} {requested id : GateTargetId}
    {scope : ScopeChoice} {manifest : String} {args : List String} {supplied filter : List Piece}
    (hoptions : options.Admitted requested)
    (hrepresents : Represents (.value "--manifest-path" manifest :: supplied) id args)
    (hsupplied : suppliedPieces options scope id = supplied ++ filter)
    (hfilter : filter = [] ∨ ∃ text, filter = [.positional text] ∧ Undashed text ∧ id = .test)
    (hfeatures : ∀ value, .value "--features" value ∈ supplied → options.features ≠ [] ∧
      value = ",".intercalate (sortedDistinct options.features)) :
    ∃ pieces, CarriesChoices options scope manifest id pieces (args ++ filter.flatMap Piece.args) := by
  obtain ⟨subcommand, pieces, -, rfl, hplain, hpieces⟩ := hrepresents
  generalize hflags : (.word subcommand :: pieces : List Piece) = written at hplain ⊢
  have hwritten : written.filter Piece.supplied = .value "--manifest-path" manifest :: supplied := by
    rw [← hflags, List.filter_cons, if_neg (by simp [Piece.supplied]), hpieces]
  have hfilterSupplied : filter.filter Piece.supplied = filter := by
    rcases hfilter with rfl | ⟨text, rfl, -, -⟩ <;> rfl
  refine ⟨written ++ filter, ⟨?args_eq, ?supplied, ?words, ?last, ?undashed, ?separator, ?features⟩⟩
  case args_eq =>
    rcases hfilter with rfl | ⟨text, rfl, -, rfl⟩
    · simp
    · simp [behindFlags]
  case supplied =>
    rw [List.filter_append, hwritten, hfilterSupplied, hsupplied, List.cons_append]
  case words =>
    intro text htext
    rcases List.mem_append.mp htext with htext | htext
    · exact (hplain _ htext).1
    · rcases hfilter with rfl | ⟨other, rfl, -, -⟩
      · exact absurd htext List.not_mem_nil
      · exact absurd (List.mem_singleton.mp htext) (by simp)
  case last =>
    intro front text behind hsplit
    by_contra hbehind
    -- With something behind it, the positional argument would be among the flags.
    have hmem : .positional text ∈ written := by
      rcases hfilter with rfl | ⟨other, rfl, -, -⟩
      · rw [List.append_nil] at hsplit
        rw [hsplit]
        exact List.mem_append_right _ List.mem_cons_self
      · obtain ⟨rest, final, rfl⟩ : ∃ rest final, behind = rest ++ [final] :=
          ⟨behind.dropLast, behind.getLast hbehind, (List.dropLast_append_getLast hbehind).symm⟩
        rw [← List.cons_append, ← List.append_assoc] at hsplit
        rw [(List.append_inj' hsplit rfl).1]
        exact List.mem_append_right _ List.mem_cons_self
    exact hplain _ hmem
  case undashed =>
    intro piece hpiece
    rw [hsupplied] at hpiece
    rcases List.mem_append.mp hpiece with hpiece | hpiece
    · have hmem : piece ∈ written.filter Piece.supplied := by
        rw [hwritten]
        exact List.mem_cons_of_mem _ hpiece
      obtain ⟨hmem, hpieceSupplied⟩ := List.mem_filter.mp hmem
      have hpiecePlain := hplain piece hmem
      cases piece with
      | word text => exact absurd hpieceSupplied (by simp [Piece.supplied])
      | value flag text => exact hpiecePlain.2
      | positional text => exact hpiecePlain.elim
    · rcases hfilter with rfl | ⟨text, rfl, htext, -⟩
      · exact absurd hpiece List.not_mem_nil
      · rw [List.mem_singleton.mp hpiece]
        exact htext
  case separator =>
    rw [List.flatMap_append, List.mem_append, not_or]
    refine ⟨separator_notMem hplain, ?_⟩
    rcases hfilter with rfl | ⟨text, rfl, htext, -⟩
    · simp
    · simpa [Piece.args] using (htext.ne "--" (by decide)).symm
  case features =>
    intro value hvalue
    have hmem : .value "--features" value ∈ (written ++ filter).filter Piece.supplied :=
      List.mem_filter.mpr ⟨hvalue, rfl⟩
    rw [List.filter_append, hwritten, hfilterSupplied, List.cons_append, List.mem_cons, List.mem_append] at hmem
    rcases hmem with hmem | hmem | hmem
    · exact absurd (Piece.value.inj hmem).1 (by decide)
    · obtain ⟨hne, rfl⟩ := hfeatures value hmem
      exact splitOn_intercalate_features hoptions hne
    · rcases hfilter with rfl | ⟨text, rfl, -, -⟩
      · exact absurd hmem List.not_mem_nil
      · exact absurd (List.mem_singleton.mp hmem) (by simp)

lemma features_of_mem {options : ValidationOptions} {scope : ScopeChoice} {value : String}
    (h : .value "--features" value ∈ scope.pieces ++
      options.cargoTarget.toList.map CargoTargetSelection.piece ++ options.flagPieces) :
    options.features ≠ [] ∧ value = ",".intercalate (sortedDistinct options.features) := by
  rcases List.mem_append.mp h with h | h
  · rcases List.mem_append.mp h with h | h
    · cases scope with
      | unset => exact absurd h List.not_mem_nil
      | workspace => exact absurd (List.mem_singleton.mp h) (by simp)
      | packages names =>
        obtain ⟨name, -, heq⟩ := List.mem_map.mp h
        exact absurd (Piece.value.inj heq).1 (by decide)
    · obtain ⟨selected, -, heq⟩ := List.mem_map.mp h
      cases selected <;> exact absurd heq (by simp [CargoTargetSelection.piece])
  · unfold ValidationOptions.flagPieces at h
    simp only [List.mem_append, List.mem_map, Option.mem_toList] at h
    rcases h with ((h | h) | h) | ⟨triple, -, heq⟩
    · split_ifs at h <;> simp at h
    · split_ifs at h <;> simp at h
    · split_ifs at h with hfeatures
      · exact ⟨hfeatures, (Piece.value.inj (List.mem_singleton.mp h)).2⟩
      · exact absurd h List.not_mem_nil
    · exact absurd (Piece.value.inj heq).1 (by decide)

/-- The arguments of every command are words of the gate, flags with their values and the filter of
tests; the values are those of the scope and the options, and none is read as a flag. -/
theorem commands_carry_choices (isAlphanumeric : Char → Bool) (run : GateRun) (scopeArgs : List String)
    (target : GateTarget)
    (hvalid : run.request.options.validate isAlphanumeric run.request.target = .ok ())
    (hscope : run.AsksFor scopeArgs)
    (htarget : target ∈ targetsFor run.snapshot run.request.target run.request.timings scopeArgs) :
    ∃ (scope : ScopeChoice) (pieces : List Piece), scope.args = scopeArgs ∧ scope.For run.request ∧
      CarriesChoices run.request.options scope run.snapshot.manifestPath target.id pieces
        (run.request.applyOptions target).args := by
  have hoptions := admitted_of_validate hvalid
  obtain ⟨scope, rfl, hfor⟩ := exists_scope_of_asksFor hoptions hscope
  have hmanifest : Undashed run.snapshot.manifestPath := by
    unfold Undashed
    rw [run.snapshot.manifest_absolute]
    decide
  -- The target is the one that was asked for, or one of all.
  obtain ⟨id, fullWorkspace, hfull, hid, hbuilt⟩ : ∃ id fullWorkspace, (fullWorkspace = true → scope = .unset) ∧
      (run.request.target = .all ∨ run.request.target = id) ∧
      targetFor id run.snapshot.manifestPath run.snapshot.isVirtual fullWorkspace run.request.timings scope.args =
        some target := by
    unfold targetsFor at htarget
    split_ifs at htarget with hall
    · obtain ⟨id, -, hbuilt⟩ := List.mem_filterMap.mp htarget
      have hunset := hfor.whole (Or.inl hall)
      refine ⟨id, true, fun _ => hunset, Or.inl hall, ?_⟩
      rw [hunset]
      exact hbuilt
    · exact ⟨run.request.target, false, fun h => absurd h (by decide), Or.inr rfl, by simpa using htarget⟩
  obtain ⟨rfl, hrepresents⟩ := represents_targetFor hmanifest hfor.undashed hfull hbuilt
  refine ⟨scope, ?_⟩
  suffices h : ∃ pieces, CarriesChoices run.request.options scope run.snapshot.manifestPath target.id pieces
      (run.request.applyOptions target).args by
    obtain ⟨pieces, hpieces⟩ := h
    exact ⟨pieces, rfl, hfor, hpieces⟩
  by_cases hfmt : target.id = .fmt
  · -- Formatting takes no options.
    have hsame : run.request.applyOptions target = target := by
      unfold GateRequest.applyOptions ValidationOptions.apply
      rw [if_pos hfmt]
      dsimp only
      rw [if_neg (by rw [hfmt]; simp)]
    rw [if_pos hfmt] at hrepresents
    rw [hsame]
    have hsupplied : suppliedPieces run.request.options scope target.id = [] ++ [] := by
      rw [suppliedPieces, if_pos hfmt]
      rfl
    have hcarries := CarriesChoices.of_represents hoptions hrepresents hsupplied (Or.inl rfl)
      (fun value h => absurd h List.not_mem_nil)
    simpa using hcarries
  rw [if_neg hfmt] at hrepresents
  obtain ⟨hidApply, args, happlied, hargs⟩ := hrepresents.apply hoptions hfmt
  -- The filter of tests is one for a test command.
  have hfilter : run.request.options.testFilter = none ∨
      ∃ filter, run.request.options.testFilter = some filter ∧ Undashed filter ∧ target.id = .test := by
    cases hsome : run.request.options.testFilter with
    | none => exact Or.inl rfl
    | some filter =>
      obtain ⟨htest, hundashed⟩ := hoptions.filter filter hsome
      refine Or.inr ⟨filter, rfl, hundashed, ?_⟩
      rcases hid with hid | hid
      · rw [htest] at hid
        exact absurd hid (by decide)
      · exact hid.symm.trans htest
  have hbehind : (if target.id = .test then run.request.options.testFilter.toList else []) =
      run.request.options.testFilter.toList := by
    rcases hfilter with hnone | ⟨filter, -, -, htest⟩
    · simp [hnone]
    · rw [if_pos htest]
  rw [hbehind] at hargs
  have hjoined : Represents (.value "--manifest-path" run.snapshot.manifestPath :: (scope.pieces ++
      run.request.options.cargoTarget.toList.map CargoTargetSelection.piece ++
        run.request.options.flagPieces).filter Piece.supplied) target.id args := by
    rw [List.filter_append, List.filter_append]
    exact happlied
  -- The default inventory of tests is asked for by taking a word out.
  obtain ⟨kept, hkept, hkeptArgs⟩ : ∃ kept,
      Represents (.value "--manifest-path" run.snapshot.manifestPath :: (scope.pieces ++
        run.request.options.cargoTarget.toList.map CargoTargetSelection.piece ++
          run.request.options.flagPieces).filter Piece.supplied) target.id kept ∧
      (run.request.applyOptions target).args = kept ++ run.request.options.testFilter.toList := by
    unfold GateRequest.applyOptions
    dsimp only
    split_ifs
    · refine ⟨_, hjoined.retain, ?_⟩
      rw [hargs, List.filter_append]
      rcases hfilter with hnone | ⟨filter, hsome, hundashed, -⟩
      · rw [hnone]
        rfl
      · rw [hsome]
        simpa using hundashed.ne "--all-targets" (by decide)
    · exact ⟨args, hjoined, hargs⟩
  have hfilterArgs : run.request.options.testFilter.toList =
      (run.request.options.testFilter.toList.map Piece.positional).flatMap Piece.args := by
    cases run.request.options.testFilter <;> rfl
  rw [hkeptArgs, hfilterArgs]
  refine CarriesChoices.of_represents hoptions hkept ?_ ?_ fun value hvalue =>
    features_of_mem (List.mem_of_mem_filter hvalue)
  · rw [suppliedPieces, if_neg hfmt]
  · rcases hfilter with hnone | ⟨filter, hsome, hundashed, htest⟩
    · exact Or.inl (by rw [hnone]; rfl)
    · exact Or.inr ⟨filter, by rw [hsome]; rfl, hundashed, htest⟩

/-- Tests of one binary of one package, with features and a filter. -/
theorem commands_carry_choices_tests :
    let options : ValidationOptions :=
      { packages := ["demo"], cargoTarget := some (.bin "tool"), features := ["net", "cli"],
        testFilter := some "reads", runner := .nextest }
    let snapshot : WorkspaceSnapshot :=
      ⟨["work"], "/work/Cargo.toml", false, [⟨"demo 0.1.0", "demo", [⟨"tool", [.bin], false, true, [], []⟩]⟩],
        ["demo 0.1.0"], [], [], [], by decide +kernel⟩
    let refused : Refusal := ⟨.inconclusive, "", rfl⟩
    let run : GateRun :=
      ⟨⟨options, false, .test, false⟩, snapshot, .workspace, "cargo", none, [], none, .error refused,
        .error refused, none, fun _ => none, true, .error .failed⟩
    ∃ target pieces, (∃ scope, CarriesChoices options scope "/work/Cargo.toml" .test pieces
        (run.request.applyOptions target).args) ∧
      (run.request.applyOptions target).args =
        ["nextest", "run", "--manifest-path", "/work/Cargo.toml", "--locked",
          "--cargo-message-format=json", "-p", "demo", "--bin", "tool", "--features", "cli,net",
          "--no-tests=fail", "reads"] := by
  intro options snapshot refused run
  have hscope : run.AsksFor ["-p", "demo"] :=
    ⟨some ⟨⟨.explicit, ["demo"], ["demo 0.1.0"], [], []⟩, ["-p", "demo"]⟩, by decide +kernel, Or.inl rfl⟩
  obtain ⟨target, htarget, hid, hargs⟩ : ∃ target,
      target ∈ targetsFor run.snapshot run.request.target run.request.timings ["-p", "demo"] ∧
      target.id = .test ∧ (run.request.applyOptions target).args =
        ["nextest", "run", "--manifest-path", "/work/Cargo.toml", "--locked",
          "--cargo-message-format=json", "-p", "demo", "--bin", "tool", "--features", "cli,net",
          "--no-tests=fail", "reads"] := ⟨_, List.mem_singleton.mpr rfl, rfl, by decide +kernel⟩
  obtain ⟨scope, pieces, -, -, hcarries⟩ := commands_carry_choices Char.isAlphanum run ["-p", "demo"] target
    (by decide +kernel) hscope htarget
  rw [hid] at hcarries
  exact ⟨target, pieces, ⟨scope, hcarries⟩, hargs⟩

end

end AgzRustMcp.Gate
