import AgzRustMcp.Gate.Targets

/-!
# Validation of the options of a gate

`ValidationOptions::validate` refuses options that could be read as anything but names: every text is
bounded, is made of a few characters and does not start like a flag.  `validate_ok_iff` lists what options
without packages have to meet.
-/

namespace AgzRustMcp.Gate

/-- `exact_name`; `isAlphanumeric` is `char::is_alphanumeric`. -/
def exactName (isAlphanumeric : Char → Bool) (name : String) : Bool :=
  !name.isEmpty && name.utf8ByteSize ≤ 128 && name.toList.head? != some '-' &&
    name.toList.head? != some '.' && name.toList.all fun c => isAlphanumeric c || c == '_' || c == '-'

def CargoTargetSelection.name? : CargoTargetSelection → Option String
  | .lib => none
  | .bin name => some name
  | .test name => some name
  | .example name => some name
  | .bench name => some name

/-- `validate` of a target selection. -/
def validateCargoTarget (isAlphanumeric : Char → Bool) (options : ValidationOptions) (target : GateTargetId)
    (selected : CargoTargetSelection) : Except String Unit :=
  if options.packages = [] then .error "cargoTarget requires explicit workspace packages"
  else if target ∉ [GateTargetId.check, .build, .clippy, .test] then
    .error "cargoTarget applies only to check, build, clippy or test; doc keeps its doctest selection"
  else if selected.name?.any fun name => !exactName isAlphanumeric name then
    .error "cargoTarget.name must be a bounded exact name, not a path, flag or glob"
  else .ok ()

/-- `selection::validate`. -/
def validateSelection (isAlphanumeric : Char → Bool) (options : ValidationOptions) (target : GateTargetId) :
    Except String Unit :=
  if 64 < options.packages.length ∨ options.packages.any fun name => !exactName isAlphanumeric name then
    .error <| "packages must contain at most 64 exact workspace package names; " ++
      "paths, IDs, flags and globs are not supported"
  else if (options.packages ≠ [] ∨ options.cargoTarget.isSome) ∧ (target = .all ∨ target = .fmt) then
    .error <| "package/target selection cannot narrow target=all or fmt; " ++
      "use a focused check, build, clippy, test or doc stage"
  else
    match options.cargoTarget with
    | some selected => validateCargoTarget isAlphanumeric options target selected
    | none => .ok ()

/-! ## Options -/

/-- A feature name that the gate takes. -/
def boundedFeature (feature : String) : Bool :=
  !feature.isEmpty && feature.utf8ByteSize ≤ 128 && feature.toList.head? != some '-' &&
    feature.toList.head? != some '.' && feature.toList.all fun c =>
        c.isAlphanum || c == '_' || c == '-' || c == '/' || c == '+' || c == '.'

/-- A target triple that the gate takes. -/
def boundedTriple (triple : String) : Bool :=
  !triple.isEmpty && triple.utf8ByteSize ≤ 128 && triple.toList.head? != some '-' &&
    triple.toList.all fun c => c.isAlphanum || c == '_' || c == '-'

def isControl (c : Char) : Bool := c.toNat < 32 || (127 ≤ c.toNat && c.toNat < 160)

/-- A test filter that the gate takes. -/
def boundedFilter (filter : String) : Bool :=
  !filter.isEmpty && filter.utf8ByteSize ≤ 256 && filter.toList.head? != some '-' && !filter.toList.any isControl

def ValidationOptions.validate (isAlphanumeric : Char → Bool) (options : ValidationOptions)
    (target : GateTargetId) : Except String Unit :=
  match validateSelection isAlphanumeric options target with
  | .error message => .error message
  | .ok () =>
    if 64 < options.features.length ∨ options.features.any fun feature => !boundedFeature feature then
      .error "features must contain at most 64 bounded Cargo feature names"
    else if options.allFeatures ∧ options.features ≠ [] then
      .error "allFeatures and features cannot be combined"
    else if options.targetTriple.any fun triple => !boundedTriple triple then
      .error "targetTriple must be a built-in target triple, not a JSON path or flag"
    else if options.testFilter.any fun filter => target ≠ .test || !boundedFilter filter then
      .error "testFilter is a bounded test-name substring for target=test only"
    else if options.runner = .nextest ∧ target ≠ .test ∧ target ≠ .all then
      .error "runner=nextest requires target=test or target=all"
    else if target = .fmt ∧ (options.hasBuildSelection ∨ options.sccache) then
      .error "feature, target and compiler-cache options do not apply to fmt"
    else .ok ()

/-- What options that select no packages have to meet. -/
theorem validate_ok_iff {isAlphanumeric : Char → Bool} {options : ValidationOptions} {target : GateTargetId}
    (hpackages : options.packages = []) (hcargo : options.cargoTarget = none)
    (hall : options.allFeatures = false) (hfilter : options.testFilter = none) (hfmt : target ≠ .fmt) :
    options.validate isAlphanumeric target = .ok () ↔
      options.features.length ≤ 64 ∧ (∀ feature ∈ options.features, boundedFeature feature = true) ∧
        (∀ triple ∈ options.targetTriple, boundedTriple triple = true) ∧
        (options.runner = .nextest → target = .test ∨ target = .all) := by
  have hselection : validateSelection isAlphanumeric options target = .ok () := by
    unfold validateSelection
    rw [hpackages, hcargo]
    simp
  have htriples : (options.targetTriple.any fun triple => !boundedTriple triple) = true ↔
      ¬ ∀ triple ∈ options.targetTriple, boundedTriple triple = true := by
    cases options.targetTriple <;> simp
  unfold ValidationOptions.validate
  rw [hselection, hall, hfilter]
  dsimp only
  by_cases hfeatures : options.features.length ≤ 64 ∧ ∀ feature ∈ options.features, boundedFeature feature = true
  · rw [if_neg (by simpa [not_or] using hfeatures), if_neg (by simp)]
    by_cases htriple : ∀ triple ∈ options.targetTriple, boundedTriple triple = true
    · rw [if_neg (mt htriples.mp (not_not.mpr htriple)), if_neg (by simp)]
      by_cases hrunner : options.runner = .nextest → target = .test ∨ target = .all
      · rw [if_neg (by tauto), if_neg (by simp [hfmt])]
        exact ⟨fun _ => ⟨hfeatures.1, hfeatures.2, htriple, hrunner⟩, fun _ => rfl⟩
      · rw [if_pos (by tauto)]
        exact ⟨fun h => absurd h (by simp), fun h => absurd h.2.2.2 hrunner⟩
    · rw [if_pos (htriples.mpr htriple)]
      exact ⟨fun h => absurd h (by simp), fun h => absurd h.2.2.1 htriple⟩
  · rw [if_pos]
    · exact ⟨fun h => absurd h (by simp), fun h => absurd ⟨h.1, h.2.1⟩ hfeatures⟩
    · rw [not_and_or, not_le] at hfeatures
      simpa using hfeatures

end AgzRustMcp.Gate
