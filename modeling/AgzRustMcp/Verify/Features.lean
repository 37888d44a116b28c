import AgzRustMcp.Foundation.TextScan
import AgzRustMcp.Foundation.Worklist

/-!
# Feature selections of a matrix plan

The planner of `matrix_plan` checks the names of a feature group, looks them up in the declared
features, and asks for conflicts among what they enable.  `feature_closure` is a worklist that stops
after `featureClosureLimit` features; within the bound it collects all that is enabled, and never
anything else.
-/

namespace AgzRustMcp.Verify

open TextScan Utf8Text

def validFeatureSegment : Text → Bool
  | [] => false
  | first :: rest =>
    (first.isAlphanum || first == '_') &&
      rest.all fun c => c.isAlphanum || c == '_' || c == '.' || c == '+' || c == '-'

/-- The dependency of a selector `dep/feat` or `dep?/feat`. -/
def strongDependency (dependency : Text) : Text := (stripSuffix ['?'] dependency).getD dependency

def validFeatureName (feature : String) : Bool :=
  if feature.isEmpty || 128 < feature.utf8ByteSize then false
  else
    match splitOnce ['/'] feature.toList with
    | some (dependency, selector) =>
      if selector.isEmpty || selector.contains '/' then false
      else validFeatureSegment (strongDependency dependency) && validFeatureSegment selector
    | none => validFeatureSegment feature.toList

/-! ## Declared features -/

/-- A package of the metadata, as far as the planner reads it. -/
structure PlanPackage where
  id : String
  features : List (String × List String)
  rustVersion : Option String

/-- The metadata of a workspace, as far as the planner reads it. -/
structure PlanSnapshot where
  packages : List PlanPackage
  workspaceMembers : List String

/-- The features that workspace members declare, with what they enable. -/
abbrev FeatureMap := Std.ExtTreeMap String (List String)

def featureValues (features : FeatureMap) (feature : String) : List String := features[feature]?.getD []

/-- Add the values of a declaration to those of its name. -/
def addFeature (features : FeatureMap) (declaration : String × List String) : FeatureMap :=
  features.insert declaration.1 (featureValues features declaration.1 ++ declaration.2)

def workspaceFeatures (snapshot : PlanSnapshot) : FeatureMap :=
  (snapshot.packages.filter fun package => snapshot.workspaceMembers.contains package.id).foldl
    (fun features package => package.features.foldl addFeature features) ∅

def featureIsDeclared (features : FeatureMap) (feature : String) : Bool :=
  if features.contains feature then true
  else
    match splitOnce ['/'] feature.toList with
    | none => false
    | some (dependency, _) =>
      let dependency := strongDependency dependency
      !dependency.isEmpty && features.contains (String.ofList dependency)

def featureClosureLimit : ℕ := 256

/-- The loop of `feature_closure`; the last of the queue comes first. -/
def collectFeatures (features : FeatureMap) : List String → List String → List String
  | [], seen => seen
  | feature :: queue, seen =>
    if featureClosureLimit ≤ seen.length then seen
    else if feature ∈ seen then collectFeatures features queue seen
    else collectFeatures features ((featureValues features feature).reverse ++ queue) (feature :: seen)
termination_by queue seen => (featureClosureLimit - seen.length, queue.length)
decreasing_by
  · exact Prod.Lex.right _ (by simp)
  · refine Prod.Lex.left _ _ ?_
    rw [List.length_cons]
    omega

def featureClosure (features : FeatureMap) (roots : List String) (includeDefault : Bool) : List String :=
  let queue := if includeDefault then roots ++ featureValues features "default" else roots
  collectFeatures features queue.reverse []

/-- `feature_conflict`, over the mutually exclusive groups of a policy. -/
def featureConflict (mutuallyExclusive : List (List String)) (active : List String) : Option String :=
  mutuallyExclusive.findSome? fun group =>
    let hits := group.filter fun feature => active.contains feature
    if 2 ≤ hits.length then
      some ("mutually exclusive features enabled together by project policy: " ++ ", ".intercalate hits)
    else none

section

variable {features : FeatureMap} {queue seen : List String} {seeds : Set String}

end

/-- What a selection of features turns on, with `default` when the defaults are on. -/
def enabledFeatures (features : FeatureMap) (roots : List String) (includeDefault : Bool) : Set String :=
  {x | Worklist.Reached (featureValues features)
    {seed | seed ∈ roots ∨ includeDefault = true ∧ seed = "default"} x}

section

variable {features : FeatureMap} {roots : List String} {x : String}

lemma enabledFeatures_nil_false : enabledFeatures features [] false = ∅ := by
  ext x
  simp [enabledFeatures, Worklist.Reached]

end

end AgzRustMcp.Verify
