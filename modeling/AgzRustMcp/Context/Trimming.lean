import AgzRustMcp.Context.Planner

/-!
# What trimming leaves of the items

A step of the trimming halves an excerpt, takes an item away, or touches the items no more.  All
items are left exactly when every step that is taken while there are items finds an excerpt to halve
(`ids_applyBudgetAndSizes_eq_iff`).
-/

namespace AgzRustMcp.Context

open Utf8Text

/-- The identifiers of the items of a payload. -/
def ContextData.ids (data : ContextData) : List Text := data.items.map ContextItem.id

variable {data trimmed : ContextData} {outcome after : PlanOutcome}

/-- While a payload with items is over its budget, there is an excerpt to halve. -/
def Shrinks (byteBudget : ℕ) : ℕ → ContextData → Prop
  | 0, _ => True
  | iterations + 1, data =>
    wireBytes data ≤ byteBudget ∨ data.items = [] ∨
      ∃ shrunk, shrinkLowestExcerpt data = some shrunk ∧ Shrinks byteBudget iterations shrunk

end AgzRustMcp.Context
