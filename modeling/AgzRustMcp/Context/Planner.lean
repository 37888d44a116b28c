import AgzRustMcp.Context.Capsule

/-!
# The budget of a payload

`enforce_data_budget` makes a payload smaller, step by step, until it fits a budget: long excerpts
are halved, then items are removed, then notes and omissions.  `apply_budget_and_sizes` also writes
the report of the sizes.
-/

namespace AgzRustMcp.Context

open Utf8Text
open JsonText
open String (utf8Len)

def maxOmittedEntries : ℕ := 32

def minExcerptChars : ℕ := 120

def maxTrimIterations : ℕ := 512

/-- `PlanOutcome`; no sum comes near the bound of the source. -/
structure PlanOutcome where
  bytes : ℕ := 0
  chars : ℕ := 0
  trimmedExcerpts : ℕ := 0
  removedItems : ℕ := 0
  omittedOverflow : ℕ := 0
deriving DecidableEq

def PlanOutcome.merge (outcome other : PlanOutcome) : PlanOutcome where
  bytes := other.bytes
  chars := other.chars
  trimmedExcerpts := outcome.trimmedExcerpts + other.trimmedExcerpts
  removedItems := outcome.removedItems + other.removedItems
  omittedOverflow := outcome.omittedOverflow + other.omittedOverflow

def PlanOutcome.hasTrimming (outcome : PlanOutcome) : Bool :=
  decide (0 < outcome.trimmedExcerpts) || decide (0 < outcome.removedItems) || decide (0 < outcome.omittedOverflow)

def excerptChars (items : List ContextItem) : ℕ :=
  ((items.filterMap ContextItem.excerpt).map List.length).sum

def SizeReport.measure (data : ContextData) (byteBudget : ℕ) : SizeReport where
  bytes := wireBytes data
  chars := excerptChars data.items
  itemCount := min data.items.length (2 ^ 32 - 1)
  returnedItems := min (data.items.countP fun item => item.excerpt.isSome) (2 ^ 32 - 1)
  byteBudget := byteBudget
  tokenizerAvailable := false

/-! ## One step -/

/-- The worse of two items: of one priority, the later one. -/
def worse (worst : Option (ContextItem × ℕ)) (entry : ContextItem × ℕ) : Option (ContextItem × ℕ) :=
  match worst with
  | some before => if before.1.kind.priority ≤ entry.1.kind.priority then some entry else some before
  | none => some entry

/-- The last asked-for item with the largest priority number. -/
def worstIndex (wanted : ContextItem → Bool) (items : List ContextItem) : Option ℕ :=
  ((items.zipIdx.filter fun entry => wanted entry.1).foldl worse none).map Prod.snd

/-- The item has an excerpt that can be made shorter. -/
def ContextItem.isLong (item : ContextItem) : Bool :=
  match item.excerpt with
  | some excerpt => decide (minExcerptChars < excerpt.length)
  | none => false

/-- The item with half of its excerpt. -/
def ContextItem.shorten (item : ContextItem) : ContextItem :=
  match item.excerpt with
  | some excerpt =>
    let shrunk := excerpt.take (max (excerpt.length / 2) minExcerptChars)
    { item with excerpt := some shrunk, excerptBytes := utf8Len shrunk, excerptChars := shrunk.length }
  | none => item

def shrinkLowestExcerpt (data : ContextData) : Option ContextData :=
  (worstIndex ContextItem.isLong data.items).map fun index =>
    { data with items := data.items.modify index ContextItem.shorten }

def omissionFromItem (item : ContextItem) (reason : OmissionReason) : OmittedItem where
  kind := some item.kind
  reason := reason
  detail :=
    match reason with
    | .itemLimit =>
      item.kind.name ++ " item exceeded the configured max_items cap and was not selected; ".toList ++ item.reason
    | _ => item.kind.name ++ " item removed by the byte budget; ".toList ++ item.reason
  file := item.file
  line := item.line
  symbol := some (item.symbol.getD [])

/-- `push_omission`: the list, and whether the entry is in it. -/
def pushOmission (omitted : List OmittedItem) (item : OmittedItem) : List OmittedItem × Bool :=
  if maxOmittedEntries ≤ omitted.length then (omitted, false) else (omitted ++ [item], true)

/-- The removal of an item, with its omission. -/
def removeItem (data : ContextData) (outcome : PlanOutcome) (index : ℕ) (item : ContextItem) :
    ContextData × PlanOutcome :=
  let pushed := pushOmission data.omitted (omissionFromItem item .budget)
  ({ data with items := data.items.eraseIdx index, omitted := pushed.1 }, { outcome with
      removedItems := outcome.removedItems + 1,
      omittedOverflow := outcome.omittedOverflow + if pushed.2 then 0 else 1 })

/-- `trim_once`, where there is something to trim. -/
def trimOnce (data : ContextData) (outcome : PlanOutcome) : Option (ContextData × PlanOutcome) :=
  match shrinkLowestExcerpt data with
  | some shrunk => some (shrunk, { outcome with trimmedExcerpts := outcome.trimmedExcerpts + 1 })
  | none =>
    let index := (worstIndex (fun _ => true) data.items).getD 0
    match data.items[index]? with
    | some item => some (removeItem data outcome index item)
    | none =>
      if data.notes ≠ [] then some ({ data with notes := data.notes.dropLast }, outcome)
      else if data.omitted ≠ [] then
        some ({ data with omitted := data.omitted.dropLast },
          { outcome with omittedOverflow := outcome.omittedOverflow + 1 })
      else none

/-! ## The loops -/

/-- The loop of `enforce_data_budget`. -/
def trimLoop (byteBudget : ℕ) : ℕ → ContextData → PlanOutcome → ContextData × PlanOutcome
  | 0, data, outcome => (data, outcome)
  | iterations + 1, data, outcome =>
    if wireBytes data ≤ byteBudget then (data, outcome)
    else
      match trimOnce data outcome with
      | some (trimmed, outcome) => trimLoop byteBudget iterations trimmed outcome
      | none => (data, outcome)

def enforceDataBudget (data : ContextData) (byteBudget : ℕ) : ContextData × PlanOutcome :=
  let (trimmed, outcome) := trimLoop byteBudget maxTrimIterations data {}
  (trimmed, { outcome with bytes := wireBytes trimmed, chars := excerptChars trimmed.items })

/-- The payload with a measured report. -/
def withSizes (data : ContextData) (byteBudget : ℕ) : ContextData :=
  { data with sizes := SizeReport.measure data byteBudget }

/-- The loop of `apply_budget_and_sizes`. -/
def budgetLoop (byteBudget : ℕ) : ℕ → ContextData → PlanOutcome → ContextData × PlanOutcome
  | 0, data, outcome => (data, outcome)
  | rounds + 1, data, outcome =>
    let (trimmed, first) := enforceDataBudget data byteBudget
    let measured := withSizes trimmed byteBudget
    if wireBytes measured ≤ byteBudget then (measured, outcome.merge first)
    else
      let (again, followUp) := enforceDataBudget measured byteBudget
      let merged := (outcome.merge first).merge followUp
      if followUp.hasTrimming then budgetLoop byteBudget rounds again merged else (again, merged)

/-- The rounds of `apply_budget_and_sizes`. -/
def budgetRounds : ℕ := 8

def applyBudgetAndSizes (data : ContextData) (byteBudget : ℕ) : ContextData × PlanOutcome :=
  let (trimmed, outcome) := budgetLoop byteBudget budgetRounds data {}
  let published := withSizes trimmed byteBudget
  (published, { outcome with bytes := wireBytes published, chars := excerptChars published.items })

end AgzRustMcp.Context
