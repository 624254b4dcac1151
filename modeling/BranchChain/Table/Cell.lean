import BranchChain.Table.Recovery
/-!
# Table.Cell — a table built once

A cell is empty until a build succeeds; from then on it holds that table and builds no more.  A failed build leaves the
cell as it was.
-/
namespace BranchChain

structure Cell where
  table? : Option Table := none
  deriving DecidableEq, Repr

namespace Cell

def isBuilt (c : Cell) : Bool := c.table?.isSome

/-- What a request is told, whether its build ran, and the cell afterwards. -/
structure Access where
  answer : Except (Halt BuildError) Table
  ran : Bool
  cell : Cell

/-- **The table, built if there is none.** -/
def getOrBuild (c : Cell) (build : Unit → Except (Halt BuildError) Table) : Access :=
  match c.table? with
  | some t => ⟨.ok t, false, c⟩
  | none =>
    match build () with
    | .ok t => ⟨.ok t, true, ⟨some t⟩⟩
    | .error e => ⟨.error e, true, c⟩

end Cell
end BranchChain
