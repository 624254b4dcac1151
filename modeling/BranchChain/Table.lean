import BranchChain.Slot
/-!
# Table — the handlers of a chain

A table lists the slots of a chain in chain order, with the entry of the function and the place of the marker.
-/
namespace BranchChain

/-- **A handler table.** -/
structure Table where
  entry : Address
  preambleOffset : UInt64
  slots : List Slot
  deriving DecidableEq, Repr, Inhabited

/-- **An index behind the last handler.** -/
structure IndexError where
  size : Nat
  index : Nat
  deriving DecidableEq, Repr

def IndexError.message (e : IndexError) : String :=
  "index out of bounds: the len is " ++ Text.decimal e.size ++ " but the index is " ++ Text.decimal e.index

namespace Table

def size (t : Table) : Nat := t.slots.length

def isEmpty (t : Table) : Bool := t.slots.isEmpty

/-- The handlers' addresses, in chain order. -/
def targets (t : Table) : List Address := t.slots.map (·.target)

/-- The words dispatch code indexes into. -/
def words (t : Table) : List UInt64 := t.targets.map (·.word)

def target? (t : Table) (k : Nat) : Option Address := t.targets[k]?

/-- The handler at an index that ought to be there. -/
def targetAt (t : Table) (k : Nat) : Except IndexError Address :=
  match t.target? k with
  | some a => .ok a
  | none => .error ⟨t.size, k⟩

/-- **The table as a report.** -/
def json (t : Table) : Json :=
  .obj [("entry", .str t.entry.short), ("preamble_offset", .int t.preambleOffset.toNat),
    ("handlers", .arr (t.slots.map Slot.json))]

/-- The text of the report, an item per line. -/
def jsonText (t : Table) : String := t.json.pretty

end Table
end BranchChain
