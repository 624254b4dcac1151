import BranchChain.Table
import BranchChain.Text.Paint
/-!
# Table.Rendering — a table for reading

A line for the entry, then a line per handler in chain order.  Colours touch the word `entry` and the targets only, so
columns stand the same with and without them.
-/
namespace BranchChain

/-- The form as a column of five. -/
def Form.label : Form → String
  | .short => "rel8 "
  | .near => "rel32"

/-- A displacement with its sign at the right end of a column of eight. -/
def Slot.displacementText (s : Slot) : String :=
  Text.Layout.decimal ⟨' ', .right, true, false, false, 8⟩ s.displacement.toInt

/-- The line of a handler. -/
def Slot.line (s : Slot) (colours : Bool) : String :=
  "  [" ++ Text.decimal s.index ++ "] " ++ Text.paint colours .red s.target.text ++ "  " ++ s.form.label ++ " "
    ++ s.displacementText ++ "  (JNE @ fn+0x" ++ Text.hex s.siteOffset.toNat ++ ")\n"

namespace Table

/-- The line above the handlers. -/
def header (t : Table) (colours : Bool) : String :=
  Text.paint colours .cyan "entry" ++ " " ++ t.entry.text ++ "  preamble at fn+0x" ++ Text.hex t.preambleOffset.toNat
    ++ "\n"

/-- **The table as lines of text.** -/
def render (t : Table) (colours : Bool) : String :=
  t.header colours ++ String.join (t.slots.map fun s => s.line colours)

end Table
end BranchChain
