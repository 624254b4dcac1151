import BranchChain.Branch
/-!
# Slot — one handler of a table

A slot is a branch seen from the entry of its function: which one it is in the chain, where it goes, and how far behind
the entry it stands.  With the entry at hand nothing of the branch is lost (`address_eq`).
-/
namespace BranchChain

/-- **One entry of a handler table.** -/
structure Slot where
  index : Nat
  target : Address
  siteOffset : UInt64
  form : Form
  displacement : Int64
  deriving DecidableEq, Repr, Inhabited

namespace Slot

/-- **The slot of a branch** in the function that starts at `entry`. -/
def ofBranch (index : Nat) (entry : Address) (b : Branch) : Slot :=
  ⟨index, b.target, (b.address - entry).toUInt64, b.form, b.displacement⟩

def json (s : Slot) : Json :=
  .obj [("index", .int s.index), ("target", .str s.target.short), ("site_offset", .int s.siteOffset.toNat),
    ("form", .str s.form.name), ("displacement", .int s.displacement.toInt)]

theorem address_eq (index : Nat) (entry : Address) (b : Branch) :
    entry + (ofBranch index entry b).siteOffset = b.address := by
  simp [ofBranch, Address.sub_def, Address.add_def, UInt64.add_comm entry.word]

end Slot
end BranchChain
