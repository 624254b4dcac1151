import BranchChain.Address
import BranchChain.Json
/-!
# Branch — the branch a chain is made of

A chain is a run of one x86-64 instruction, jump if not equal, in its two forms: an opcode byte and a displacement
byte, or two opcode bytes and four displacement bytes, low byte first.  Displacements are signed and count from the end
of the instruction.
-/
namespace BranchChain

/-- **The two forms of the branch**, `75 cb` and `0f 85 cd`. -/
inductive Form where
  | short
  | near
  deriving DecidableEq, Repr, Inhabited

namespace Form

def length : Form → Nat
  | .short => 2
  | .near => 6

/-- The width of the displacement. -/
def bits : Form → Nat
  | .short => 8
  | .near => 32

def name : Form → String
  | .short => "short"
  | .near => "near"

end Form

/-! ## Opcodes and displacements -/

def jneShort : UInt8 := 0x75

/-- The first byte of all opcodes of two bytes. -/
def escape : UInt8 := 0x0f

def jneNear : UInt8 := 0x85

/-- A displacement byte, read as signed. -/
def rel8 (b : UInt8) : Int64 := b.toInt8.toInt64

/-- Four displacement bytes, low byte first, read as signed. -/
def rel32 (b0 b1 b2 b3 : UInt8) : Int64 :=
  (b0.toUInt32 ||| b1.toUInt32 <<< 8 ||| b2.toUInt32 <<< 16 ||| b3.toUInt32 <<< 24).toInt32.toInt64

/-- How far displacements run to either side of zero. -/
def Form.bound (f : Form) : Nat := 1 <<< (f.bits - 1)

/-- **The displacements a form can hold.** -/
def Form.Fits (f : Form) (d : Int64) : Prop := -f.bound ≤ d.toInt ∧ d.toInt < f.bound

instance (f : Form) (d : Int64) : Decidable (f.Fits d) := by unfold Form.Fits; infer_instance

/-- **The bytes of a branch**; a displacement that does not fit loses its high bytes. -/
def Form.encode (f : Form) (d : Int64) : List UInt8 :=
  let w := d.toUInt64
  match f with
  | .short => [jneShort, w.toUInt8]
  | .near => [escape, jneNear, w.toUInt8, (w >>> 8).toUInt8, (w >>> 16).toUInt8, (w >>> 24).toUInt8]

theorem Form.length_encode (f : Form) (d : Int64) : (f.encode d).length = f.length := by cases f <;> rfl

/-! ## Branches in place -/

/-- **A branch found at an address.** -/
structure Branch where
  address : Address
  form : Form
  displacement : Int64
  deriving DecidableEq, Repr, Inhabited

namespace Branch

def length (b : Branch) : Nat := b.form.length

/-- **Where the branch goes**: the displacement counts from the instruction's end. -/
def target (b : Branch) : Address := (b.address + UInt64.ofNat b.length).shift b.displacement

def json (b : Branch) : Json :=
  .obj [("address", .str b.address.short), ("form", .str b.form.name), ("displacement", .int b.displacement.toInt),
    ("target", .str b.target.short)]

end Branch
end BranchChain
