import BranchChain.Branch
import BranchChain.Memory
/-!
# Branch.Decode — reading a branch from memory

The decoder reads no further than it has to: one byte to choose the form, two to see the second opcode byte, and the
whole instruction only once its opcode is known.  A memory that ends right behind a branch therefore ends late enough.
-/
namespace BranchChain

/-- **Why no branch is read.** -/
inductive DecodeError where
  | unknownOpcode (bytes : List UInt8)
  | memory (f : Fault)
  deriving DecidableEq, Repr

/-- Bytes that are no opcode of a branch, as pairs of digits with one blank between them. -/
def opcodeText (bytes : List UInt8) : String := " ".intercalate (bytes.map fun b => String.ofList (Text.hexByte b))

def DecodeError.message : DecodeError → String
  | .unknownOpcode bytes => "Unknown opcode " ++ opcodeText bytes
  | .memory f => "Memory error: " ++ f.message

namespace Memory

/-- A read whose fault is a decoding error. -/
def fetch (m : Memory) (a : Address) (n : Nat) : Except (Halt DecodeError) ByteArray :=
  (m.read a n).mapError fun f => .fail (.memory f)

/-- **The branch at an address.** -/
def branchAt (m : Memory) (a : Address) : Except (Halt DecodeError) Branch := do
  let first ← (m.byte a).mapError (.map .memory)
  if first = jneShort then
    let raw ← m.fetch a 2
    return ⟨a, .short, rel8 (← byteAt raw 1)⟩
  else if first = escape then
    let opcode ← m.fetch a 2
    if (← byteAt opcode 1) = jneNear then
      let raw ← m.fetch a 6
      return ⟨a, .near, rel32 (← byteAt raw 2) (← byteAt raw 3) (← byteAt raw 4) (← byteAt raw 5)⟩
    else throw (.fail (.unknownOpcode opcode.data.toList))
  else throw (.fail (.unknownOpcode [first]))

end Memory
end BranchChain
