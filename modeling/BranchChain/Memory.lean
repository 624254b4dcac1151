import BranchChain.Address
import BranchChain.FileError
import BranchChain.Halt
/-!
# Memory — reading an address space

A memory answers reads: an address and a length give bytes, or a fault.  It is meant to give as many bytes as it is
asked for, but nothing keeps it from giving more or fewer, so whoever reads has to count.  Memories made here are an
image, which is bytes placed at a base and knows its end; a whole address space; a process, which reads its address space
but refuses the null address; and any memory behind a fault at one address.  The bytes of a file mapped into memory are
an image too.
-/
namespace BranchChain

/-- **Why a read fails.** -/
inductive Fault where
  | io (cause : FileError)
  | invalidAddress (written : String)
  | outOfBounds (a : Address)
  deriving DecidableEq, Repr

namespace Fault

def message : Fault → String
  | .io cause => "IO error: " ++ cause.message
  | .invalidAddress written => "Invalid address: " ++ written
  | .outOfBounds a => "Out of bounds: address " ++ a.short ++ " not in range"

/-- A fault's text, and below it the text of what caused it. -/
def causes : Fault → List String
  | .io cause => [(Fault.io cause).message, cause.message]
  | f => [f.message]

end Fault

/-! ## Reads -/

/-- **An address space as its readers see it.** -/
structure Memory where
  read : Address → Nat → Except Fault ByteArray

/-- **A memory that gives as many bytes as it is asked for.** -/
def Memory.Exact (m : Memory) : Prop := ∀ a n reply, m.read a n = .ok reply → reply.size = n

/-- The byte at an address. -/
def Memory.byte (m : Memory) (a : Address) : Except (Halt Fault) UInt8 := do
  let reply ← (m.read a 1).mapError .fail
  byteAt reply 0

/-! ## Images -/

/-- **Bytes placed at a base address.** -/
structure Image where
  bytes : ByteArray
  base : Address

namespace Image

def size (im : Image) : Nat := im.bytes.size

/-- **A bounded read.**  The start is counted forward from the base, around the address space if need be; the read
succeeds if the bytes from there on suffice. -/
def read (im : Image) (a : Address) (n : Nat) : Except Fault ByteArray :=
  let start := (a.offsetFrom im.base).toNat
  if start + n ≤ im.bytes.size then .ok (im.bytes.extract start (start + n)) else .error (.outOfBounds a)

def memory (im : Image) : Memory := ⟨im.read⟩

end Image

/-! ## Processes and faults -/

/-- **A whole address space**, where every read succeeds. -/
def Memory.whole (view : Address → UInt8) : Memory where
  read a n := .ok ⟨.ofFn fun i : Fin n => view (a + UInt64.ofNat i.val)⟩

/-- **A process**: only the null address is refused, also for a read of nothing. -/
def Memory.process (m : Memory) : Memory where
  read a n := if a.isNull then .error (.invalidAddress a.text) else m.read a n

/-- **A memory with a hole**: a read whose range holds the address `hole` fails, whatever lies there. -/
def Memory.faulty (m : Memory) (hole : Address) (f : Fault) : Memory where
  read a n := if (hole.offsetFrom a).toNat < n then .error f else m.read a n

end BranchChain
