import BranchChain.Memory
/-!
# Memory.Bounded — bounded reads in machine words

A reader counts in machine words, and there a sum may be no word and a slice may reach behind its data.  Neither is an
answer to a read: a reader that came so far would break off.  So a check of the bounds comes first, one for data held in
memory and another for a mapped file, and the slice behind it trusts the check.
-/
namespace BranchChain

/-- The sum of two words, if it is a word. -/
def wordSum? (x y : UInt64) : Option UInt64 := if x.toNat + y.toNat < UInt64.size then some (x + y) else none

/-- A sum that is taken to be a word. -/
def wordSum (x y : UInt64) : Except Trap UInt64 :=
  match wordSum? x y with
  | some z => .ok z
  | none => .error .overflow

/-- The bytes between two places that are taken to be in the data, the first not behind the second. -/
def slice (bytes : ByteArray) (start stop : UInt64) : Except Trap ByteArray :=
  if start ≤ stop ∧ stop.toNat ≤ bytes.size then .ok (bytes.extract start.toNat stop.toNat) else .error .outside

namespace Image

/-- The number of bytes, as a word. -/
def length (im : Image) : UInt64 := UInt64.ofNat im.size

/-- **The check of held data**: a read is refused if its end is no word, and then if it is behind the data. -/
def heldStart (im : Image) (a : Address) (n : UInt64) : Except Fault UInt64 :=
  let start := a.offsetFrom im.base
  match wordSum? start n with
  | none => .error (.outOfBounds a)
  | some stop => if im.length < stop then .error (.outOfBounds a) else .ok start

/-- **The check of a mapped file**: a read is let through if its end is a word and not behind the data. -/
def mappedStart (im : Image) (a : Address) (n : UInt64) : Except Fault UInt64 :=
  let start := a.offsetFrom im.base
  match wordSum? start n with
  | some stop => if stop ≤ im.length then .ok start else .error (.outOfBounds a)
  | none => .error (.outOfBounds a)

/-- **A read in words**: the slice from where the check lets it start. -/
def readBehind (im : Image) (check : Address → UInt64 → Except Fault UInt64) (a : Address) (n : UInt64) :
    Except Trap (Except Fault ByteArray) :=
  match check a n with
  | .error f => .ok (.error f)
  | .ok start => do
    let stop ← wordSum start n
    let bytes ← slice im.bytes start stop
    return .ok bytes

/-- A read of data held in memory. -/
def readHeld (im : Image) (a : Address) (n : UInt64) : Except Trap (Except Fault ByteArray) := im.readBehind im.heldStart a n

/-- A read of a mapped file. -/
def readMapped (im : Image) (a : Address) (n : UInt64) : Except Trap (Except Fault ByteArray) :=
  im.readBehind im.mappedStart a n

end Image
end BranchChain
