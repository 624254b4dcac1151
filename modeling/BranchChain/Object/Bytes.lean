/-!
# Object.Bytes — fields of a file

Object files are read field by field at known places.  A field outside the file is not there; a range outside the file
is not there either, not even an empty one that starts behind the end.  Ranges meant to be text are checked as a whole.
-/
namespace BranchChain
namespace Object

inductive ByteOrder where
  | little
  | big
  deriving DecidableEq, Repr

/-- **A file and the order of bytes in its words.** -/
structure Source where
  bytes : ByteArray
  order : ByteOrder

namespace Source

def size (s : Source) : Nat := s.bytes.size

/-- A range of the file. -/
def range? (s : Source) (start length : Nat) : Option ByteArray :=
  if start + length ≤ s.bytes.size then some (s.bytes.extract start (start + length)) else none

/-- A range of the file as text, if it is UTF-8. -/
def text? (s : Source) (start length : Nat) : Option String := do String.fromUTF8? (← s.range? start length)

/-- The number little-endian bytes stand for. -/
def littleEndian : List UInt8 → Nat
  | [] => 0
  | b :: bs => b.toNat + 256 * littleEndian bs

/-- **The word of `width` bytes at a place.** -/
def word? (s : Source) (width start : Nat) : Option Nat :=
  (s.range? start width).map fun r =>
    match s.order with
    | .little => littleEndian r.data.toList
    | .big => littleEndian r.data.toList.reverse

end Source

/-! ## Texts -/

/-- **Bytes with texts in them**, each ended by a NUL or by the end, and the places of the NULs in order. -/
structure Texts where
  bytes : ByteArray
  nuls : Array Nat

namespace Texts

def ofBytes (bytes : ByteArray) : Texts where
  bytes := bytes
  nuls := bytes.size.fold (fun i h nuls => if bytes.get i h = 0 then nuls.push i else nuls) #[]

def size (t : Texts) : Nat := t.bytes.size

/-- The number of the first NUL not in front of a place, by halving a range of NULs that holds it or ends at it. -/
def halve (t : Texts) (i low high : Nat) : Nat :=
  if low < high then
    let middle := (low + high) / 2
    if (t.nuls[middle]?).any (· < i) then halve t i (middle + 1) high else halve t i low middle
  else low
termination_by high - low

/-- Where the text at a place ends. -/
def stop (t : Texts) (i : Nat) : Nat := (t.nuls[t.halve i 0 t.nuls.size]?).getD t.size

/-- The bytes of the text at a place. -/
def bytesAt (t : Texts) (i : Nat) : ByteArray := t.bytes.extract i (t.stop i)

/-- **The text at a place**, if it is UTF-8. -/
def at? (t : Texts) (i : Nat) : Option String := if i ≤ t.size then String.fromUTF8? (t.bytesAt i) else none

/-- Is there a text at a place? -/
def hasAt (t : Texts) (i : Nat) : Bool := i ≤ t.size && (t.bytesAt i).validateUTF8

end Texts
end Object
end BranchChain
