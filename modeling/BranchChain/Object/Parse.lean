import BranchChain.Object.Archive
import BranchChain.Object.Elf
import BranchChain.Object.MachO
import BranchChain.Object.Pe
/-!
# Object.Parse — a parser of object files

The first bytes of a file announce its kind.  ELF and Mach-O files are taken apart, and of the others is told whether they
are whole; whatever is wrong with a file, it is told in the same words.
-/
namespace BranchChain
namespace Object

/-! ## Telling files apart -/

/-- What the first bytes announce. -/
inductive Kind where
  | elf
  | archive
  | pe
  | coff
  | machO (wide : Bool) (order : ByteOrder)
  | fatMachO
  | unknown
  deriving DecidableEq, Repr

/-- **The kind of a file by its first bytes.** -/
def kindOf (bytes : ByteArray) : Kind :=
  let first := bytes.data.toList.take 8
  let little := Source.littleEndian (first.take 2)
  let big := Source.littleEndian (first.take 4).reverse
  if first.take 4 = [0x7f, 0x45, 0x4c, 0x46] then .elf
  else if first = "!<arch>\n".toUTF8.data.toList then .archive
  else if little = 0x5a4d then .pe
  else if little = 0x014c ∨ little = 0x8664 ∨ little = 0xaa64 then .coff
  else if big = 0xfeedface then .machO false .big
  else if big = 0xfeedfacf then .machO true .big
  else if big = 0xcefaedfe then .machO false .little
  else if big = 0xcffaedfe then .machO true .little
  else if big = 0xcafebabe then .fatMachO
  else .unknown

/-- The shortest file that is looked at. -/
def leastSize : Nat := 16

def damagedText : String := "the object file is damaged"

/-- **Takes a file apart by its kind.** -/
def parsed? (bytes : ByteArray) : Option Parsed :=
  if bytes.size < leastSize then none
  else
    match kindOf bytes with
    | .elf => Elf.parsed? bytes
    | .machO wide order => MachO.parsed? damagedText wide order bytes
    | .fatMachO => some .fatMachO
    | .pe => if Pe.isWhole bytes then some .pe else none
    | .coff => if Coff.isWhole bytes then some .other else none
    | .archive => if Archive.isWhole bytes then some .other else none
    | .unknown => some .other

def parse : Parser := fun bytes => (parsed? bytes).elim (.error damagedText) .ok

end Object
end BranchChain
