import BranchChain.Symbol.Error
/-!
# Object.Contents — what an object file says about its code

Taking an object file apart is a parser's business; it tells what is in the file, or what is wrong with it.  Of what it
tells, the segments that are loaded and the entries that name an address are kept, in file order.  An address lies in the
file if a segment holds it and the place computed for it is a word.
-/
namespace BranchChain
namespace Object

/-- **A range of the file and where it is placed.** -/
structure Segment where
  address : UInt64
  fileStart : UInt64
  fileSize : UInt64
  deriving DecidableEq, Repr

/-- **Where the file keeps the byte at an address.** -/
def Segment.fileOffset? (s : Segment) (a : UInt64) : Option UInt64 :=
  if s.address ≤ a ∧ a - s.address < s.fileSize then
    if s.fileStart.toNat + (a - s.address).toNat < UInt64.size then some (s.fileStart + (a - s.address)) else none
  else none

/-- An entry that names an address. -/
structure Entry where
  name : String
  address : UInt64
  size : UInt64
  deriving DecidableEq, Repr

/-- **An object file as far as symbols go**, in file order. -/
structure Contents where
  segments : List Segment
  entries : List Entry
  deriving DecidableEq, Repr

/-! ## What parsers tell -/

/-- A program header of an ELF file. -/
structure ElfHeader where
  type : UInt32
  address : UInt64
  fileStart : UInt64
  fileSize : UInt64
  deriving DecidableEq, Repr

/-- The type of a segment that is loaded. -/
def loadType : UInt32 := 1

/-- An entry of an ELF symbol list; it has a name if the texts that go with the list have one at its place. -/
structure ElfEntry where
  name : Option String
  address : UInt64
  size : UInt64
  deriving DecidableEq, Repr

/-- An entry of a Mach-O symbol list; one of no section has the section 0. -/
structure MachOEntry where
  name : String
  sect : UInt64
  address : UInt64
  deriving DecidableEq, Repr

/-- **What a parser tells of a file.**  Each entry of a Mach-O list may turn out to be damaged by itself. -/
inductive Parsed where
  | elf (headers : List ElfHeader) (listed dynamic : List ElfEntry)
  | machO (segments : List Segment) (entries : List (Except String MachOEntry))
  | fatMachO
  | pe
  | other

/-- **Takes a file apart**, or tells what is wrong with it. -/
abbrev Parser := ByteArray → Except String Parsed

/-! ## What is kept -/

def ElfHeader.segment? (h : ElfHeader) : Option Segment :=
  if h.type = loadType then some ⟨h.address, h.fileStart, h.fileSize⟩ else none

def ElfEntry.entry? (e : ElfEntry) : Option Entry :=
  if e.address = 0 then none
  else match e.name with
    | some name => if name.isEmpty then none else some ⟨name, e.address, e.size⟩
    | none => none

def MachOEntry.entry? (e : MachOEntry) : Option Entry :=
  if e.sect = 0 ∨ e.address = 0 ∨ e.name.isEmpty then none else some ⟨e.name, e.address, 0⟩

/-- **The segments and symbols of a file.**  One damaged entry spoils them all. -/
def Parsed.contents : Parsed → Except SymbolError Contents
  | .elf headers listed dynamic =>
    .ok ⟨headers.filterMap ElfHeader.segment?, listed.filterMap ElfEntry.entry? ++ dynamic.filterMap ElfEntry.entry?⟩
  | .machO segments entries => do
    let entries ← entries.mapM fun e => e.mapError .parse
    return ⟨segments, entries.filterMap MachOEntry.entry?⟩
  | .fatMachO => .error (.unsupported .fatMachO)
  | .pe => .error (.unsupported .pe)
  | .other => .error (.unsupported .unknown)

/-- **What an object file says about its code**, by a parser. -/
def read (parse : Parser) (bytes : ByteArray) : Except SymbolError Contents := do
  let parsed ← (parse bytes).mapError .parse
  parsed.contents

end Object
end BranchChain
