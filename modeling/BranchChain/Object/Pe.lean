import BranchChain.Object.Coff
/-!
# Object.Pe — PE programs

No symbols are read from programs of this kind; what is told is whether one is whole.  Its optional header lists
directories, which point at parts of the program by address, and the sections place these addresses in the file.
Imports, notes for debuggers and tables for exceptions have to be readable there; certificates have to be readable at
places of the file.  What a program exports is nobody's concern here.
-/
namespace BranchChain
namespace Object
namespace Pe

open Coff (Header Section header? sections?)

/-! ## Optional headers -/

def signature : Nat := 0x4550

def narrowMagic : Nat := 0x10b

def wideMagic : Nat := 0x20b

/-- The most directories an optional header may have. -/
def mostDirectories : Nat := 16

/-- **A directory**: where a part of the program is, and its size. -/
structure Directory where
  address : Nat
  size : Nat
  deriving DecidableEq

/-- An optional header, as far as it matters. -/
structure Optional where
  wide : Bool
  alignment : Nat
  directories : List Directory

/-- A directory that is not empty. -/
def Optional.directory? (o : Optional) (k : Nat) : Option Directory := o.directories[k]?.filter (· ≠ ⟨0, 0⟩)

def importIndex : Nat := 1
def exceptionIndex : Nat := 3
def certificateIndex : Nat := 4
def debugIndex : Nat := 6

/-- The optional header at a place.  Its directories are as many as the last of its fixed words says. -/
def optional? (s : Source) (start : Nat) : Option Optional := do
  let magic ← s.word? 2 start
  if magic ≠ narrowMagic ∧ magic ≠ wideMagic then none
  else
    let wide := magic = wideMagic
    let fixed := if wide then 112 else 96
    let alignment ← s.word? 4 (start + 36)
    let count ← s.word? 4 (start + fixed - 4)
    if mostDirectories < count then none
    else
      let directories ← (List.range count).mapM fun i => do
        let place := start + fixed + 8 * i
        return Directory.mk (← s.word? 4 place) (← s.word? 4 (place + 4))
      return ⟨wide, alignment, directories⟩

/-! ## Places -/

/-- A program's file, with what it takes to place addresses in it. -/
structure Layout where
  source : Source
  texts : Texts := .ofBytes source.bytes
  wide : Bool
  alignment : Nat
  sections : List Section

/-- The greatest multiple of a unit that is not above a number. -/
def roundDown (unit n : Nat) : Nat := n / unit * unit

/-- The least multiple of a unit that is not below a number. -/
def roundUp (unit n : Nat) : Nat := roundDown unit (n + unit - 1)

def sectorSize : Nat := 0x200

def pageSize : Nat := 0x1000

/-- Sections start at whole sectors of the file, whatever they say. -/
def startOf (s : Section) : Nat := roundDown sectorSize s.fileStart

/-- The bytes of a section that are read: what the file has of it, in whole units and no more than whole pages. -/
def readSize (alignment : Nat) (s : Section) : Nat :=
  let size := min (roundUp alignment (s.fileStart + s.fileSize) - startOf s) (roundUp pageSize s.fileSize)
  if s.memorySize = 0 then size else min size (roundUp pageSize s.memorySize)

namespace Layout

/-- **Where the file keeps the byte at an address**, by the first section that has it.  A program aligned to anything
but a power of two keeps nothing. -/
def place? (l : Layout) (address : Nat) : Option Nat :=
  if l.alignment = 0 ∨ l.alignment ≠ 1 <<< l.alignment.log2 then none
  else
    (l.sections.find? fun s => s.address ≤ address && address < s.address + readSize l.alignment s).map fun s =>
      address - s.address + startOf s

def hasText (l : Layout) (address : Nat) : Bool := (l.place? address).any l.texts.hasAt

def wordSize (l : Layout) : Nat := if l.wide then 8 else 4

/-- The words of a table from a place on up to a zero, behind those read before it, which are kept last first. -/
def tableFrom? (l : Layout) : Nat → Nat → List Nat → Option (List Nat)
  | 0, _, _ => none
  | n + 1, start, before =>
    match l.source.word? l.wordSize start with
    | none => none
    | some 0 => some before.reverse
    | some w => tableFrom? l n (start + l.wordSize) (w :: before)

/-- **The words of a table**, which a zero ends. -/
def table? (l : Layout) (start : Nat) : Option (List Nat) := l.tableFrom? (l.source.size / l.wordSize + 1) start []

end Layout

/-! ## Imports -/

/-- **Can what a word of a lookup table names be read?**  A word with its top bit set is a number.  Any other is the
address of a name with two bytes in front of it, and is passed over if it cannot be placed. -/
def importFits (l : Layout) (w : Nat) : Bool :=
  if 1 <<< (8 * l.wordSize - 1) ≤ w then true
  else
    match l.place? (w % 0x80000000) with
    | none => true
    | some p => (l.source.word? 2 p).isSome && l.texts.hasAt (p + 2)

def librarySize : Nat := 20

/-- **Can the imports from a library be read?**  They are looked up in a table of their own, or else in the table the
loader fills, which has to be there. -/
def libraryFits (l : Layout) (start : Nat) : Option Unit := do
  let lookup ← l.source.word? 4 start
  let name ← l.source.word? 4 (start + 12)
  let filled ← l.source.word? 4 (start + 16)
  if ¬ l.hasText name then none
  match (l.place? lookup).or (l.place? filled) with
  | some p => if (← l.table? p).all (importFits l) then pure () else none
  | none => pure ()
  let _ ← l.table? (← l.place? filled)
  return ()

/-- The libraries from a place on; one without anything in it ends them. -/
def librariesFit (l : Layout) : Nat → Nat → Option Unit
  | 0, _ => none
  | n + 1, start => do
    let told ← l.source.range? start librarySize
    if told.data.all (· == 0) then return ()
    else
      libraryFits l start
      librariesFit l n (start + librarySize)

def importsFit (l : Layout) (d : Directory) : Option Unit := do
  librariesFit l (l.source.size / librarySize + 1) (← l.place? d.address)

/-! ## Notes for debuggers -/

def debugSize : Nat := 28

/-- The kind of note that names a file of debugging information. -/
def namingKind : Nat := 2

/-- The mark of a note whose name is read. -/
def namingMark : Nat := 0x53445352

def namingHeadSize : Nat := 24

/-- **Can the note for debuggers be read?**  One that names a file has room for more than the name; its bytes matter
only behind the mark. -/
def debugFits (l : Layout) (d : Directory) : Option Unit := do
  let start ← l.place? d.address
  let _ ← l.source.range? start debugSize
  if (← l.source.word? 4 (start + 12)) ≠ namingKind then return ()
  else
    let size ← l.source.word? 4 (start + 16)
    let place ← l.source.word? 4 (start + 24)
    if size < namingHeadSize then none
    else if (← l.source.word? 4 place) ≠ namingMark then return ()
    else
      let _ ← l.source.range? place size
      return ()

/-! ## Exceptions and certificates -/

/-- The machine whose tables for exceptions are read. -/
def exceptionMachine : Nat := 0x8664

def functionSize : Nat := 12

/-- **Can the table for exceptions be placed?**  It has whole entries and starts at a multiple of four in the file. -/
def exceptionsFit (l : Layout) (d : Directory) : Option Unit := do
  let start ← l.place? d.address
  if d.size % functionSize ≠ 0 ∨ start % 4 ≠ 0 then none else return ()

def certificateHeadSize : Nat := 8

def certificateRevisions : List Nat := [0x100, 0x200]

def certificateKinds : List Nat := [1, 2, 3, 4]

/-- **Certificates up to a place**, each as long as its first word says, its head counted, and filled up to a multiple
of eight. -/
def certificatesTo (s : Source) (stop : Nat) : Nat → Nat → Option Unit
  | 0, _ => some ()
  | n + 1, start =>
    if stop ≤ start then some ()
    else do
      let size ← s.word? 4 start
      let revision ← s.word? 2 (start + 4)
      let kind ← s.word? 2 (start + 6)
      let behind := start + certificateHeadSize + (size - certificateHeadSize)
      if s.size < behind ∨ ¬ certificateRevisions.contains revision ∨ ¬ certificateKinds.contains kind then none
      else certificatesTo s stop n (roundUp 8 behind)

/-- **Can the certificates be read?**  Their directory tells a place of the file. -/
def certificatesFit (s : Source) (d : Directory) : Option Unit :=
  if s.size < d.address + d.size then none else certificatesTo s (d.address + d.size) s.size d.address

/-! ## Programs -/

/-- A condition on a directory, which holds if there is none. -/
def ifAny (d : Option Directory) (fits : Directory → Option Unit) : Option Unit :=
  match d with
  | some d => fits d
  | none => some ()

/-- **Can the parts the directories point at be read?** -/
def partsFit (h : Header) (l : Layout) (o : Optional) : Option Unit := do
  ifAny (o.directory? importIndex) (importsFit l)
  ifAny (o.directory? debugIndex) (debugFits l)
  if h.machine = exceptionMachine then ifAny (o.directory? exceptionIndex) (exceptionsFit l)
  ifAny (o.directory? certificateIndex) (certificatesFit l.source)

/-- The old header with its stub, which points at the new one. -/
def oldHeaderSize : Nat := 128

def isWhole (bytes : ByteArray) : Bool :=
  let s : Source := ⟨bytes, .little⟩
  let whole : Option Unit := do
    let _ ← s.range? 0 oldHeaderSize
    let start ← s.word? 4 0x3c
    if (← s.word? 4 start) ≠ signature then none
    else
      let h ← header? s (start + 4)
      let behind := start + 4 + Coff.headerSize
      let optional ← if h.optionalSize = 0 then some none else (optional? s behind).map some
      let sections ← sections? s h (behind + h.optionalSize)
      match optional with
      | some o => partsFit h { source := s, wide := o.wide, alignment := o.alignment, sections := sections } o
      | none => return ()
  whole.isSome

end Pe
end Object
end BranchChain
