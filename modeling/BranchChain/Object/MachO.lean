import BranchChain.Object.Bytes
import BranchChain.Object.Contents
/-!
# Object.MachO — Mach-O files

Behind the header stand load commands, one behind the other by the sizes they tell.  Segments and symbol tables are
read from them; of several symbol tables the last counts.  A program with an entry point needs a text segment to have
it in.
-/
namespace BranchChain
namespace Object
namespace MachO

structure File where
  wide : Bool
  source : Source
  texts : Texts := .ofBytes source.bytes

namespace File

def word? (f : File) (width start : Nat) : Option Nat := f.source.word? width start

def native? (f : File) (start : Nat) : Option Nat := f.word? (if f.wide then 8 else 4) start

def pick (f : File) (narrow wide : Nat) : Nat := if f.wide then wide else narrow

end File

/-- A symbol table: where the symbols are, how many, and where their names are. -/
structure Symtab where
  symbolStart : Nat
  count : Nat
  nameStart : Nat

/-- What the load commands told so far, segments from the last back. -/
structure Commands where
  segments : List Segment := []
  hasText : Bool := false
  hasEntry : Bool := false
  symtab : Option Symtab := none

/-! ## Load commands -/

def segmentCommand : Nat := 0x1
def symtabCommand : Nat := 0x2
def threadCommand : Nat := 0x4
def startThreadCommand : Nat := 0x5
def wideSegmentCommand : Nat := 0x19
def entryCommand : Nat := 0x80000028

/-- The commands that name a library or a place to look for libraries. -/
def namingCommands : List Nat := [0xc, 0xd, 0x80000018, 0x8000001c, 0x8000001f, 0x20, 0x80000023]

/-- **The length of a command's fixed fields**, as far as the command is known. -/
def fixedSize : Nat → Nat
  | 0x1 => 56
  | 0x2 => 24
  | 0x3 => 16
  | 0x4 => 16
  | 0x5 => 16
  | 0x6 => 20
  | 0x7 => 20
  | 0x9 => 16
  | 0xb => 80
  | 0xc => 24
  | 0xd => 24
  | 0xe => 12
  | 0xf => 12
  | 0x10 => 20
  | 0x11 => 40
  | 0x12 => 12
  | 0x13 => 12
  | 0x14 => 12
  | 0x15 => 12
  | 0x16 => 16
  | 0x17 => 12
  | 0x19 => 72
  | 0x1a => 72
  | 0x1b => 24
  | 0x1d => 16
  | 0x1e => 16
  | 0x20 => 24
  | 0x21 => 20
  | 0x22 => 48
  | 0x24 => 16
  | 0x25 => 16
  | 0x26 => 16
  | 0x27 => 12
  | 0x29 => 16
  | 0x2a => 16
  | 0x2b => 16
  | 0x2c => 24
  | 0x2d => 16
  | 0x2e => 16
  | 0x2f => 16
  | 0x30 => 16
  | 0x31 => 40
  | 0x32 => 24
  | 0x80000018 => 24
  | 0x8000001c => 12
  | 0x8000001f => 24
  | 0x80000022 => 48
  | 0x80000023 => 24
  | 0x80000028 => 24
  | 0x80000033 => 16
  | 0x80000034 => 16
  | 0x80000035 => 32
  | _ => 8

/-- The machines whose threads are known to start where their state says. -/
def threadMachines : List Nat := [7, 12, 18, 0x1000007, 0x100000c, 0x200000c]

def mostThreadWords : Nat := 70

/-- The name of the segment that holds code, with the NUL behind it. -/
def textName : List UInt8 := "__TEXT\x00".toUTF8.data.toList

/-- **A segment command**, of either width whatever the file's. -/
def segment? (f : File) (wide : Bool) (start : Nat) : Option (Segment × Bool) := do
  let name ← f.source.range? (start + 8) 16
  let width := if wide then 8 else 4
  let field (narrowAt wideAt : Nat) : Option Nat := f.word? width (start + if wide then wideAt else narrowAt)
  let address ← field 24 24
  let fileStart ← field 32 40
  let fileSize ← field 36 48
  if fileSize ≠ 0 then let _ ← f.source.range? fileStart fileSize
  return (⟨UInt64.ofNat address, UInt64.ofNat fileStart, UInt64.ofNat fileSize⟩, textName.isPrefixOf name.data.toList)

/-- **A symbol table command**; the symbols may not start behind the end of the file, nor the names before the symbols. -/
def symtab? (f : File) (start : Nat) : Option Symtab := do
  let t : Symtab := ⟨← f.word? 4 (start + 8), ← f.word? 4 (start + 12), ← f.word? 4 (start + 16)⟩
  let _ ← f.source.range? t.symbolStart 0
  if t.nameStart < t.symbolStart then none else return t

/-- **A thread command**: the words of a state, as many as it says. -/
def threadFits (f : File) (start : Nat) : Option Unit := do
  let count ← f.word? 4 (start + 12)
  if mostThreadWords < count then none
  else
    let _ ← f.source.range? (start + 16) (4 * count)
    return ()

def command? (f : File) (machine start code : Nat) (cs : Commands) : Option Commands := do
  let _ ← f.source.range? start (fixedSize code)
  if code = segmentCommand ∨ code = wideSegmentCommand then
    let (s, isText) ← segment? f (code = wideSegmentCommand) start
    return { cs with segments := s :: cs.segments, hasText := cs.hasText || isText }
  else if code = symtabCommand then return { cs with symtab := some (← symtab? f start) }
  else if code = entryCommand then return { cs with hasEntry := true }
  else if code = threadCommand ∨ code = startThreadCommand then
    threadFits f start
    if code = startThreadCommand ∧ ¬ threadMachines.contains machine then none else return cs
  else if namingCommands.contains code then
    let place ← f.word? 4 (start + 8)
    if f.texts.hasAt (start + place) then return cs else none
  else return cs

def commands? (f : File) (machine : Nat) : Nat → Nat → Commands → Option Commands
  | 0, _, cs => some cs
  | n + 1, start, cs => do
    let code ← f.word? 4 start
    let size ← f.word? 4 (start + 4)
    let _ ← f.source.range? start size
    commands? f machine n (start + size) (← command? f machine start code cs)

/-- The entry at a place.  One that names no address is left without its name, which has to be readable all the same. -/
def record? (f : File) (t : Symtab) (start : Nat) : Option MachOEntry := do
  let place := t.nameStart + (← f.word? 4 start)
  let sect ← f.word? 1 (start + 5)
  let address ← f.native? (start + 8)
  if sect = 0 ∨ address = 0 then
    if f.texts.hasAt place then return ⟨"", UInt64.ofNat sect, UInt64.ofNat address⟩ else none
  else return ⟨← f.texts.at? place, UInt64.ofNat sect, UInt64.ofNat address⟩

/-- **All symbols of a table**, those that cannot be read too. -/
def entries? (f : File) (t : Symtab) : Option (List (Option MachOEntry)) := do
  let size := f.pick 12 16
  let _ ← f.source.range? t.symbolStart (t.count * size)
  return (List.range t.count).map fun i => record? f t (t.symbolStart + i * size)

/-- The least size of a file, whatever its width: that of the longer header. -/
def leastSize : Nat := 32

/-- **A Mach-O file taken apart**, with a text for each entry that cannot be read, if the rest of it is whole. -/
def parsed? (damaged : String) (wide : Bool) (order : ByteOrder) (bytes : ByteArray) : Option Parsed := do
  let f : File := { wide := wide, source := ⟨bytes, order⟩ }
  let _ ← f.source.range? 0 leastSize
  let machine ← f.word? 4 4
  let count ← f.word? 4 16
  let size ← f.word? 4 20
  if size / 8 < count ∨ bytes.size < size then none
  else
    let cs ← commands? f machine count (f.pick 28 32) {}
    if cs.hasEntry ∧ ¬ cs.hasText then none
    else
      let entries ← match cs.symtab with
        | some t => entries? f t
        | none => some []
      return .machO cs.segments.reverse (entries.map fun e => e.elim (.error damaged) .ok)

end MachO
end Object
end BranchChain
