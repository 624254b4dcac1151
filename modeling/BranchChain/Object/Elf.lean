import BranchChain.Object.Bytes
import BranchChain.Object.Contents
/-!
# Object.Elf — ELF files

Two symbol lists are read: the last symbol table among the sections, and the dynamic one, which the loader finds
through the first dynamic segment.  The dynamic list has no length of its own.  It is as long as a hash table says, the
GNU one before the other, and long enough for every symbol that a dynamic relocation names.
-/
namespace BranchChain
namespace Object
namespace Elf

/-- Whether words of the file's own width have eight bytes, and the file. -/
structure File where
  wide : Bool
  source : Source

namespace File

def word? (f : File) (width start : Nat) : Option Nat := f.source.word? width start

/-- A word of the file's own width. -/
def native? (f : File) (start : Nat) : Option Nat := f.word? (if f.wide then 8 else 4) start

def pick (f : File) (narrow wide : Nat) : Nat := if f.wide then wide else narrow

/-- Records of one size, one behind the other. -/
def records? {α : Type} (start stride count : Nat) (read : Nat → Option α) : Option (List α) :=
  (List.range count).mapM fun i => read (start + i * stride)

end File

/-! ## Headers -/

structure Header where
  machine : Nat
  programStart : Nat
  sectionStart : Nat
  programCount : Nat
  sectionCount : Nat
  namesIndex : Nat

/-- The header; the sizes of records it mentions do not matter, the usual ones hold. -/
def header? (f : File) : Option Header := do
  let _ ← f.source.range? 0 (f.pick 52 64)
  return {
    machine := ← f.word? 2 18
    programStart := ← f.native? (f.pick 28 32)
    sectionStart := ← f.native? (f.pick 32 40)
    programCount := ← f.word? 2 (f.pick 44 56)
    sectionCount := ← f.word? 2 (f.pick 48 60)
    namesIndex := ← f.word? 2 (f.pick 50 62) }

structure ProgramHeader where
  type : Nat
  fileStart : Nat
  address : Nat
  fileSize : Nat
  memorySize : Nat

def dynamicType : Nat := 2

def programHeader? (f : File) (start : Nat) : Option ProgramHeader := do
  let _ ← f.source.range? start (f.pick 32 56)
  return {
    type := ← f.word? 4 start
    fileStart := ← f.native? (start + f.pick 4 8)
    address := ← f.native? (start + f.pick 8 16)
    fileSize := ← f.native? (start + f.pick 16 32)
    memorySize := ← f.native? (start + f.pick 20 40) }

/-- **The program headers**; more than the file could hold are refused. -/
def programHeaders? (f : File) (h : Header) : Option (List ProgramHeader) :=
  let size := f.pick 32 56
  if f.source.size / size < h.programCount then none
  else File.records? h.programStart size h.programCount (programHeader? f)

structure Section where
  type : Nat
  address : Nat
  fileStart : Nat
  size : Nat
  link : Nat
  entrySize : Nat

def symbolTableType : Nat := 2

def relaType : Nat := 4

/-- The type of a section without contents in the file. -/
def emptyType : Nat := 8

def relType : Nat := 9

def section? (f : File) (start : Nat) : Option Section := do
  let _ ← f.source.range? start (f.pick 40 64)
  return {
    type := ← f.word? 4 (start + 4)
    address := ← f.native? (start + f.pick 12 16)
    fileStart := ← f.native? (start + f.pick 16 24)
    size := ← f.native? (start + f.pick 20 32)
    link := ← f.word? 4 (start + f.pick 24 40)
    entrySize := ← f.native? (start + f.pick 36 56) }

/-- **The section headers.**  Without a place there are none.  The first one is always there, and if the header counts
none, it holds their number as its size. -/
def sections? (f : File) (h : Header) : Option (List Section) :=
  if h.sectionStart = 0 then some []
  else do
    let size := f.pick 40 64
    let first ← section? f h.sectionStart
    let count := if h.sectionCount = 0 then first.size else h.sectionCount
    if f.source.size / size < count then none
    else
      let rest ← File.records? (h.sectionStart + size) size (count - 1) (section? f)
      return first :: rest

/-- Does the section lie in the file and in the address space? -/
def Section.isSound (s : Section) (fileSize : Nat) : Bool :=
  s.type == emptyType || s.size == 0 || (s.fileStart + s.size ≤ fileSize && s.address + s.size < UInt64.size)

/-! ## Names and symbols -/

/-- **A table of names**: a range of text. -/
def names? (f : File) (start size : Nat) : Option Texts := do
  let table ← f.source.range? start size
  if table.validateUTF8 then return .ofBytes table else none

/-- The index that stands for the one the first section links to. -/
def indexElsewhere : Nat := 0xffff

/-- The table of names in the section at an index; an index out of range stands for an empty table. -/
def namesAt? (f : File) (sections : List Section) (index : Nat) : Option Texts :=
  let index := if index = indexElsewhere then (sections.head?.map (·.link)).getD index else index
  match sections[index]? with
  | none => some (.ofBytes .empty)
  | some s => if s.isSound f.source.size then names? f s.fileStart s.size else none

/-- A name in a table. -/
def nameIn? (names : Texts) (i : Nat) : Option String :=
  if i < names.size then names.at? i else none

/-- The entry at a place; one without an address is left without a name. -/
def record? (f : File) (names : Texts) (start : Nat) : Option ElfEntry := do
  let name ← f.word? 4 start
  let address ← f.native? (start + f.pick 4 8)
  let size ← f.native? (start + f.pick 8 16)
  return {
    name := if address = 0 then none else nameIn? names name
    address := UInt64.ofNat address
    size := UInt64.ofNat size }

/-- **A symbol list of known length.** -/
def entries? (f : File) (names : Texts) (start count : Nat) : Option (List ElfEntry) := do
  let size := f.pick 16 24
  let _ ← f.source.range? start (count * size)
  File.records? start size count (record? f names)

/-- The entries of the last symbol table among the sections. -/
def sectionEntries? (f : File) (sections : List Section) : Option (List ElfEntry) :=
  match sections.reverse.find? (·.type == symbolTableType) with
  | none => some []
  | some s => do
    let count := if s.entrySize = 0 then 0 else s.size / s.entrySize
    let names ← namesAt? f sections s.link
    entries? f names s.fileStart count

/-! ## The dynamic segment -/

/-- Where the file keeps the byte at an address, by the first loaded segment that has it. -/
def mapped? (phs : List ProgramHeader) (a : Nat) : Option Nat :=
  match phs.find? fun p => p.type == loadType.toNat && p.address ≤ a && a - p.address < p.memorySize with
  | some p => if p.fileStart + (a - p.address) < UInt64.size then some (p.fileStart + (a - p.address)) else none
  | none => none

/-- The entries of the dynamic segment up to its end mark. -/
def dynamics? (f : File) (p : ProgramHeader) : Option (List (Nat × Nat)) := do
  if p.fileSize ≠ 0 then let _ ← f.source.range? p.fileStart p.fileSize
  let size := f.pick 8 16
  let all ← File.records? p.fileStart size (p.fileSize / size) fun i => do
    return (← f.native? i, ← f.native? (i + f.pick 4 8))
  return all.takeWhile (·.1 != 0)

/-- Values by tag, later entries before earlier ones. -/
structure Dynamic where
  entries : List (Nat × Nat)
  headers : List ProgramHeader

namespace Dynamic

def value (d : Dynamic) (tag : Nat) : Nat := ((d.entries.reverse.find? (·.1 == tag)).map (·.2)).getD 0

/-- The place of what a tag points at. -/
def place? (d : Dynamic) (tag : Nat) : Option Nat :=
  match d.entries.reverse.find? (·.1 == tag) with
  | some (_, a) => mapped? d.headers a
  | none => none

/-- The place of what a tag points at, the start of the file if there is none. -/
def place (d : Dynamic) (tag : Nat) : Nat := (d.place? tag).getD 0

end Dynamic

def tagRelocSizeOfPlt : Nat := 2
def tagHash : Nat := 4
def tagNames : Nat := 5
def tagSymbols : Nat := 6
def tagRela : Nat := 7
def tagRelaSize : Nat := 8
def tagNamesSize : Nat := 10
def tagRel : Nat := 17
def tagRelSize : Nat := 18
def tagRelocKindOfPlt : Nat := 20
def tagRelocsOfPlt : Nat := 23
def tagGnuHash : Nat := 0x6ffffef5

/-- **The highest symbol number that relocations name.** -/
def highestSymbol? (f : File) (start size : Nat) (rela : Bool) : Option Nat := do
  if size ≠ 0 then let _ ← f.source.range? start size
  let stride := if rela then f.pick 12 24 else f.pick 8 16
  let numbers ← File.records? start stride (size / stride) fun i => do
    let info ← f.native? (i + f.pick 4 8)
    return if f.wide then info >>> 32 else info >>> 8
  return numbers.foldl max 0

/-- The first chain word from a place on that ends a chain, as a count from `index`. -/
def chainEnd? (f : File) (start : Nat) : Nat → Nat → Option Nat
  | 0, _ => none
  | fuel + 1, index => do
    let hash ← f.word? 4 (start + 4 * index)
    if hash % 2 = 1 then return index + 1 else chainEnd? f start fuel (index + 1)

/-- **The length of the symbol list by the GNU hash table**: the highest chain is walked to its end. -/
def gnuCount? (f : File) (start : Nat) : Option Nat := do
  let buckets ← f.word? 4 start
  let first ← f.word? 4 (start + 4)
  let bloom ← f.word? 4 (start + 8)
  if buckets = 0 ∨ first = 0 ∨ bloom = 0 then none
  else
    let bucketStart := start + 16 + bloom * f.pick 4 8
    let _ ← f.source.range? bucketStart (4 * buckets)
    let heads ← File.records? bucketStart 4 buckets (f.word? 4)
    let highest := heads.foldl max 0
    if highest < first then return 0
    else
      let chains := bucketStart + 4 * buckets + 4 * (highest - first)
      let steps ← chainEnd? f chains (f.source.size / 4 + 1) 0
      return highest + steps

/-- The machines whose wide files count in eight bytes there. -/
def longCountMachines : List Nat := [22, 41]

/-- The length of the symbol list by the older hash table. -/
def hashCount? (f : File) (machine start : Nat) : Option Nat :=
  f.word? (if f.wide && longCountMachines.contains machine then 8 else 4) (start + 4)

/-- **The length of the dynamic symbol list.** -/
def dynamicCount? (f : File) (machine : Nat) (d : Dynamic) : Option Nat := do
  let rela ← highestSymbol? f (d.place tagRela) (d.value tagRelaSize) true
  let rel ← highestSymbol? f (d.place tagRel) (d.value tagRelSize) false
  let plt ← highestSymbol? f (d.place tagRelocsOfPlt) (d.value tagRelocSizeOfPlt) (d.value tagRelocKindOfPlt == tagRela)
  let hashed ← match d.place? tagGnuHash, d.place? tagHash with
    | some start, _ => gnuCount? f start
    | none, some start => hashCount? f machine start
    | none, none => some 0
  let highest := max rela (max rel plt)
  return if highest = 0 then hashed else max hashed (highest + 1)

/-- The entries the loader sees. -/
def dynamicEntries? (f : File) (machine : Nat) (phs : List ProgramHeader) : Option (List ElfEntry) :=
  match phs.find? (·.type == dynamicType) with
  | none => some []
  | some p => do
    let d : Dynamic := ⟨← dynamics? f p, phs⟩
    let names ← names? f (d.place tagNames) (d.value tagNamesSize)
    let count ← dynamicCount? f machine d
    entries? f names (d.place tagSymbols) count

/-! ## Files -/

/-- The relocations of the sections lie in the file. -/
def relocationsSound (f : File) (sections : List Section) : Bool :=
  sections.all fun s => if s.type == relaType || s.type == relType then s.isSound f.source.size else true

/-- The types of the sections about versions of symbols: definitions, needs and the versions themselves. -/
def versionTypes : List Nat := [0x6ffffffd, 0x6ffffffe, 0x6fffffff]

/-- The first section of each of these types lies in the file. -/
def versionsSound (f : File) (sections : List Section) : Bool :=
  versionTypes.all fun type =>
    match sections.find? (·.type == type) with
    | some s => (f.source.range? s.fileStart s.size).isSome
    | none => true

/-- The width and the byte order, after the magic number. -/
def file? (bytes : ByteArray) : Option File := do
  let wide ← match (⟨bytes, .little⟩ : Source).word? 1 4 with
    | some 1 => some false
    | some 2 => some true
    | _ => none
  let order ← match (⟨bytes, .little⟩ : Source).word? 1 5 with
    | some 1 => some ByteOrder.little
    | some 2 => some ByteOrder.big
    | _ => none
  return ⟨wide, ⟨bytes, order⟩⟩

/-- **An ELF file taken apart**, if it is whole. -/
def parsed? (bytes : ByteArray) : Option Parsed := do
  let f ← file? bytes
  let h ← header? f
  let phs ← programHeaders? f h
  let sections ← sections? f h
  let _ ← namesAt? f sections h.namesIndex
  let listed ← sectionEntries? f sections
  let dynamic ← dynamicEntries? f h.machine phs
  if relocationsSound f sections && versionsSound f sections then
    let headers := phs.map fun p : ProgramHeader =>
      ⟨UInt32.ofNat p.type, UInt64.ofNat p.address, UInt64.ofNat p.fileStart, UInt64.ofNat p.fileSize⟩
    return .elf headers listed dynamic
  else none

end Elf
end Object
end BranchChain
