import BranchChain.Object.Bytes
import BranchChain.Text.Numeral
/-!
# Object.Coff — COFF objects

No symbols are read from these; what is told is whether such a file is whole.  Its sections lie behind the header, and
a section whose name does not fit its field keeps it among the long names, behind the symbols.
-/
namespace BranchChain
namespace Object
namespace Coff

def headerSize : Nat := 20
def sectionSize : Nat := 40
def symbolSize : Nat := 18

/-! ## Sections -/

/-- A header, as far as it matters. -/
structure Header where
  machine : Nat
  sections : Nat
  symbolStart : Nat
  symbols : Nat
  optionalSize : Nat

def header? (s : Source) (start : Nat) : Option Header := do
  let _ ← s.range? start headerSize
  return {
    machine := ← s.word? 2 start
    sections := ← s.word? 2 (start + 2)
    symbolStart := ← s.word? 4 (start + 8)
    symbols := ← s.word? 4 (start + 12)
    optionalSize := ← s.word? 2 (start + 16) }

/-- Where the long names begin: behind the symbols. -/
def Header.namesStart (h : Header) : Nat := h.symbolStart + h.symbols * symbolSize

/-- The value of a digit to the base sixty-four. -/
def digit64? (c : Char) : Option Nat :=
  if 'A' ≤ c ∧ c ≤ 'Z' then some (c.toNat - 'A'.toNat)
  else if 'a' ≤ c ∧ c ≤ 'z' then some (c.toNat - 'a'.toNat + 26)
  else if '0' ≤ c ∧ c ≤ '9' then some (c.toNat - '0'.toNat + 52)
  else if c = '+' then some 62
  else if c = '/' then some 63
  else none

/-- **Where a name is that does not fit its field**: behind a stroke stands its place among the long names, in decimal,
behind two strokes to the base sixty-four.  A name that fits is nowhere else. -/
def longName? (field : List Char) : Option (Option Nat) :=
  match field.takeWhile (· != '\x00') with
  | '/' :: '/' :: cs => do
    let ds ← cs.mapM digit64?
    return some (ds.foldl (fun n d => 64 * n + d) 0)
  | '/' :: cs => (Text.readWord 10 cs).toOption.map fun n => some n.toNat
  | _ => some none

/-- A section, as far as it matters. -/
structure Section where
  memorySize : Nat
  address : Nat
  fileSize : Nat
  fileStart : Nat

def section? (s : Source) (texts : Texts) (namesStart start : Nat) : Option Section := do
  let _ ← s.range? start sectionSize
  let field ← s.range? start 8
  match ← longName? (field.data.toList.map fun b => Char.ofNat b.toNat) with
  | some place => if texts.hasAt (namesStart + place) then pure () else none
  | none => pure ()
  return {
    memorySize := ← s.word? 4 (start + 8)
    address := ← s.word? 4 (start + 12)
    fileSize := ← s.word? 4 (start + 16)
    fileStart := ← s.word? 4 (start + 20) }

/-- **The sections from a place on**; more than the file could hold are refused. -/
def sections? (s : Source) (h : Header) (start : Nat) : Option (List Section) :=
  if s.size / sectionSize < h.sections then none
  else
    let texts := Texts.ofBytes s.bytes
    (List.range h.sections).mapM fun i => section? s texts h.namesStart (start + i * sectionSize)

/-- Symbols and the names behind them lie in the file, if there are any. -/
def symbolsFit (s : Source) (h : Header) : Option Unit := do
  if h.symbolStart = 0 then return ()
  else
    let _ ← s.range? h.symbolStart (h.symbols * symbolSize)
    let length ← s.word? 4 h.namesStart
    if length < 4 then none
    else
      let _ ← s.text? (h.namesStart + 4) (length - 4)
      return ()

/-- **Is the COFF object whole?** -/
def isWhole (bytes : ByteArray) : Bool :=
  let s : Source := ⟨bytes, .little⟩
  let whole : Option Unit := do
    let h ← header? s 0
    let _ ← sections? s h (headerSize + h.optionalSize)
    symbolsFit s h
  whole.isSome

end Coff
end Object
end BranchChain
