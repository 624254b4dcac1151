import BranchChain.Branch.Decode
import BranchChain.Pattern.Search
import BranchChain.Table
/-!
# Table.Recovery — building a table from memory

A recipe names the anchor, how far to search for it and how many branches follow.  Recovery searches from the entry,
then decodes one branch behind the other.  There is no table with fewer handlers than asked for: the first branch that
does not decode ends the recovery with its index and its place.  The log keeps what the failed table had so far.
-/
namespace BranchChain

/-- **Why no table is built.** -/
inductive BuildError where
  | preambleNotFound (limit : Nat)
  | unknownOpcode (index : Nat) (offset : UInt64) (bytes : List UInt8)
  | invalidAnchor (e : PatternError)
  | memory (f : Fault)
  deriving DecidableEq, Repr

namespace BuildError

def message : BuildError → String
  | .preambleNotFound limit => "Did not find jump chain preamble within 0x" ++ Text.hex limit ++ " bytes"
  | .unknownOpcode index offset bytes =>
    "Unknown opcode " ++ opcodeText bytes ++ " for handler " ++ Text.decimal index ++ " at fn+0x"
      ++ Text.hex offset.toNat
  | .invalidAnchor e => "Invalid anchor: " ++ e.reason
  | .memory f => "Memory error: " ++ f.message

def causes (e : BuildError) : List String :=
  match e with
  | .memory f => e.message :: f.causes
  | _ => [e.message]

def ofSearch : SearchError → BuildError
  | .notFound limit => .preambleNotFound limit
  | .memory f => .memory f

/-- A decoding error of the branch at an index, met at an offset from the entry. -/
def ofDecode (index : Nat) (offset : UInt64) : DecodeError → BuildError
  | .unknownOpcode bytes => .unknownOpcode index offset bytes
  | .memory f => .memory f

end BuildError

/-! ## Decoding a chain -/

/-- The slots decoded, and what ended the chain early. -/
structure Chain where
  slots : List Slot
  stop : Option (Halt BuildError)
  deriving DecidableEq, Repr

/-- **Decodes `n` branches from the cursor on**, the first of them at `index` in the chain. -/
def Memory.chain (m : Memory) (entry : Address) : Nat → Nat → Cursor → Chain
  | 0, _, _ => ⟨[], none⟩
  | n + 1, index, c =>
    match m.branchAt c.position with
    | .error h => ⟨[], some (h.map (.ofDecode index c.offset))⟩
    | .ok b =>
      let rest := m.chain entry n (index + 1) (c.advance b.length)
      ⟨.ofBranch index entry b :: rest.slots, rest.stop⟩

/-! ## Recipes -/

/-- The bytes a slot takes in memory. -/
def Slot.width : Nat := 40

/-- **The most slots there is room for**: no list takes more than half the address space.  Whether a machine has that much
memory is another matter. -/
def Table.capacity : Nat := 0x7fffffffffffffff / Slot.width

/-- **How to recover a table.** -/
structure Recipe where
  anchor : Pattern := .preamble
  scanLimit : Nat := Pattern.defaultLimit.toNat
  branchCount : Nat
  deriving DecidableEq, Repr

/-- A finished recovery. -/
structure Recovery where
  result : Except (Halt BuildError) Table
  log : List Event

def countOf (f : Form) (slots : List Slot) : Nat := slots.countP (·.form == f)

namespace Recipe

/-- **Search, decode, report.** -/
def recover (r : Recipe) (m : Memory) (entry : Address) : Recovery :=
  let (found, c) := r.anchor.scan m r.scanLimit ⟨entry, 0⟩
  let searched := r.anchor.scanLog r.scanLimit entry found
  match found with
  | .error e => ⟨.error (.fail (.ofSearch e)), searched⟩
  | .ok offset =>
    if Table.capacity < r.branchCount then ⟨.error (.trap .capacity), searched⟩
    else
      let chain := m.chain entry r.branchCount 0 c
      let decoded := searched ++ chain.slots.map .handlerDecoded
      match chain.stop with
      | some h => ⟨.error h, decoded⟩
      | none =>
        ⟨.ok ⟨entry, offset, chain.slots⟩,
          decoded ++ [.tableDecoded entry (countOf .short chain.slots) (countOf .near chain.slots)]⟩

def build (r : Recipe) (m : Memory) (entry : Address) : Except (Halt BuildError) Table := (r.recover m entry).result

def log (r : Recipe) (m : Memory) (entry : Address) : List Event := (r.recover m entry).log

end Recipe
end BranchChain
