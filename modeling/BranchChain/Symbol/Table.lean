import BranchChain.Event
import BranchChain.Object.Contents
import Std.Data.HashMap
/-!
# Symbol.Table — the symbols of an object file

The first entry of a name is its symbol.  A name is looked up as given, then behind an underscore.  The load base of a
symbol is where the file's first byte must be placed so that the symbol's address falls on the symbol's bytes.
-/
namespace BranchChain

/-- **A symbol**, with the place of its code in the file if it has one. -/
structure Symbol where
  name : String
  address : UInt64
  size : UInt64
  fileOffset : Option UInt64
  deriving DecidableEq, Repr

namespace Object

/-- Where the file keeps the byte at an address, by the first segment that tells. -/
def Contents.fileOffset? (c : Contents) (a : UInt64) : Option UInt64 := c.segments.findSome? (·.fileOffset? a)

/-- The symbol of an entry. -/
def Contents.symbolOf (c : Contents) (e : Entry) : Symbol := ⟨e.name, e.address, e.size, c.fileOffset? e.address⟩

end Object

/-! ## Tables -/

/-- **The symbols of a file by name**, and the file if it is known. -/
structure SymbolTable where
  file : Option String := none
  symbols : Std.HashMap String Symbol

namespace SymbolTable

/-- The table of an object file; the first entry of a name counts. -/
def ofContents (c : Object.Contents) : SymbolTable where
  symbols := c.entries.foldl (fun m e => m.insertIfNew e.name (c.symbolOf e)) {}

def size (t : SymbolTable) : Nat := t.symbols.size

def isEmpty (t : SymbolTable) : Bool := t.symbols.isEmpty

/-- **A symbol by its name**, or by its name behind an underscore. -/
def find? (t : SymbolTable) (name : String) : Option Symbol := t.symbols[name]?.or t.symbols["_" ++ name]?

def lookUp (t : SymbolTable) (name : String) : Except SymbolError Symbol :=
  match t.find? name with
  | some s => .ok s
  | none => .error (.notFound name)

def resolve (t : SymbolTable) (name : String) : Except SymbolError Address := (t.lookUp name).map fun s => ⟨s.address⟩

/-- The place of a symbol's code in the file. -/
def fileOffset (t : SymbolTable) (name : String) : Except SymbolError UInt64 := do
  let s ← t.lookUp name
  match s.fileOffset with
  | some o => .ok o
  | none => .error (.notInFile name)

/-- **Where the file's first byte must be placed** for the symbol's address to fall on its code. -/
def loadBase (t : SymbolTable) (name : String) : Except SymbolError Address := do
  let a ← t.resolve name
  let o ← t.fileOffset name
  return a - o

/-- The table of a file's bytes, and what reading them tells. -/
def ofBytes (parse : Object.Parser) (bytes : ByteArray) : Except SymbolError (SymbolTable × Event) := do
  let c ← Object.read parse bytes
  let t := ofContents c
  return (t, .symbolsRead t.size c.segments.length)

end SymbolTable
end BranchChain
