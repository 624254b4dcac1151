import BranchChain.Symbol.Error
import Std.Data.HashMap
/-!
# Symbol.Registry — names given by the program itself

A registry maps names to addresses; a name registered again takes the new address.
-/
namespace BranchChain

structure Registry where
  symbols : Std.HashMap String Address := {}

namespace Registry

def empty : Registry := {}

def size (r : Registry) : Nat := r.symbols.size

def isEmpty (r : Registry) : Bool := r.symbols.isEmpty

def find? (r : Registry) (name : String) : Option Address := r.symbols[name]?

def register (r : Registry) (name : String) (a : Address) : Registry := ⟨r.symbols.insert name a⟩

/-- **A registration tells what it replaces**: the address that the name stood for, if there was one. -/
def enter (r : Registry) (name : String) (a : Address) : Option Address × Registry := (r.find? name, r.register name a)

/-- The registration of a function by the pointer to it. -/
def enterFunction (r : Registry) (name : String) (pointer : UInt64) : Option Address × Registry :=
  r.enter name ⟨pointer⟩

/-- **The address of a name.** -/
def resolve (r : Registry) (name : String) : Except SymbolError Address :=
  match r.find? name with
  | some a => .ok a
  | none => .error (.notFound name)

theorem find?_register (r : Registry) (name other : String) (a : Address) :
    (r.register name a).find? other = if name = other then some a else r.find? other := by
  simp [find?, register, Std.HashMap.getElem?_insert]

end Registry
end BranchChain
