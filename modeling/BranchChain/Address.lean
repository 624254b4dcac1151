import BranchChain.Text.Layout
/-!
# Address — positions in a 64-bit address space

An address is a word, and every step around the address space wraps.  Two kinds of step meet here: unsigned lengths
forward and back, and signed displacements.  Both move the same word, so a displacement undoes the distance it is read
from (`shift_sub`).
-/
namespace BranchChain

/-- **A byte position in a 64-bit address space.** -/
structure Address where
  word : UInt64
  deriving DecidableEq, Repr, Inhabited, Hashable

namespace Address

def ofNat (n : Nat) : Address := ⟨UInt64.ofNat n⟩

def toNat (a : Address) : Nat := a.word.toNat

def null : Address := ⟨0⟩

def isNull (a : Address) : Bool := a.word == 0

instance : Ord Address := ⟨fun a b => compare a.word b.word⟩

instance : HAdd Address UInt64 Address := ⟨fun a n => ⟨a.word + n⟩⟩

instance : HSub Address UInt64 Address := ⟨fun a n => ⟨a.word - n⟩⟩

/-- **The signed distance** from the second address to the first, the shorter way round. -/
def distance (a b : Address) : Int64 := (a.word - b.word).toInt64

instance : HSub Address Address Int64 := ⟨distance⟩

/-- **The address a signed displacement leads to.** -/
def shift (a : Address) (d : Int64) : Address := ⟨a.word + d.toUInt64⟩

/-- The bytes from `base` up to `a`, going forward. -/
def offsetFrom (a base : Address) : UInt64 := a.word - base.word

theorem add_def (a : Address) (n : UInt64) : a + n = ⟨a.word + n⟩ := rfl

theorem sub_def (a b : Address) : a - b = (a.word - b.word).toInt64 := rfl

theorem shift_sub (a b : Address) : a.shift (b - a) = b := by
  simp [shift, sub_def, UInt64.add_comm a.word]

/-! ## Text -/

/-- Sixteen digits behind the mark. -/
def text (a : Address) : String := Text.Layout.hex ⟨' ', .right, false, true, true, 18⟩ a.toNat

/-- The fewest digits behind the mark. -/
def short (a : Address) : String := Text.Layout.hex ⟨' ', .right, false, true, false, 0⟩ a.toNat

/-- **An address under a layout**: its own text takes no layout, its digits do. -/
def laidOut (a : Address) (l : Text.Layout) : Text.Rendition → String
  | .plain => a.text
  | .hex => l.hex a.toNat
  | .hexCapitals => l.hexCapitals a.toNat

end Address
end BranchChain
