import BranchChain.Memory
/-!
# Memory.Cursor — walking an address space

A cursor is a base and the bytes walked since.  It moves by lengths only, and what it has walked is a word, so a walk
of `2 ^ 64` bytes starts over.
-/
namespace BranchChain

structure Cursor where
  base : Address
  offset : UInt64 := 0
  deriving DecidableEq, Repr

namespace Cursor

def position (c : Cursor) : Address := c.base + c.offset

/-- The next `n` bytes; the cursor stays. -/
def peek (c : Cursor) (m : Memory) (n : Nat) : Except Fault ByteArray := m.read c.position n

def advance (c : Cursor) (n : Nat) : Cursor := ⟨c.base, c.offset + UInt64.ofNat n⟩

theorem advance_zero (c : Cursor) : c.advance 0 = c := by simp [advance]

theorem advance_ofNat (entry : Address) (i j : Nat) :
    (⟨entry, UInt64.ofNat i⟩ : Cursor).advance j = ⟨entry, UInt64.ofNat (i + j)⟩ := by
  rw [advance, UInt64.ofNat_add]

theorem position_advance (c : Cursor) (n : Nat) : (c.advance n).position = c.position + UInt64.ofNat n := by
  simp [position, advance, Address.add_def, UInt64.add_assoc]

end Cursor
end BranchChain
