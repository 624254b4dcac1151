import BranchChain.Event
import BranchChain.Memory.Cursor
/-!
# Pattern.Search — finding an anchor

A search looks at one position after the other, at most `limit` of them.  A memory that ends is no fault here: behind
its end there is nothing to find.  The cursor ends behind the match, or at the first position not looked at.
-/
namespace BranchChain

/-- **Why a search finds nothing.** -/
inductive SearchError where
  | notFound (limit : Nat)
  | memory (f : Fault)
  deriving DecidableEq, Repr

namespace SearchError

def message : SearchError → String
  | .notFound limit => "Did not find jump chain preamble within 0x" ++ Text.hex limit ++ " bytes"
  | .memory f => "Memory error: " ++ f.message

def causes (e : SearchError) : List String :=
  match e with
  | .notFound _ => [e.message]
  | .memory f => e.message :: f.causes

end SearchError

namespace Pattern

/-- The number of positions looked at without an effort. -/
def defaultLimit : UInt64 := 0x10000

/-- How a search ends. -/
inductive Finding where
  | found (offset : UInt64)
  | missing
  | faulted (f : Fault)
  deriving DecidableEq, Repr

/-- **Looks for bytes at `n` positions from the cursor on.** -/
def seek (m : Memory) (wanted : ByteArray) : Nat → Cursor → Finding × Cursor
  | 0, c => (.missing, c)
  | n + 1, c =>
    match c.peek m wanted.size with
    | .error (.outOfBounds _) => (.missing, c)
    | .error f => (.faulted f, c)
    | .ok reply =>
      if startsWith reply wanted then (.found c.offset, c.advance wanted.size) else seek m wanted n (c.advance 1)

/-- **The search within a limit**: the offset of the match from the cursor's base, and the cursor afterwards. -/
def scan (p : Pattern) (m : Memory) (limit : Nat) (c : Cursor) : Except SearchError UInt64 × Cursor :=
  match seek m p.array limit c with
  | (.found offset, c) => (.ok offset, c)
  | (.missing, c) => (.error (.notFound limit), c)
  | (.faulted f, c) => (.error (.memory f), c)

/-- What a search that started at `base` tells. -/
def scanLog (p : Pattern) (limit : Nat) (base : Address) : Except SearchError UInt64 → List Event
  | .ok offset => [.preambleFound offset]
  | .error (.notFound _) => [.preambleMissing p limit base]
  | .error (.memory _) => []

/-- **The offset of the pattern from an entry.** -/
def find (p : Pattern) (m : Memory) (entry : Address) (limit : Nat) : Except SearchError UInt64 :=
  (p.scan m limit ⟨entry, 0⟩).1

end Pattern
end BranchChain
