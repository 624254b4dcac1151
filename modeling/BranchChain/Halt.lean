/-!
# Halt — why there is no result

A computation may fail, and then it says why.  Or it breaks off without an answer: a sum is no word, an index lies behind
the bytes it is meant for, a list is asked for that no memory holds.  Nobody handles a trap, so it ends whatever runs.
-/
namespace BranchChain

/-- **Why a computation breaks off** instead of giving an answer. -/
inductive Trap where
  | overflow
  | outside
  | capacity
  deriving DecidableEq, Repr

/-- **A failure or a trap.** -/
inductive Halt (ε : Type) where
  | fail (e : ε)
  | trap (t : Trap)
  deriving DecidableEq, Repr

/-- What a failure is called further up; a trap is a trap everywhere. -/
def Halt.map {ε ε' : Type} (f : ε → ε') : Halt ε → Halt ε'
  | .fail e => .fail (f e)
  | .trap t => .trap t

/-- **The byte at an index** that is taken to be among the bytes. -/
def byteAt {ε : Type} (bytes : ByteArray) (i : Nat) : Except (Halt ε) UInt8 :=
  if h : i < bytes.size then .ok (bytes.get i h) else .error (.trap .outside)

/-- Whether a byte is there does not depend on what failures are called. -/
theorem mapError_byteAt {ε ε' : Type} {g : ε → ε'} (bytes : ByteArray) (i : Nat) :
    (byteAt bytes i).mapError (Halt.map g) = byteAt bytes i := by
  by_cases h : i < bytes.size
  · rw [byteAt, dif_pos h, byteAt, dif_pos h]
    rfl
  · rw [byteAt, dif_neg h, byteAt, dif_neg h]
    rfl

theorem byteAt_eq_ok_iff {ε : Type} {bytes : ByteArray} {i : Nat} {x : UInt8} :
    byteAt (ε := ε) bytes i = .ok x ↔ bytes.data.toList[i]? = some x := by
  by_cases h : i < bytes.size
  · rw [byteAt, dif_pos h, List.getElem?_eq_getElem (show i < bytes.data.toList.length from h), Option.some.injEq,
      Except.ok.injEq]
    rfl
  · rw [byteAt, dif_neg h, List.getElem?_eq_none (show bytes.data.toList.length ≤ i from Nat.not_lt.1 h)]
    exact ⟨fun h => (by cases h), fun h => (by cases h)⟩

theorem byteAt_eq_error_iff {ε : Type} {bytes : ByteArray} {i : Nat} {h : Halt ε} :
    byteAt bytes i = .error h ↔ bytes.size ≤ i ∧ h = .trap .outside := by
  by_cases hlt : i < bytes.size
  · rw [byteAt, dif_pos hlt]
    exact ⟨fun h => (by cases h), fun h => absurd hlt (Nat.not_lt.2 h.1)⟩
  · rw [byteAt, dif_neg hlt]
    exact ⟨fun h => (by cases h; exact ⟨Nat.not_lt.1 hlt, rfl⟩), fun h => by rw [h.2]⟩

end BranchChain
