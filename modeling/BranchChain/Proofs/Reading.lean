import BranchChain.Branch.Decode
import BranchChain.Proofs.Results
import Mathlib.Algebra.Ring.Int.Defs
import Mathlib.Algebra.Ring.Nat
/-!
# Proofs.Reading — replies, and images as lists of bytes

A byte of a reply is there if the reply is long enough (`Memory.byte_eq_ok_iff`).  An image answers a read with a piece of
its data, or with the end of its data (`Image.read_ok_iff`, `Image.read_error_iff`).
Walking forward through an image is counting up an index, as long as the count stays below the size of the address
space (`Image.indexOf_add`).
-/
namespace BranchChain

namespace Address

theorem add_ofNat_zero (a : Address) : a + UInt64.ofNat 0 = a := by simp [add_def]

theorem add_ofNat_add (a : Address) (i j : Nat) : a + UInt64.ofNat i + UInt64.ofNat j = a + UInt64.ofNat (i + j) := by
  simp [add_def, UInt64.add_assoc]

theorem offsetFrom_add (a base : Address) (n : UInt64) : (a + n).offsetFrom base = a.offsetFrom base + n := by
  show a.word + n - base.word = a.word - base.word + n
  rw [UInt64.sub_eq_add_neg, UInt64.sub_eq_add_neg, UInt64.add_assoc, UInt64.add_comm n, ← UInt64.add_assoc]

theorem offsetFrom_base_add (a base : Address) (n : UInt64) : a.offsetFrom (base + n) = a.offsetFrom base - n := by
  show a.word - (base.word + n) = a.word - base.word - n
  simp only [UInt64.sub_eq_add_neg, UInt64.neg_add, UInt64.add_assoc]

/-- What a base moves forward is no longer counted, as long as it stays behind the address. -/
theorem toNat_offsetFrom_base_add {a base : Address} {i : Nat} (h : i ≤ (a.offsetFrom base).toNat) :
    (a.offsetFrom (base + UInt64.ofNat i)).toNat = (a.offsetFrom base).toNat - i := by
  have hi : (UInt64.ofNat i).toNat = i := UInt64.toNat_ofNat_of_lt' (Nat.lt_of_le_of_lt h (UInt64.toNat_lt _))
  have hle : UInt64.ofNat i ≤ a.offsetFrom base := by
    rw [UInt64.le_iff_toNat_le, hi]
    exact h
  rw [offsetFrom_base_add, UInt64.toNat_sub_of_le _ _ hle, hi]

end Address

/-! ## Replies -/

theorem bytes_ext {b c : ByteArray} (h : b.data.toList = c.data.toList) : b = c :=
  ByteArray.ext (Array.toList_inj.1 h)

namespace Memory

variable {m : Memory} {a : Address} {n : Nat} {reply : ByteArray}

theorem byte_eq_ok_iff {x : UInt8} :
    m.byte a = .ok x ↔ ∃ reply, m.read a 1 = .ok reply ∧ reply.data.toList[0]? = some x := by
  unfold byte
  simp only [bind_eq_ok, mapError_eq_ok, byteAt_eq_ok_iff]

theorem byte_eq_error_iff {h : Halt Fault} :
    m.byte a = .error h ↔
      (∃ f, m.read a 1 = .error f ∧ h = .fail f) ∨ ∃ reply, m.read a 1 = .ok reply ∧ reply.size = 0 ∧ h = .trap .outside := by
  unfold byte
  simp only [bind_eq_error, mapError_eq_error, mapError_eq_ok, byteAt_eq_error_iff, Nat.le_zero]

theorem fetch_eq_ok_iff : m.fetch a n = .ok reply ↔ m.read a n = .ok reply := mapError_eq_ok

theorem fetch_eq_error_iff {h : Halt DecodeError} :
    m.fetch a n = .error h ↔ ∃ f, m.read a n = .error f ∧ h = .fail (.memory f) :=
  mapError_eq_error

end Memory

namespace Image

def data (im : Image) : List UInt8 := im.bytes.data.toList

/-- **Where in the data the byte at an address would be**, counted forward from the base. -/
def indexOf (im : Image) (a : Address) : Nat := (a.offsetFrom im.base).toNat

def behind (im : Image) (a : Address) : List UInt8 := im.data.drop (im.indexOf a)

theorem length_data (im : Image) : im.data.length = im.size := rfl

theorem length_behind (im : Image) (a : Address) : (im.behind a).length = im.size - im.indexOf a := List.length_drop

theorem indexOf_add (im : Image) (a : Address) (n : Nat) (h : im.indexOf a + n < 2 ^ 64) :
    im.indexOf (a + UInt64.ofNat n) = im.indexOf a + n := by
  unfold indexOf at *
  rw [Address.offsetFrom_add, UInt64.toNat_add, UInt64.toNat_ofNat', Nat.add_mod_mod, Nat.mod_eq_of_lt h]

theorem base_add_indexOf (im : Image) (a : Address) : im.base + UInt64.ofNat (im.indexOf a) = a := by
  unfold indexOf Address.offsetFrom
  rw [UInt64.ofNat_toNat, Address.add_def, UInt64.add_comm, UInt64.sub_add_cancel]

theorem behind_add (im : Image) (a : Address) (n : Nat) (h : im.indexOf a + n < 2 ^ 64) :
    im.behind (a + UInt64.ofNat n) = (im.behind a).drop n := by
  unfold behind
  rw [im.indexOf_add a n h, List.drop_drop]

/-! ## Reads -/

theorem read_ok (im : Image) (a : Address) (n : Nat) (h : im.indexOf a + n ≤ im.size) :
    ∃ b, im.memory.read a n = .ok b ∧ b.data.toList = (im.behind a).take n := by
  refine ⟨_, if_pos h, ?_⟩
  rw [ByteArray.data_extract, Array.toList_extract, List.extract_eq_take_drop, Nat.add_sub_cancel_left]
  rfl

theorem read_error (im : Image) (a : Address) (n : Nat) (h : im.size < im.indexOf a + n) :
    im.memory.read a n = .error (.outOfBounds a) :=
  if_neg (Nat.not_le.2 h)

theorem read_ok_iff {im : Image} {a : Address} {n : Nat} {b : ByteArray} :
    im.memory.read a n = .ok b ↔ im.indexOf a + n ≤ im.size ∧ b.data.toList = (im.behind a).take n := by
  rcases Nat.lt_or_ge im.size (im.indexOf a + n) with hlt | hle
  · rw [im.read_error a n hlt]
    exact ⟨fun h => (by cases h), fun h => absurd h.1 (Nat.not_le.2 hlt)⟩
  · obtain ⟨c, hc, hl⟩ := im.read_ok a n hle
    rw [hc, Except.ok.injEq]
    exact ⟨fun h => ⟨hle, by rw [← h]; exact hl⟩, fun h => bytes_ext (hl.trans h.2.symm)⟩

theorem read_error_iff {im : Image} {a : Address} {n : Nat} {f : Fault} :
    im.memory.read a n = .error f ↔ im.size < im.indexOf a + n ∧ f = .outOfBounds a := by
  rcases Nat.lt_or_ge im.size (im.indexOf a + n) with hlt | hle
  · rw [im.read_error a n hlt, Except.error.injEq]
    exact ⟨fun h => ⟨hlt, h.symm⟩, fun h => h.2.symm⟩
  · obtain ⟨c, hc, -⟩ := im.read_ok a n hle
    rw [hc]
    exact ⟨fun h => (by cases h), fun h => absurd h.1 (Nat.not_lt.2 hle)⟩

/-- **An image gives as many bytes as it is asked for.** -/
theorem exact_memory (im : Image) : im.memory.Exact := by
  intro a n b hb
  obtain ⟨hfit, hl⟩ := read_ok_iff.1 hb
  have hlen := congrArg List.length hl
  rw [List.length_take, im.length_behind, Nat.min_eq_left (by omega)] at hlen
  exact hlen

theorem read_prefix (im : Image) (a : Address) (bs : List UInt8) {rest : List UInt8} (hbs : bs ≠ [])
    (h : im.behind a = bs ++ rest) : ∃ b, im.memory.read a bs.length = .ok b ∧ b.data.toList = bs := by
  have hpos := List.length_pos_iff.2 hbs
  have hlen := im.length_behind a
  rw [h, List.length_append] at hlen
  obtain ⟨b, hb, hl⟩ := im.read_ok a bs.length (by omega)
  exact ⟨b, hb, by rw [hl, h, List.take_left]⟩

theorem byte_prefix (im : Image) (a : Address) {x : UInt8} {rest : List UInt8} (h : im.behind a = x :: rest) :
    im.memory.byte a = .ok x := by
  obtain ⟨b, hb, hl⟩ := im.read_prefix a [x] (List.cons_ne_nil _ _) h
  exact Memory.byte_eq_ok_iff.2 ⟨b, hb, by rw [hl]; rfl⟩

theorem read_behind_error (im : Image) (a : Address) (n : Nat) (h : (im.behind a).length < n) :
    im.memory.read a n = .error (.outOfBounds a) := by
  rw [im.length_behind] at h
  exact im.read_error a n (by omega)

theorem fetch_error (im : Image) (a : Address) (n : Nat) (h : (im.behind a).length < n) :
    im.memory.fetch a n = .error (.fail (.memory (.outOfBounds a))) :=
  Memory.fetch_eq_error_iff.2 ⟨_, im.read_behind_error a n h, rfl⟩

end Image
end BranchChain
