import BranchChain.Memory.Bounded
import BranchChain.Proofs.Reading
import BranchChain.Proofs.Results
/-!
# Proofs.Bounding — bounded reads never break off

Both checks let a read through exactly if its bytes are there (`Image.heldStart_eq`, `Image.mappedStart_eq`), so the sum
behind them is a word and the slice stays in the data.  Both readers therefore answer as the image does
(`Image.readBehind_eq`), and a read is two reads one behind the other (`Image.readHeld_add_iff`).
-/
namespace BranchChain

/-! ## Words -/

theorem wordSum?_of_lt {x y : UInt64} (h : x.toNat + y.toNat < 2 ^ 64) : wordSum? x y = some (x + y) := if_pos h

theorem wordSum?_of_le {x y : UInt64} (h : 2 ^ 64 ≤ x.toNat + y.toNat) : wordSum? x y = none := if_neg (Nat.not_lt.2 h)

theorem wordSum_of_lt {x y : UInt64} (h : x.toNat + y.toNat < 2 ^ 64) : wordSum x y = .ok (x + y) := by
  rw [wordSum, wordSum?_of_lt h]

theorem toNat_add_of_lt {x y : UInt64} (h : x.toNat + y.toNat < 2 ^ 64) : (x + y).toNat = x.toNat + y.toNat := by
  rw [UInt64.toNat_add, Nat.mod_eq_of_lt h]

namespace Image

variable {im : Image}

/-! ## The two checks -/

theorem toNat_length (h : im.size < 2 ^ 63) : im.length.toNat = im.size :=
  UInt64.toNat_ofNat_of_lt' (Nat.lt_trans h (by decide))

/-- **Where a read may start**: at its index, if its bytes are there. -/
def startOf (im : Image) (a : Address) (n : UInt64) : Except Fault UInt64 :=
  if im.indexOf a + n.toNat ≤ im.size then .ok (a.offsetFrom im.base) else .error (.outOfBounds a)

theorem heldStart_eq (h : im.size < 2 ^ 63) (a : Address) (n : UInt64) : im.heldStart a n = im.startOf a n := by
  unfold heldStart startOf indexOf
  rcases Nat.lt_or_ge ((a.offsetFrom im.base).toNat + n.toNat) (2 ^ 64) with hlt | hge
  · simp only [wordSum?_of_lt hlt, UInt64.lt_iff_toNat_lt, toNat_add_of_lt hlt, toNat_length h]
    by_cases hin : (a.offsetFrom im.base).toNat + n.toNat ≤ im.size
    · rw [if_pos hin, if_neg (Nat.not_lt.2 hin)]
    · rw [if_neg hin, if_pos (Nat.not_le.1 hin)]
  · -- an end that is no word is behind all data
    simp only [wordSum?_of_le hge]
    rw [if_neg (by omega)]

theorem mappedStart_eq (h : im.size < 2 ^ 63) (a : Address) (n : UInt64) : im.mappedStart a n = im.startOf a n := by
  unfold mappedStart startOf indexOf
  rcases Nat.lt_or_ge ((a.offsetFrom im.base).toNat + n.toNat) (2 ^ 64) with hlt | hge
  · simp only [wordSum?_of_lt hlt, UInt64.le_iff_toNat_le, toNat_add_of_lt hlt, toNat_length h]
  · simp only [wordSum?_of_le hge]
    rw [if_neg (by omega)]

/-! ## The slice behind them -/

theorem slice_of_le {bytes : ByteArray} {start stop : UInt64} (hle : start.toNat ≤ stop.toNat)
    (hin : stop.toNat ≤ bytes.size) : slice bytes start stop = .ok (bytes.extract start.toNat stop.toNat) :=
  if_pos ⟨UInt64.le_iff_toNat_le.2 hle, hin⟩

/-- **Behind a check that lets through what is there, no reader breaks off**: it answers as the image does. -/
theorem readBehind_eq (h : im.size < 2 ^ 63) {check : Address → UInt64 → Except Fault UInt64} {a : Address} {n : UInt64}
    (hcheck : check a n = im.startOf a n) :
    im.readBehind check a n = .ok (im.memory.read a n.toNat) := by
  unfold readBehind
  rw [hcheck, startOf]
  by_cases hin : im.indexOf a + n.toNat ≤ im.size
  · have hlt : (a.offsetFrom im.base).toNat + n.toNat < 2 ^ 64 := Nat.lt_of_le_of_lt hin (Nat.lt_trans h (by decide))
    have hstop : (a.offsetFrom im.base + n).toNat = (a.offsetFrom im.base).toNat + n.toNat := toNat_add_of_lt hlt
    have hslice : slice im.bytes (a.offsetFrom im.base) (a.offsetFrom im.base + n) = _ :=
      slice_of_le (by rw [hstop]; exact Nat.le_add_right _ _) (by rw [hstop]; exact hin)
    have hread : im.memory.read a n.toNat = _ := if_pos hin
    rw [if_pos hin, hread]
    simp only [wordSum_of_lt hlt, bind_ok, hslice, hstop]
    rfl
  · rw [if_neg hin, im.read_error a n.toNat (Nat.not_le.1 hin)]

theorem readHeld_eq (h : im.size < 2 ^ 63) (a : Address) (n : UInt64) :
    im.readHeld a n = .ok (im.memory.read a n.toNat) :=
  readBehind_eq h (heldStart_eq h a n)

theorem readMapped_eq (h : im.size < 2 ^ 63) (a : Address) (n : UInt64) :
    im.readMapped a n = .ok (im.memory.read a n.toNat) :=
  readBehind_eq h (mappedStart_eq h a n)

theorem readHeld_ok_iff (h : im.size < 2 ^ 63) {a : Address} {n : UInt64} {bytes : ByteArray} :
    im.readHeld a n = .ok (.ok bytes) ↔
      im.indexOf a + n.toNat ≤ im.size ∧ bytes.data.toList = (im.behind a).take n.toNat := by
  rw [readHeld_eq h, Except.ok.injEq, read_ok_iff]

theorem readHeld_error (h : im.size < 2 ^ 63) {a : Address} {n : UInt64} (hout : im.size < im.indexOf a + n.toNat) :
    im.readHeld a n = .ok (.error (.outOfBounds a)) := by
  rw [readHeld_eq h, im.read_error a n.toNat hout]

/-! ## Two reads in a row -/

/-- Where a read fits, the address behind its first part is not around the address space yet. -/
theorem indexOf_add_word (h : im.size < 2 ^ 63) {a : Address} {n : UInt64} (hin : im.indexOf a + n.toNat ≤ im.size) :
    im.indexOf (a + n) = im.indexOf a + n.toNat ∧ im.behind (a + n) = (im.behind a).drop n.toNat := by
  have hlt : im.indexOf a + n.toNat < 2 ^ 64 := Nat.lt_of_le_of_lt hin (Nat.lt_trans h (by decide))
  have hindex := im.indexOf_add a n.toNat hlt
  have hbehind := im.behind_add a n.toNat hlt
  rw [UInt64.ofNat_toNat] at hindex hbehind
  exact ⟨hindex, hbehind⟩

/-- **A read is two reads, one behind the other**, whenever its length is a word. -/
theorem readHeld_add_iff (h : im.size < 2 ^ 63) {a : Address} {n₁ n₂ : UInt64} (hn : n₁.toNat + n₂.toNat < 2 ^ 64)
    {bytes : ByteArray} :
    im.readHeld a (n₁ + n₂) = .ok (.ok bytes) ↔
      ∃ b₁ b₂, im.readHeld a n₁ = .ok (.ok b₁) ∧ im.readHeld (a + n₁) n₂ = .ok (.ok b₂) ∧ bytes = b₁ ++ b₂ := by
  simp only [readHeld_ok_iff h, toNat_add_of_lt hn]
  constructor
  · rintro ⟨hin, hl⟩
    obtain ⟨hindex, hbehind⟩ := indexOf_add_word h (a := a) (n := n₁) (by omega)
    obtain ⟨b₁, -, hb₁⟩ := im.read_ok a n₁.toNat (by omega)
    obtain ⟨b₂, -, hb₂⟩ := im.read_ok (a + n₁) n₂.toNat (by omega)
    refine ⟨b₁, b₂, ⟨by omega, hb₁⟩, ⟨by omega, hb₂⟩, bytes_ext ?_⟩
    rw [ByteArray.data_append, Array.toList_append, hl, List.take_add, ← hbehind]
    exact congrArg₂ _ hb₁.symm hb₂.symm
  · rintro ⟨b₁, b₂, ⟨hin₁, hb₁⟩, ⟨hin₂, hb₂⟩, rfl⟩
    obtain ⟨hindex, hbehind⟩ := indexOf_add_word h hin₁
    rw [ByteArray.data_append, Array.toList_append, hb₁, hb₂, List.take_add, hbehind]
    exact ⟨by omega, rfl⟩

/-- How far behind the base an address is, around the address space if need be. -/
theorem indexOf_eq (im : Image) (a : Address) :
    (im.indexOf a : Int) = ((a.toNat : Int) - im.base.toNat) % 2 ^ 64 := by
  have ha := a.word.toNat_lt
  have hb := im.base.word.toNat_lt
  unfold indexOf Address.offsetFrom Address.toNat
  rw [UInt64.toNat_sub]
  omega

/-- **Bounded reads are exact, and never break off.**  With the start counted forward from the base, a read gives the
bytes from there on, as many as it asks for, if the data hold them; else it is out of bounds.  Data held in memory and a
mapped file answer alike, and as the image does.  A read whose length is a sum is two reads in a row. -/
theorem reads_bounded (im : Image) (h : im.size < 2 ^ 63) (a : Address) :
    (im.indexOf a : Int) = ((a.toNat : Int) - im.base.toNat) % 2 ^ 64 ∧
    (∀ n : UInt64, im.indexOf a + n.toNat ≤ im.size → ∃ bytes : ByteArray,
      im.readHeld a n = .ok (.ok bytes) ∧ bytes.size = n.toNat ∧
      bytes.data.toList = (im.data.drop (im.indexOf a)).take n.toNat) ∧
    (∀ n : UInt64, im.size < im.indexOf a + n.toNat → im.readHeld a n = .ok (.error (.outOfBounds a))) ∧
    (∀ n : UInt64, im.readMapped a n = im.readHeld a n ∧
      im.readHeld a n = .ok (im.memory.read a n.toNat)) ∧
    ∀ n₁ n₂ : UInt64, n₁.toNat + n₂.toNat < 2 ^ 64 → ∀ bytes, im.readHeld a (n₁ + n₂) = .ok (.ok bytes) ↔
      ∃ b₁ b₂, im.readHeld a n₁ = .ok (.ok b₁) ∧ im.readHeld (a + n₁) n₂ = .ok (.ok b₂) ∧ bytes = b₁ ++ b₂ := by
  refine ⟨im.indexOf_eq a, fun n hin => ?_, fun n => readHeld_error h, fun n => ?_, fun n₁ n₂ hn bytes => ?_⟩
  · obtain ⟨b, hb, hl⟩ := im.read_ok a n.toNat hin
    exact ⟨b, (readHeld_ok_iff h).2 ⟨hin, hl⟩, im.exact_memory a n.toNat b hb, hl⟩
  · exact ⟨(readMapped_eq h a n).trans (readHeld_eq h a n).symm, readHeld_eq h a n⟩
  · exact readHeld_add_iff h hn

/-- Data across the end of the address space: three bytes in one read and in two, the second of them at address zero; no
byte from right behind the data; and as many bytes as a word can ask for. -/
theorem reads_bounded_across_zero :
    (∃ b₁ b₂, (Image.mk ⟨#[1, 2, 3, 4]⟩ ⟨0xfffffffffffffffe⟩).readHeld ⟨0xffffffffffffffff⟩ 1 = .ok (.ok b₁) ∧
      (Image.mk ⟨#[1, 2, 3, 4]⟩ ⟨0xfffffffffffffffe⟩).readHeld ⟨0⟩ 2 = .ok (.ok b₂) ∧ ⟨#[2, 3, 4]⟩ = b₁ ++ b₂) ∧
    (∃ b, (Image.mk ⟨#[1, 2, 3, 4]⟩ ⟨0xfffffffffffffffe⟩).readHeld ⟨2⟩ 0 = .ok (.ok b) ∧ b.size = 0) ∧
    (Image.mk ⟨#[1, 2, 3, 4]⟩ ⟨0xfffffffffffffffe⟩).readHeld ⟨2⟩ 0xffffffffffffffff = .ok (.error (.outOfBounds ⟨2⟩)) := by
  have hsize : (Image.mk ⟨#[1, 2, 3, 4]⟩ ⟨0xfffffffffffffffe⟩).size < 2 ^ 63 := by decide
  obtain ⟨-, -, -, -, hsum⟩ := reads_bounded _ hsize ⟨0xffffffffffffffff⟩
  obtain ⟨-, hexact, hout, -, -⟩ := reads_bounded _ hsize ⟨2⟩
  refine ⟨(hsum 1 2 (by decide) ⟨#[2, 3, 4]⟩).1 rfl, ?_, hout _ (by decide)⟩
  obtain ⟨b, hb, hlen, -⟩ := hexact 0 (by decide)
  exact ⟨b, hb, hlen⟩

end Image
end BranchChain
