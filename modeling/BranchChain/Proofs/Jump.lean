import BranchChain.Branch
import Mathlib.Algebra.Ring.Int.Defs
import Mathlib.Algebra.Ring.Nat
/-!
# Proofs.Jump — the bytes of a branch, both ways

A jump is a branch without its place, whose displacement fits its form.  Its bytes give it back: the displacement read
from them is the one written (`rel8_encode`, `rel32_encode`), and every complete branch in data is the encoding of one
jump (`Jump.encode_ofByte`, `Jump.encode_ofBytes`).
-/
namespace BranchChain

/-! ## Displacements -/

/-- **Sign extension undoes a truncation** that keeps the value in range. -/
theorem signExtend_setWidth (x : BitVec 64) {w : Nat} (hw : w < 64) (h1 : -(1 <<< w : Nat) ≤ x.toInt)
    (h2 : x.toInt < (1 <<< w : Nat)) : (x.setWidth (w + 1)).signExtend 64 = x := by
  rw [Nat.one_shiftLeft] at h1 h2
  apply BitVec.eq_of_toInt_eq
  have hdvd : 2 ^ (w + 1) ∣ 2 ^ 64 := Nat.pow_dvd_pow 2 hw
  rw [BitVec.toInt_signExtend_of_le hw, BitVec.toInt_setWidth, ← Int.bmod_bmod_of_dvd hdvd, ← BitVec.toInt_eq_toNat_bmod]
  apply Int.bmod_eq_of_le
  · rw [Nat.pow_succ]
    push_cast at h1 ⊢
    omega
  · rw [Nat.pow_succ]
    push_cast at h2 ⊢
    omega

/-- Four bytes as a word, low byte first. -/
def word32 (b0 b1 b2 b3 : UInt8) : UInt32 :=
  b0.toUInt32 ||| b1.toUInt32 <<< 8 ||| b2.toUInt32 <<< 16 ||| b3.toUInt32 <<< 24

theorem rel32_eq (b0 b1 b2 b3 : UInt8) : rel32 b0 b1 b2 b3 = (word32 b0 b1 b2 b3).toInt32.toInt64 := rfl

theorem toBitVec_word32 (b0 b1 b2 b3 : UInt8) :
    (word32 b0 b1 b2 b3).toBitVec = b3.toBitVec ++ b2.toBitVec ++ b1.toBitVec ++ b0.toBitVec := by
  apply BitVec.eq_of_getLsbD_eq
  intro i hi
  simp only [BitVec.getLsbD_append]
  simp [word32]
  grind

theorem word32_bytes (w : UInt64) :
    word32 w.toUInt8 (w >>> 8).toUInt8 (w >>> 16).toUInt8 (w >>> 24).toUInt8 = w.toUInt32 := by
  apply UInt32.toBitVec_inj.1
  rw [toBitVec_word32]
  apply BitVec.eq_of_getLsbD_eq
  intro i hi
  simp only [BitVec.getLsbD_append]
  simp
  grind

theorem bytes_of_word32 (b0 b1 b2 b3 : UInt8) (w : UInt64) (h : w.toUInt32 = word32 b0 b1 b2 b3) :
    [w.toUInt8, (w >>> 8).toUInt8, (w >>> 16).toUInt8, (w >>> 24).toUInt8] = [b0, b1, b2, b3] := by
  have hbit : ∀ i, i < 32 → w.toBitVec.getLsbD i =
      (b3.toBitVec ++ b2.toBitVec ++ b1.toBitVec ++ b0.toBitVec).getLsbD i := by
    intro i hi
    rw [← toBitVec_word32, ← h]
    simp [hi]
  simp only [BitVec.getLsbD_append] at hbit
  simp only [List.cons.injEq, ← UInt8.toBitVec_inj, and_true]
  refine ⟨?_, ?_, ?_, ?_⟩ <;> apply BitVec.eq_of_getLsbD_eq <;> intro i hi
  · have := hbit i (by omega)
    simp
    grind
  · have := hbit (i + 8) (by omega)
    simp
    grind
  · have := hbit (i + 16) (by omega)
    simp
    grind
  · have := hbit (i + 24) (by omega)
    simp
    grind

theorem rel8_encode (d : Int64) (h : Form.short.Fits d) : rel8 d.toUInt64.toUInt8 = d := by
  apply Int64.toBitVec_inj.1
  exact signExtend_setWidth d.toBitVec (w := 7) (by decide) h.1 h.2

theorem rel32_encode (d : Int64) (h : Form.near.Fits d) :
    rel32 d.toUInt64.toUInt8 (d.toUInt64 >>> 8).toUInt8 (d.toUInt64 >>> 16).toUInt8 (d.toUInt64 >>> 24).toUInt8 = d := by
  rw [rel32_eq, word32_bytes]
  apply Int64.toBitVec_inj.1
  exact signExtend_setWidth d.toBitVec (w := 31) (by decide) h.1 h.2

theorem fits_rel8 (b : UInt8) : Form.short.Fits (rel8 b) := by
  unfold Form.Fits rel8
  rw [Int8.toInt_toInt64]
  exact ⟨b.toInt8.le_toInt, b.toInt8.toInt_lt⟩

theorem fits_rel32 (b0 b1 b2 b3 : UInt8) : Form.near.Fits (rel32 b0 b1 b2 b3) := by
  unfold Form.Fits
  rw [rel32_eq, Int32.toInt_toInt64]
  exact ⟨(word32 b0 b1 b2 b3).toInt32.le_toInt, (word32 b0 b1 b2 b3).toInt32.toInt_lt⟩

/-! ## Jumps -/

/-- **A branch without its place**: a form and a displacement it can hold. -/
structure Jump where
  form : Form
  displacement : Int64
  fits : form.Fits displacement
  deriving DecidableEq, Repr

namespace Jump

def length (j : Jump) : Nat := j.form.length

def encode (j : Jump) : List UInt8 := j.form.encode j.displacement

def placed (j : Jump) (a : Address) : Branch := ⟨a, j.form, j.displacement⟩

def ofByte (b : UInt8) : Jump := ⟨.short, rel8 b, fits_rel8 b⟩

def ofBytes (b0 b1 b2 b3 : UInt8) : Jump := ⟨.near, rel32 b0 b1 b2 b3, fits_rel32 b0 b1 b2 b3⟩

theorem placed_injective {i j : Jump} {a : Address} (h : i.placed a = j.placed a) : i = j := by
  obtain ⟨form, d, hi⟩ := i
  cases h
  rfl

theorem length_encode (j : Jump) : j.encode.length = j.length := Form.length_encode _ _

theorem length_pos (j : Jump) : 0 < j.length := by
  unfold length
  cases j.form <;> decide

theorem encode_ofByte (b : UInt8) : (ofByte b).encode = [jneShort, b] := by
  have hb : (rel8 b).toUInt64.toUInt8 = b := by
    apply UInt8.toBitVec_inj.1
    show (b.toBitVec.signExtend 64).setWidth 8 = b.toBitVec
    apply BitVec.eq_of_getLsbD_eq
    intro i hi
    simp
    grind
  show [jneShort, (rel8 b).toUInt64.toUInt8] = _
  rw [hb]

theorem encode_ofBytes (b0 b1 b2 b3 : UInt8) :
    (ofBytes b0 b1 b2 b3).encode = [escape, jneNear, b0, b1, b2, b3] := by
  have hw : (rel32 b0 b1 b2 b3).toUInt64.toUInt32 = word32 b0 b1 b2 b3 := by
    rw [rel32_eq]
    apply UInt32.toBitVec_inj.1
    show ((word32 b0 b1 b2 b3).toBitVec.signExtend 64).setWidth 32 = (word32 b0 b1 b2 b3).toBitVec
    apply BitVec.eq_of_getLsbD_eq
    intro i hi
    simp
    grind
  have hb := bytes_of_word32 b0 b1 b2 b3 _ hw
  exact congrArg (fun bytes => escape :: jneNear :: bytes) hb

theorem eq_ofByte_or_ofBytes (j : Jump) : (∃ b, j = ofByte b) ∨ ∃ b0 b1 b2 b3, j = ofBytes b0 b1 b2 b3 := by
  obtain ⟨form, d, h⟩ := j
  cases form with
  | short =>
    refine .inl ⟨d.toUInt64.toUInt8, ?_⟩
    rw [ofByte, mk.injEq]
    exact ⟨rfl, (rel8_encode d h).symm⟩
  | near =>
    let w := d.toUInt64
    refine .inr ⟨w.toUInt8, (w >>> 8).toUInt8, (w >>> 16).toUInt8, (w >>> 24).toUInt8, ?_⟩
    rw [ofBytes, mk.injEq]
    exact ⟨rfl, (rel32_encode d h).symm⟩

/-! ## Rows of jumps -/

/-- The bytes of jumps, one behind the other. -/
def encodeAll (js : List Jump) : List UInt8 := js.flatMap encode

/-- **How many bytes jumps take**, one behind the other. -/
def total : List Jump → Nat
  | [] => 0
  | j :: js => j.length + total js

theorem encodeAll_cons (j : Jump) (js : List Jump) : encodeAll (j :: js) = j.encode ++ encodeAll js := rfl

theorem total_cons (j : Jump) (js : List Jump) : total (j :: js) = j.length + total js := rfl

theorem total_append : ∀ js ks : List Jump, total (js ++ ks) = total js + total ks
  | [], ks => (Nat.zero_add _).symm
  | j :: js, ks => by rw [List.cons_append, total_cons, total_cons, total_append js ks, Nat.add_assoc]

theorem total_take_le (n : Nat) (js : List Jump) : total (js.take n) ≤ total js := by
  have h := total_append (js.take n) (js.drop n)
  rw [List.take_append_drop] at h
  omega

theorem length_encodeAll : ∀ js : List Jump, (encodeAll js).length = total js
  | [] => rfl
  | j :: js => by rw [encodeAll_cons, List.length_append, length_encode, length_encodeAll js, total_cons]

/-- The jump that holds a byte of a row. -/
theorem exists_at : ∀ (x : Nat) (js : List Jump), x < total js →
    ∃ before j after, js = before ++ j :: after ∧ total before ≤ x ∧ x < total before + j.length
  | x, [], h => absurd h (Nat.not_lt_zero x)
  | x, j :: js, h => by
    rw [total_cons] at h
    rcases Nat.lt_or_ge x j.length with hlt | hge
    · exact ⟨[], j, js, rfl, Nat.zero_le x, by rw [total, Nat.zero_add]; exact hlt⟩
    · obtain ⟨before, i, after, rfl, hle, hlt⟩ := exists_at (x - j.length) js (by omega)
      refine ⟨j :: before, i, after, rfl, ?_, ?_⟩ <;> rw [total_cons] <;> omega

end Jump
end BranchChain
