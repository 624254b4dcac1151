import BranchChain.Object.Bytes
import BranchChain.Proofs.Decoding
/-!
# Proofs.Encoding — the bytes a decoder accepts

A branch is written in two ways, and the bytes after its opcode are a number, low byte first, read as signed
(`Written`).  These are the encodings of the jumps (`written_iff`), so a decoder over an image accepts what begins with
one of them, gives back what is written, and tells what else it finds (`Image.branchAt_inverts_written`).
-/
namespace BranchChain

open Object.Source (littleEndian)

/-! ## Numbers -/

theorem toInt_rel8 (c : UInt8) : (rel8 c).toInt = (littleEndian [c] : Int).bmod (2 ^ 8) := by
  rw [rel8, Int8.toInt_toInt64]
  exact BitVec.toInt_eq_toNat_bmod c.toBitVec

theorem toNat_word32 (c0 c1 c2 c3 : UInt8) : (word32 c0 c1 c2 c3).toNat = littleEndian [c0, c1, c2, c3] := by
  show (word32 c0 c1 c2 c3).toBitVec.toNat = _
  rw [toBitVec_word32]
  simp only [BitVec.toNat_append, UInt8.toNat_toBitVec]
  have h0 := c0.toNat_lt
  have h1 := c1.toNat_lt
  have h2 := c2.toNat_lt
  rw [← Nat.shiftLeft_add_eq_or_of_lt h2, ← Nat.shiftLeft_add_eq_or_of_lt h1, ← Nat.shiftLeft_add_eq_or_of_lt h0]
  simp only [Nat.shiftLeft_eq, littleEndian]
  omega

theorem toInt_rel32 (c0 c1 c2 c3 : UInt8) :
    (rel32 c0 c1 c2 c3).toInt = (littleEndian [c0, c1, c2, c3] : Int).bmod (2 ^ 32) := by
  rw [rel32_eq, Int32.toInt_toInt64, ← toNat_word32]
  exact BitVec.toInt_eq_toNat_bmod (word32 c0 c1 c2 c3).toBitVec

theorem toNat_toUInt64 (d : Int64) : (d.toUInt64.toNat : Int) = d.toInt % 2 ^ 64 := by
  have hd : d.toInt = (d.toUInt64.toNat : Int).bmod (2 ^ 64) := BitVec.toInt_eq_toNat_bmod d.toBitVec
  have hmod : (d.toUInt64.toNat : Int).bmod (2 ^ 64) % 2 ^ 64 = d.toUInt64.toNat % 2 ^ 64 := Int.bmod_emod
  have hlt := d.toUInt64.toNat_lt
  rw [hd, hmod]
  omega

/-- **A target is counted from the end of the branch**, around the address space if need be. -/
theorem Branch.toNat_target (b : Branch) :
    (b.target.toNat : Int) = (b.address.toNat + b.length + b.displacement.toInt) % 2 ^ 64 := by
  have hd := toNat_toUInt64 b.displacement
  have htarget : b.target.toNat =
      ((b.address.toNat + b.length % 2 ^ 64) % 2 ^ 64 + b.displacement.toUInt64.toNat) % 2 ^ 64 := by
    rw [← UInt64.toNat_ofNat']
    rfl
  rw [htarget]
  push_cast
  rw [hd]
  omega

/-! ## Written branches -/

/-- **The two ways to write a branch**, with its form and the displacement its bytes stand for. -/
inductive Written : List UInt8 → Form → Int → Prop where
  | short (c : UInt8) : Written [0x75, c] .short ((littleEndian [c] : Int).bmod (2 ^ 8))
  | near (c0 c1 c2 c3 : UInt8) :
    Written [0x0f, 0x85, c0, c1, c2, c3] .near ((littleEndian [c0, c1, c2, c3] : Int).bmod (2 ^ 32))

theorem Jump.written_encode (j : Jump) : Written j.encode j.form j.displacement.toInt := by
  obtain ⟨c, rfl⟩ | ⟨c0, c1, c2, c3, rfl⟩ := j.eq_ofByte_or_ofBytes
  · rw [encode_ofByte, show (ofByte c).displacement = rel8 c from rfl, toInt_rel8]
    exact .short c
  · rw [encode_ofBytes, show (ofBytes c0 c1 c2 c3).displacement = rel32 c0 c1 c2 c3 from rfl, toInt_rel32]
    exact .near c0 c1 c2 c3

/-- **What is written is the encoding of a jump.** -/
theorem written_iff {bytes : List UInt8} {f : Form} {d : Int} :
    Written bytes f d ↔ ∃ j : Jump, j.encode = bytes ∧ j.form = f ∧ j.displacement.toInt = d := by
  constructor
  · rintro (c | ⟨c0, c1, c2, c3⟩)
    · exact ⟨.ofByte c, Jump.encode_ofByte c, rfl, toInt_rel8 c⟩
    · exact ⟨.ofBytes c0 c1 c2 c3, Jump.encode_ofBytes c0 c1 c2 c3, rfl, toInt_rel32 c0 c1 c2 c3⟩
  · rintro ⟨j, rfl, rfl, rfl⟩
    exact j.written_encode

/-! ## Data that fall short -/

/-- **Data end inside a branch** if they are less than something written. -/
theorem endsInside_iff {data : List UInt8} :
    EndsInside data ↔ ∃ bytes f d, Written bytes f d ∧ data <+: bytes ∧ data ≠ bytes := by
  constructor
  · intro h
    cases h with
    | nothing => exact ⟨_, _, _, .short 0, List.nil_prefix, by decide⟩
    | afterShort => exact ⟨_, _, _, .short 0, ⟨[0], rfl⟩, by decide⟩
    | afterEscape => exact ⟨_, _, _, .near 0 0 0 0, ⟨[0x85, 0, 0, 0, 0], rfl⟩, by decide⟩
    | @afterNear bytes h =>
      match bytes with
      | [] => exact ⟨_, _, _, .near 0 0 0 0, ⟨[0, 0, 0, 0], rfl⟩, by decide⟩
      | [c0] => exact ⟨_, _, _, .near c0 0 0 0, ⟨[0, 0, 0], rfl⟩, by simp⟩
      | [c0, c1] => exact ⟨_, _, _, .near c0 c1 0 0, ⟨[0, 0], rfl⟩, by simp⟩
      | [c0, c1, c2] => exact ⟨_, _, _, .near c0 c1 c2 0, ⟨[0], rfl⟩, by simp⟩
      | _ :: _ :: _ :: _ :: _ => exact absurd h (by simp)
  · rintro ⟨bytes, f, d, hw, hpre, hne⟩
    have hlt : data.length < bytes.length :=
      Nat.lt_of_le_of_ne hpre.length_le fun hlen => hne (hpre.eq_of_length hlen)
    -- the data are what is written, cut at a length of which only the first two values are told apart
    rw [List.prefix_iff_eq_take.1 hpre]
    generalize data.length = n at hlt
    cases hw with
    | short c =>
      match n with
      | 0 => exact .nothing
      | 1 => exact .afterShort
      | n + 2 => exact absurd hlt (by simp)
    | near c0 c1 c2 c3 =>
      match n with
      | 0 => exact .nothing
      | 1 => exact .afterEscape
      | n + 2 =>
        refine .afterNear ?_
        rw [List.length_take]
        simp only [List.length_cons, List.length_nil] at hlt ⊢
        omega

theorem noBranch_iff {a : Address} {data : List UInt8} {e : DecodeError} :
    NoBranch a data e ↔
      (∃ b rest, data = b :: rest ∧ b ≠ 0x75 ∧ b ≠ 0x0f ∧ e = .unknownOpcode [b]) ∨
      (∃ b rest, data = 0x0f :: b :: rest ∧ b ≠ 0x85 ∧ e = .unknownOpcode [0x0f, b]) ∨
      (∃ bytes f d, Written bytes f d ∧ data <+: bytes ∧ data ≠ bytes) ∧ e = .memory (.outOfBounds a) := by
  rw [← endsInside_iff]
  constructor
  · rintro (⟨hs, he⟩ | hn | h)
    · exact .inl ⟨_, _, rfl, hs, he, rfl⟩
    · exact .inr (.inl ⟨_, _, rfl, hn, rfl⟩)
    · exact .inr (.inr ⟨h, rfl⟩)
  · rintro (⟨b, rest, rfl, hs, he, rfl⟩ | ⟨b, rest, rfl, hn, rfl⟩ | ⟨h, rfl⟩)
    · exact .opcode hs he
    · exact .secondOpcode hn
    · exact .ended h

/-! ## Decoders -/

namespace Image

variable {im : Image} {a : Address}

theorem branchAt_of_written {bytes : List UInt8} {f : Form} {d : Int} (hw : Written bytes f d)
    (h : bytes <+: im.behind a) :
    ∃ j : Jump, j.encode = bytes ∧ j.form = f ∧ j.displacement.toInt = d ∧ im.memory.branchAt a = .ok (j.placed a) := by
  obtain ⟨j, rfl, rfl, rfl⟩ := written_iff.1 hw
  obtain ⟨rest, h⟩ := h
  exact ⟨j, rfl, rfl, rfl, branchAt_of_jump h.symm⟩

/-- **The decoder over an image accepts what is written, and inverts it.**  There is a branch exactly where the data
begin with one that is written; it has the form and the displacement of its bytes, and is encoded as them.  All
displacements of a form are decoded from their encodings.  Elsewhere one byte or two tell of another instruction, or
the data are less than something written. -/
theorem branchAt_inverts_written (im : Image) (a : Address) :
    ((∃ b, im.memory.branchAt a = .ok b) ↔ ∃ bytes f d, Written bytes f d ∧ bytes <+: im.behind a) ∧
    (∀ b bytes f d, im.memory.branchAt a = .ok b → Written bytes f d → bytes <+: im.behind a →
      b.address = a ∧ b.form = f ∧ b.displacement.toInt = d ∧
      (f = .short ∧ b.length = 2 ∨ f = .near ∧ b.length = 6) ∧
      (b.target.toNat : Int) = (a.toNat + b.length + d) % 2 ^ 64 ∧
      b.form.encode b.displacement = (im.behind a).take b.length) ∧
    (∀ (f : Form) d rest, -2 ^ (f.bits - 1) ≤ d.toInt → d.toInt < 2 ^ (f.bits - 1) → im.behind a = f.encode d ++ rest →
      Written (f.encode d) f d.toInt ∧ im.memory.branchAt a = .ok ⟨a, f, d⟩) ∧
    ∀ h, im.memory.branchAt a = .error h ↔ ∃ e, h = .fail e ∧
      ((∃ b rest, im.behind a = b :: rest ∧ b ≠ 0x75 ∧ b ≠ 0x0f ∧ e = .unknownOpcode [b]) ∨
      (∃ b rest, im.behind a = 0x0f :: b :: rest ∧ b ≠ 0x85 ∧ e = .unknownOpcode [0x0f, b]) ∨
      (∃ bytes f d, Written bytes f d ∧ im.behind a <+: bytes ∧ im.behind a ≠ bytes) ∧
        e = .memory (.outOfBounds a)) := by
  refine ⟨⟨?_, ?_⟩, ?_, ?_, fun h => ?_⟩
  · rintro ⟨b, hb⟩
    obtain ⟨j, rest, hj, -⟩ := branchAt_ok_iff.1 hb
    exact ⟨_, _, _, j.written_encode, rest, hj.symm⟩
  · rintro ⟨bytes, f, d, hw, hpre⟩
    obtain ⟨j, -, -, -, hj⟩ := branchAt_of_written hw hpre
    exact ⟨_, hj⟩
  · intro b bytes f d hb hw hpre
    obtain ⟨j, rfl, rfl, rfl, hj⟩ := branchAt_of_written hw hpre
    rw [hj, Except.ok.injEq] at hb
    subst hb
    refine ⟨rfl, rfl, rfl, ?_, (j.placed a).toNat_target, ?_⟩
    · show _ ∧ j.form.length = 2 ∨ _ ∧ j.form.length = 6
      cases j.form with
      | short => exact .inl ⟨rfl, rfl⟩
      | near => exact .inr ⟨rfl, rfl⟩
    · have htake := List.prefix_iff_eq_take.1 hpre
      rw [j.length_encode] at htake
      exact htake
  · intro f d rest hlow hhigh h
    have hfits : f.Fits d := by
      unfold Form.Fits Form.bound
      rw [Nat.one_shiftLeft]
      push_cast
      exact ⟨hlow, hhigh⟩
    exact ⟨(Jump.mk f d hfits).written_encode, branchAt_of_jump (j := ⟨f, d, hfits⟩) h⟩
  · simp only [branchAt_error_iff, noBranch_iff, and_comm]

/-- The lowest displacements of both forms, one of them to a target below zero, and data that end behind a second
opcode byte. -/
theorem branchAt_inverts_written_lowest :
    (∃ b, (Image.mk ⟨#[0x75, 0x80, 0x0f, 0x85]⟩ ⟨0x10⟩).memory.branchAt ⟨0x10⟩ = .ok b ∧ b.displacement.toInt = -128 ∧
      (b.target.toNat : Int) = 2 ^ 64 - 110) ∧
    (Image.mk ⟨#[0x0f, 0x85, 0x00, 0x00, 0x00, 0x80, 0x90]⟩ ⟨0x10⟩).memory.branchAt ⟨0x10⟩ =
      .ok ⟨⟨0x10⟩, .near, -2147483648⟩ ∧
    (Image.mk ⟨#[0x75, 0x80, 0x0f, 0x85]⟩ ⟨0x10⟩).memory.branchAt ⟨0x12⟩ =
      .error (.fail (.memory (.outOfBounds ⟨0x12⟩))) := by
  obtain ⟨hexists, hgives, -⟩ := branchAt_inverts_written ⟨⟨#[0x75, 0x80, 0x0f, 0x85]⟩, ⟨0x10⟩⟩ ⟨0x10⟩
  obtain ⟨-, -, hdecodes, -⟩ := branchAt_inverts_written ⟨⟨#[0x0f, 0x85, 0x00, 0x00, 0x00, 0x80, 0x90]⟩, ⟨0x10⟩⟩ ⟨0x10⟩
  obtain ⟨-, -, -, hfails⟩ := branchAt_inverts_written ⟨⟨#[0x75, 0x80, 0x0f, 0x85]⟩, ⟨0x10⟩⟩ ⟨0x12⟩
  have hvalue : (littleEndian [0x80] : Int).bmod (2 ^ 8) = -128 := by decide
  have hw : Written [0x75, 0x80] .short (-128) := hvalue ▸ .short 0x80
  refine ⟨?_, (hdecodes .near (-2147483648) [0x90] (by decide) (by decide) rfl).2, ?_⟩
  · obtain ⟨b, hb⟩ := hexists.2 ⟨_, _, _, hw, [0x0f, 0x85], rfl⟩
    obtain ⟨-, -, hd, ⟨-, hlen⟩ | ⟨hform, -⟩, htarget, -⟩ := hgives b _ _ _ hb hw ⟨[0x0f, 0x85], rfl⟩
    · rw [hlen] at htarget
      exact ⟨b, hb, hd, htarget⟩
    · cases hform
  · exact (hfails _).2 ⟨_, rfl, .inr (.inr ⟨⟨_, _, _, .near 0 0 0 0, ⟨[0, 0, 0, 0], rfl⟩, by decide⟩, rfl⟩)⟩

end Image
end BranchChain
