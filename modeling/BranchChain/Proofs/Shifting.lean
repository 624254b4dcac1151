import BranchChain.Proofs.Encoding
import BranchChain.Slot
/-!
# Proofs.Shifting — steps around the address space

Lengths and displacements move an address around one circle: each step adds its number, modulo the size of the space.  So
displacements act on addresses, and one displacement leads from any address to any other, their distance.  The distance
back has the opposite number, except halfway around, where there is no such displacement
(`Address.toInt_distance_eq_neg_iff`).  A slot keeps a distance in place of its branch's address, and with the entry at
hand the branch comes back (`Slot.branch_ofBranch`).
-/
namespace BranchChain
namespace Address

/-! ## Steps as numbers -/

theorem toNat_add (a : Address) (n : UInt64) : (a + n).toNat = (a.toNat + n.toNat) % 2 ^ 64 := UInt64.toNat_add a.word n

theorem toNat_shift (a : Address) (d : Int64) : ((a.shift d).toNat : Int) = (a.toNat + d.toInt) % 2 ^ 64 := by
  have hsum : (a.shift d).toNat = (a.toNat + d.toUInt64.toNat) % 2 ^ 64 := UInt64.toNat_add a.word d.toUInt64
  have hd := toNat_toUInt64 d
  omega

theorem toInt_distance (a b : Address) : (a.distance b).toInt = ((a.toNat : Int) - b.toNat).bmod (2 ^ 64) := by
  have hb : b.toNat < 2 ^ 64 := b.word.toNat_lt
  have hsub : (a.word - b.word).toNat = (2 ^ 64 - b.toNat + a.toNat) % 2 ^ 64 := UInt64.toNat_sub a.word b.word
  have hdiff : ((a.word - b.word).toNat : Int) = ((a.toNat : Int) - b.toNat) % 2 ^ 64 := by omega
  have hword : (a.distance b).toInt = ((a.word - b.word).toNat : Int).bmod (2 ^ 64) :=
    BitVec.toInt_eq_toNat_bmod (a.word - b.word).toBitVec
  rw [hword, hdiff]
  exact Int.emod_bmod _ _

/-! ## Displacements act -/

theorem shift_zero (a : Address) : a.shift 0 = a := by
  simp [shift, show Int64.toUInt64 0 = 0 from rfl]

theorem shift_shift (a : Address) (d e : Int64) : (a.shift d).shift e = a.shift (d + e) := by
  simp [shift, UInt64.add_assoc]

theorem distance_shift (a : Address) (d : Int64) : (a.shift d).distance a = d := by
  simp [shift, distance, UInt64.add_comm a.word]

theorem add_sub_cancel (a : Address) (n : UInt64) : a + n - n = a :=
  congrArg Address.mk (UInt64.add_sub_cancel a.word n)

/-! ## The shorter way round -/

/-- **Half the space apart**, so that both ways round are equally long. -/
def Opposite (a b : Address) : Prop := a.toNat = b.toNat + 2 ^ 63 ∨ b.toNat = a.toNat + 2 ^ 63

theorem distance_eq_minValue_iff {a b : Address} : a.distance b = Int64.minValue ↔ Opposite a b := by
  have ha : a.toNat < 2 ^ 64 := a.word.toNat_lt
  have hb : b.toNat < 2 ^ 64 := b.word.toNat_lt
  rw [← Int64.toInt_inj, toInt_distance, Int64.toInt_minValue, Opposite, Int.bmod_def]
  split <;> omega

theorem toInt_distance_eq_neg_iff {a b : Address} :
    (a.distance b).toInt = -(b.distance a).toInt ↔ ¬ Opposite a b := by
  have ha : a.toNat < 2 ^ 64 := a.word.toNat_lt
  have hb : b.toNat < 2 ^ 64 := b.word.toNat_lt
  rw [toInt_distance, toInt_distance, Opposite, Int.bmod_def, Int.bmod_def]
  split <;> split <;> omega

example : distance ⟨0⟩ ⟨0x8000000000000000⟩ = Int64.minValue ∧ distance ⟨0x8000000000000000⟩ ⟨0⟩ = Int64.minValue ∧
    distance ⟨0x10⟩ ⟨0xfffffffffffffff0⟩ = 0x20 := ⟨rfl, rfl, rfl⟩

end Address

/-! ## Slots and branches -/

namespace Slot

/-- **The branch of a slot**, in the function that starts at `entry`. -/
def branch (s : Slot) (entry : Address) : Branch := ⟨entry + s.siteOffset, s.form, s.displacement⟩

theorem branch_ofBranch (index : Nat) (entry : Address) (b : Branch) : (ofBranch index entry b).branch entry = b := by
  rw [branch, address_eq]
  rfl

theorem ofBranch_inj {i j : Nat} {entry : Address} {b c : Branch} :
    ofBranch i entry b = ofBranch j entry c ↔ i = j ∧ b = c := by
  constructor
  · intro h
    -- both slots lead back to their branches from the one entry
    have hbranch := congrArg (fun s : Slot => s.branch entry) h
    rw [branch_ofBranch, branch_ofBranch] at hbranch
    exact ⟨congrArg Slot.index h, hbranch⟩
  · rintro ⟨rfl, rfl⟩
    rfl

theorem toNat_target (index : Nat) (entry : Address) (b : Branch) :
    ((ofBranch index entry b).target.toNat : Int) =
      (entry.toNat + (ofBranch index entry b).siteOffset.toNat + b.length + b.displacement.toInt) % 2 ^ 64 := by
  have hsite := Address.toNat_add entry (ofBranch index entry b).siteOffset
  have htarget : ((ofBranch index entry b).target.toNat : Int) =
    (b.address.toNat + b.length + b.displacement.toInt) % 2 ^ 64 := b.toNat_target
  rw [address_eq] at hsite
  omega

end Slot

/-- **All steps belong to one action, and slots keep their branches.**  A displacement adds its number around the address
space: zero stays, one after another is their sum, and the distance gone is the displacement itself.  A length is the
displacement with the same word, and is undone by its difference.  The difference of two addresses is their distance, which
leads from the second to the first the shorter way round.  The distance back has the opposite number unless they are half
the space apart, and just then both are the lowest displacement.  A slot stands behind the entry as far as its branch does,
with the target counted from its end, so the entry and the slot tell the branch. -/
theorem Address.steps_agree :
    (∀ (a : Address) (d e : Int64), ((a.shift d).toNat : Int) = (a.toNat + d.toInt) % 2 ^ 64 ∧
      a.shift 0 = a ∧ (a.shift d).shift e = a.shift (d + e) ∧ (a.shift d).distance a = d) ∧
    (∀ (a : Address) (n : UInt64), (a + n).toNat = (a.toNat + n.toNat) % 2 ^ 64 ∧
      a.shift n.toInt64 = a + n ∧ a + n - n = a) ∧
    (∀ a b : Address, (a.distance b).toInt = ((a.toNat : Int) - b.toNat).bmod (2 ^ 64) ∧
      a - b = a.distance b ∧ a.shift (b.distance a) = b ∧
      ((a.distance b).toInt = -(b.distance a).toInt ↔ ¬ Opposite a b) ∧
      (Opposite a b ↔ a.distance b = Int64.minValue ∧ b.distance a = Int64.minValue)) ∧
    ∀ (index : Nat) (entry : Address) (b : Branch),
      entry + (Slot.ofBranch index entry b).siteOffset = b.address ∧
      ((Slot.ofBranch index entry b).target.toNat : Int) =
        (entry.toNat + (Slot.ofBranch index entry b).siteOffset.toNat + b.form.length + b.displacement.toInt) % 2 ^ 64 ∧
      (Slot.ofBranch index entry b).branch entry = b ∧
      ∀ i c, Slot.ofBranch i entry c = Slot.ofBranch index entry b ↔ i = index ∧ c = b := by
  refine ⟨fun a d e => ⟨a.toNat_shift d, a.shift_zero, a.shift_shift d e, a.distance_shift d⟩,
    fun a n => ⟨a.toNat_add n, rfl, a.add_sub_cancel n⟩,
    fun a b => ⟨a.toInt_distance b, rfl, a.shift_sub b, toInt_distance_eq_neg_iff, ?_⟩,
    fun index entry b => ⟨Slot.address_eq index entry b, Slot.toNat_target index entry b,
      Slot.branch_ofBranch index entry b, fun i c => Slot.ofBranch_inj⟩⟩
  rw [distance_eq_minValue_iff, distance_eq_minValue_iff]
  exact ⟨fun h => ⟨h, Or.symm h⟩, fun h => h.1⟩

end BranchChain
