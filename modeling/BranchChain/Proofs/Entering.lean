import BranchChain.Proofs.Recovering
/-!
# Proofs.Entering — walks that start further on

A walk that starts between the entry and the anchor meets the same anchor and decodes the same branches.  What is
counted from the entry shrinks by what was skipped; what is an address stays (`Recipe.tableOf_later`).
-/
namespace BranchChain

/-- **A slot seen from an entry further on**: only the way to the branch is shorter. -/
def Slot.seenFrom (d : UInt64) (s : Slot) : Slot := { s with siteOffset := s.siteOffset - d }

theorem Slot.ofBranch_later (index : Nat) (entry : Address) (d : UInt64) (b : Branch) :
    ofBranch index (entry + d) b = (ofBranch index entry b).seenFrom d := by
  have hsite : (b.address - (entry + d)).toUInt64 = (b.address - entry).toUInt64 - d :=
    Address.offsetFrom_base_add b.address entry d
  show Slot.mk index b.target (b.address - (entry + d)).toUInt64 b.form b.displacement = _
  rw [hsite]
  rfl

theorem Jump.slots_later (entry : Address) (i : Nat) : ∀ (index offset : Nat) (js : List Jump),
    slots (entry + UInt64.ofNat i) index offset js =
      (slots entry index (i + offset) js).map (Slot.seenFrom (UInt64.ofNat i))
  | _, _, [] => rfl
  | index, offset, j :: js => by
    rw [slots, Address.add_ofNat_add, Slot.ofBranch_later, slots_later entry i, slots, List.map_cons, Nat.add_assoc]

namespace Recipe

variable {r : Recipe} {m : Memory} {entry : Address}

theorem Meets.later {i k : Nat} (h : r.Meets m entry (i + k)) : r.Meets m (entry + UInt64.ofNat i) k where
  lt_limit := Nat.lt_of_le_of_lt (Nat.le_add_left k i) h.lt_limit
  missed j hj := by
    rw [Address.add_ofNat_add]
    exact h.missed (i + j) (Nat.add_lt_add_left hj i)
  found := by
    rw [Address.add_ofNat_add]
    exact h.found

theorem tableOf_later (r : Recipe) (entry : Address) (i k : Nat) (js : List Jump) :
    r.tableOf (entry + UInt64.ofNat i) k js =
      ⟨entry + UInt64.ofNat i, (r.tableOf entry (i + k) js).preambleOffset - UInt64.ofNat i,
        (r.tableOf entry (i + k) js).slots.map (Slot.seenFrom (UInt64.ofNat i))⟩ := by
  have hk : UInt64.ofNat (i + k) - UInt64.ofNat i = UInt64.ofNat k := by
    rw [UInt64.ofNat_add, UInt64.add_comm, UInt64.add_sub_cancel]
  simp only [tableOf, Jump.slots_later, hk, Nat.add_assoc]

/-- **Where before the anchor the walk starts does not matter to what it finds.**  From every start up to the anchor
there is a table, of the same branches to the same targets; the offsets lose what was skipped. -/
theorem build_later (r : Recipe) (m : Memory) (entry : Address) (t : Table) (h : r.build m entry = .ok t) (d : UInt64)
    (hd : d ≤ t.preambleOffset) :
    r.build m (entry + d) = .ok ⟨entry + d, t.preambleOffset - d, t.slots.map (Slot.seenFrom d)⟩ := by
  obtain ⟨i, hi, rfl⟩ : ∃ i, i < 2 ^ 64 ∧ d = UInt64.ofNat i :=
    ⟨d.toNat, UInt64.toNat_lt d, UInt64.ofNat_toNat.symm⟩
  cases build_eq_iff.1 h with
  | @complete k js met fits decodes all =>
    -- the table keeps only the remainder of the anchor's place, which is no larger than the place
    have hle : i ≤ k := by
      have hmod := Nat.mod_le k (2 ^ 64)
      rw [UInt64.le_iff_toNat_le, UInt64.toNat_ofNat_of_lt' hi] at hd
      exact Nat.le_trans hd hmod
    obtain ⟨k, rfl⟩ := Nat.exists_eq_add_of_le hle
    rw [Nat.add_assoc, ← Address.add_ofNat_add] at decodes
    rw [← tableOf_later]
    exact build_of_ends (.complete met.later fits decodes all)

/-- A walk that starts right at the anchor, behind the end of the address space, where the first one starts before it. -/
theorem build_later_across_zero :
    (Recipe.mk ⟨[0xcc], none⟩ 5 1).build (Image.mk ⟨#[0x90, 0x90, 0xcc, 0x75, 0xf0]⟩ ⟨0xfffffffffffffffe⟩).memory
        (Address.mk 0xfffffffffffffffe + (2 : UInt64)) = .ok ⟨⟨0⟩, 0, [⟨0, ⟨0xfffffffffffffff3⟩, 1, .short, -16⟩]⟩ :=
  build_later ⟨⟨[0xcc], none⟩, 5, 1⟩ (Image.mk ⟨#[0x90, 0x90, 0xcc, 0x75, 0xf0]⟩ ⟨0xfffffffffffffffe⟩).memory
    ⟨0xfffffffffffffffe⟩ ⟨⟨0xfffffffffffffffe⟩, 2, [⟨0, ⟨0xfffffffffffffff3⟩, 3, .short, -16⟩]⟩ rfl 2 (by decide)

end Recipe
end BranchChain
