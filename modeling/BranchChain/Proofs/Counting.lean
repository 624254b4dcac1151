import BranchChain.Proofs.Finding
/-!
# Proofs.Counting — tables of more and of fewer handlers

How many handlers are asked for decides only where a recovery stops.  A table holds the tables of fewer handlers, and a
failure stays the same however many more are asked for, as long as there is room for them (`Recipe.build_withCount`).
-/
namespace BranchChain

namespace Recipe

variable {r : Recipe} {m : Memory} {entry : Address}

/-- The recipe for another number of handlers. -/
def withCount (r : Recipe) (n : Nat) : Recipe := { r with branchCount := n }

theorem meets_withCount {n k : Nat} : (r.withCount n).Meets m entry k ↔ r.Meets m entry k :=
  ⟨fun h => ⟨h.lt_limit, h.missed, h.found⟩, fun h => ⟨h.lt_limit, h.missed, h.found⟩⟩

theorem build_fewer {n : Nat} {t : Table} (h : (r.withCount n).build m entry = .ok t) :
    t.slots.length = n ∧ ∀ c ≤ n, (r.withCount c).build m entry = .ok ⟨t.entry, t.preambleOffset, t.slots.take c⟩ := by
  cases build_eq_iff.1 h with
  | @complete k js met fits decodes all =>
    refine ⟨by rw [tableOf, Jump.length_slots]; exact all, fun c hc => ?_⟩
    rw [tableOf, Jump.take_slots]
    refine build_of_ends (.complete (meets_withCount.2 (meets_withCount.1 met)) (Nat.le_trans hc fits) (decodes.take c) ?_)
    rw [List.length_take, all]
    exact Nat.min_eq_left hc

/-- A larger count fails as a smaller one did, or breaks off before it comes so far. -/
theorem build_more {n : Nat} {h : Halt BuildError} (hn : (r.withCount n).build m entry = .error h) (c : Nat) (hc : n ≤ c) :
    (r.withCount c).build m entry = .error h ∨
      Table.capacity < c ∧ (∃ k, r.anchor.find m entry r.scanLimit = .ok k) ∧
        (r.withCount c).build m entry = .error (.trap .capacity) := by
  have hover {k : Nat} (met : (r.withCount n).Meets m entry k) (excess : Table.capacity < c) :
      (r.withCount c).build m entry = .error (.trap .capacity) :=
    build_of_ends (.overfull (meets_withCount.2 (meets_withCount.1 met)) excess)
  cases build_eq_iff.1 hn with
  | exhausted missed => exact .inl (build_of_ends (.exhausted missed))
  | ended lt missed fault => exact .inl (build_of_ends (.ended lt missed fault))
  | faulted lt missed fault other => exact .inl (build_of_ends (.faulted lt missed fault other))
  | overfull met excess => exact .inl (hover met (Nat.lt_of_lt_of_le excess hc))
  | undecoded met fits decodes lt stop =>
    rcases Nat.lt_or_ge Table.capacity c with excess | fits
    · exact .inr ⟨excess, ⟨_, (meets_withCount.1 met).find_eq⟩, hover met excess⟩
    · refine .inl (build_of_ends ?_)
      exact .undecoded (meets_withCount.2 (meets_withCount.1 met)) fits decodes (Nat.lt_of_lt_of_le lt hc) stop

theorem build_before_opcode {n i : Nat} {offset : UInt64} {bytes : List UInt8}
    (h : (r.withCount n).build m entry = .error (.fail (.unknownOpcode i offset bytes))) :
    i < n ∧ ∃ t, (r.withCount i).build m entry = .ok t ∧ offset = UInt64.ofNat (t.endOffset r.anchor.length) := by
  generalize hx : (Halt.fail (BuildError.unknownOpcode i offset bytes)) = x at h
  cases build_eq_iff.1 h with
  | exhausted | ended | faulted | overfull => cases hx
  | @undecoded k js d met fits decodes lt stop =>
    cases d with
    | trap t => cases hx
    | fail e =>
      cases e with
      | memory f => cases hx
      | unknownOpcode bytes' =>
        cases hx
        have fewer : js.length ≤ Table.capacity := Nat.le_trans (Nat.le_of_lt lt) fits
        refine ⟨lt, _, build_of_ends (.complete (meets_withCount.2 (meets_withCount.1 met)) fewer decodes rfl), ?_⟩
        apply UInt64.toNat_inj.1
        rw [UInt64.toNat_ofNat', UInt64.toNat_ofNat']
        exact (endOffset_tableOf r entry k js).1.symm

/-- **The count decides only where a recovery stops.**  A table of `n` handlers holds every table of fewer.  What goes wrong
at `n` goes wrong the same at every larger count, up to the counts there is no room for: these break off behind the anchor,
if there is one.  And an unknown opcode at an index follows right behind the table of that many handlers. -/
theorem build_withCount (r : Recipe) (m : Memory) (entry : Address) (n : Nat) :
    (∀ t, (r.withCount n).build m entry = .ok t → t.slots.length = n ∧
      ∀ c ≤ n, (r.withCount c).build m entry = .ok ⟨t.entry, t.preambleOffset, t.slots.take c⟩) ∧
    (∀ h, (r.withCount n).build m entry = .error h → ∀ c, n ≤ c → (r.withCount c).build m entry = .error h ∨
      Table.capacity < c ∧ (∃ k, r.anchor.find m entry r.scanLimit = .ok k) ∧
        (r.withCount c).build m entry = .error (.trap .capacity)) ∧
    (∀ i offset bytes, (r.withCount n).build m entry = .error (.fail (.unknownOpcode i offset bytes)) →
      i < n ∧ ∃ t, (r.withCount i).build m entry = .ok t ∧ offset = UInt64.ofNat (t.endOffset r.anchor.length)) :=
  ⟨fun _ => build_fewer, fun _ => build_more, fun _ _ _ => build_before_opcode⟩

/-- An opcode that is no branch stands behind two branches: the table of two ends where it stands, and it is met at every
count above two that there is room for. -/
theorem build_withCount_two :
    (∃ t, (Recipe.mk ⟨[0xcc], none⟩ 5 2).build
        (Image.mk ⟨#[0xcc, 0x75, 0x00, 0x75, 0x02, 0x0f, 0x84]⟩ ⟨0x1000⟩).memory ⟨0x1000⟩ = .ok t ∧
      t.endOffset 1 = 5) ∧
    ∀ c, 3 ≤ c → c ≤ Table.capacity → (Recipe.mk ⟨[0xcc], none⟩ 5 c).build
        (Image.mk ⟨#[0xcc, 0x75, 0x00, 0x75, 0x02, 0x0f, 0x84]⟩ ⟨0x1000⟩).memory ⟨0x1000⟩ =
      .error (.fail (.unknownOpcode 2 5 [0x0f, 0x84])) := by
  obtain ⟨-, hmore, hopcode⟩ := build_withCount ⟨⟨[0xcc], none⟩, 5, 2⟩
    (Image.mk ⟨#[0xcc, 0x75, 0x00, 0x75, 0x02, 0x0f, 0x84]⟩ ⟨0x1000⟩).memory ⟨0x1000⟩ 3
  refine ⟨?_, fun c hc hfits => ?_⟩
  · obtain ⟨-, t, ht, -⟩ := hopcode 2 5 [0x0f, 0x84] rfl
    cases ht
    exact ⟨_, rfl, rfl⟩
  · obtain h | ⟨hover, -⟩ := hmore (.fail (.unknownOpcode 2 5 [0x0f, 0x84])) rfl c hc
    · exact h
    · exact absurd hfits (Nat.not_le.2 hover)

end Recipe
end BranchChain
