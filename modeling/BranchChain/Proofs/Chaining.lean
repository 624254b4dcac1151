import BranchChain.Proofs.Decoding
import BranchChain.Table.Recovery
/-!
# Proofs.Chaining — branches decoded one behind the other

A chain steps over what decodes (`Memory.chain_of_decodes`) and ends at the first branch that does not
(`Memory.exists_decodes`).  What it leaves behind are the slots of the jumps it stepped over.
-/
namespace BranchChain

/-- **Jumps that decode one behind the other**, from an address on. -/
def Memory.Decodes (m : Memory) : Address → List Jump → Prop
  | _, [] => True
  | a, j :: js => m.branchAt a = .ok (j.placed a) ∧ m.Decodes (a + UInt64.ofNat j.length) js

namespace Jump

/-- **The slots of jumps** one behind the other, the first of them at an index and an offset from the entry. -/
def slots (entry : Address) : Nat → Nat → List Jump → List Slot
  | _, _, [] => []
  | index, offset, j :: js =>
    .ofBranch index entry (j.placed (entry + UInt64.ofNat offset)) :: slots entry (index + 1) (offset + j.length) js

theorem length_slots (entry : Address) : ∀ (index offset : Nat) (js : List Jump),
    (slots entry index offset js).length = js.length
  | _, _, [] => rfl
  | index, offset, j :: js => by rw [slots, List.length_cons, length_slots entry _ _ js, List.length_cons]

theorem take_slots (entry : Address) : ∀ (index offset n : Nat) (js : List Jump),
    (slots entry index offset js).take n = slots entry index offset (js.take n)
  | _, _, 0, _ => by rw [List.take_zero, List.take_zero]; rfl
  | _, _, n + 1, [] => rfl
  | index, offset, n + 1, j :: js => by rw [slots, List.take_succ_cons, take_slots, List.take_succ_cons, slots]

theorem slots_append (entry : Address) : ∀ (index offset : Nat) (js ks : List Jump),
    slots entry index offset (js ++ ks) =
      slots entry index offset js ++ slots entry (index + js.length) (offset + total js) ks
  | _, _, [], _ => rfl
  | index, offset, j :: js, ks => by
    rw [List.cons_append, slots, slots_append, slots, List.cons_append, List.length_cons, total_cons,
      Nat.add_assoc index, Nat.add_comm 1, Nat.add_assoc offset]

theorem siteOffset_placed (index : Nat) (entry : Address) (j : Jump) (w : UInt64) :
    (Slot.ofBranch index entry (j.placed (entry + w))).siteOffset = w := by
  show (entry.word + w - entry.word).toInt64.toUInt64 = w
  rw [UInt64.add_comm, UInt64.add_sub_cancel]
  rfl

/-- **The slot of a jump in a row**: its index and its offset count what stands before it. -/
theorem getElem?_slots (entry : Address) : ∀ (index offset i : Nat) (js : List Jump),
    (slots entry index offset js)[i]? = js[i]?.map fun j =>
      .ofBranch (index + i) entry (j.placed (entry + UInt64.ofNat (offset + total (js.take i))))
  | _, _, _, [] => rfl
  | index, offset, 0, j :: js => rfl
  | index, offset, i + 1, j :: js => by
    rw [slots, List.getElem?_cons_succ, getElem?_slots, List.getElem?_cons_succ, List.take_succ_cons, total_cons,
      Nat.add_assoc index, Nat.add_comm 1 i, Nat.add_assoc offset]

end Jump

/-- The chain with slots decoded before it. -/
def Chain.behind (c : Chain) (ss : List Slot) : Chain := ⟨ss ++ c.slots, c.stop⟩

namespace Memory

variable {m : Memory} {entry : Address}

theorem decodes_append : ∀ {a : Address} {js ks : List Jump},
    m.Decodes a (js ++ ks) ↔ m.Decodes a js ∧ m.Decodes (a + UInt64.ofNat (Jump.total js)) ks
  | a, [], ks => by
    show m.Decodes a ks ↔ True ∧ m.Decodes (a + UInt64.ofNat 0) ks
    rw [Address.add_ofNat_zero, true_and]
  | a, j :: js, ks => by
    rw [List.cons_append, Decodes, Decodes, decodes_append, Jump.total_cons, Address.add_ofNat_add, and_assoc]

theorem Decodes.take {a : Address} {js : List Jump} (h : m.Decodes a js) (n : Nat) :
    m.Decodes a (js.take n) := by
  rw [← List.take_append_drop n js, decodes_append] at h
  exact h.1

theorem chain_error {c : Cursor} {h : Halt DecodeError} (hc : m.branchAt c.position = .error h) (n index : Nat) :
    m.chain entry (n + 1) index c = ⟨[], some (h.map (.ofDecode index c.offset))⟩ := by
  rw [chain, hc]

theorem chain_ok {c : Cursor} {b : Branch} (h : m.branchAt c.position = .ok b) (n index : Nat) :
    m.chain entry (n + 1) index c =
      (m.chain entry n (index + 1) (c.advance b.length)).behind [.ofBranch index entry b] := by
  rw [chain, h]
  rfl

theorem chain_of_decodes : ∀ (js : List Jump) (n index offset : Nat), m.Decodes (entry + UInt64.ofNat offset) js →
    m.chain entry (js.length + n) index ⟨entry, UInt64.ofNat offset⟩ =
      (m.chain entry n (index + js.length) ⟨entry, UInt64.ofNat (offset + Jump.total js)⟩).behind
        (Jump.slots entry index offset js)
  | [], n, index, offset, _ => by
    rw [List.length_nil, Nat.zero_add]
    rfl
  | j :: js, n, index, offset, h => by
    obtain ⟨hj, hjs⟩ := h
    rw [Address.add_ofNat_add] at hjs
    let c : Cursor := ⟨entry, UInt64.ofNat offset⟩
    have hb : m.branchAt c.position = .ok (j.placed c.position) := hj
    have hc : c.advance (j.placed c.position).length = ⟨entry, UInt64.ofNat (offset + j.length)⟩ :=
      Cursor.advance_ofNat entry offset j.length
    rw [List.length_cons, Nat.add_right_comm, chain_ok hb, hc, chain_of_decodes js n (index + 1) (offset + j.length) hjs,
      Jump.total_cons, Nat.add_assoc index, Nat.add_comm 1, Nat.add_assoc offset]
    rfl

/-- **How far a chain decodes**: as many branches as asked for, or up to the first that does not decode. -/
theorem exists_decodes (m : Memory) : ∀ (n : Nat) (a : Address), ∃ js, js.length ≤ n ∧ m.Decodes a js ∧
    (js.length < n → ∃ h, m.branchAt (a + UInt64.ofNat (Jump.total js)) = .error h)
  | 0, _ => ⟨[], Nat.le_refl 0, trivial, fun h => absurd h (Nat.lt_irrefl 0)⟩
  | n + 1, a => by
    cases h : m.branchAt a with
    | error e => exact ⟨[], Nat.zero_le _, trivial, fun _ => ⟨e, by rw [← h]; exact congrArg _ a.add_ofNat_zero⟩⟩
    | ok b =>
      obtain ⟨j, -, rfl⟩ := branchAt_eq_ok_iff.1 h
      obtain ⟨js, hlen, hjs, hstop⟩ := exists_decodes m n (a + UInt64.ofNat j.length)
      refine ⟨j :: js, Nat.succ_le_succ hlen, ⟨h, hjs⟩, fun hlt => ?_⟩
      rw [Jump.total_cons, ← Address.add_ofNat_add]
      exact hstop (Nat.lt_of_succ_lt_succ hlt)

end Memory
end BranchChain
