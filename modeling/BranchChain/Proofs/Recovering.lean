import BranchChain.Proofs.Chaining
import BranchChain.Proofs.Searching
/-!
# Proofs.Recovering — the ways a recovery ends

Over any memory a recovery ends in one of six ways (`Recipe.Ends`), and which way it ends is its result
(`Recipe.build_eq_iff`).  A table ends where its jumps do (`Recipe.endOffset_tableOf`).
-/
namespace BranchChain

/-- **How far behind the entry a table ends**: behind its last branch, or behind the anchor if it has none. -/
def Table.endOffset (t : Table) (anchorLength : Nat) : Nat :=
  match t.slots.getLast? with
  | some s => s.siteOffset.toNat + s.form.length
  | none => t.preambleOffset.toNat + anchorLength

/-! ## Searches from the entry -/

namespace Recipe

variable {r : Recipe} {m : Memory} {entry : Address}

theorem build_of_missing {c : Cursor} (h : Pattern.seek m r.anchor.array r.scanLimit ⟨entry, 0⟩ = (.missing, c)) :
    r.build m entry = .error (.fail (.preambleNotFound r.scanLimit)) := by
  rw [build, recover, Pattern.scan_of_missing h]
  rfl

theorem build_of_faulted {f : Fault} {c : Cursor}
    (h : Pattern.seek m r.anchor.array r.scanLimit ⟨entry, 0⟩ = (.faulted f, c)) :
    r.build m entry = .error (.fail (.memory f)) := by
  rw [build, recover, Pattern.scan_of_faulted h]
  rfl

section Found

variable {offset : UInt64} {c : Cursor}
  (h : Pattern.seek m r.anchor.array r.scanLimit ⟨entry, 0⟩ = (.found offset, c))
include h

theorem build_of_overfull (excess : Table.capacity < r.branchCount) : r.build m entry = .error (.trap .capacity) := by
  rw [build, recover, Pattern.scan_of_found h]
  dsimp only
  rw [if_pos excess]

theorem build_of_found (fits : r.branchCount ≤ Table.capacity) :
    r.build m entry = match (m.chain entry r.branchCount 0 c).stop with
      | some e => .error e
      | none => .ok ⟨entry, offset, (m.chain entry r.branchCount 0 c).slots⟩ := by
  rw [build, recover, Pattern.scan_of_found h]
  dsimp only
  rw [if_neg (Nat.not_lt.2 fits)]
  cases (m.chain entry r.branchCount 0 c).stop <;> rfl

end Found

/-! ## How a recovery ends -/

/-- **The anchor is met** a number of bytes behind the entry, within the limit, and nowhere before. -/
structure Meets (r : Recipe) (m : Memory) (entry : Address) (k : Nat) : Prop where
  lt_limit : k < r.scanLimit
  missed : ∀ j < k, r.anchor.MissedAt m (entry + UInt64.ofNat j)
  found : r.anchor.FoundAt m (entry + UInt64.ofNat k)

/-- **How far behind the entry jumps end** that follow an anchor `k` bytes behind it. -/
def reach (r : Recipe) (k : Nat) (js : List Jump) : Nat := k + r.anchor.length + Jump.total js

/-- The table of jumps that follow an anchor `k` bytes behind the entry. -/
def tableOf (r : Recipe) (entry : Address) (k : Nat) (js : List Jump) : Table :=
  ⟨entry, UInt64.ofNat k, Jump.slots entry 0 (k + r.anchor.length) js⟩

/-- **The ways a recovery ends**: two without an anchor, one with a fault on the way to it, one without room for the
slots behind it, one with a branch that does not decode, one with a table. -/
inductive Ends (r : Recipe) (m : Memory) (entry : Address) : Except (Halt BuildError) Table → Prop where
  | exhausted (missed : ∀ j < r.scanLimit, r.anchor.MissedAt m (entry + UInt64.ofNat j)) :
    Ends r m entry (.error (.fail (.preambleNotFound r.scanLimit)))
  | ended {k : Nat} {x : Address} (lt : k < r.scanLimit)
    (missed : ∀ j < k, r.anchor.MissedAt m (entry + UInt64.ofNat j))
    (fault : m.read (entry + UInt64.ofNat k) r.anchor.length = .error (.outOfBounds x)) :
    Ends r m entry (.error (.fail (.preambleNotFound r.scanLimit)))
  | faulted {k : Nat} {f : Fault} (lt : k < r.scanLimit)
    (missed : ∀ j < k, r.anchor.MissedAt m (entry + UInt64.ofNat j))
    (fault : m.read (entry + UInt64.ofNat k) r.anchor.length = .error f) (other : ∀ x, f ≠ .outOfBounds x) :
    Ends r m entry (.error (.fail (.memory f)))
  | overfull {k : Nat} (met : r.Meets m entry k) (excess : Table.capacity < r.branchCount) :
    Ends r m entry (.error (.trap .capacity))
  | undecoded {k : Nat} {js : List Jump} {h : Halt DecodeError} (met : r.Meets m entry k)
    (fits : r.branchCount ≤ Table.capacity)
    (decodes : m.Decodes (entry + UInt64.ofNat (k + r.anchor.length)) js) (lt : js.length < r.branchCount)
    (stop : m.branchAt (entry + UInt64.ofNat (r.reach k js)) = .error h) :
    Ends r m entry (.error (h.map (.ofDecode js.length (UInt64.ofNat (r.reach k js)))))
  | complete {k : Nat} {js : List Jump} (met : r.Meets m entry k) (fits : r.branchCount ≤ Table.capacity)
    (decodes : m.Decodes (entry + UInt64.ofNat (k + r.anchor.length)) js) (all : js.length = r.branchCount) :
    Ends r m entry (.ok (r.tableOf entry k js))

theorem seek_of_exhausted (missed : ∀ j < r.scanLimit, r.anchor.MissedAt m (entry + UInt64.ofNat j)) :
    Pattern.seek m r.anchor.array r.scanLimit ⟨entry, 0⟩ = (.missing, ⟨entry, UInt64.ofNat r.scanLimit⟩) := by
  rw [← Cursor.position_start entry] at missed
  rw [Pattern.seek_exhausted missed, Cursor.advance_start]

theorem seek_of_ended {k : Nat} {x : Address} (lt : k < r.scanLimit)
    (missed : ∀ j < k, r.anchor.MissedAt m (entry + UInt64.ofNat j))
    (fault : m.read (entry + UInt64.ofNat k) r.anchor.length = .error (.outOfBounds x)) :
    Pattern.seek m r.anchor.array r.scanLimit ⟨entry, 0⟩ = (.missing, ⟨entry, UInt64.ofNat k⟩) := by
  rw [← Cursor.position_start entry] at missed fault
  rw [Pattern.seek_ended_behind lt missed fault, Cursor.advance_start]

theorem seek_of_faulted {k : Nat} {f : Fault} (lt : k < r.scanLimit)
    (missed : ∀ j < k, r.anchor.MissedAt m (entry + UInt64.ofNat j))
    (fault : m.read (entry + UInt64.ofNat k) r.anchor.length = .error f) (other : ∀ x, f ≠ .outOfBounds x) :
    Pattern.seek m r.anchor.array r.scanLimit ⟨entry, 0⟩ = (.faulted f, ⟨entry, UInt64.ofNat k⟩) := by
  rw [← Cursor.position_start entry] at missed fault
  rw [Pattern.seek_faulted_behind lt missed fault other, Cursor.advance_start]

theorem Meets.seek_eq {k : Nat} (h : r.Meets m entry k) :
    Pattern.seek m r.anchor.array r.scanLimit ⟨entry, 0⟩ =
      (.found (UInt64.ofNat k), ⟨entry, UInt64.ofNat (k + r.anchor.length)⟩) := by
  obtain ⟨lt, missed, found⟩ := h
  rw [← Cursor.position_start entry] at missed found
  rw [Pattern.seek_found_behind lt missed found, Cursor.advance_start, Cursor.advance_start]

/-- Behind the anchor a chain that meets no failure holds the slots of its jumps. -/
theorem chain_of_complete {k : Nat} {js : List Jump}
    (decodes : m.Decodes (entry + UInt64.ofNat (k + r.anchor.length)) js) (all : js.length = r.branchCount) :
    m.chain entry r.branchCount 0 ⟨entry, UInt64.ofNat (k + r.anchor.length)⟩ =
      ⟨Jump.slots entry 0 (k + r.anchor.length) js, none⟩ := by
  rw [← all, ← Nat.add_zero js.length, Memory.chain_of_decodes js _ 0 _ decodes]
  show Chain.mk (_ ++ []) _ = _
  rw [List.append_nil]
  rfl

/-- A chain that meets a failure holds the slots of the jumps before it. -/
theorem chain_of_undecoded {k : Nat} {js : List Jump} {h : Halt DecodeError}
    (decodes : m.Decodes (entry + UInt64.ofNat (k + r.anchor.length)) js) (lt : js.length < r.branchCount)
    (stop : m.branchAt (entry + UInt64.ofNat (r.reach k js)) = .error h) :
    m.chain entry r.branchCount 0 ⟨entry, UInt64.ofNat (k + r.anchor.length)⟩ =
      ⟨Jump.slots entry 0 (k + r.anchor.length) js, some (h.map (.ofDecode js.length (UInt64.ofNat (r.reach k js))))⟩ := by
  obtain ⟨n, hn⟩ := Nat.exists_eq_add_of_lt lt
  have hstop : m.branchAt (⟨entry, UInt64.ofNat (r.reach k js)⟩ : Cursor).position = .error h := stop
  unfold reach at hstop
  rw [hn, Nat.add_assoc, Memory.chain_of_decodes js _ 0 _ decodes, Nat.zero_add, Memory.chain_error hstop]
  show Chain.mk (_ ++ []) _ = _
  rw [List.append_nil]
  rfl

theorem build_of_ends {x : Except (Halt BuildError) Table} (h : r.Ends m entry x) : r.build m entry = x := by
  cases h with
  | exhausted missed => exact build_of_missing (seek_of_exhausted missed)
  | ended lt missed fault => exact build_of_missing (seek_of_ended lt missed fault)
  | faulted lt missed fault other => exact build_of_faulted (seek_of_faulted lt missed fault other)
  | overfull met excess => exact build_of_overfull met.seek_eq excess
  | undecoded met fits decodes lt stop => rw [build_of_found met.seek_eq fits, chain_of_undecoded decodes lt stop]
  | complete met fits decodes all =>
    rw [build_of_found met.seek_eq fits, chain_of_complete decodes all]
    rfl

/-- Behind an anchor all branches decode that are asked for, or there is a first that does not. -/
theorem exists_jumps (r : Recipe) (m : Memory) (entry : Address) (k : Nat) :
    ∃ js, m.Decodes (entry + UInt64.ofNat (k + r.anchor.length)) js ∧
      (js.length = r.branchCount ∨
        js.length < r.branchCount ∧ ∃ h, m.branchAt (entry + UInt64.ofNat (r.reach k js)) = .error h) := by
  obtain ⟨js, hlen, hjs, hnext⟩ := m.exists_decodes r.branchCount (entry + UInt64.ofNat (k + r.anchor.length))
  rcases Nat.lt_or_eq_of_le hlen with hfew | hall
  · obtain ⟨e, he⟩ := hnext hfew
    rw [Address.add_ofNat_add] at he
    exact ⟨js, hjs, .inr ⟨hfew, e, he⟩⟩
  · exact ⟨js, hjs, .inl hall⟩

theorem exists_ends (r : Recipe) (m : Memory) (entry : Address) : ∃ x, r.Ends m entry x := by
  obtain ⟨k, hk, hmiss, hstop⟩ := r.anchor.exists_stop m entry r.scanLimit
  rcases Nat.lt_or_eq_of_le hk with hlt | rfl
  · rcases r.anchor.found_or_missed_or_ended_or_faulted m (entry + UInt64.ofNat k) with
      hf | hm | ⟨x, hx⟩ | ⟨f, hf, hother⟩
    · have hmet : r.Meets m entry k := ⟨hlt, hmiss, hf⟩
      rcases Nat.lt_or_ge Table.capacity r.branchCount with hover | hfits
      · exact ⟨_, .overfull hmet hover⟩
      obtain ⟨js, hjs, hall | ⟨hfew, h, hh⟩⟩ := r.exists_jumps m entry k
      · exact ⟨_, .complete hmet hfits hjs hall⟩
      · exact ⟨_, .undecoded hmet hfits hjs hfew hh⟩
    · exact absurd hm (hstop hlt)
    · exact ⟨_, .ended hlt hmiss hx⟩
    · exact ⟨_, .faulted hlt hmiss hf hother⟩
  · exact ⟨_, .exhausted hmiss⟩

/-- **The result of a recovery is the way it ends.** -/
theorem build_eq_iff {x : Except (Halt BuildError) Table} : r.build m entry = x ↔ r.Ends m entry x := by
  constructor
  · rintro rfl
    obtain ⟨y, hy⟩ := r.exists_ends m entry
    rwa [build_of_ends hy]
  · exact build_of_ends

/-! ## Where a table ends -/

/-- **A table ends where its jumps do**, around the address space if need be. -/
theorem endOffset_tableOf (r : Recipe) (entry : Address) (k : Nat) (js : List Jump) :
    ((r.tableOf entry k js).endOffset r.anchor.length) % 2 ^ 64 = r.reach k js % 2 ^ 64 ∧
      (r.tableOf entry k js).endOffset r.anchor.length ≤ r.reach k js := by
  rcases List.eq_nil_or_concat js with rfl | ⟨js, j, rfl⟩
  · show ((UInt64.ofNat k).toNat + _) % _ = (k + _ + 0) % _ ∧ (UInt64.ofNat k).toNat + _ ≤ k + _ + 0
    rw [UInt64.toNat_ofNat']
    have := Nat.mod_le k (2 ^ 64)
    omega
  · -- the last slot keeps its offset as a word, of which only the remainder is left
    have hlast : (r.tableOf entry k (js.concat j)).slots.getLast? =
        some (.ofBranch (0 + js.length) entry
          (j.placed (entry + UInt64.ofNat (k + r.anchor.length + Jump.total js)))) := by
      rw [List.concat_eq_append, tableOf, Jump.slots_append]
      exact List.getLast?_concat
    rw [Table.endOffset, hlast]
    dsimp only
    rw [Jump.siteOffset_placed, UInt64.toNat_ofNat', reach, List.concat_eq_append, Jump.total_append]
    show (_ + j.length) % _ = (_ + (_ + (j.length + 0))) % _ ∧ _ + j.length ≤ _ + (_ + (j.length + 0))
    have := Nat.mod_le (k + r.anchor.length + Jump.total js) (2 ^ 64)
    omega

end Recipe
end BranchChain
