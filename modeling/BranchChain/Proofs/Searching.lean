import BranchChain.Pattern.Search
import BranchChain.Proofs.Reading
/-!
# Proofs.Searching — a search, position by position

At a position a pattern is found, missed, or not looked at, because the read fails.  A search steps over what is missed
(`Pattern.seek_of_missed`) and ends at the first position of any other kind (`Pattern.exists_stop`).
-/
namespace BranchChain

namespace Cursor

theorem advance_advance (c : Cursor) (i j : Nat) : (c.advance i).advance j = c.advance (i + j) := by
  simp [advance, UInt64.add_assoc]

/-- The positions of a cursor one byte further on are those behind the first. -/
theorem position_advance_one_add (c : Cursor) (j : Nat) :
    (c.advance 1).position + UInt64.ofNat j = c.position + UInt64.ofNat (j + 1) := by
  rw [c.position_advance, Address.add_ofNat_add, Nat.add_comm 1]

theorem position_start (entry : Address) : (⟨entry, 0⟩ : Cursor).position = entry := Address.add_ofNat_zero entry

theorem advance_start (entry : Address) (n : Nat) : (⟨entry, 0⟩ : Cursor).advance n = ⟨entry, UInt64.ofNat n⟩ := by
  rw [advance, UInt64.zero_add]

end Cursor

namespace Pattern

/-- **The memory shows the pattern** at an address; there may be more bytes behind it. -/
def FoundAt (p : Pattern) (m : Memory) (a : Address) : Prop :=
  ∃ b, m.read a p.length = .ok b ∧ p.bytes <+: b.data.toList

/-- **The memory shows other bytes** at an address, or too few. -/
def MissedAt (p : Pattern) (m : Memory) (a : Address) : Prop :=
  ∃ b, m.read a p.length = .ok b ∧ ¬ p.bytes <+: b.data.toList

variable {p : Pattern} {m : Memory} {a : Address} {c : Cursor}

theorem found_or_missed_or_error (p : Pattern) (m : Memory) (a : Address) :
    p.FoundAt m a ∨ p.MissedAt m a ∨ ∃ f, m.read a p.length = .error f := by
  cases h : m.read a p.length with
  | error f => exact .inr (.inr ⟨f, rfl⟩)
  | ok b =>
    by_cases hb : p.bytes <+: b.data.toList
    · exact .inl ⟨b, h, hb⟩
    · exact .inr (.inl ⟨b, h, hb⟩)

/-- The end of the memory is the one fault that a search makes nothing of. -/
theorem found_or_missed_or_ended_or_faulted (p : Pattern) (m : Memory) (a : Address) :
    p.FoundAt m a ∨ p.MissedAt m a ∨ (∃ x, m.read a p.length = .error (.outOfBounds x)) ∨
      ∃ f, m.read a p.length = .error f ∧ ∀ x, f ≠ .outOfBounds x := by
  rcases p.found_or_missed_or_error m a with hf | hm | ⟨f, h⟩
  · exact .inl hf
  · exact .inr (.inl hm)
  · by_cases hx : ∃ x, f = .outOfBounds x
    · obtain ⟨x, rfl⟩ := hx
      exact .inr (.inr (.inl ⟨x, h⟩))
    · exact .inr (.inr (.inr ⟨f, h, fun x hfx => hx ⟨x, hfx⟩⟩))

/-! ## One position -/

theorem seek_found (h : p.FoundAt m c.position) (n : Nat) :
    seek m p.array (n + 1) c = (.found c.offset, c.advance p.length) := by
  obtain ⟨b, hb, heq⟩ := h
  rw [seek, show c.peek m p.array.size = .ok b from hb]
  exact if_pos ((p.begins_iff b).2 heq)

theorem seek_missed (h : p.MissedAt m c.position) (n : Nat) :
    seek m p.array (n + 1) c = seek m p.array n (c.advance 1) := by
  obtain ⟨b, hb, hne⟩ := h
  rw [seek, show c.peek m p.array.size = .ok b from hb]
  exact if_neg (fun hb => hne ((p.begins_iff b).1 hb))

theorem seek_ended {end_ : Address} (h : m.read c.position p.length = .error (.outOfBounds end_)) (n : Nat) :
    seek m p.array (n + 1) c = (.missing, c) := by
  rw [seek, show c.peek m p.array.size = .error (.outOfBounds end_) from h]

theorem seek_faulted {f : Fault} (h : m.read c.position p.length = .error f) (hf : ∀ x, f ≠ .outOfBounds x) (n : Nat) :
    seek m p.array (n + 1) c = (.faulted f, c) := by
  rw [seek, show c.peek m p.array.size = .error f from h]
  cases f with
  | outOfBounds x => exact absurd rfl (hf x)
  | io => rfl
  | invalidAddress => rfl

/-! ## Many positions -/

/-- Positions are missed if the first is, and those of a cursor one byte further on. -/
theorem missed_succ {k : Nat} (h : ∀ j < k + 1, p.MissedAt m (c.position + UInt64.ofNat j)) :
    p.MissedAt m c.position ∧ ∀ j < k, p.MissedAt m ((c.advance 1).position + UInt64.ofNat j) := by
  have hfirst := h 0 (Nat.succ_pos k)
  rw [Address.add_ofNat_zero] at hfirst
  refine ⟨hfirst, fun j hj => ?_⟩
  rw [c.position_advance_one_add]
  exact h (j + 1) (Nat.succ_lt_succ hj)

theorem seek_of_missed : ∀ (k n : Nat) (c : Cursor), (∀ j < k, p.MissedAt m (c.position + UInt64.ofNat j)) →
    seek m p.array (k + n) c = seek m p.array n (c.advance k)
  | 0, n, c, _ => by rw [Nat.zero_add, c.advance_zero]
  | k + 1, n, c, h => by
    obtain ⟨hfirst, hrest⟩ := missed_succ h
    rw [Nat.add_right_comm, seek_missed hfirst, seek_of_missed k n (c.advance 1) hrest, c.advance_advance, Nat.add_comm 1]

/-- A search whose positions are all missed ends at its limit. -/
theorem seek_exhausted {n : Nat} (missed : ∀ j < n, p.MissedAt m (c.position + UInt64.ofNat j)) :
    seek m p.array n c = (.missing, c.advance n) := by
  rw [← Nat.add_zero n, seek_of_missed n 0 c missed]
  rfl

theorem seek_ended_behind {k n : Nat} {end_ : Address} (hk : k < n)
    (missed : ∀ j < k, p.MissedAt m (c.position + UInt64.ofNat j))
    (fault : m.read (c.position + UInt64.ofNat k) p.length = .error (.outOfBounds end_)) :
    seek m p.array n c = (.missing, c.advance k) := by
  obtain ⟨i, rfl⟩ := Nat.exists_eq_add_of_lt hk
  rw [← c.position_advance] at fault
  rw [Nat.add_assoc, seek_of_missed k (i + 1) c missed, seek_ended fault]

theorem seek_faulted_behind {k n : Nat} {f : Fault} (hk : k < n)
    (missed : ∀ j < k, p.MissedAt m (c.position + UInt64.ofNat j))
    (fault : m.read (c.position + UInt64.ofNat k) p.length = .error f) (other : ∀ x, f ≠ .outOfBounds x) :
    seek m p.array n c = (.faulted f, c.advance k) := by
  obtain ⟨i, rfl⟩ := Nat.exists_eq_add_of_lt hk
  rw [← c.position_advance] at fault
  rw [Nat.add_assoc, seek_of_missed k (i + 1) c missed, seek_faulted fault other]

theorem seek_found_behind {k n : Nat} (hk : k < n) (missed : ∀ j < k, p.MissedAt m (c.position + UInt64.ofNat j))
    (found : p.FoundAt m (c.position + UInt64.ofNat k)) :
    seek m p.array n c = (.found (c.advance k).offset, c.advance (k + p.length)) := by
  obtain ⟨i, rfl⟩ := Nat.exists_eq_add_of_lt hk
  rw [← c.position_advance] at found
  rw [Nat.add_assoc, seek_of_missed k (i + 1) c missed, seek_found found, c.advance_advance]

/-! ## Results -/

theorem scan_of_found {limit : Nat} {offset : UInt64} {c' : Cursor} (h : seek m p.array limit c = (.found offset, c')) :
    p.scan m limit c = (.ok offset, c') := by
  rw [scan, h]

theorem scan_of_missing {limit : Nat} {c' : Cursor} (h : seek m p.array limit c = (.missing, c')) :
    p.scan m limit c = (.error (.notFound limit), c') := by
  rw [scan, h]

theorem scan_of_faulted {limit : Nat} {f : Fault} {c' : Cursor} (h : seek m p.array limit c = (.faulted f, c')) :
    p.scan m limit c = (.error (.memory f), c') := by
  rw [scan, h]

theorem exists_stop (p : Pattern) (m : Memory) (a : Address) : ∀ n : Nat,
    ∃ k, k ≤ n ∧ (∀ j < k, p.MissedAt m (a + UInt64.ofNat j)) ∧ (k < n → ¬ p.MissedAt m (a + UInt64.ofNat k))
  | 0 => ⟨0, Nat.le_refl 0, fun _ hj => absurd hj (Nat.not_lt_zero _), fun h => absurd h (Nat.not_lt_zero _)⟩
  | n + 1 => by
    -- the stop among fewer positions stays, unless it was their end and the pattern is missed there
    obtain ⟨k, hk, hmiss, hstop⟩ := exists_stop p m a n
    by_cases hlast : k = n ∧ p.MissedAt m (a + UInt64.ofNat k)
    · obtain ⟨rfl, hm⟩ := hlast
      refine ⟨k + 1, Nat.le_refl _, fun j hj => ?_, fun h => absurd h (Nat.lt_irrefl _)⟩
      rcases Nat.lt_succ_iff_lt_or_eq.1 hj with hj | rfl
      · exact hmiss j hj
      · exact hm
    · refine ⟨k, Nat.le_succ_of_le hk, hmiss, fun _ hm => ?_⟩
      rcases Nat.lt_or_eq_of_le hk with hlt | heq
      · exact hstop hlt hm
      · exact hlast ⟨heq, hm⟩

end Pattern
end BranchChain
