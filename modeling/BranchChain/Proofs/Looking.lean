import BranchChain.Proofs.Changing
/-!
# Proofs.Looking — the positions a search looks at

A memory can keep a record of the reads it answers and of those it refuses (`Memory.recording`).  A search over it does
what it does without the record (`Pattern.seek_recording`), so the record tells at which positions a search looks: one
after the other, up to the match, the limit, or the first that cannot be read.
-/
namespace BranchChain

/-- **A read as a memory sees it.** -/
structure Look where
  address : Address
  length : Nat
  answered : Bool
  deriving DecidableEq, Repr

/-- A memory that keeps a record of its reads. -/
def Memory.recording (m : Memory) : ChangingMemory (List Look) where
  read a n looks := (m.read a n, looks ++ [⟨a, n, (m.read a n).isOk⟩])

namespace Pattern

/-- **The looks of a search**, in their order. -/
def looks (p : Pattern) (m : Memory) (limit : Nat) (c : Cursor) : List Look :=
  (m.recording.seek p.array limit c []).2

variable {p : Pattern} {m : Memory} {c : Cursor}

/-! ## One position -/

theorem seek_recording_zero (log : List Look) : m.recording.seek p.array 0 c log = ((.missing, c), log) := rfl

theorem seek_recording_error {f : Fault} (h : m.read c.position p.length = .error f) (n : Nat) (log : List Look) :
    m.recording.seek p.array (n + 1) c log =
      (seek m p.array (n + 1) c, log ++ [⟨c.position, p.length, false⟩]) := by
  have hread : m.read c.position p.array.size = .error f := h
  rw [ChangingMemory.seek, bind_run, seek, Cursor.peek]
  simp only [Memory.recording, hread]
  cases f <;> rfl

theorem seek_recording_found (h : p.FoundAt m c.position) (n : Nat) (log : List Look) :
    m.recording.seek p.array (n + 1) c log =
      (seek m p.array (n + 1) c, log ++ [⟨c.position, p.length, true⟩]) := by
  obtain ⟨b, hb, heq⟩ := h
  have hread : m.read c.position p.array.size = .ok b := hb
  have hbytes : startsWith b p.array = true := (p.begins_iff b).2 heq
  rw [ChangingMemory.seek, bind_run, seek, Cursor.peek]
  simp only [Memory.recording, hread, hbytes]
  rfl

theorem seek_recording_missed (h : p.MissedAt m c.position) (n : Nat) (log : List Look) :
    m.recording.seek p.array (n + 1) c log =
      m.recording.seek p.array n (c.advance 1) (log ++ [⟨c.position, p.length, true⟩]) := by
  obtain ⟨b, hb, hne⟩ := h
  have hread : m.read c.position p.array.size = .ok b := hb
  have hbytes : ¬ startsWith b p.array = true := fun hb => hne ((p.begins_iff b).1 hb)
  rw [ChangingMemory.seek, bind_run]
  simp only [Memory.recording, hread, hbytes]
  rfl

/-- **A search over a memory that keeps a record** ends as it does without, and its looks are added to the record. -/
theorem seek_recording (p : Pattern) (m : Memory) : ∀ (n : Nat) (c : Cursor) (log : List Look),
    m.recording.seek p.array n c log = (seek m p.array n c, log ++ p.looks m n c)
  | 0, c, log => by
    rw [looks, seek_recording_zero, seek_recording_zero, List.append_nil]
    rfl
  | n + 1, c, log => by
    rcases p.found_or_missed_or_error m c.position with hf | hm | ⟨f, hf⟩
    · rw [looks, seek_recording_found hf, seek_recording_found hf, List.nil_append]
    · have hrest := seek_recording p m n (c.advance 1)
      rw [looks, seek_recording_missed hm, seek_recording_missed hm, hrest, hrest, seek_missed hm, List.nil_append,
        List.append_assoc]
    · rw [looks, seek_recording_error hf, seek_recording_error hf, List.nil_append]

theorem looks_zero : p.looks m 0 c = [] := rfl

theorem looks_error {f : Fault} (h : m.read c.position p.length = .error f) (n : Nat) :
    p.looks m (n + 1) c = [⟨c.position, p.length, false⟩] := by
  rw [looks, seek_recording_error h, List.nil_append]

theorem looks_found (h : p.FoundAt m c.position) (n : Nat) : p.looks m (n + 1) c = [⟨c.position, p.length, true⟩] := by
  rw [looks, seek_recording_found h, List.nil_append]

theorem looks_missed (h : p.MissedAt m c.position) (n : Nat) :
    p.looks m (n + 1) c = ⟨c.position, p.length, true⟩ :: p.looks m n (c.advance 1) := by
  rw [looks, seek_recording_missed h, seek_recording]
  rfl

theorem length_looks_le (p : Pattern) (m : Memory) : ∀ (n : Nat) (c : Cursor), (p.looks m n c).length ≤ n
  | 0, c => Nat.le_refl 0
  | n + 1, c => by
    rcases p.found_or_missed_or_error m c.position with hf | hm | ⟨f, hf⟩
    · rw [looks_found hf]
      exact Nat.succ_le_succ (Nat.zero_le n)
    · rw [looks_missed hm]
      exact Nat.succ_le_succ (length_looks_le p m n (c.advance 1))
    · rw [looks_error hf]
      exact Nat.succ_le_succ (Nat.zero_le n)

/-- **A search skips nothing**: it looks at one position after the other, from the cursor on. -/
theorem map_address_looks (p : Pattern) (m : Memory) : ∀ (n : Nat) (c : Cursor),
    (p.looks m n c).map (·.address) = (List.range (p.looks m n c).length).map fun j => c.position + UInt64.ofNat j
  | 0, c => rfl
  | n + 1, c => by
    have hone : [c.position] = (List.range 1).map fun j => c.position + UInt64.ofNat j := by
      rw [List.range_one, List.map_singleton, Address.add_ofNat_zero]
    rcases p.found_or_missed_or_error m c.position with hf | hm | ⟨f, hf⟩
    · rw [looks_found hf]
      exact hone
    · rw [looks_missed hm, List.map_cons, map_address_looks p m n, List.length_cons, List.range_succ_eq_map,
        List.map_cons, Address.add_ofNat_zero, List.map_map]
      exact congrArg (List.cons _) (List.map_congr_left fun j _ => c.position_advance_one_add j)
    · rw [looks_error hf]
      exact hone

/-! ## Many positions -/

/-- **Looks that are answered**, at one address after the other. -/
def answers (p : Pattern) (a : Address) (k : Nat) : List Look :=
  (List.range k).map fun j => ⟨a + UInt64.ofNat j, p.length, true⟩

theorem looks_of_missed : ∀ (k n : Nat) (c : Cursor), (∀ j < k, p.MissedAt m (c.position + UInt64.ofNat j)) →
    p.looks m (k + n) c = p.answers c.position k ++ p.looks m n (c.advance k)
  | 0, n, c, _ => by
    rw [Nat.zero_add, c.advance_zero]
    rfl
  | k + 1, n, c, h => by
    obtain ⟨hfirst, hrest⟩ := missed_succ h
    have hlook : p.answers c.position (k + 1) =
        ⟨c.position, p.length, true⟩ :: p.answers (c.advance 1).position k := by
      unfold answers
      rw [List.range_succ_eq_map, List.map_cons, List.map_map, Address.add_ofNat_zero]
      refine congrArg (List.cons _) (List.map_congr_left fun j _ => ?_)
      rw [c.position_advance_one_add]
      rfl
    rw [Nat.add_right_comm, looks_missed hfirst, looks_of_missed k n (c.advance 1) hrest, c.advance_advance,
      Nat.add_comm 1, hlook, List.cons_append]

theorem answers_succ (p : Pattern) (a : Address) (k : Nat) :
    p.answers a (k + 1) = p.answers a k ++ [⟨a + UInt64.ofNat k, p.length, true⟩] := by
  rw [answers, List.range_succ, List.map_append]
  rfl

theorem looks_exhausted {n : Nat} (missed : ∀ j < n, p.MissedAt m (c.position + UInt64.ofNat j)) :
    p.looks m n c = p.answers c.position n := by
  rw [← Nat.add_zero n, looks_of_missed n 0 c missed, looks_zero, List.append_nil]
  rfl

theorem looks_found_behind {k n : Nat} (hk : k < n) (missed : ∀ j < k, p.MissedAt m (c.position + UInt64.ofNat j))
    (found : p.FoundAt m (c.position + UInt64.ofNat k)) : p.looks m n c = p.answers c.position (k + 1) := by
  obtain ⟨i, rfl⟩ := Nat.exists_eq_add_of_lt hk
  rw [← c.position_advance] at found
  rw [Nat.add_assoc, looks_of_missed k (i + 1) c missed, looks_found found, answers_succ, c.position_advance]

theorem looks_error_behind {k n : Nat} {f : Fault} (hk : k < n)
    (missed : ∀ j < k, p.MissedAt m (c.position + UInt64.ofNat j))
    (fault : m.read (c.position + UInt64.ofNat k) p.length = .error f) :
    p.looks m n c = p.answers c.position k ++ [⟨c.position + UInt64.ofNat k, p.length, false⟩] := by
  obtain ⟨i, rfl⟩ := Nat.exists_eq_add_of_lt hk
  rw [← c.position_advance] at fault
  rw [Nat.add_assoc, looks_of_missed k (i + 1) c missed, looks_error fault, c.position_advance]

theorem length_answers (p : Pattern) (a : Address) (k : Nat) : (p.answers a k).length = k := by
  rw [answers, List.length_map, List.length_range]

theorem answered_of_mem_answers {k : Nat} {a : Address} {look : Look} (h : look ∈ p.answers a k) :
    look.answered = true := by
  obtain ⟨j, -, rfl⟩ := List.mem_map.1 h
  rfl

theorem countP_answered_answers (p : Pattern) (a : Address) (k : Nat) :
    (p.answers a k).countP (·.answered) = k := by
  rw [List.countP_eq_length.2 fun _ h => answered_of_mem_answers h, length_answers]

theorem countP_refused_answers (p : Pattern) (a : Address) (k : Nat) :
    (p.answers a k).countP (!·.answered) = 0 := by
  rw [List.countP_eq_zero]
  intro look h
  rw [answered_of_mem_answers h]
  exact Bool.false_ne_true

end Pattern
end BranchChain
