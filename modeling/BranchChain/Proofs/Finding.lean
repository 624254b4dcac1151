import BranchChain.Proofs.Recovering
/-!
# Proofs.Finding — a search by itself and the search of a recovery

A recovery begins with the search that can also be made by itself, and goes on reading.  So the two never disagree about
the anchor: where the search alone finds it, whatever goes wrong later goes wrong behind it
(`Recipe.endsBehind_of_find_ok`), and where the search alone fails, every recovery fails for the same reason
(`Recipe.build_of_find_error`).
-/
namespace BranchChain

theorem BuildError.ofDecode_ne_preambleNotFound (index : Nat) (offset : UInt64) (e : DecodeError) (limit : Nat) :
    ofDecode index offset e ≠ .preambleNotFound limit := by
  cases e <;> exact fun h => by cases h

theorem BuildError.ofDecode_ne_invalidAnchor (index : Nat) (offset : UInt64) (e : DecodeError) (x : PatternError) :
    ofDecode index offset e ≠ .invalidAnchor x := by
  cases e <;> exact fun h => by cases h

theorem BuildError.message_ofSearch (e : SearchError) : (ofSearch e).message = e.message := by
  cases e <;> rfl

theorem Pattern.find_error_cases {p : Pattern} {m : Memory} {entry : Address} {limit : Nat} {e : SearchError}
    (h : p.find m entry limit = .error e) : e = .notFound limit ∨ ∃ f, e = .memory f := by
  unfold find scan at h
  split at h
  · cases h
  · cases h
    exact .inl rfl
  · rename_i f _ _
    cases h
    exact .inr ⟨f, rfl⟩

namespace Recipe

variable {r : Recipe} {m : Memory} {entry : Address}

theorem find_of_missing {c : Cursor} (h : Pattern.seek m r.anchor.array r.scanLimit ⟨entry, 0⟩ = (.missing, c)) :
    r.anchor.find m entry r.scanLimit = .error (.notFound r.scanLimit) := by
  rw [Pattern.find, Pattern.scan_of_missing h]

theorem find_of_faulted {f : Fault} {c : Cursor}
    (h : Pattern.seek m r.anchor.array r.scanLimit ⟨entry, 0⟩ = (.faulted f, c)) :
    r.anchor.find m entry r.scanLimit = .error (.memory f) := by
  rw [Pattern.find, Pattern.scan_of_faulted h]

theorem exists_seek_of_find_ok {k : UInt64} (h : r.anchor.find m entry r.scanLimit = .ok k) :
    ∃ c, Pattern.seek m r.anchor.array r.scanLimit ⟨entry, 0⟩ = (.found k, c) := by
  unfold Pattern.find Pattern.scan at h
  split at h
  · rename_i offset c hseek
    cases h
    exact ⟨c, hseek⟩
  · cases h
  · cases h

theorem Meets.find_eq {k : Nat} (h : r.Meets m entry k) :
    r.anchor.find m entry r.scanLimit = .ok (UInt64.ofNat k) := by
  rw [Pattern.find, Pattern.scan_of_found h.seek_eq]

/-- **Behind the anchor** a recovery has a table, or a branch does not decode, or it breaks off: where there is no room for
its slots, or where the reply for a branch is too short. -/
inductive EndsBehind (r : Recipe) (m : Memory) (entry : Address) (k : UInt64) : Except (Halt BuildError) Table → Prop where
  | table {slots : List Slot} (fits : r.branchCount ≤ Table.capacity) (all : slots.length = r.branchCount) :
    EndsBehind r m entry k (.ok ⟨entry, k, slots⟩)
  | undecoded {index : Nat} {offset : UInt64} {e : DecodeError} (fits : r.branchCount ≤ Table.capacity)
    (lt : index < r.branchCount) (stop : m.branchAt (entry + offset) = .error (.fail e)) :
    EndsBehind r m entry k (.error (.fail (.ofDecode index offset e)))
  | overfull (excess : Table.capacity < r.branchCount) : EndsBehind r m entry k (.error (.trap .capacity))
  | short {index n : Nat} {offset : UInt64} {reply : ByteArray} (fits : r.branchCount ≤ Table.capacity)
    (lt : index < r.branchCount) (answer : m.read (entry + offset) n = .ok reply) (short : reply.size < n) :
    EndsBehind r m entry k (.error (.trap .outside))

theorem endsBehind_of_branchAt_error {k offset : UInt64} {index : Nat} {h : Halt DecodeError}
    (fits : r.branchCount ≤ Table.capacity) (lt : index < r.branchCount)
    (stop : m.branchAt (entry + offset) = .error h) :
    r.EndsBehind m entry k (.error (h.map (.ofDecode index offset))) := by
  cases h with
  | fail e => exact .undecoded fits lt stop
  | trap t =>
    obtain ⟨rfl, n, reply, answer, short⟩ := m.breaksShort_branchAt _ t stop
    exact .short fits lt answer short

/-- **What a search makes of the ways a recovery ends**: those before the anchor are its own, and in all others it finds
the anchor. -/
theorem find_of_ends {x : Except (Halt BuildError) Table} (h : r.Ends m entry x) :
    (∃ e, r.anchor.find m entry r.scanLimit = .error e ∧ x = .error (.fail (.ofSearch e))) ∨
    ∃ k, r.anchor.find m entry r.scanLimit = .ok k ∧ r.EndsBehind m entry k x := by
  cases h with
  | exhausted missed => exact .inl ⟨_, find_of_missing (seek_of_exhausted missed), rfl⟩
  | ended lt missed fault => exact .inl ⟨_, find_of_missing (seek_of_ended lt missed fault), rfl⟩
  | faulted lt missed fault other => exact .inl ⟨_, find_of_faulted (seek_of_faulted lt missed fault other), rfl⟩
  | overfull met excess => exact .inr ⟨_, met.find_eq, .overfull excess⟩
  | undecoded met fits decodes lt stop => exact .inr ⟨_, met.find_eq, endsBehind_of_branchAt_error fits lt stop⟩
  | complete met fits decodes all =>
    refine .inr ⟨_, met.find_eq, .table fits ?_⟩
    rw [Jump.length_slots, all]

theorem build_of_find_error {e : SearchError} (h : r.anchor.find m entry r.scanLimit = .error e) :
    r.build m entry = .error (.fail (.ofSearch e)) := by
  obtain ⟨x, hx⟩ := r.exists_ends m entry
  rw [build_of_ends hx]
  obtain ⟨e', he, rfl⟩ | ⟨k, hk, -⟩ := find_of_ends hx
  · rw [h, Except.error.injEq] at he
    rw [he]
  · rw [h] at hk
    cases hk

theorem endsBehind_of_find_ok {k : UInt64} (h : r.anchor.find m entry r.scanLimit = .ok k) :
    r.EndsBehind m entry k (r.build m entry) := by
  obtain ⟨x, hx⟩ := r.exists_ends m entry
  rw [build_of_ends hx]
  obtain ⟨e, he, -⟩ | ⟨k', hk, hrest⟩ := find_of_ends hx
  · rw [h] at he
    cases he
  · rw [h, Except.ok.injEq] at hk
    rwa [hk]

/-- No handlers take no room and no reads. -/
theorem build_zero {k : UInt64} (hcount : r.branchCount = 0) (h : r.anchor.find m entry r.scanLimit = .ok k) :
    r.build m entry = .ok ⟨entry, k, []⟩ := by
  obtain ⟨c, hseek⟩ := exists_seek_of_find_ok h
  rw [build_of_found hseek (by rw [hcount]; exact Nat.zero_le _), hcount]
  rfl

/-- Behind an anchor that a search finds nothing fails but the decoding of a branch. -/
theorem build_ne_of_find_ok {k : UInt64} {x : BuildError} (h : r.anchor.find m entry r.scanLimit = .ok k)
    (hx : ∀ index offset e, BuildError.ofDecode index offset e ≠ x) : r.build m entry ≠ .error (.fail x) := by
  intro hbuild
  have hends := endsBehind_of_find_ok h
  rw [hbuild] at hends
  generalize hy : (.error (.fail x) : Except (Halt BuildError) Table) = y at hends
  cases hends <;> cases hy
  exact hx _ _ _ rfl

/-- A recipe has its anchor already. -/
theorem build_ne_invalidAnchor (x : PatternError) : r.build m entry ≠ .error (.fail (.invalidAnchor x)) := by
  cases h : r.anchor.find m entry r.scanLimit with
  | ok k => exact build_ne_of_find_ok h fun index offset e => BuildError.ofDecode_ne_invalidAnchor index offset e x
  | error e =>
    rw [build_of_find_error h]
    cases e <;> exact fun h => by cases h

theorem build_overfull {k : UInt64} (h : r.anchor.find m entry r.scanLimit = .ok k)
    (excess : Table.capacity < r.branchCount) : r.build m entry = .error (.trap .capacity) := by
  have hends := endsBehind_of_find_ok h
  generalize r.build m entry = x at hends
  cases hends with
  | overfull => rfl
  | table fits | undecoded fits | short fits => exact absurd excess (Nat.not_lt.2 fits)

/-- **Over a memory that gives as many bytes as it is asked for, a recovery breaks off for want of room only.** -/
theorem build_eq_trap_iff (hm : m.Exact) {x : Trap} :
    r.build m entry = .error (.trap x) ↔
      x = .capacity ∧ Table.capacity < r.branchCount ∧ ∃ k, r.anchor.find m entry r.scanLimit = .ok k := by
  cases h : r.anchor.find m entry r.scanLimit with
  | error e =>
    rw [build_of_find_error h]
    exact ⟨fun hx => (by cases hx), fun ⟨_, _, k, hk⟩ => (by cases hk)⟩
  | ok k =>
    refine ⟨fun hx => ?_, fun ⟨hx, excess, _⟩ => by rw [build_overfull h excess, hx]⟩
    have hends := endsBehind_of_find_ok h
    rw [hx] at hends
    generalize hy : (.error (.trap x) : Except (Halt BuildError) Table) = y at hends
    cases hends with
    | table | undecoded => cases hy
    | overfull excess =>
      cases hy
      exact ⟨rfl, excess, k, rfl⟩
    | short fits lt answer short =>
      rw [hm _ _ _ answer] at short
      exact absurd short (Nat.lt_irrefl _)

/-- **A search by itself and every recovery with the same anchor and limit agree.**  Where the search finds the anchor, a
recovery of any number of handlers has it at the same offset or fails to decode a branch behind it, unless it breaks off,
for want of room or over a reply for a branch that is too short; and the recovery of no handlers is the empty table.  Where
the search fails, every recovery fails with the same reason and the same text. -/
theorem build_agrees_with_find (p : Pattern) (m : Memory) (entry : Address) (limit : Nat) :
    (∀ k, p.find m entry limit = .ok k →
      (∀ count,
        (∃ slots, slots.length = count ∧ (Recipe.mk p limit count).build m entry = .ok ⟨entry, k, slots⟩) ∨
        (∃ index offset e, index < count ∧ m.branchAt (entry + offset) = .error (.fail e) ∧
          (Recipe.mk p limit count).build m entry = .error (.fail (.ofDecode index offset e))) ∨
        (Table.capacity < count ∧ (Recipe.mk p limit count).build m entry = .error (.trap .capacity)) ∨
        ∃ (index : Nat) (offset : UInt64) (n : Nat) (reply : ByteArray), index < count ∧
          m.read (entry + offset) n = .ok reply ∧ reply.size < n ∧
          (Recipe.mk p limit count).build m entry = .error (.trap .outside)) ∧
      (∀ count, Table.capacity < count → (Recipe.mk p limit count).build m entry = .error (.trap .capacity)) ∧
      (∀ count l, (Recipe.mk p limit count).build m entry ≠ .error (.fail (.preambleNotFound l))) ∧
      (∀ count x, (Recipe.mk p limit count).build m entry ≠ .error (.fail (.invalidAnchor x))) ∧
      (Recipe.mk p limit 0).build m entry = .ok ⟨entry, k, []⟩) ∧
    ∀ e, p.find m entry limit = .error e → ∀ count,
      (e = .notFound limit ∧ (Recipe.mk p limit count).build m entry = .error (.fail (.preambleNotFound limit)) ∧
        (BuildError.preambleNotFound limit).message = e.message) ∨
      ∃ f, e = .memory f ∧ (Recipe.mk p limit count).build m entry = .error (.fail (.memory f)) ∧
        (BuildError.memory f).message = e.message := by
  constructor
  · intro k hk
    have hends (count : Nat) : (Recipe.mk p limit count).EndsBehind m entry k ((Recipe.mk p limit count).build m entry) :=
      endsBehind_of_find_ok (r := ⟨p, limit, count⟩) hk
    refine ⟨fun count => ?_, fun count hover => ?_, fun count l => ?_, fun count x => ?_, ?_⟩
    · have h := hends count
      generalize (Recipe.mk p limit count).build m entry = x at h
      cases h with
      | table fits all => exact .inl ⟨_, all, rfl⟩
      | undecoded fits lt stop => exact .inr (.inl ⟨_, _, _, lt, stop, rfl⟩)
      | overfull excess => exact .inr (.inr (.inl ⟨excess, rfl⟩))
      | short fits lt answer short => exact .inr (.inr (.inr ⟨_, _, _, _, lt, answer, short, rfl⟩))
    · exact build_overfull (r := ⟨p, limit, count⟩) hk hover
    · exact build_ne_of_find_ok (r := ⟨p, limit, count⟩) hk fun index offset e =>
        BuildError.ofDecode_ne_preambleNotFound index offset e l
    · exact build_ne_of_find_ok (r := ⟨p, limit, count⟩) hk fun index offset e =>
        BuildError.ofDecode_ne_invalidAnchor index offset e x
    · exact build_zero (r := ⟨p, limit, 0⟩) rfl hk
  · intro e he count
    have hbuild := build_of_find_error (r := ⟨p, limit, count⟩) he
    have hmessage := BuildError.message_ofSearch e
    obtain rfl | ⟨f, rfl⟩ := Pattern.find_error_cases he
    · exact .inl ⟨rfl, hbuild, hmessage⟩
    · exact .inr ⟨f, rfl, hbuild, hmessage⟩

/-- Data that end inside the second branch: the anchor is there for a search and for recoveries, of none and of too many
handlers, and an anchor that only begins before the end is there for neither. -/
theorem build_agrees_with_find_at_end :
    (Recipe.mk ⟨[0xcc], none⟩ 5 0).build (Image.mk ⟨#[0x90, 0xcc, 0x75, 0x02, 0x0f]⟩ ⟨0x1000⟩).memory ⟨0x1000⟩ =
      .ok ⟨⟨0x1000⟩, 1, []⟩ ∧
    (Recipe.mk ⟨[0xcc], none⟩ 5 2).build (Image.mk ⟨#[0x90, 0xcc, 0x75, 0x02, 0x0f]⟩ ⟨0x1000⟩).memory ⟨0x1000⟩ ≠
      .error (.fail (.preambleNotFound 5)) ∧
    (Recipe.mk ⟨[0xcc], none⟩ 5 0xffffffffffffffff).build
      (Image.mk ⟨#[0x90, 0xcc, 0x75, 0x02, 0x0f]⟩ ⟨0x1000⟩).memory ⟨0x1000⟩ = .error (.trap .capacity) ∧
    ∀ count, (Recipe.mk ⟨[0x0f, 0x85], none⟩ 5 count).build
      (Image.mk ⟨#[0x90, 0xcc, 0x75, 0x02, 0x0f]⟩ ⟨0x1000⟩).memory ⟨0x1000⟩ = .error (.fail (.preambleNotFound 5)) := by
  have h := build_agrees_with_find ⟨[0xcc], none⟩ (Image.mk ⟨#[0x90, 0xcc, 0x75, 0x02, 0x0f]⟩ ⟨0x1000⟩).memory ⟨0x1000⟩ 5
  obtain ⟨-, hover, hne, -, hempty⟩ := h.1 1 rfl
  refine ⟨hempty, hne 2 5, hover _ (by decide), fun count => ?_⟩
  obtain ⟨-, h, -⟩ | ⟨f, hf, -⟩ := (build_agrees_with_find ⟨[0x0f, 0x85], none⟩
    (Image.mk ⟨#[0x90, 0xcc, 0x75, 0x02, 0x0f]⟩ ⟨0x1000⟩).memory ⟨0x1000⟩ 5).2 (.notFound 5) rfl count
  · exact h
  · cases hf

end Recipe
end BranchChain
