import BranchChain.Proofs.Searching
/-!
# Proofs.Walking — how far a cursor gets

What a cursor has walked is a word, and a word that is counted up starts over at its end.  So a cursor's offset is the
bytes walked, less what does not fit a word (`Cursor.offset_afterAll`), and it grows from operation to operation just as
long as the whole walk fits (`Cursor.grows_iff`).  Nothing keeps a walk from being longer: at the end of the word one
byte forward takes a cursor back to its base (`Cursor.not_always_grows`).
-/
namespace BranchChain

/-! ## Searches -/

namespace Pattern

/-- **The bytes a search walks**: one for each position it misses, and the match. -/
def walked (m : Memory) (wanted : ByteArray) : Nat → Cursor → Nat
  | 0, _ => 0
  | n + 1, c =>
    match c.peek m wanted.size with
    | .error _ => 0
    | .ok reply => if startsWith reply wanted then wanted.size else 1 + walked m wanted n (c.advance 1)

theorem cursor_seek (m : Memory) (wanted : ByteArray) : ∀ (n : Nat) (c : Cursor),
    (seek m wanted n c).2 = c.advance (walked m wanted n c)
  | 0, c => c.advance_zero.symm
  | n + 1, c => by
    rw [seek, walked]
    cases c.peek m wanted.size with
    | error f => cases f <;> exact c.advance_zero.symm
    | ok reply =>
      dsimp only
      split
      · rfl
      · rw [cursor_seek m wanted n (c.advance 1), c.advance_advance]

theorem walked_le (m : Memory) (wanted : ByteArray) : ∀ (n : Nat) (c : Cursor), walked m wanted n c ≤ n + wanted.size
  | 0, c => Nat.zero_le _
  | n + 1, c => by
    rw [walked]
    cases c.peek m wanted.size with
    | error f => exact Nat.zero_le _
    | ok reply =>
      dsimp only
      split
      · exact Nat.le_add_left _ _
      · have := walked_le m wanted n (c.advance 1)
        omega

theorem cursor_scan (p : Pattern) (m : Memory) (limit : Nat) (c : Cursor) :
    (p.scan m limit c).2 = c.advance (walked m p.array limit c) := by
  rw [← cursor_seek, scan]
  split <;> rename_i h <;> rw [h]

end Pattern

namespace Cursor

/-! ## Operations -/

/-- **What is done with a cursor.** -/
inductive Operation where
  | peek (n : UInt64)
  | peekByte
  | advance (n : UInt64)
  | scan (p : Pattern) (limit : UInt64)
  | decode

/-- The cursor behind an operation: who only looks does not move it. -/
def after (m : Memory) (c : Cursor) : Operation → Cursor
  | .peek _ | .peekByte | .decode => c
  | .advance n => c.advance n.toNat
  | .scan p limit => (p.scan m limit.toNat c).2

def strides (m : Memory) (c : Cursor) : Operation → Nat
  | .peek _ | .peekByte | .decode => 0
  | .advance n => n.toNat
  | .scan p limit => Pattern.walked m p.array limit.toNat c

/-- The bytes an operation may walk, whatever the memory. -/
def Operation.reach : Operation → Nat
  | .peek _ | .peekByte | .decode => 0
  | .advance n => n.toNat
  | .scan p limit => limit.toNat + p.length

variable {m : Memory} {c : Cursor} {op : Operation} {ops : List Operation}

theorem after_eq (m : Memory) (c : Cursor) (op : Operation) : c.after m op = c.advance (c.strides m op) := by
  cases op with
  | peek => exact c.advance_zero.symm
  | peekByte => exact c.advance_zero.symm
  | decode => exact c.advance_zero.symm
  | advance n => rfl
  | scan p limit => exact p.cursor_scan m limit.toNat c

theorem strides_le_reach (m : Memory) (c : Cursor) (op : Operation) : c.strides m op ≤ op.reach := by
  cases op with
  | scan p limit => exact Pattern.walked_le m p.array limit.toNat c
  | _ => exact Nat.le_refl _

/-! ## Runs -/

def afterAll (m : Memory) (c : Cursor) (ops : List Operation) : Cursor := ops.foldl (after m) c

def stridesAll (m : Memory) (c : Cursor) : List Operation → Nat
  | [] => 0
  | op :: ops => c.strides m op + stridesAll m (c.after m op) ops

/-- **From operation to operation the offset does not fall.** -/
def Grows (m : Memory) (c : Cursor) : List Operation → Prop
  | [] => True
  | op :: ops => c.offset ≤ (c.after m op).offset ∧ Grows m (c.after m op) ops

theorem afterAll_eq (m : Memory) (c : Cursor) : ∀ ops : List Operation, c.afterAll m ops = c.advance (c.stridesAll m ops)
  | [] => c.advance_zero.symm
  | op :: ops => by
    rw [afterAll, List.foldl_cons, ← afterAll, afterAll_eq m (c.after m op) ops, stridesAll, ← c.advance_advance,
      ← after_eq]

theorem toNat_advance (c : Cursor) (n : Nat) : (c.advance n).offset.toNat = (c.offset.toNat + n) % UInt64.size := by
  rw [advance, UInt64.toNat_add, UInt64.toNat_ofNat', Nat.add_mod_mod]

theorem offset_afterAll (m : Memory) (c : Cursor) (ops : List Operation) :
    (c.afterAll m ops).offset.toNat = (c.offset.toNat + c.stridesAll m ops) % UInt64.size := by
  rw [afterAll_eq, toNat_advance]

theorem le_advance_iff {n : Nat} (hn : n < UInt64.size) :
    c.offset ≤ (c.advance n).offset ↔ c.offset.toNat + n < UInt64.size := by
  have hc : c.offset.toNat < UInt64.size := c.offset.toNat_lt
  rw [UInt64.le_iff_toNat_le, toNat_advance]
  constructor
  · intro h
    by_contra hover
    -- past the end the offset is short of where it was by what is missing to a full round
    rw [Nat.mod_eq_sub_mod (by omega), Nat.mod_eq_of_lt (by omega)] at h
    omega
  · intro h
    rw [Nat.mod_eq_of_lt h]
    exact Nat.le_add_right _ _

/-- **A walk that fits a word never goes back, and any other does**, as long as no single operation is a round of its
own. -/
theorem grows_iff (h : ∀ op ∈ ops, op.reach < UInt64.size) :
    c.Grows m ops ↔ c.offset.toNat + c.stridesAll m ops < UInt64.size := by
  induction ops generalizing c with
  | nil => exact iff_of_true trivial c.offset.toNat_lt
  | cons op ops ih =>
    obtain ⟨hop, hops⟩ := List.forall_mem_cons.1 h
    have hstride : c.strides m op < UInt64.size := Nat.lt_of_le_of_lt (c.strides_le_reach m op) hop
    rw [Grows, ih hops, stridesAll, after_eq, le_advance_iff hstride, toNat_advance, ← after_eq]
    constructor
    · rintro ⟨hfits, hrest⟩
      rw [Nat.mod_eq_of_lt hfits] at hrest
      omega
    · intro hall
      have hfits : c.offset.toNat + c.strides m op < UInt64.size := by omega
      rw [Nat.mod_eq_of_lt hfits]
      exact ⟨hfits, by omega⟩

/-- **How far operations take a cursor.**  Its offset is the bytes they walk, counted around the word; and from operation
to operation it does not fall just if the whole walk fits the word. -/
theorem walk_grows_iff (m : Memory) (c : Cursor) (ops : List Operation) (h : ∀ op ∈ ops, op.reach < UInt64.size) :
    (c.afterAll m ops).offset.toNat = (c.offset.toNat + c.stridesAll m ops) % UInt64.size ∧
    (c.Grows m ops ↔ c.offset.toNat + c.stridesAll m ops < UInt64.size) :=
  ⟨c.offset_afterAll m ops, grows_iff h⟩

/-- A memory of nothing but the bytes `90 cc`. -/
def smallMemory : Memory := (Image.mk ⟨#[0x90, 0xcc]⟩ ⟨0x1000⟩).memory

/-- A search that steps over one byte and a walk of three more bytes. -/
theorem walk_grows_iff_smallMemory :
    (∀ op ∈ [Operation.scan ⟨[0xcc], none⟩ 7, .decode, .advance 3], op.reach < UInt64.size) ∧
    ((⟨⟨0x1000⟩, 0⟩ : Cursor).afterAll smallMemory [.scan ⟨[0xcc], none⟩ 7, .decode, .advance 3]).offset.toNat = 5 ∧
    (⟨⟨0x1000⟩, 0⟩ : Cursor).Grows smallMemory [.scan ⟨[0xcc], none⟩ 7, .decode, .advance 3] := by
  have hreach : ∀ op ∈ [Operation.scan ⟨[0xcc], none⟩ 7, .decode, .advance 3], op.reach < UInt64.size := by decide
  have hstrides : (⟨⟨0x1000⟩, 0⟩ : Cursor).stridesAll smallMemory [.scan ⟨[0xcc], none⟩ 7, .decode, .advance 3] = 5 := by
    decide +kernel
  obtain ⟨hoffset, hgrows⟩ := walk_grows_iff smallMemory ⟨⟨0x1000⟩, 0⟩ _ hreach
  rw [hstrides] at hoffset hgrows
  exact ⟨hreach, hoffset, hgrows.2 (by decide)⟩

/-- **At the end of the word one byte forward leads back to the base.** -/
theorem not_always_grows :
    ¬ (⟨⟨0x1000⟩, 0⟩ : Cursor).Grows smallMemory [.advance 0xffffffffffffffff, .advance 1] := by
  rintro ⟨-, hfalls, -⟩
  exact absurd hfalls (by decide)

end Cursor
end BranchChain
