import BranchChain.Proofs.Recovering
/-!
# Proofs.Relocating — a memory moved as a whole

Nothing in a recovery compares addresses with a fixed place, so where a memory lies does not matter.  Moved by any
number of bytes, also across the end of the address space, it is recovered from the moved entry with the same result,
in which the addresses are moved along (`Recipe.Ends.moved`).
-/
namespace BranchChain

/-! ## What moving does to addresses and to what holds them -/

theorem Address.add_right_comm (a : Address) (d n : UInt64) : a + d + n = a + n + d := by
  simp only [add_def, UInt64.add_assoc, UInt64.add_comm d]

theorem Address.offsetFrom_moved (a base : Address) (d : UInt64) : (a + d).offsetFrom (base + d) = a.offsetFrom base := by
  rw [offsetFrom_add, offsetFrom_base_add, UInt64.sub_add_cancel]

/-- The end of a memory moves with it. -/
def Fault.moved (d : UInt64) : Fault → Fault
  | .outOfBounds a => .outOfBounds (a + d)
  | f => f

def DecodeError.moved (d : UInt64) : DecodeError → DecodeError
  | .memory f => .memory (f.moved d)
  | e => e

def BuildError.moved (d : UInt64) : BuildError → BuildError
  | .memory f => .memory (f.moved d)
  | e => e

def Branch.moved (d : UInt64) (b : Branch) : Branch := { b with address := b.address + d }

def Slot.moved (d : UInt64) (s : Slot) : Slot := { s with target := s.target + d }

/-- **The table of a function that lies elsewhere**: of all its numbers only the entry and the targets are addresses. -/
def Table.moved (d : UInt64) (t : Table) : Table := ⟨t.entry + d, t.preambleOffset, t.slots.map (Slot.moved d)⟩

/-- A result with its addresses moved; a trap has none. -/
def Recipe.resultMoved (d : UInt64) : Except (Halt BuildError) Table → Except (Halt BuildError) Table
  | .ok t => .ok (t.moved d)
  | .error h => .error (h.map (.moved d))

theorem BuildError.map_ofDecode_moved (d : UInt64) (index : Nat) (offset : UInt64) (h : Halt DecodeError) :
    (h.map (DecodeError.moved d)).map (ofDecode index offset) = (h.map (ofDecode index offset)).map (.moved d) := by
  match h with
  | .fail (.unknownOpcode bytes) | .fail (.memory f) | .trap t => rfl

theorem Branch.target_moved (d : UInt64) (b : Branch) : (b.moved d).target = b.target + d := by
  show b.address + d + UInt64.ofNat b.length + b.displacement.toUInt64 =
    b.address + UInt64.ofNat b.length + b.displacement.toUInt64 + d
  rw [Address.add_right_comm b.address d, Address.add_right_comm _ d]

theorem Slot.ofBranch_moved (index : Nat) (entry : Address) (d : UInt64) (b : Branch) :
    ofBranch index (entry + d) (b.moved d) = (ofBranch index entry b).moved d := by
  have hsite : (b.address + d - (entry + d)).toUInt64 = (b.address - entry).toUInt64 :=
    Address.offsetFrom_moved b.address entry d
  show Slot.mk index (b.moved d).target (b.address + d - (entry + d)).toUInt64 b.form b.displacement = _
  rw [hsite, Branch.target_moved]
  rfl

theorem Jump.placed_moved (d : UInt64) (j : Jump) (a : Address) : (j.placed a).moved d = j.placed (a + d) := rfl

theorem Jump.slots_moved (entry : Address) (d : UInt64) : ∀ (index offset : Nat) (js : List Jump),
    slots (entry + d) index offset js = (slots entry index offset js).map (Slot.moved d)
  | _, _, [] => rfl
  | index, offset, j :: js => by
    rw [slots, Address.add_right_comm, ← placed_moved, Slot.ofBranch_moved, slots_moved entry d, slots, List.map_cons]

/-! ## Memories moved -/

/-- **The second memory is the first one moved forward**: it answers `d` bytes further on as the first one did. -/
def Memory.MovesTo (m m' : Memory) (d : UInt64) : Prop :=
  ∀ a n, m'.read (a + d) n = (m.read a n).mapError (Fault.moved d)

namespace Memory

variable {m m' : Memory} {d : UInt64} {a : Address}

/-- Steps whose answers are renamed make a sequence whose answer is. -/
theorem mapError_bind_map {ε ε' α β γ : Type} {x : Except ε α} {f : α → Except ε β} {f' : α → Except ε' γ} {g : ε → ε'}
    {k : β → γ} (h : ∀ y, f' y = ((f y).map k).mapError g) : (x.mapError g >>= f') = ((x >>= f).map k).mapError g := by
  cases x with
  | error e => rfl
  | ok y => exact h y

theorem byteAt_bind_map {ε ε' β γ : Type} {bytes : ByteArray} {i : Nat} {f : UInt8 → Except (Halt ε) β}
    {f' : UInt8 → Except (Halt ε') γ} {g : ε → ε'} {k : β → γ} (h : ∀ y, f' y = ((f y).map k).mapError (Halt.map g)) :
    (byteAt bytes i >>= f') = ((byteAt bytes i >>= f).map k).mapError (Halt.map g) := by
  rw [← mapError_byteAt (g := g) bytes i]
  exact mapError_bind_map h

theorem MovesTo.read_at (h : m.MovesTo m' d) (a : Address) (w : UInt64) (n : Nat) :
    m'.read (a + d + w) n = (m.read (a + w) n).mapError (Fault.moved d) := by
  rw [Address.add_right_comm]
  exact h (a + w) n

theorem MovesTo.missedAt (h : m.MovesTo m' d) {p : Pattern} {w : UInt64} (hp : p.MissedAt m (a + w)) :
    p.MissedAt m' (a + d + w) := by
  obtain ⟨b, hb, hne⟩ := hp
  exact ⟨b, by rw [h.read_at, hb]; rfl, hne⟩

theorem MovesTo.foundAt (h : m.MovesTo m' d) {p : Pattern} {w : UInt64} (hp : p.FoundAt m (a + w)) :
    p.FoundAt m' (a + d + w) := by
  obtain ⟨b, hb, heq⟩ := hp
  exact ⟨b, by rw [h.read_at, hb]; rfl, heq⟩

theorem MovesTo.byte_eq (h : m.MovesTo m' d) (a : Address) :
    (m'.byte (a + d)).mapError (Halt.map .memory) =
      ((m.byte a).mapError (Halt.map .memory)).mapError (Halt.map (DecodeError.moved d)) := by
  rw [byte, h, byte]
  cases m.read a 1 with
  | error f => rfl
  | ok reply =>
    show (byteAt reply 0).mapError _ = ((byteAt reply 0).mapError _).mapError _
    rw [mapError_byteAt, mapError_byteAt]

theorem MovesTo.fetch_eq (h : m.MovesTo m' d) (a : Address) (n : Nat) :
    m'.fetch (a + d) n = (m.fetch a n).mapError (Halt.map (DecodeError.moved d)) := by
  rw [fetch, h, fetch]
  cases m.read a n <;> rfl

theorem MovesTo.branchAt_eq (h : m.MovesTo m' d) (a : Address) :
    m'.branchAt (a + d) = ((m.branchAt a).map (Branch.moved d)).mapError (Halt.map (DecodeError.moved d)) := by
  -- a moved read ends as the read it stands for, with the same bytes, so both decoders take the same way
  unfold branchAt
  rw [h.byte_eq]
  refine mapError_bind_map fun first => ?_
  split
  · rw [h.fetch_eq]
    exact mapError_bind_map fun raw => byteAt_bind_map fun _ => rfl
  split
  · rw [h.fetch_eq]
    refine mapError_bind_map fun opcode => byteAt_bind_map fun y => ?_
    split
    · rw [h.fetch_eq]
      refine mapError_bind_map fun raw => byteAt_bind_map fun _ => byteAt_bind_map fun _ => ?_
      exact byteAt_bind_map fun _ => byteAt_bind_map fun _ => rfl
    · rfl
  · rfl

theorem MovesTo.decodes (h : m.MovesTo m' d) : ∀ {js : List Jump} {a : Address}, m.Decodes a js →
    m'.Decodes (a + d) js
  | [], _, _ => trivial
  | j :: js, a, ⟨hj, hjs⟩ => by
    refine ⟨by rw [h.branchAt_eq, hj]; rfl, ?_⟩
    rw [Address.add_right_comm]
    exact h.decodes hjs

end Memory

/-- The same bytes at a base further on. -/
def Image.moved (im : Image) (d : UInt64) : Image := ⟨im.bytes, im.base + d⟩

theorem Image.movesTo_moved (im : Image) (d : UInt64) : im.memory.MovesTo (im.moved d).memory d := by
  intro a n
  have hidx : (im.moved d).indexOf (a + d) = im.indexOf a :=
    congrArg UInt64.toNat (Address.offsetFrom_moved a im.base d)
  rcases Nat.lt_or_ge im.size (im.indexOf a + n) with hlt | hle
  · rw [im.read_error a n hlt, (im.moved d).read_error (a + d) n (by rw [hidx]; exact hlt)]
    rfl
  · obtain ⟨b, hb, hl⟩ := im.read_ok a n hle
    rw [hb]
    refine read_ok_iff.2 ⟨by rw [hidx]; exact hle, ?_⟩
    rw [hl, behind, behind, hidx]
    rfl

namespace Recipe

variable {r : Recipe} {m m' : Memory} {d : UInt64} {entry : Address}

theorem tableOf_moved (r : Recipe) (entry : Address) (d : UInt64) (k : Nat) (js : List Jump) :
    r.tableOf (entry + d) k js = (r.tableOf entry k js).moved d := by
  rw [tableOf, Jump.slots_moved]
  rfl

theorem Meets.moved (hm : m.MovesTo m' d) {k : Nat} (h : r.Meets m entry k) : r.Meets m' (entry + d) k where
  lt_limit := h.lt_limit
  missed j hj := hm.missedAt (h.missed j hj)
  found := hm.foundAt h.found

/-- **Each way a recovery ends has its like in the moved memory.** -/
theorem Ends.moved {x : Except (Halt BuildError) Table} (hm : m.MovesTo m' d) (h : r.Ends m entry x) :
    r.Ends m' (entry + d) (resultMoved d x) := by
  cases h with
  | exhausted missed => exact .exhausted fun j hj => hm.missedAt (missed j hj)
  | ended lt missed fault =>
    exact .ended lt (fun j hj => hm.missedAt (missed j hj)) (by rw [hm.read_at, fault]; rfl)
  | @faulted k f lt missed fault other =>
    refine .faulted lt (fun j hj => hm.missedAt (missed j hj)) (by rw [hm.read_at, fault]; rfl) fun x hx => ?_
    cases f with
    | outOfBounds y => exact other y rfl
    | io cause => cases hx
    | invalidAddress written => cases hx
  | overfull met excess => exact .overfull (met.moved hm) excess
  | @undecoded k js h met fits decodes lt stop =>
    show r.Ends m' (entry + d) (.error ((h.map (.ofDecode _ _)).map (.moved d)))
    rw [← BuildError.map_ofDecode_moved]
    refine .undecoded (met.moved hm) fits ?_ lt ?_ <;> rw [Address.add_right_comm]
    · exact hm.decodes decodes
    · rw [hm.branchAt_eq, stop]
      rfl
  | @complete k js met fits decodes all =>
    show r.Ends m' (entry + d) (.ok ((r.tableOf entry k js).moved d))
    rw [← tableOf_moved]
    refine .complete (met.moved hm) fits ?_ all
    rw [Address.add_right_comm]
    exact hm.decodes decodes

/-- **Recovery moves with the image.**  The same bytes at another base give the same result from the entry moved along:
a table has its entry and its targets moved and nothing else, an end of the data met among the branches is met at the
moved address, and every other error stays as it is. -/
theorem build_image_moved (r : Recipe) (im : Image) (entry : Address) (d : UInt64) :
    r.build (im.moved d).memory (entry + d) = resultMoved d (r.build im.memory entry) :=
  build_of_ends ((build_eq_iff.1 rfl).moved (im.movesTo_moved d))

end Recipe
end BranchChain
