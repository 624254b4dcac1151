import BranchChain.Proofs.Recovering
/-!
# Proofs.Changing — memories that change while they are read

A memory in use may change between two reads: bytes read twice may differ, and a read may fail that succeeded before.
Every read then has a state to start from and a state to leave behind.  Recovery over such a memory does what it does
over any other, read by read (`Recipe.buildChanging`), and where nothing changes it is the recovery proper
(`Recipe.buildChanging_still`).

No table is out of order for that.  The form of a branch and its displacement come from reads that need not agree, but
the displacement is read in the width of that form, and all offsets and targets are counted by the walk itself: whatever
the memory answers, a table is the table of some jumps behind an anchor within the limit
(`Recipe.exists_tableOf_of_buildChanging`), and such a table is in order (`Recipe.coherent_tableOf`).
-/
namespace BranchChain

/-! ## Recovery over a changing memory -/

/-- **A memory with a state**, which each read may look at and change. -/
structure ChangingMemory (σ : Type) where
  read : Address → Nat → StateM σ (Except Fault ByteArray)

/-- A memory that has no state, so that nothing changes. -/
def Memory.still (m : Memory) : ChangingMemory Unit where
  read a n := return m.read a n

/-- A step that neither looks at the state nor changes it. -/
def settled {σ ε α : Type} (x : Except ε α) : ExceptT ε (StateM σ) α := ExceptT.mk (pure x)

namespace ChangingMemory

/-- A memory that has its answers ready, one for each read, whatever is asked for; where none is left, it ends. -/
def scripted : ChangingMemory (List (List UInt8)) where
  read a _
    | [] => (.error (.outOfBounds a), [])
    | bytes :: rest => (.ok ⟨bytes.toArray⟩, rest)

variable {σ : Type}

def fetch (m : ChangingMemory σ) (a : Address) (n : Nat) : ExceptT (Halt DecodeError) (StateM σ) ByteArray :=
  ExceptT.mk (Except.mapError (fun f => .fail (.memory f)) <$> m.read a n)

def branchAt (m : ChangingMemory σ) (a : Address) : ExceptT (Halt DecodeError) (StateM σ) Branch := do
  let reply ← m.fetch a 1
  let first ← settled (byteAt reply 0)
  if first = jneShort then
    let raw ← m.fetch a 2
    return ⟨a, .short, rel8 (← settled (byteAt raw 1))⟩
  else if first = escape then
    let opcode ← m.fetch a 2
    if (← settled (byteAt opcode 1)) = jneNear then
      let raw ← m.fetch a 6
      return ⟨a, .near, rel32 (← settled (byteAt raw 2)) (← settled (byteAt raw 3)) (← settled (byteAt raw 4))
        (← settled (byteAt raw 5))⟩
    else throw (.fail (.unknownOpcode opcode.data.toList))
  else throw (.fail (.unknownOpcode [first]))

def seek (m : ChangingMemory σ) (wanted : ByteArray) : Nat → Cursor → StateM σ (Pattern.Finding × Cursor)
  | 0, c => return (.missing, c)
  | n + 1, c => do
    match ← m.read c.position wanted.size with
    | .error (.outOfBounds _) => return (.missing, c)
    | .error f => return (.faulted f, c)
    | .ok reply =>
      if Pattern.startsWith reply wanted then return (.found c.offset, c.advance wanted.size)
      else m.seek wanted n (c.advance 1)

def chain (m : ChangingMemory σ) (entry : Address) : Nat → Nat → Cursor → StateM σ Chain
  | 0, _, _ => return ⟨[], none⟩
  | n + 1, index, c => do
    match ← (m.branchAt c.position).run with
    | .error h => return ⟨[], some (h.map (.ofDecode index c.offset))⟩
    | .ok b =>
      let rest ← m.chain entry n (index + 1) (c.advance b.length)
      return ⟨.ofBranch index entry b :: rest.slots, rest.stop⟩

end ChangingMemory

/-- **Search and decode**, with the state handed on from read to read. -/
def Recipe.buildChanging {σ : Type} (r : Recipe) (m : ChangingMemory σ) (entry : Address) :
    StateM σ (Except (Halt BuildError) Table) := do
  match ← m.seek r.anchor.array r.scanLimit ⟨entry, 0⟩ with
  | (.missing, _) => return .error (.fail (.preambleNotFound r.scanLimit))
  | (.faulted f, _) => return .error (.fail (.memory f))
  | (.found offset, c) =>
    if Table.capacity < r.branchCount then return .error (.trap .capacity)
    else
      let chain ← m.chain entry r.branchCount 0 c
      match chain.stop with
      | some h => return .error h
      | none => return .ok ⟨entry, offset, chain.slots⟩

/-! ## Where nothing changes -/

namespace Memory

/-- Steps that are settled make a sequence that is. -/
theorem settled_bind {σ ε α β : Type} (x : Except ε α) {f : α → ExceptT ε (StateM σ) β} {g : α → Except ε β}
    (h : ∀ a, f a = settled (g a)) : (settled x >>= f) = settled (x >>= g) := by
  cases x with
  | error e => rfl
  | ok a => exact h a

theorem byte_bind {β : Type} (m : Memory) (a : Address) (f : UInt8 → Except (Halt DecodeError) β) :
    ((m.byte a).mapError (Halt.map .memory) >>= f) = (m.fetch a 1 >>= fun reply => byteAt reply 0 >>= f) := by
  unfold byte fetch
  cases m.read a 1 with
  | error e => rfl
  | ok reply =>
    show ((byteAt reply 0).mapError (Halt.map DecodeError.memory) >>= f) = (byteAt reply 0 >>= f)
    rw [mapError_byteAt]

theorem branchAt_still (m : Memory) (a : Address) : m.still.branchAt a = settled (m.branchAt a) := by
  unfold branchAt
  rw [byte_bind]
  refine settled_bind (m.fetch a 1) fun reply => settled_bind (byteAt reply 0) fun first => ?_
  by_cases hs : first = jneShort
  · rw [if_pos hs, if_pos hs]
    exact settled_bind (m.fetch a 2) fun raw => settled_bind (byteAt raw 1) fun _ => rfl
  rw [if_neg hs, if_neg hs]
  by_cases he : first = escape
  · rw [if_pos he, if_pos he]
    refine settled_bind (m.fetch a 2) fun opcode => settled_bind (byteAt opcode 1) fun y => ?_
    by_cases hn : y = jneNear
    · rw [if_pos hn, if_pos hn]
      refine settled_bind (m.fetch a 6) fun raw => settled_bind (byteAt raw 2) fun _ => ?_
      refine settled_bind (byteAt raw 3) fun _ => settled_bind (byteAt raw 4) fun _ => ?_
      exact settled_bind (byteAt raw 5) fun _ => rfl
    · rw [if_neg hn, if_neg hn]
      rfl
  · rw [if_neg he, if_neg he]
    rfl

theorem seek_still (m : Memory) (wanted : ByteArray) : ∀ (n : Nat) (c : Cursor),
    m.still.seek wanted n c = pure (Pattern.seek m wanted n c)
  | 0, c => rfl
  | n + 1, c => by
    have hread : m.still.read c.position wanted.size = pure (c.peek m wanted.size) := rfl
    rw [ChangingMemory.seek, Pattern.seek, hread, pure_bind]
    cases c.peek m wanted.size with
    | error f => cases f <;> rfl
    | ok reply =>
      dsimp only
      split
      · rfl
      · exact seek_still m wanted n (c.advance 1)

theorem chain_still (m : Memory) (entry : Address) : ∀ (n index : Nat) (c : Cursor),
    m.still.chain entry n index c = pure (m.chain entry n index c)
  | 0, _, _ => rfl
  | n + 1, index, c => by
    rw [ChangingMemory.chain, chain, branchAt_still, settled, ExceptT.run_mk, pure_bind]
    cases m.branchAt c.position with
    | error h => rfl
    | ok b =>
      dsimp only
      rw [chain_still, pure_bind]

end Memory

/-- **Over a memory that does not change, both recoveries are one.** -/
theorem Recipe.buildChanging_still (r : Recipe) (m : Memory) (entry : Address) :
    r.buildChanging m.still entry = pure (r.build m entry) := by
  unfold buildChanging build recover Pattern.scan
  rw [m.seek_still, pure_bind]
  match Pattern.seek m r.anchor.array r.scanLimit ⟨entry, 0⟩ with
  | (.missing, c) => rfl
  | (.faulted f, c) => rfl
  | (.found offset, c) =>
    dsimp only
    split
    · rfl
    · rw [m.chain_still, pure_bind]
      cases (m.chain entry r.branchCount 0 c).stop <;> rfl

/-! ## What no change can spoil -/

/-- Steps one behind the other: the second starts in the state the first one leaves. -/
theorem bind_run {σ α β : Type} (x : StateM σ α) (f : α → StateM σ β) (s : σ) : (x >>= f) s = f (x s).1 (x s).2 := rfl

theorem of_bind_run_ok {σ ε α β : Type} {x : ExceptT ε (StateM σ) α} {f : α → ExceptT ε (StateM σ) β} {s : σ} {b : β}
    (h : ((x >>= f).run s).1 = .ok b) : ∃ a s', ((f a).run s').1 = .ok b := by
  change (ExceptT.bindCont f (x.run s).1 (x.run s).2).1 = .ok b at h
  cases hx : (x.run s).1 with
  | error e =>
    rw [hx] at h
    cases h
  | ok a =>
    rw [hx] at h
    exact ⟨a, _, h⟩

namespace ChangingMemory

variable {σ : Type} {m : ChangingMemory σ} {entry : Address}

/-- **A branch is a jump in place**, even if the reads it was put together from disagree. -/
theorem exists_placed_of_branchAt {a : Address} {s : σ} {b : Branch} (h : ((m.branchAt a).run s).1 = .ok b) :
    ∃ j : Jump, b = j.placed a := by
  unfold branchAt at h
  obtain ⟨reply, s1, h⟩ := of_bind_run_ok h
  obtain ⟨first, s2, h⟩ := of_bind_run_ok h
  split at h
  · obtain ⟨raw, s3, h⟩ := of_bind_run_ok h
    obtain ⟨d, s4, h⟩ := of_bind_run_ok h
    cases h
    exact ⟨.ofByte d, rfl⟩
  · split at h
    · obtain ⟨opcode, s3, h⟩ := of_bind_run_ok h
      obtain ⟨y, s4, h⟩ := of_bind_run_ok h
      split at h
      · obtain ⟨raw, s5, h⟩ := of_bind_run_ok h
        obtain ⟨b0, s6, h⟩ := of_bind_run_ok h
        obtain ⟨b1, s7, h⟩ := of_bind_run_ok h
        obtain ⟨b2, s8, h⟩ := of_bind_run_ok h
        obtain ⟨b3, s9, h⟩ := of_bind_run_ok h
        cases h
        exact ⟨.ofBytes b0 b1 b2 b3, rfl⟩
      · cases h
    · cases h

theorem of_seek_found {wanted : ByteArray} : ∀ {n offset : Nat} {s : σ} {found : UInt64} {c : Cursor},
    (m.seek wanted n ⟨entry, UInt64.ofNat offset⟩ s).1 = (.found found, c) →
    ∃ k < n, found = UInt64.ofNat (offset + k) ∧ c = ⟨entry, UInt64.ofNat (offset + k + wanted.size)⟩
  | 0, _, _, _, _, h => by cases h
  | n + 1, offset, s, found, c, h => by
    rw [seek, bind_run] at h
    cases hr : (m.read (⟨entry, UInt64.ofNat offset⟩ : Cursor).position wanted.size s).1 with
    | error f =>
      rw [hr] at h
      cases f <;> cases h
    | ok reply =>
      rw [hr] at h
      dsimp only at h
      split at h
      · cases h
        exact ⟨0, Nat.succ_pos n, rfl, Cursor.advance_ofNat entry offset wanted.size⟩
      · rw [Cursor.advance_ofNat] at h
        obtain ⟨k, hk, rfl, rfl⟩ := of_seek_found h
        refine ⟨k + 1, Nat.succ_lt_succ hk, ?_, ?_⟩ <;> rw [Nat.add_assoc offset 1, Nat.add_comm 1]

theorem chain_slots (m : ChangingMemory σ) (entry : Address) : ∀ (n index offset : Nat) (s : σ),
    ∃ js, (m.chain entry n index ⟨entry, UInt64.ofNat offset⟩ s).1.slots = Jump.slots entry index offset js ∧
      ((m.chain entry n index ⟨entry, UInt64.ofNat offset⟩ s).1.stop = none → js.length = n)
  | 0, _, _, _ => ⟨[], rfl, fun _ => rfl⟩
  | n + 1, index, offset, s => by
    rw [chain, bind_run]
    cases hb : ((m.branchAt (⟨entry, UInt64.ofNat offset⟩ : Cursor).position).run s).1 with
    | error e => exact ⟨[], rfl, fun h => by cases h⟩
    | ok b =>
      -- the walk goes on by the length of this jump, in whatever state its reads have left
      obtain ⟨j, rfl⟩ := exists_placed_of_branchAt hb
      dsimp only
      rw [bind_run, Cursor.advance_ofNat]
      obtain ⟨js, hslots, hall⟩ := chain_slots m entry n (index + 1) (offset + j.length) _
      refine ⟨j :: js, ?_, fun h => ?_⟩
      · rw [Jump.slots]
        exact congrArg (List.cons _) hslots
      · rw [List.length_cons, hall h]

end ChangingMemory

namespace Recipe

variable {σ : Type} {r : Recipe} {entry : Address}

theorem of_buildChanging_ok {m : ChangingMemory σ} {s : σ} {t : Table} (h : (r.buildChanging m entry s).1 = .ok t) :
    ∃ offset c s', (m.seek r.anchor.array r.scanLimit ⟨entry, 0⟩ s).1 = (.found offset, c) ∧
      (m.chain entry r.branchCount 0 c s').1.stop = none ∧
      t = ⟨entry, offset, (m.chain entry r.branchCount 0 c s').1.slots⟩ := by
  rw [buildChanging, bind_run] at h
  rcases hs : (m.seek r.anchor.array r.scanLimit ⟨entry, 0⟩ s).1 with ⟨offset | _ | f, c⟩ <;> rw [hs] at h
  · dsimp only at h
    split at h
    · cases h
    rw [bind_run] at h
    refine ⟨offset, c, (m.seek r.anchor.array r.scanLimit ⟨entry, 0⟩ s).2, rfl, ?_⟩
    cases hstop : (m.chain entry r.branchCount 0 c (m.seek r.anchor.array r.scanLimit ⟨entry, 0⟩ s).2).1.stop with
    | some e =>
      rw [hstop] at h
      cases h
    | none =>
      rw [hstop] at h
      cases h
      exact ⟨rfl, rfl⟩
  · cases h
  · cases h

/-- **Whatever the memory answers, a table is the table of some jumps** behind an anchor within the limit. -/
theorem exists_tableOf_of_buildChanging {m : ChangingMemory σ} {s : σ} {t : Table}
    (h : (r.buildChanging m entry s).1 = .ok t) :
    ∃ k js, k < r.scanLimit ∧ js.length = r.branchCount ∧ t = r.tableOf entry k js := by
  obtain ⟨offset, c, s', hseek, hstop, rfl⟩ := of_buildChanging_ok h
  have hfound : (m.seek r.anchor.array r.scanLimit ⟨entry, UInt64.ofNat 0⟩ s).1 = (.found offset, c) := hseek
  obtain ⟨k, hk, rfl, rfl⟩ := ChangingMemory.of_seek_found hfound
  rw [Nat.zero_add] at hstop ⊢
  obtain ⟨js, hslots, hall⟩ := m.chain_slots entry r.branchCount 0 (k + r.anchor.length) s'
  exact ⟨k, js, hk, hall hstop, congrArg (Table.mk entry (UInt64.ofNat k)) hslots⟩

end Recipe

/-! ## Tables in order -/

/-- **A table in order**: its slots count up, each begins where the one before it ends, and every target is reached from
its own branch by a displacement that the branch can hold. -/
structure Table.Coherent (t : Table) (r : Recipe) (entry : Address) : Prop where
  entry_eq : t.entry = entry
  preambleOffset_lt : t.preambleOffset.toNat < r.scanLimit
  length_slots : t.slots.length = r.branchCount
  index_eq : ∀ i (s : Slot), t.slots[i]? = some s → s.index = i
  first : ∀ s : Slot, t.slots[0]? = some s → s.siteOffset = t.preambleOffset + UInt64.ofNat r.anchor.length
  next : ∀ i (s s' : Slot), t.slots[i]? = some s → t.slots[i + 1]? = some s' →
    s'.siteOffset = s.siteOffset + UInt64.ofNat s.form.length
  fits : ∀ s ∈ t.slots, s.form.Fits s.displacement
  target_eq : ∀ s ∈ t.slots, s.target = (entry + s.siteOffset + UInt64.ofNat s.form.length).shift s.displacement

namespace Recipe

variable {r : Recipe} {entry : Address}

theorem getElem?_tableOf {k i : Nat} {js : List Jump} {s : Slot} (h : (r.tableOf entry k js).slots[i]? = some s) :
    ∃ j, js[i]? = some j ∧
      s = .ofBranch i entry (j.placed (entry + UInt64.ofNat (k + r.anchor.length + Jump.total (js.take i)))) := by
  rw [tableOf, Jump.getElem?_slots, Option.map_eq_some_iff, Nat.zero_add] at h
  obtain ⟨j, hj, rfl⟩ := h
  exact ⟨j, hj, rfl⟩

theorem coherent_tableOf {k : Nat} {js : List Jump} (hk : k < r.scanLimit) (hlen : js.length = r.branchCount) :
    (r.tableOf entry k js).Coherent r entry where
  entry_eq := rfl
  preambleOffset_lt := by
    show (UInt64.ofNat k).toNat < r.scanLimit
    rw [UInt64.toNat_ofNat']
    exact Nat.lt_of_le_of_lt (Nat.mod_le k _) hk
  length_slots := by rw [tableOf, Jump.length_slots, hlen]
  index_eq i s hs := by
    obtain ⟨j, -, rfl⟩ := getElem?_tableOf hs
    rfl
  first s hs := by
    obtain ⟨j, -, rfl⟩ := getElem?_tableOf hs
    rw [Jump.siteOffset_placed, List.take_zero]
    exact UInt64.ofNat_add k r.anchor.length
  next i s s' hs hs' := by
    obtain ⟨j, hj, rfl⟩ := getElem?_tableOf hs
    obtain ⟨j', -, rfl⟩ := getElem?_tableOf hs'
    have htotal : Jump.total (js.take (i + 1)) = Jump.total (js.take i) + j.length := by
      rw [List.take_add_one, hj, Jump.total_append]
      rfl
    rw [Jump.siteOffset_placed, Jump.siteOffset_placed, htotal, ← Nat.add_assoc, UInt64.ofNat_add]
    rfl
  fits s hs := by
    obtain ⟨i, hi⟩ := List.mem_iff_getElem?.1 hs
    obtain ⟨j, -, rfl⟩ := getElem?_tableOf hi
    exact j.fits
  target_eq s hs := by
    obtain ⟨i, hi⟩ := List.mem_iff_getElem?.1 hs
    obtain ⟨j, -, rfl⟩ := getElem?_tableOf hi
    rw [Slot.address_eq]
    rfl

/-- **Every table is in order, whatever memory it comes from**: one that changes while it is read, in any state, and so
one that does not, over which the recovery is the recovery proper. -/
theorem build_coherent (r : Recipe) (entry : Address) :
    (∀ {σ : Type} (m : ChangingMemory σ) (s : σ) (t : Table), (r.buildChanging m entry s).1 = .ok t →
      t.Coherent r entry) ∧
    (∀ (m : Memory) (t : Table), r.build m entry = .ok t → t.Coherent r entry) ∧
    ∀ m : Memory, r.buildChanging m.still entry = pure (r.build m entry) := by
  have hchanging : ∀ {σ : Type} (m : ChangingMemory σ) (s : σ) (t : Table),
      (r.buildChanging m entry s).1 = .ok t → t.Coherent r entry := by
    intro σ m s t h
    obtain ⟨k, js, hk, hlen, rfl⟩ := exists_tableOf_of_buildChanging h
    exact coherent_tableOf hk hlen
  refine ⟨hchanging, fun m t h => ?_, fun m => r.buildChanging_still m entry⟩
  have hstill : (r.buildChanging m.still entry ()).1 = .ok t := by
    rw [r.buildChanging_still, ← h]
    rfl
  exact hchanging m.still () t hstill

/-- Two branches whose first bytes are others when they are read again, behind an anchor at the null address. -/
theorem build_coherent_scripted :
    ∃ t, ((Recipe.mk ⟨[0xcc], none⟩ 5 2).buildChanging .scripted ⟨0xffffffffffffffff⟩
        [[0x90], [0xcc], [0x75], [0x0f, 0xfe], [0x0f], [0x75, 0x85], [0, 0, 0x10, 0, 0, 0x80]]).1 = .ok t ∧
      t.targets = [⟨1⟩, ⟨0xffffffff80000019⟩] ∧ t.Coherent ⟨⟨[0xcc], none⟩, 5, 2⟩ ⟨0xffffffffffffffff⟩ :=
  ⟨_, rfl, rfl, (build_coherent ⟨⟨[0xcc], none⟩, 5, 2⟩ ⟨0xffffffffffffffff⟩).1 .scripted
    [[0x90], [0xcc], [0x75], [0x0f, 0xfe], [0x0f], [0x75, 0x85], [0, 0, 0x10, 0, 0, 0x80]] _ rfl⟩

end Recipe
end BranchChain
