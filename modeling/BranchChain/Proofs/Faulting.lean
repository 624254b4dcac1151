import BranchChain.Proofs.Locality
/-!
# Proofs.Faulting — a hole in the memory

A hole is met by the reads whose range holds it, and by no others.  So a hole behind a table's end is never noticed, and
one before it ends the recovery: as the fault it is among the branches (`Memory.branchAt_faulty`), and on the way to
the anchor as what the search makes of that fault (`Recipe.build_faulty_of_lt_anchor`).
-/
namespace BranchChain

/-- What a search within a limit makes of a fault: the end of a memory is no fault of its own. -/
def BuildError.ofSearchFault (limit : Nat) : Fault → BuildError
  | .outOfBounds _ => .preambleNotFound limit
  | f => .memory f

namespace Memory

variable {m : Memory} {a hole : Address} {f : Fault}

/-! ## Reads beside a hole and over it -/

theorem read_faulty_of_le {n : Nat} (h : n ≤ (hole.offsetFrom a).toNat) : (m.faulty hole f).read a n = m.read a n :=
  if_neg (Nat.not_lt.2 h)

theorem read_faulty_of_lt {n : Nat} (h : (hole.offsetFrom a).toNat < n) : (m.faulty hole f).read a n = .error f :=
  if_pos h

theorem byte_faulty_of_le (h : 1 ≤ (hole.offsetFrom a).toNat) : (m.faulty hole f).byte a = m.byte a := by
  rw [byte, byte, read_faulty_of_le h]

theorem fetch_faulty_of_lt {n : Nat} (h : (hole.offsetFrom a).toNat < n) :
    (m.faulty hole f).fetch a n = .error (.fail (.memory f)) :=
  fetch_eq_error_iff.2 ⟨f, read_faulty_of_lt h, rfl⟩

theorem agreesOn_faulty {size : Nat} (h : size ≤ (hole.offsetFrom a).toNat) : m.AgreesOn (m.faulty hole f) a size := by
  intro i n hi
  apply read_faulty_of_le
  rw [Address.toNat_offsetFrom_base_add (by omega)]
  omega

/-! ## Branches over a hole -/

/-- **A branch with a hole in it is not decoded, and the fault says so**: the decoder reads the whole of a branch, in
two steps or three, and one of them holds the hole. -/
theorem branchAt_faulty {j : Jump} (h : m.Shows a j) (hj : (hole.offsetFrom a).toNat < j.length) :
    (m.faulty hole f).branchAt a = .error (.fail (.memory f)) := by
  rcases Nat.lt_or_ge (hole.offsetFrom a).toNat 1 with h0 | h0
  · exact branchAt_error (byte_eq_error_iff.2 (.inl ⟨f, read_faulty_of_lt h0, rfl⟩))
  cases h with
  | short hfirst hr h1 =>
    have hj2 : (hole.offsetFrom a).toNat < 2 := hj
    exact branchAt_short_error ((byte_faulty_of_le h0).trans hfirst) (fetch_faulty_of_lt hj2)
  | near hfirst ho hopcode hr h2 h3 h4 h5 =>
    have hj6 : (hole.offsetFrom a).toNat < 6 := hj
    rcases Nat.lt_or_ge (hole.offsetFrom a).toNat 2 with h1 | h1
    · exact branchAt_escape_error ((byte_faulty_of_le h0).trans hfirst) (fetch_faulty_of_lt h1)
    · exact branchAt_near_error ((byte_faulty_of_le h0).trans hfirst) ((read_faulty_of_le h1).trans ho) hopcode
        (fetch_faulty_of_lt hj6)

end Memory

/-! ## Recoveries over a hole -/

theorem Pattern.MissedAt.length_pos {p : Pattern} {m : Memory} {a : Address} (h : p.MissedAt m a) : 0 < p.length := by
  obtain ⟨b, -, hne⟩ := h
  apply List.length_pos_iff.2
  rintro h0
  rw [h0] at hne
  exact hne (List.nil_prefix)

namespace Recipe

variable {r : Recipe} {m : Memory} {entry hole : Address} {f : Fault} {k : Nat} {js : List Jump}

theorem build_faulty_of_reach_le (met : r.Meets m entry k) (fits : r.branchCount ≤ Table.capacity)
    (decodes : m.Decodes (entry + UInt64.ofNat (k + r.anchor.length)) js) (all : js.length = r.branchCount)
    (h : r.reach k js ≤ (hole.offsetFrom entry).toNat) :
    r.build (m.faulty hole f) entry = .ok (r.tableOf entry k js) :=
  build_of_agreesOn met fits decodes all (Memory.agreesOn_faulty h)

theorem build_faulty_of_lt_reach (met : r.Meets m entry k) (fits : r.branchCount ≤ Table.capacity)
    (decodes : m.Decodes (entry + UInt64.ofNat (k + r.anchor.length)) js) (all : js.length = r.branchCount)
    (hle : k + r.anchor.length ≤ (hole.offsetFrom entry).toNat) (hlt : (hole.offsetFrom entry).toNat < r.reach k js) :
    r.build (m.faulty hole f) entry = .error (.fail (.memory f)) := by
  unfold reach at hlt
  obtain ⟨before, j, after, rfl, hbefore, hj⟩ :=
    Jump.exists_at ((hole.offsetFrom entry).toNat - (k + r.anchor.length)) js (by omega)
  have hreach : r.reach k before ≤ (hole.offsetFrom entry).toNat := by
    unfold reach
    omega
  -- everything up to the branch with the hole is as before
  have agree : m.AgreesOn (m.faulty hole f) entry (r.reach k before) := Memory.agreesOn_faulty hreach
  obtain ⟨hbefores, hrest⟩ := Memory.decodes_append.1 decodes
  obtain ⟨i, hshows, hij⟩ := Memory.branchAt_eq_ok_iff.1 hrest.1
  rw [← Jump.placed_injective hij, Address.add_ofNat_add] at hshows
  have hstop : (m.faulty hole f).branchAt (entry + UInt64.ofNat (r.reach k before)) = .error (.fail (.memory f)) := by
    refine Memory.branchAt_faulty hshows ?_
    rw [Address.toNat_offsetFrom_base_add hreach]
    unfold reach
    omega
  refine build_of_ends (.undecoded (meets_of_agreesOn met fun i n hi => agree i n ?_) fits
    (Memory.decodes_of_agreesOn hbefores (agree.inside (Nat.le_refl _))) ?_ hstop)
  · unfold reach
    omega
  · rw [← all, List.length_append, List.length_cons]
    omega

theorem build_faulty_of_lt_anchor (met : r.Meets m entry k)
    (h : (hole.offsetFrom entry).toNat < k + r.anchor.length) :
    r.build (m.faulty hole f) entry = .error (.fail (.ofSearchFault r.scanLimit f)) := by
  have hpos : 0 < r.anchor.length := by
    rcases Nat.eq_zero_or_pos k with rfl | hk
    · omega
    · exact (met.missed 0 hk).length_pos
  -- the first position whose window holds the hole
  obtain ⟨i, hi⟩ : ∃ i, i = (hole.offsetFrom entry).toNat + 1 - r.anchor.length := ⟨_, rfl⟩
  have missed : ∀ j < i, r.anchor.MissedAt (m.faulty hole f) (entry + UInt64.ofNat j) := by
    intro j hj
    unfold Pattern.MissedAt
    rw [Memory.agreesOn_faulty (Nat.le_refl _) j _ (by omega)]
    exact met.missed j (by omega)
  have hlimit : i < r.scanLimit := Nat.lt_of_le_of_lt (by omega) met.lt_limit
  have fault : (m.faulty hole f).read (entry + UInt64.ofNat i) r.anchor.length = .error f := by
    apply Memory.read_faulty_of_lt
    rw [Address.toNat_offsetFrom_base_add (by omega)]
    omega
  cases f with
  | outOfBounds x => exact build_of_ends (.ended hlimit missed fault)
  | io cause => exact build_of_ends (.faulted hlimit missed fault (fun x => Fault.noConfusion))
  | invalidAddress written => exact build_of_ends (.faulted hlimit missed fault (fun x => Fault.noConfusion))

/-- **A hole is noticed exactly if it lies before the end of the table, and each part of the walk reports it in its own
way.**  Behind the last branch it changes nothing; among the branches its fault is the error; on the way to the anchor
the error is what the search makes of the fault. -/
theorem build_image_faulty (r : Recipe) (im : Image) (entry : Address) (t : Table) (hsize : im.size < 2 ^ 63)
    (h : r.build im.memory entry = .ok t) (hole : Address) (f : Fault) :
    (t.endOffset r.anchor.length ≤ (hole.offsetFrom entry).toNat →
      r.build (im.memory.faulty hole f) entry = .ok t) ∧
    (t.preambleOffset.toNat + r.anchor.length ≤ (hole.offsetFrom entry).toNat →
      (hole.offsetFrom entry).toNat < t.endOffset r.anchor.length →
      r.build (im.memory.faulty hole f) entry = .error (.fail (.memory f))) ∧
    ((hole.offsetFrom entry).toNat < t.preambleOffset.toNat + r.anchor.length →
      r.build (im.memory.faulty hole f) entry = .error (.fail (.ofSearchFault r.scanLimit f))) ∧
    ((hole.offsetFrom entry).toNat < t.endOffset r.anchor.length →
      ∀ t', r.build (im.memory.faulty hole f) entry ≠ .ok t') := by
  obtain ⟨fits, k, js, hspell, hlen, rfl⟩ := (build_image_eq_tableOf_iff hsize).1 h
  obtain ⟨met, decodes⟩ := (spells_iff hsize).1 hspell
  rw [hspell.endOffset_tableOf hsize, hspell.toNat_preambleOffset hsize]
  refine ⟨build_faulty_of_reach_le met fits decodes hlen, build_faulty_of_lt_reach met fits decodes hlen,
    build_faulty_of_lt_anchor met, fun hlt t' => ?_⟩
  rcases Nat.lt_or_ge (hole.offsetFrom entry).toNat (k + r.anchor.length) with hanchor | hbranch
  · rw [build_faulty_of_lt_anchor met hanchor]
    exact fun h => by cases h
  · rw [build_faulty_of_lt_reach met fits decodes hlen hbranch hlt]
    exact fun h => by cases h

/-- A walk across the end of the address space, with a hole at its first byte, in its last branch and behind it. -/
theorem build_image_faulty_across_zero :
    (Recipe.mk ⟨[0xcc, 0xcd], none⟩ 5 2).build
        ((Image.mk ⟨#[0x90, 0xcc, 0xcd, 0x75, 0x02, 0x0f, 0x85, 0x10, 0x00, 0x00, 0x00, 0xc3]⟩
          ⟨0xfffffffffffffffa⟩).memory.faulty ⟨0xfffffffffffffffa⟩ (.outOfBounds .null)) ⟨0xfffffffffffffffa⟩ =
      .error (.fail (.preambleNotFound 5)) ∧
    (Recipe.mk ⟨[0xcc, 0xcd], none⟩ 5 2).build
        ((Image.mk ⟨#[0x90, 0xcc, 0xcd, 0x75, 0x02, 0x0f, 0x85, 0x10, 0x00, 0x00, 0x00, 0xc3]⟩
          ⟨0xfffffffffffffffa⟩).memory.faulty ⟨4⟩ (.outOfBounds ⟨4⟩)) ⟨0xfffffffffffffffa⟩ =
      .error (.fail (.memory (.outOfBounds ⟨4⟩))) ∧
    (Recipe.mk ⟨[0xcc, 0xcd], none⟩ 5 2).build
        ((Image.mk ⟨#[0x90, 0xcc, 0xcd, 0x75, 0x02, 0x0f, 0x85, 0x10, 0x00, 0x00, 0x00, 0xc3]⟩
          ⟨0xfffffffffffffffa⟩).memory.faulty ⟨5⟩ (.outOfBounds ⟨5⟩)) ⟨0xfffffffffffffffa⟩ =
      .ok ⟨⟨0xfffffffffffffffa⟩, 1, [⟨0, ⟨1⟩, 3, .short, 2⟩, ⟨1, ⟨0x15⟩, 5, .near, 0x10⟩]⟩ := by
  have h := build_image_faulty ⟨⟨[0xcc, 0xcd], none⟩, 5, 2⟩
    ⟨⟨#[0x90, 0xcc, 0xcd, 0x75, 0x02, 0x0f, 0x85, 0x10, 0x00, 0x00, 0x00, 0xc3]⟩, ⟨0xfffffffffffffffa⟩⟩
    ⟨0xfffffffffffffffa⟩ _ (by decide) rfl
  exact ⟨(h ⟨0xfffffffffffffffa⟩ (.outOfBounds .null)).2.2.1 (by decide),
    (h ⟨4⟩ (.outOfBounds ⟨4⟩)).2.1 (by decide) (by decide), (h ⟨5⟩ (.outOfBounds ⟨5⟩)).1 (by decide)⟩

end Recipe
end BranchChain
