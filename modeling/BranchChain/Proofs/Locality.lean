import BranchChain.Proofs.ImageRecovery
/-!
# Proofs.Locality — the bytes a table depends on

A successful recovery reads nothing behind the last branch it decodes.  Memories that answer alike on the bytes from the
entry up to there give the same table (`Recipe.build_of_agreesOn`); of two images it is enough that these bytes are the
same, wherever the images are placed and whatever else they hold (`Recipe.build_image_of_bytes`).
-/
namespace BranchChain

namespace Memory

/-- **The second memory answers as the first** to every read inside a number of bytes from an address on. -/
def AgreesOn (m m' : Memory) (a : Address) (size : Nat) : Prop :=
  ∀ i n, i + n ≤ size → m'.read (a + UInt64.ofNat i) n = m.read (a + UInt64.ofNat i) n

variable {m m' : Memory} {a : Address}

theorem AgreesOn.inside {size i n : Nat} (h : m.AgreesOn m' a size) (hi : i + n ≤ size) :
    m.AgreesOn m' (a + UInt64.ofNat i) n := by
  intro j k hj
  rw [Address.add_ofNat_add]
  exact h (i + j) k (by omega)

theorem AgreesOn.read_eq {size n : Nat} (h : m.AgreesOn m' a size) (hn : n ≤ size) : m'.read a n = m.read a n := by
  have := h 0 n (by omega)
  rwa [Address.add_ofNat_zero] at this

theorem AgreesOn.byte_eq {size : Nat} (h : m.AgreesOn m' a size) (hpos : 1 ≤ size) : m'.byte a = m.byte a := by
  rw [byte, byte, h.read_eq hpos]

theorem shows_of_agreesOn {j : Jump} (h : m.Shows a j) (agree : m.AgreesOn m' a j.length) : m'.Shows a j := by
  cases h with
  | @short raw d h0 hr h1 =>
    have hlen : (Jump.ofByte d).length = 2 := rfl
    rw [hlen] at agree
    exact .short ((agree.byte_eq (by decide)).trans h0) ((agree.read_eq (by decide)).trans hr) h1
  | @near opcode raw b0 b1 b2 b3 h0 ho h1 hr h2 h3 h4 h5 =>
    have hlen : (Jump.ofBytes b0 b1 b2 b3).length = 6 := rfl
    rw [hlen] at agree
    exact .near ((agree.byte_eq (by decide)).trans h0) ((agree.read_eq (by decide)).trans ho) h1
      ((agree.read_eq (by decide)).trans hr) h2 h3 h4 h5

theorem branchAt_of_agreesOn {j : Jump} (h : m.branchAt a = .ok (j.placed a)) (agree : m.AgreesOn m' a j.length) :
    m'.branchAt a = .ok (j.placed a) := by
  obtain ⟨i, hi, hij⟩ := branchAt_eq_ok_iff.1 h
  rw [Jump.placed_injective hij] at agree ⊢
  exact branchAt_of_shows (shows_of_agreesOn hi agree)

theorem decodes_of_agreesOn : ∀ {js : List Jump} {a : Address}, m.Decodes a js → m.AgreesOn m' a (Jump.total js) →
    m'.Decodes a js
  | [], _, _, _ => trivial
  | j :: js, a, ⟨hj, hjs⟩, agree => by
    rw [Jump.total_cons] at agree
    have hfirst : m.AgreesOn m' a j.length := fun i n hi => agree i n (by omega)
    exact ⟨branchAt_of_agreesOn hj hfirst, decodes_of_agreesOn hjs (agree.inside (Nat.le_refl _))⟩

end Memory

namespace Recipe

variable {r : Recipe} {m m' : Memory} {entry : Address}

theorem meets_of_agreesOn {k : Nat} (h : r.Meets m entry k) (agree : m.AgreesOn m' entry (k + r.anchor.length)) :
    r.Meets m' entry k := by
  refine ⟨h.lt_limit, fun j hj => ?_, ?_⟩
  · unfold Pattern.MissedAt
    rw [agree j _ (by omega)]
    exact h.missed j hj
  · unfold Pattern.FoundAt
    rw [agree k _ (Nat.le_refl _)]
    exact h.found

theorem build_of_agreesOn {k : Nat} {js : List Jump} (met : r.Meets m entry k) (fits : r.branchCount ≤ Table.capacity)
    (decodes : m.Decodes (entry + UInt64.ofNat (k + r.anchor.length)) js) (all : js.length = r.branchCount)
    (agree : m.AgreesOn m' entry (r.reach k js)) : r.build m' entry = .ok (r.tableOf entry k js) := by
  unfold reach at agree
  have hanchor : m.AgreesOn m' entry (k + r.anchor.length) := fun i n hi => agree i n (by omega)
  exact build_of_ends (.complete (meets_of_agreesOn met hanchor) fits
    (Memory.decodes_of_agreesOn decodes (agree.inside (Nat.le_refl _))) all)

end Recipe

/-! ## Images with the same bytes -/

namespace Image

variable {im im' : Image} {a : Address}

theorem byte_ok_iff {b : UInt8} : im.memory.byte a = .ok b ↔ im.data[im.indexOf a]? = some b := by
  rw [Memory.byte_eq_ok_iff]
  constructor
  · rintro ⟨reply, hreply, h0⟩
    rwa [(read_ok_iff.1 hreply).2, List.getElem?_take_of_lt Nat.one_pos, behind, List.getElem?_drop] at h0
  · intro hb
    obtain ⟨hlt, -⟩ := List.getElem?_eq_some_iff.1 hb
    obtain ⟨reply, hreply, hl⟩ := im.read_ok a 1 hlt
    refine ⟨reply, hreply, ?_⟩
    rwa [hl, List.getElem?_take_of_lt Nat.one_pos, behind, List.getElem?_drop]

/-- **Bytes found in a second image stand in its data in the same order**; their indices count up without a wrap. -/
theorem data_of_bytes {size : Nat} (hsize : im.size < 2 ^ 63) (hsize' : im'.size < 2 ^ 63)
    (hfit : im.indexOf a + size ≤ im.size)
    (hbytes : ∀ j < size, im'.memory.byte (a + UInt64.ofNat j) = im.memory.byte (a + UInt64.ofNat j)) :
    ∀ j < size, im'.indexOf a + j < im'.size ∧ im'.data[im'.indexOf a + j]? = im.data[im.indexOf a + j]? := by
  have hone : ∀ j < size, im'.indexOf a + j < 2 ^ 64 →
      im'.indexOf a + j < im'.size ∧ im'.data[im'.indexOf a + j]? = im.data[im.indexOf a + j]? := by
    intro j hj hwrap
    have hb := hbytes j hj
    have hlt : im.indexOf a + j < im.data.length := by
      rw [im.length_data]
      omega
    have hx := List.getElem?_eq_getElem hlt
    have hbyte : im.memory.byte (a + UInt64.ofNat j) = .ok im.data[im.indexOf a + j] := by
      rw [byte_ok_iff, im.indexOf_add a j (by omega)]
      exact hx
    rw [hbyte, byte_ok_iff, im'.indexOf_add a j hwrap] at hb
    obtain ⟨hlt', -⟩ := List.getElem?_eq_some_iff.1 hb
    exact ⟨hlt', hb.trans hx.symm⟩
  -- each byte found keeps the next index below the end of the address space
  intro j
  induction j with
  | zero => exact fun hj => hone 0 hj (UInt64.toNat_lt _)
  | succ j ih =>
    intro hj
    obtain ⟨hprev, -⟩ := ih (Nat.lt_of_succ_lt hj)
    exact hone (j + 1) hj (by omega)

theorem agreesOn_of_bytes {size : Nat} (hsize : im.size < 2 ^ 63) (hsize' : im'.size < 2 ^ 63) (hpos : 0 < size)
    (hfit : im.indexOf a + size ≤ im.size)
    (hbytes : ∀ j < size, im'.memory.byte (a + UInt64.ofNat j) = im.memory.byte (a + UInt64.ofNat j)) :
    im.memory.AgreesOn im'.memory a size := by
  have hdata := data_of_bytes hsize hsize' hfit hbytes
  have hlast := (hdata (size - 1) (by omega)).1
  intro i n hi
  have hidx := im.indexOf_add a i (by omega)
  have hidx' := im'.indexOf_add a i (by omega)
  obtain ⟨b, hb, hl⟩ := im.read_ok (a + UInt64.ofNat i) n (by omega)
  rw [hb, read_ok_iff, hl]
  refine ⟨by omega, ?_⟩
  unfold behind
  rw [hidx, hidx']
  apply List.ext_getElem?
  intro k
  rw [List.getElem?_take, List.getElem?_take, List.getElem?_drop, List.getElem?_drop]
  split
  · rename_i hk
    rw [Nat.add_assoc, Nat.add_assoc]
    exact (hdata (i + k) (by omega)).2.symm
  · rfl

end Image

namespace Recipe

/-- **Only the bytes up to the end of the last branch matter.**  A table that one image gives is given by every other
that holds the same bytes from the entry up to the table's end. -/
theorem build_image_of_bytes (r : Recipe) (im im' : Image) (entry : Address) (t : Table) (hanchor : r.anchor.bytes ≠ [])
    (hsize : im.size < 2 ^ 63) (hsize' : im'.size < 2 ^ 63) (h : r.build im.memory entry = .ok t)
    (hbytes : ∀ j < t.endOffset r.anchor.length,
      im'.memory.byte (entry + UInt64.ofNat j) = im.memory.byte (entry + UInt64.ofNat j)) :
    r.build im'.memory entry = .ok t := by
  obtain ⟨fits, k, js, hspell, hlen, rfl⟩ := (build_image_eq_tableOf_iff hsize).1 h
  have hle := hspell.reach_le
  have hend : (r.tableOf entry k js).endOffset r.anchor.length = r.reach k js := by
    have := endOffset_tableOf r entry k js
    omega
  have hpos : 0 < r.reach k js := by
    have := List.length_pos_iff.2 hanchor
    unfold reach Pattern.length
    omega
  rw [hend] at hbytes
  obtain ⟨met, decodes⟩ := (spells_iff hsize).1 hspell
  exact build_of_agreesOn met fits decodes hlen (Image.agreesOn_of_bytes hsize hsize' hpos hle hbytes)

/-- The same table from data that end right behind the branch, with other bytes in front of the entry. -/
theorem build_image_of_bytes_moved :
    (Recipe.mk ⟨[0xcc], none⟩ 5 1).build (Image.mk ⟨#[0xff, 0xff, 0x90, 0xcc, 0x75, 0x02]⟩ ⟨0xffe⟩).memory ⟨0x1000⟩ =
      .ok ⟨⟨0x1000⟩, 1, [⟨0, ⟨0x1006⟩, 2, .short, 2⟩]⟩ :=
  build_image_of_bytes ⟨⟨[0xcc], none⟩, 5, 1⟩ ⟨⟨#[0x90, 0xcc, 0x75, 0x02, 0xc3]⟩, ⟨0x1000⟩⟩
    ⟨⟨#[0xff, 0xff, 0x90, 0xcc, 0x75, 0x02]⟩, ⟨0xffe⟩⟩ ⟨0x1000⟩ _ (by decide) (by decide) (by decide) rfl fun j hj => by
      match j, hj with
      | 0, _ | 1, _ | 2, _ | 3, _ => rfl

end Recipe
end BranchChain
