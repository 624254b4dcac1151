import BranchChain.Proofs.Locality
/-!
# Proofs.Extending — memories that show more

A memory extends another one if it gives the same answer to every read that the other one answers.  A recovery that meets
no fault ends over both alike (`Recipe.build_of_extendsTo`).  A process extends each image of a part of its address space;
it goes on where the image ends, so the way back needs a table that ends inside the image
(`Image.IsPartOf.agreesOn_process`).
-/
namespace BranchChain

namespace Memory

/-- **The second memory shows what the first one shows**, and maybe more. -/
def ExtendsTo (m m' : Memory) : Prop := ∀ a n b, m.read a n = .ok b → m'.read a n = .ok b

namespace ExtendsTo

/-! ### Decoders -/

/-- **A step goes on as another**, unless it met a fault. -/
def SameUnlessFault {α : Type} (x x' : Except (Halt DecodeError) α) : Prop :=
  x' = x ∨ ∃ f, x = .error (.fail (.memory f))

theorem SameUnlessFault.bind {α β : Type} {x x' : Except (Halt DecodeError) α} {f f' : α → Except (Halt DecodeError) β}
    (hx : SameUnlessFault x x') (hf : ∀ y, SameUnlessFault (f y) (f' y)) : SameUnlessFault (x >>= f) (x' >>= f') := by
  obtain rfl | ⟨e, rfl⟩ := hx
  · cases x' with
    | error e => exact .inl rfl
    | ok y => exact hf y
  · exact .inr ⟨e, rfl⟩

theorem SameUnlessFault.rfl {α : Type} {x : Except (Halt DecodeError) α} : SameUnlessFault x x := .inl (Eq.refl x)

variable {m m' : Memory} (h : m.ExtendsTo m')
include h

theorem fetch (a : Address) (n : Nat) : SameUnlessFault (m.fetch a n) (m'.fetch a n) := by
  unfold Memory.fetch
  cases hr : m.read a n with
  | error f => exact .inr ⟨f, Eq.refl _⟩
  | ok b => exact .inl (by rw [h a n b hr])

theorem byte (a : Address) :
    SameUnlessFault ((m.byte a).mapError (Halt.map .memory)) ((m'.byte a).mapError (Halt.map .memory)) := by
  unfold Memory.byte
  cases hr : m.read a 1 with
  | error f => exact .inr ⟨f, Eq.refl _⟩
  | ok b => exact .inl (by rw [h a 1 b hr])

theorem branchAt (a : Address) : SameUnlessFault (m.branchAt a) (m'.branchAt a) := by
  unfold Memory.branchAt
  refine .bind (h.byte a) fun first => ?_
  split
  · exact .bind (h.fetch a 2) fun raw => .rfl
  split
  · refine .bind (h.fetch a 2) fun opcode => .bind .rfl fun y => ?_
    split
    · exact .bind (h.fetch a 6) fun raw => .rfl
    · exact .rfl
  · exact .rfl

/-- **A decoder that meets no fault** decodes the same, or refuses the same bytes. -/
theorem branchAt_eq {a : Address} (hx : ∀ f, m.branchAt a ≠ .error (.fail (.memory f))) :
    m'.branchAt a = m.branchAt a :=
  (h.branchAt a).resolve_right fun ⟨f, hf⟩ => hx f hf

theorem decodes : ∀ {js : List Jump} {a : Address}, m.Decodes a js → m'.Decodes a js
  | [], _, _ => trivial
  | j :: js, a, ⟨hj, hjs⟩ => by
    have hx : ∀ f, m.branchAt a ≠ .error (.fail (.memory f)) := fun f hf => by rw [hj] at hf; cases hf
    exact ⟨(h.branchAt_eq hx).trans hj, decodes hjs⟩

theorem meets {r : Recipe} {entry : Address} {k : Nat} (met : r.Meets m entry k) : r.Meets m' entry k where
  lt_limit := met.lt_limit
  missed j hj := by
    obtain ⟨b, hb, hne⟩ := met.missed j hj
    exact ⟨b, h _ _ _ hb, hne⟩
  found := by
    obtain ⟨b, hb, heq⟩ := met.found
    exact ⟨b, h _ _ _ hb, heq⟩

end ExtendsTo
end Memory

namespace Recipe

variable {m m' : Memory}

/-- **A recovery that meets no fault ends the same over a memory that shows more**: in a table, or at an opcode that is no
branch. -/
theorem build_of_extendsTo (r : Recipe) (entry : Address) (hm : m.ExtendsTo m') :
    (∀ t, r.build m entry = .ok t → r.build m' entry = .ok t) ∧
    ∀ index offset bytes, r.build m entry = .error (.fail (.unknownOpcode index offset bytes)) →
      r.build m' entry = .error (.fail (.unknownOpcode index offset bytes)) := by
  refine ⟨fun t h => ?_, fun index offset bytes h => ?_⟩
  · cases build_eq_iff.1 h with
    | complete met fits decodes all => exact build_of_ends (.complete (hm.meets met) fits (hm.decodes decodes) all)
  · generalize hx : Halt.fail (BuildError.unknownOpcode index offset bytes) = x at h
    cases build_eq_iff.1 h with
    | exhausted | ended | faulted | overfull => cases hx
    | @undecoded k js e met fits decodes lt stop =>
      have hnofault : ∀ f, m.branchAt (entry + UInt64.ofNat (r.reach k js)) ≠ .error (.fail (.memory f)) := fun f hf => by
        rw [stop, Except.error.injEq] at hf
        rw [hf] at hx
        cases hx
      rw [← hm.branchAt_eq hnofault] at stop
      exact build_of_ends (.undecoded (hm.meets met) fits (hm.decodes decodes) lt stop)

end Recipe

/-! ## Images of a part of a process -/

namespace Memory

variable {view : Address → UInt8} {a : Address} {n : Nat}

theorem read_process_whole (h : 0 < a.toNat) :
    (whole view).process.read a n = .ok ⟨.ofFn fun i : Fin n => view (a + UInt64.ofNat i.val)⟩ := by
  have hnull : ¬ a.isNull = true := fun hz => by
    rw [Address.isNull, beq_iff_eq] at hz
    rw [Address.toNat, hz] at h
    exact absurd h (by decide)
  exact if_neg hnull

theorem toNat_pos_of_read_process {m : Memory} {b : ByteArray} (h : m.process.read a n = .ok b) : 0 < a.toNat := by
  apply Nat.pos_of_ne_zero
  intro hz
  have hnull : a.isNull = true := beq_iff_eq.2 (UInt64.toNat_inj.1 hz)
  rw [process] at h
  dsimp only at h
  rw [if_pos hnull] at h
  cases h

end Memory

/-- **The image is a part of an address space**, and holds neither its first byte nor its last. -/
structure Image.IsPartOf (im : Image) (view : Address → UInt8) : Prop where
  base_pos : 0 < im.base.toNat
  end_lt : im.base.toNat + im.size < 2 ^ 64
  shown : ∀ i < im.size, im.data[i]? = some (view (im.base + UInt64.ofNat i))

namespace Image.IsPartOf

variable {im : Image} {view : Address → UInt8} (h : im.IsPartOf view)
include h

theorem toNat_eq {a : Address} (ha : im.indexOf a ≤ im.size) : a.toNat = im.base.toNat + im.indexOf a := by
  have hend := h.end_lt
  have hlt := UInt64.toNat_lt a.word
  have hbase := UInt64.toNat_lt im.base.word
  unfold indexOf Address.offsetFrom Address.toNat at *
  rw [UInt64.toNat_sub] at *
  omega

/-- **A process shows what its images show.**  A read inside the image starts behind the null address. -/
theorem extendsTo_process : im.memory.ExtendsTo (Memory.whole view).process := by
  intro a n b hb
  obtain ⟨hfit, hl⟩ := read_ok_iff.1 hb
  have hpos : 0 < a.toNat := by
    have hbase := h.base_pos
    rw [h.toNat_eq (by omega)]
    omega
  rw [Memory.read_process_whole hpos, Except.ok.injEq]
  apply bytes_ext
  rw [Array.toList_ofFn, hl]
  apply List.ext_getElem?
  intro i
  rcases Nat.lt_or_ge i n with hi | hi
  · rw [List.getElem?_take, if_pos hi, Image.behind, List.getElem?_drop, h.shown _ (by omega), ← Address.add_ofNat_add,
      im.base_add_indexOf, List.getElem?_ofFn, dif_pos hi]
  · rw [List.getElem?_take, if_neg (Nat.not_lt.2 hi), List.getElem?_eq_none (by rw [List.length_ofFn]; exact hi)]

theorem agreesOn_process {entry : Address} {size : Nat} (hfit : im.indexOf entry + size ≤ im.size) :
    (Memory.whole view).process.AgreesOn im.memory entry size := by
  have hend := h.end_lt
  intro i n hi
  have hidx := im.indexOf_add entry i (by omega)
  obtain ⟨b, hb, -⟩ := im.read_ok (entry + UInt64.ofNat i) n (by omega)
  rw [hb, h.extendsTo_process _ _ _ hb]

end Image.IsPartOf

/-- How many bytes the branches of slots take. -/
def Slot.total : List Slot → Nat
  | [] => 0
  | s :: ss => s.form.length + total ss

theorem Slot.total_slots (entry : Address) : ∀ (index offset : Nat) (js : List Jump),
    total (Jump.slots entry index offset js) = Jump.total js
  | _, _, [] => rfl
  | index, offset, j :: js => by
    rw [Jump.slots, total, total_slots entry, Jump.total_cons]
    rfl

namespace Recipe

variable {r : Recipe} {view : Address → UInt8} {im : Image} {entry : Address}

/-- **No search in a process passes the end of the address space**: there lies the null address, and it is refused. -/
theorem Meets.lt_of_process {m : Memory} {k : Nat} (met : r.Meets m.process entry k) (hpos : 0 < entry.toNat) :
    entry.toNat + k < 2 ^ 64 := by
  by_contra hge
  have hread : ∀ j ≤ k, ∃ b, m.process.read (entry + UInt64.ofNat j) r.anchor.length = .ok b := fun j hj => by
    rcases Nat.lt_or_eq_of_le hj with hlt | rfl
    · obtain ⟨b, hb, -⟩ := met.missed j hlt
      exact ⟨b, hb⟩
    · obtain ⟨b, hb, -⟩ := met.found
      exact ⟨b, hb⟩
  obtain ⟨b, hb⟩ := hread (2 ^ 64 - entry.toNat) (by omega)
  have hnull := Memory.toNat_pos_of_read_process hb
  have hentry := UInt64.toNat_lt entry.word
  unfold Address.toNat at *
  rw [Address.add_def, UInt64.toNat_add, UInt64.toNat_ofNat'] at hnull
  omega

/-- **A process refines each image of a part of it.**  A table from the image, or an opcode that it refuses, is the
process's, too; and a table from the process that ends inside the image is the image's. -/
theorem build_process_refines_image (r : Recipe) (view : Address → UInt8) (im : Image) (entry : Address)
    (h : im.IsPartOf view) (hentry : im.base.toNat ≤ entry.toNat) :
    (∀ t, r.build im.memory entry = .ok t → r.build (Memory.whole view).process entry = .ok t) ∧
    (∀ index offset bytes, r.build im.memory entry = .error (.fail (.unknownOpcode index offset bytes)) →
      r.build (Memory.whole view).process entry = .error (.fail (.unknownOpcode index offset bytes))) ∧
    ∀ t, r.build (Memory.whole view).process entry = .ok t →
      entry.toNat + t.preambleOffset.toNat + r.anchor.length + Slot.total t.slots ≤ im.base.toNat + im.size →
      r.build im.memory entry = .ok t := by
  obtain ⟨hok, hopcode⟩ := build_of_extendsTo r entry h.extendsTo_process
  refine ⟨hok, hopcode, fun t ht hfit => ?_⟩
  cases build_eq_iff.1 ht with
  | @complete k js met fits decodes all =>
    have hk := met.lt_of_process (Nat.lt_of_lt_of_le h.base_pos hentry)
    have hreach : im.indexOf entry + r.reach k js ≤ im.size := by
      rw [tableOf, Slot.total_slots, UInt64.toNat_ofNat_of_lt' (Nat.lt_of_le_of_lt (Nat.le_add_left _ _) hk)] at hfit
      rw [show im.indexOf entry = entry.toNat - im.base.toNat from
        UInt64.toNat_sub_of_le _ _ (UInt64.le_iff_toNat_le.2 hentry)]
      unfold reach
      omega
    exact build_of_agreesOn met fits decodes all (h.agreesOn_process hreach)

/-- A chain that ends one byte below the end of the address space, an opcode of another instruction behind it. -/
theorem build_process_below_end :
    (Recipe.mk ⟨[0xcc], none⟩ 5 2).build (Memory.whole fun a =>
        [0x90, 0xcc, 0x75, 0x02, 0x0f, 0x85, 0xf0, 0xff, 0xff, 0xff, 0xc3].getD
          (a.offsetFrom ⟨0xfffffffffffffff4⟩).toNat 0x55).process ⟨0xfffffffffffffff4⟩ =
      .ok ⟨⟨0xfffffffffffffff4⟩, 1, [⟨0, ⟨0xfffffffffffffffa⟩, 2, .short, 2⟩, ⟨1, ⟨0xffffffffffffffee⟩, 4, .near, -16⟩]⟩ ∧
    (Recipe.mk ⟨[0xcc], none⟩ 5 3).build (Memory.whole fun a =>
        [0x90, 0xcc, 0x75, 0x02, 0x0f, 0x85, 0xf0, 0xff, 0xff, 0xff, 0xc3].getD
          (a.offsetFrom ⟨0xfffffffffffffff4⟩).toNat 0x55).process ⟨0xfffffffffffffff4⟩ =
      .error (.fail (.unknownOpcode 2 10 [0xc3])) ∧
    (Recipe.mk ⟨[0xcc], none⟩ 5 2).build
        (Image.mk ⟨#[0x90, 0xcc, 0x75, 0x02, 0x0f, 0x85, 0xf0, 0xff, 0xff, 0xff, 0xc3]⟩ ⟨0xfffffffffffffff4⟩).memory
        ⟨0xfffffffffffffff4⟩ =
      .ok ⟨⟨0xfffffffffffffff4⟩, 1, [⟨0, ⟨0xfffffffffffffffa⟩, 2, .short, 2⟩, ⟨1, ⟨0xffffffffffffffee⟩, 4, .near, -16⟩]⟩ := by
  have hpart : Image.IsPartOf ⟨⟨#[0x90, 0xcc, 0x75, 0x02, 0x0f, 0x85, 0xf0, 0xff, 0xff, 0xff, 0xc3]⟩, ⟨0xfffffffffffffff4⟩⟩
      fun a => [0x90, 0xcc, 0x75, 0x02, 0x0f, 0x85, 0xf0, 0xff, 0xff, 0xff, 0xc3].getD
        (a.offsetFrom ⟨0xfffffffffffffff4⟩).toNat 0x55 :=
    ⟨by decide, by decide, by decide⟩
  have h2 := build_process_refines_image ⟨⟨[0xcc], none⟩, 5, 2⟩ _ _ ⟨0xfffffffffffffff4⟩ hpart (by decide)
  have h3 := build_process_refines_image ⟨⟨[0xcc], none⟩, 5, 3⟩ _ _ ⟨0xfffffffffffffff4⟩ hpart (by decide)
  have hok := h2.1 _ rfl
  exact ⟨hok, h3.2.1 2 10 [0xc3] rfl, h2.2.2 _ hok (by decide)⟩

end Recipe
end BranchChain
