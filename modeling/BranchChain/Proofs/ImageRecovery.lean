import BranchChain.Proofs.Recovering
/-!
# Proofs.ImageRecovery — recovery as a reading of data

Over an image the result of a recovery is told by the data alone: the anchor's first place behind the entry, and the
jumps whose bytes follow it.  Data that hold both give a table (`Recipe.build_image_ok_iff`); data that lack one give
the error that says what is missing (`Recipe.build_image_error_iff`).  An image is shorter than half the address space,
so that no index into it wraps.
-/
namespace BranchChain

/-! ## Where an anchor stands in data -/

namespace Pattern

/-- **The pattern stands at an index** of data. -/
def OccursAt (p : Pattern) (data : List UInt8) (i : Nat) : Prop :=
  i + p.length ≤ data.length ∧ (data.drop i).take p.length = p.bytes

instance (p : Pattern) (data : List UInt8) (i : Nat) : Decidable (p.OccursAt data i) :=
  inferInstanceAs (Decidable (_ ∧ _))

/-- **The pattern's first place** from an index on is `k` further. -/
def FirstAt (p : Pattern) (data : List UInt8) (start k : Nat) : Prop :=
  p.OccursAt data (start + k) ∧ ∀ j < k, ¬ p.OccursAt data (start + j)

variable {p : Pattern} {im : Image} {a : Address}

/-- As an image gives no more than it is asked for, what it shows begins with a pattern of that length only if it is it. -/
theorem bytes_prefix_iff {b : ByteArray} (hb : im.memory.read a p.length = .ok b) :
    p.bytes <+: b.data.toList ↔ b.data.toList = p.bytes := by
  have hlen : p.bytes.length = b.data.toList.length := (im.exact_memory a p.length b hb).symm
  exact ⟨fun h => (h.eq_of_length hlen).symm, fun h => h ▸ List.prefix_rfl⟩

theorem foundAt_iff : p.FoundAt im.memory a ↔ p.OccursAt im.data (im.indexOf a) := by
  constructor
  · rintro ⟨b, hb, hpre⟩
    obtain ⟨hfit, hl⟩ := Image.read_ok_iff.1 hb
    exact ⟨hfit, hl.symm.trans ((bytes_prefix_iff hb).1 hpre)⟩
  · rintro ⟨hfit, heq⟩
    obtain ⟨b, hb, hl⟩ := im.read_ok a p.length hfit
    exact ⟨b, hb, (bytes_prefix_iff hb).2 (hl.trans heq)⟩

theorem missedAt_iff :
    p.MissedAt im.memory a ↔ im.indexOf a + p.length ≤ im.size ∧ ¬ p.OccursAt im.data (im.indexOf a) := by
  constructor
  · rintro ⟨b, hb, hno⟩
    obtain ⟨hfit, hl⟩ := Image.read_ok_iff.1 hb
    exact ⟨hfit, fun hocc => hno ((bytes_prefix_iff hb).2 (hl.trans hocc.2))⟩
  · rintro ⟨hfit, hno⟩
    obtain ⟨b, hb, hl⟩ := im.read_ok a p.length hfit
    exact ⟨b, hb, fun hpre => hno ⟨hfit, hl.symm.trans ((bytes_prefix_iff hb).1 hpre)⟩⟩

/-- **Indices count up along what is missed**: none of it lies behind the end. -/
theorem indexOf_of_missed (hsize : im.size < 2 ^ 63) : ∀ k : Nat, (∀ j < k, p.MissedAt im.memory (a + UInt64.ofNat j)) →
    im.indexOf (a + UInt64.ofNat k) = im.indexOf a + k
  | 0, _ => by rw [Address.add_ofNat_zero, Nat.add_zero]
  | k + 1, h => by
    -- a miss is a read inside the data, so the next index is too far from the end of the space to wrap
    have hk := indexOf_of_missed hsize k (fun j hj => h j (Nat.lt_succ_of_lt hj))
    have hfit := (missedAt_iff.1 (h k (Nat.lt_succ_self k))).1
    exact im.indexOf_add a (k + 1) (by omega)

end Pattern

/-! ## Jumps in data -/

theorem Image.decodes_iff {im : Image} (hsize : im.size < 2 ^ 63) : ∀ {js : List Jump} {a : Address},
    im.memory.Decodes a js ↔ Jump.encodeAll js <+: im.behind a
  | [], _ => ⟨fun _ => List.nil_prefix, fun _ => trivial⟩
  | j :: js, a => by
    have hnext : ∀ rest, im.behind a = j.encode ++ rest → im.behind (a + UInt64.ofNat j.length) = rest := by
      intro rest h
      have hlen := im.length_behind a
      have hpos := j.length_pos
      rw [h, List.length_append, j.length_encode] at hlen
      rw [im.behind_add a _ (by omega), h, ← j.length_encode, List.drop_left]
    rw [Memory.Decodes, Image.decodes_iff hsize, Image.branchAt_ok_iff, Jump.encodeAll_cons]
    constructor
    · rintro ⟨⟨i, rest, h, hi⟩, tail, htail⟩
      have hij : j = i := Jump.placed_injective hi
      rw [← hij] at h
      rw [hnext rest h] at htail
      exact ⟨tail, by rw [h, ← htail, List.append_assoc]⟩
    · rintro ⟨tail, htail⟩
      rw [List.append_assoc] at htail
      exact ⟨⟨j, _, htail.symm, rfl⟩, tail, (hnext _ htail.symm).symm⟩

namespace Recipe

variable {r : Recipe} {im : Image} {entry : Address}

theorem meets_image_iff (hsize : im.size < 2 ^ 63) {k : Nat} :
    r.Meets im.memory entry k ↔ k < r.scanLimit ∧ r.anchor.FirstAt im.data (im.indexOf entry) k := by
  constructor
  · rintro ⟨hlt, hmiss, hfound⟩
    have hidx : ∀ j ≤ k, im.indexOf (entry + UInt64.ofNat j) = im.indexOf entry + j := fun j hj =>
      Pattern.indexOf_of_missed hsize j (fun i hi => hmiss i (Nat.lt_of_lt_of_le hi hj))
    rw [Pattern.foundAt_iff, hidx k (Nat.le_refl k)] at hfound
    refine ⟨hlt, hfound, fun j hj => ?_⟩
    have hno := (Pattern.missedAt_iff.1 (hmiss j hj)).2
    rwa [hidx j (Nat.le_of_lt hj)] at hno
  · rintro ⟨hlt, hfound, hfirst⟩
    have hfit := hfound.1
    rw [im.length_data] at hfit
    have hidx : ∀ j ≤ k, im.indexOf (entry + UInt64.ofNat j) = im.indexOf entry + j := fun j hj =>
      im.indexOf_add entry j (by omega)
    refine ⟨hlt, fun j hj => ?_, ?_⟩
    · rw [Pattern.missedAt_iff, hidx j (Nat.le_of_lt hj)]
      exact ⟨by omega, hfirst j hj⟩
    · rw [Pattern.foundAt_iff, hidx k (Nat.le_refl k)]
      exact hfound

/-! ## Data that spell a chain -/

/-- **Data spell an anchor and jumps** from an index on: the anchor first stands `k` further, within the limit, and the
jumps' bytes follow it. -/
structure Spells (r : Recipe) (data : List UInt8) (start k : Nat) (js : List Jump) : Prop where
  lt_limit : k < r.scanLimit
  first : r.anchor.FirstAt data start k
  encoded : Jump.encodeAll js <+: data.drop (start + k + r.anchor.length)

theorem Spells.reach_le {k : Nat} {js : List Jump} (h : r.Spells im.data (im.indexOf entry) k js) :
    im.indexOf entry + r.reach k js ≤ im.size := by
  have hfit := h.first.1.1
  have hlen := h.encoded.length_le
  rw [im.length_data] at hfit
  rw [Jump.length_encodeAll, List.length_drop, im.length_data] at hlen
  unfold reach
  omega

theorem Spells.endOffset_tableOf (hsize : im.size < 2 ^ 63) {k : Nat} {js : List Jump}
    (h : r.Spells im.data (im.indexOf entry) k js) :
    (r.tableOf entry k js).endOffset r.anchor.length = r.reach k js := by
  have hle := h.reach_le
  have hend := Recipe.endOffset_tableOf r entry k js
  omega

theorem Spells.toNat_preambleOffset (hsize : im.size < 2 ^ 63) {k : Nat} {js : List Jump}
    (h : r.Spells im.data (im.indexOf entry) k js) : (r.tableOf entry k js).preambleOffset.toNat = k := by
  have hle := h.reach_le
  have hk : k < 2 ^ 64 := by
    unfold reach at hle
    omega
  exact UInt64.toNat_ofNat_of_lt' hk

theorem spells_iff (hsize : im.size < 2 ^ 63) {k : Nat} {js : List Jump} :
    r.Spells im.data (im.indexOf entry) k js ↔
      r.Meets im.memory entry k ∧ im.memory.Decodes (entry + UInt64.ofNat (k + r.anchor.length)) js := by
  have hbehind : r.anchor.FirstAt im.data (im.indexOf entry) k →
      im.behind (entry + UInt64.ofNat (k + r.anchor.length)) =
        im.data.drop (im.indexOf entry + k + r.anchor.length) := by
    rintro ⟨⟨hfit, -⟩, -⟩
    rw [im.length_data] at hfit
    rw [Image.behind, im.indexOf_add entry _ (by omega), Nat.add_assoc]
  rw [meets_image_iff hsize, Image.decodes_iff hsize]
  constructor
  · rintro ⟨hlt, hfirst, henc⟩
    rw [hbehind hfirst]
    exact ⟨⟨hlt, hfirst⟩, henc⟩
  · rintro ⟨⟨hlt, hfirst⟩, henc⟩
    rw [hbehind hfirst] at henc
    exact ⟨hlt, hfirst, henc⟩

theorem Spells.behind_reach (hsize : im.size < 2 ^ 63) {k : Nat} {js : List Jump}
    (h : r.Spells im.data (im.indexOf entry) k js) :
    im.behind (entry + UInt64.ofNat (r.reach k js)) = im.data.drop (im.indexOf entry + r.reach k js) := by
  have hle := h.reach_le
  rw [Image.behind, im.indexOf_add entry _ (by omega)]

theorem build_image_eq_tableOf_iff (hsize : im.size < 2 ^ 63) {t : Table} :
    r.build im.memory entry = .ok t ↔ r.branchCount ≤ Table.capacity ∧ ∃ k js,
      r.Spells im.data (im.indexOf entry) k js ∧ js.length = r.branchCount ∧ t = r.tableOf entry k js := by
  rw [build_eq_iff]
  constructor
  · intro h
    cases h with
    | @complete k js met fits decodes all => exact ⟨fits, k, js, (spells_iff hsize).2 ⟨met, decodes⟩, all, rfl⟩
  · rintro ⟨fits, k, js, hspell, hlen, rfl⟩
    obtain ⟨met, decodes⟩ := (spells_iff hsize).1 hspell
    exact .complete met fits decodes hlen

end Recipe

/-! ## The slots of a table -/

/-- **A slot tells of a jump**: where it stands, and from there where it leads. -/
structure Slot.Tells (s : Slot) (entry : Address) (index offset : Nat) (j : Jump) : Prop where
  index_eq : s.index = index
  form_eq : s.form = j.form
  displacement_eq : s.displacement = j.displacement
  siteOffset_eq : s.siteOffset.toNat = offset
  target_eq : s.target = (entry + s.siteOffset + UInt64.ofNat s.form.length).shift s.displacement

theorem Slot.tells_ofBranch (entry : Address) (index : Nat) {offset : Nat} (j : Jump) (h : offset < 2 ^ 64) :
    (Slot.ofBranch index entry (j.placed (entry + UInt64.ofNat offset))).Tells entry index offset j where
  index_eq := rfl
  form_eq := rfl
  displacement_eq := rfl
  siteOffset_eq := by rw [Jump.siteOffset_placed, UInt64.toNat_ofNat_of_lt' h]
  target_eq := by rw [Slot.address_eq]; rfl

namespace Recipe

variable {r : Recipe} {im : Image} {entry : Address}

theorem tells_tableOf (r : Recipe) (entry : Address) {k : Nat} {js : List Jump} (h : r.reach k js < 2 ^ 64) {i : Nat}
    (hi : i < js.length) {s : Slot} (hs : (r.tableOf entry k js).slots[i]? = some s) :
    s.Tells entry i (k + r.anchor.length + Jump.total (js.take i)) js[i] := by
  rw [tableOf, Jump.getElem?_slots, List.getElem?_eq_getElem hi, Option.map_some, Option.some.injEq, Nat.zero_add] at hs
  rw [← hs]
  have hle := Jump.total_take_le i js
  unfold reach at h
  exact Slot.tells_ofBranch entry i js[i] (by omega)

/-! ## Tables -/

/-- **Recovery is sound and complete for what the data spell.**  There is a table exactly if there is room for its slots
and the data spell the anchor and as many jumps as asked for; and then the table's slots tell of these jumps, in their
order. -/
theorem build_image_ok_iff (r : Recipe) (im : Image) (entry : Address) (hsize : im.size < 2 ^ 63) :
    ((∃ t, r.build im.memory entry = .ok t) ↔ r.branchCount ≤ Table.capacity ∧
      ∃ k js, r.Spells im.data (im.indexOf entry) k js ∧ js.length = r.branchCount) ∧
    ∀ t k js, r.build im.memory entry = .ok t → r.Spells im.data (im.indexOf entry) k js → js.length = r.branchCount →
      t.entry = entry ∧ t.preambleOffset.toNat = k ∧ t.slots.length = r.branchCount ∧
      ∀ i (hi : i < js.length) s, t.slots[i]? = some s →
        s.Tells entry i (k + r.anchor.length + Jump.total (js.take i)) js[i] := by
  refine ⟨⟨?_, ?_⟩, ?_⟩
  · rintro ⟨t, ht⟩
    obtain ⟨fits, k, js, hspell, hlen, -⟩ := (build_image_eq_tableOf_iff hsize).1 ht
    exact ⟨fits, k, js, hspell, hlen⟩
  · rintro ⟨fits, k, js, hspell, hlen⟩
    exact ⟨_, (build_image_eq_tableOf_iff hsize).2 ⟨fits, k, js, hspell, hlen, rfl⟩⟩
  · intro t k js ht hspell hlen
    have hle := hspell.reach_le
    have hk : k < 2 ^ 64 := by
      unfold reach at hle
      omega
    obtain ⟨fits, -⟩ := (build_image_eq_tableOf_iff hsize).1 ht
    rw [(build_image_eq_tableOf_iff hsize).2 ⟨fits, k, js, hspell, hlen, rfl⟩, Except.ok.injEq] at ht
    subst ht
    refine ⟨rfl, UInt64.toNat_ofNat_of_lt' hk, ?_, fun i hi s hs => tells_tableOf r entry (by omega) hi hs⟩
    rw [tableOf, Jump.length_slots, hlen]

/-- An image across the end of the address space: the anchor in the middle of what looks like it, at the last position
of the search, and a branch of each form. -/
theorem build_image_ok_across_zero :
    ∃ t, (Recipe.mk ⟨[0xaa, 0xab], none⟩ 2 2).build
        (Image.mk ⟨#[0xaa, 0xaa, 0xab, 0x75, 0xfe, 0x0f, 0x85, 0xf0, 0xff, 0xff, 0xff]⟩ ⟨0xfffffffffffffffb⟩).memory
        ⟨0xfffffffffffffffb⟩ = .ok t ∧
      t.preambleOffset.toNat = 1 ∧ t.slots.length = 2 ∧
      ∀ s, t.slots[1]? = some s → s.Tells ⟨0xfffffffffffffffb⟩ 1 5 (.ofBytes 0xf0 0xff 0xff 0xff) := by
  let r : Recipe := ⟨⟨[0xaa, 0xab], none⟩, 2, 2⟩
  let js : List Jump := [.ofByte 0xfe, .ofBytes 0xf0 0xff 0xff 0xff]
  have h := build_image_ok_iff r
    ⟨⟨#[0xaa, 0xaa, 0xab, 0x75, 0xfe, 0x0f, 0x85, 0xf0, 0xff, 0xff, 0xff]⟩, ⟨0xfffffffffffffffb⟩⟩
    ⟨0xfffffffffffffffb⟩ (by decide)
  have hspell : r.Spells [0xaa, 0xaa, 0xab, 0x75, 0xfe, 0x0f, 0x85, 0xf0, 0xff, 0xff, 0xff] 0 1 js :=
    ⟨by decide, ⟨by decide, by decide⟩, by decide⟩
  obtain ⟨t, ht⟩ := h.1.2 ⟨by decide, 1, js, hspell, rfl⟩
  obtain ⟨-, hk, hlen, hslots⟩ := h.2 t 1 js ht hspell rfl
  exact ⟨t, ht, hk, hlen, hslots 1 (by decide)⟩

/-! ## Failures -/

/-- **Why data give no table**: the anchor stands nowhere within the limit; or it does, and there is no room for as many
slots; or behind it and too few jumps comes an opcode of another instruction, told by one byte or by two; or there the
data end. -/
inductive FailsOn (r : Recipe) (data : List UInt8) (start : Nat) (entry : Address) : Halt BuildError → Prop where
  | noAnchor (none : ∀ k < r.scanLimit, ¬ r.anchor.OccursAt data (start + k)) :
    FailsOn r data start entry (.fail (.preambleNotFound r.scanLimit))
  | overfull {k : Nat} (lt : k < r.scanLimit) (first : r.anchor.FirstAt data start k)
    (excess : Table.capacity < r.branchCount) : FailsOn r data start entry (.trap .capacity)
  | opcode {k : Nat} {js : List Jump} {offset : UInt64} {b : UInt8} {rest : List UInt8}
    (fits : r.branchCount ≤ Table.capacity) (spells : r.Spells data start k js) (lt : js.length < r.branchCount)
    (place : offset.toNat = r.reach k js) (next : data.drop (start + r.reach k js) = b :: rest) (hs : b ≠ jneShort)
    (he : b ≠ escape) : FailsOn r data start entry (.fail (.unknownOpcode js.length offset [b]))
  | secondOpcode {k : Nat} {js : List Jump} {offset : UInt64} {b : UInt8} {rest : List UInt8}
    (fits : r.branchCount ≤ Table.capacity) (spells : r.Spells data start k js) (lt : js.length < r.branchCount)
    (place : offset.toNat = r.reach k js) (next : data.drop (start + r.reach k js) = escape :: b :: rest)
    (hn : b ≠ jneNear) : FailsOn r data start entry (.fail (.unknownOpcode js.length offset [escape, b]))
  | ended {k : Nat} {js : List Jump} (fits : r.branchCount ≤ Table.capacity) (spells : r.Spells data start k js)
    (lt : js.length < r.branchCount) (next : EndsInside (data.drop (start + r.reach k js))) :
    FailsOn r data start entry (.fail (.memory (.outOfBounds (entry + UInt64.ofNat (r.reach k js)))))

theorem not_occursAt_of_missed (hsize : im.size < 2 ^ 63) {k : Nat}
    (missed : ∀ j < k, r.anchor.MissedAt im.memory (entry + UInt64.ofNat j))
    (hend : im.size < im.indexOf (entry + UInt64.ofNat k) + r.anchor.length ∨ r.scanLimit ≤ k) (j : Nat)
    (hj : j < r.scanLimit) : ¬ r.anchor.OccursAt im.data (im.indexOf entry + j) := by
  intro hocc
  have hidx := Pattern.indexOf_of_missed hsize k missed
  rcases Nat.lt_or_ge j k with hjk | hjk
  · have hno := (Pattern.missedAt_iff.1 (missed j hjk)).2
    rw [Pattern.indexOf_of_missed hsize j (fun i hi => missed i (Nat.lt_trans hi hjk))] at hno
    exact hno hocc
  · have hfit := hocc.1
    rw [im.length_data] at hfit
    omega

theorem failsOn_of_ends (hsize : im.size < 2 ^ 63) {h : Halt BuildError} (hends : r.Ends im.memory entry (.error h)) :
    r.FailsOn im.data (im.indexOf entry) entry h := by
  cases hends with
  | exhausted missed => exact .noAnchor (not_occursAt_of_missed hsize missed (.inr (Nat.le_refl _)))
  | ended lt missed fault => exact .noAnchor (not_occursAt_of_missed hsize missed (.inl (Image.read_error_iff.1 fault).1))
  | faulted lt missed fault other => exact absurd (Image.read_error_iff.1 fault).2 (other _)
  | overfull met excess =>
    obtain ⟨lt, first⟩ := (meets_image_iff hsize).1 met
    exact .overfull lt first excess
  | @undecoded k js d met fits decodes lt stop =>
    have hspell := (spells_iff hsize).2 ⟨met, decodes⟩
    have hle := hspell.reach_le
    have hplace := UInt64.toNat_ofNat_of_lt' (show r.reach k js < 2 ^ 64 by omega)
    obtain ⟨e, hnext, rfl⟩ := Image.branchAt_error_iff.1 stop
    rw [hspell.behind_reach hsize] at hnext
    generalize hdata : im.data.drop (im.indexOf entry + r.reach k js) = data at hnext
    cases hnext with
    | opcode hs he => exact .opcode fits hspell lt hplace hdata hs he
    | secondOpcode hn => exact .secondOpcode fits hspell lt hplace hdata hn
    | ended h => exact .ended fits hspell lt (by rw [hdata]; exact h)

theorem build_of_noBranch (hsize : im.size < 2 ^ 63) {k : Nat} {js : List Jump} {d : DecodeError}
    (fits : r.branchCount ≤ Table.capacity) (hspell : r.Spells im.data (im.indexOf entry) k js)
    (hlt : js.length < r.branchCount)
    (h : NoBranch (entry + UInt64.ofNat (r.reach k js)) (im.data.drop (im.indexOf entry + r.reach k js)) d) :
    r.build im.memory entry = .error (.fail (.ofDecode js.length (UInt64.ofNat (r.reach k js)) d)) := by
  obtain ⟨met, decodes⟩ := (spells_iff hsize).1 hspell
  rw [← hspell.behind_reach hsize] at h
  exact build_of_ends (.undecoded met fits decodes hlt (Image.branchAt_of_noBranch h))

theorem build_of_noAnchor (hsize : im.size < 2 ^ 63)
    (h : ∀ k < r.scanLimit, ¬ r.anchor.OccursAt im.data (im.indexOf entry + k)) :
    r.build im.memory entry = .error (.fail (.preambleNotFound r.scanLimit)) := by
  have hmet : ∀ k, ¬ r.Meets im.memory entry k := fun k hk =>
    h k hk.lt_limit ((meets_image_iff hsize).1 hk).2.1
  obtain ⟨x, hx⟩ := r.exists_ends im.memory entry
  cases hx with
  | exhausted missed => exact build_of_ends (.exhausted missed)
  | ended lt missed fault => exact build_of_ends (.ended lt missed fault)
  | faulted lt missed fault other => exact absurd (Image.read_error_iff.1 fault).2 (other _)
  | overfull met excess => exact absurd met (hmet _)
  | undecoded met fits decodes lt stop => exact absurd met (hmet _)
  | complete met fits decodes all => exact absurd met (hmet _)

theorem build_of_failsOn (hsize : im.size < 2 ^ 63) {h : Halt BuildError}
    (hfails : r.FailsOn im.data (im.indexOf entry) entry h) : r.build im.memory entry = .error h := by
  cases hfails with
  | noAnchor none => exact build_of_noAnchor hsize none
  | overfull lt first excess => exact build_of_ends (.overfull ((meets_image_iff hsize).2 ⟨lt, first⟩) excess)
  | @opcode k js offset b rest fits spells lt place next hs he =>
    rw [build_of_noBranch hsize fits spells lt (by rw [next]; exact .opcode hs he), ← place, UInt64.ofNat_toNat]
    rfl
  | @secondOpcode k js offset b rest fits spells lt place next hn =>
    rw [build_of_noBranch hsize fits spells lt (by rw [next]; exact .secondOpcode hn), ← place, UInt64.ofNat_toNat]
    rfl
  | ended fits spells lt next => exact build_of_noBranch hsize fits spells lt (.ended next)

/-- **A recovery from an image fails exactly as its data tell**: without an anchor; behind one, if no memory has room for
as many slots as asked for, which is the only way it breaks off; and else at the first bytes behind the jumps that are no
branch.  Of all faults only the end of the data is met, and only behind an anchor. -/
theorem build_image_error_iff (r : Recipe) (im : Image) (entry : Address) (hsize : im.size < 2 ^ 63) :
    (∀ h, r.build im.memory entry = .error h ↔ r.FailsOn im.data (im.indexOf entry) entry h) ∧
    (∀ x, r.build im.memory entry = .error (.trap x) ↔ x = .capacity ∧ Table.capacity < r.branchCount ∧
      ∃ k < r.scanLimit, r.anchor.FirstAt im.data (im.indexOf entry) k) ∧
    (∀ e, r.build im.memory entry ≠ .error (.fail (.invalidAnchor e))) ∧
    (∀ cause, r.build im.memory entry ≠ .error (.fail (.memory (.io cause)))) ∧
    (∀ written, r.build im.memory entry ≠ .error (.fail (.memory (.invalidAddress written)))) ∧
    ∀ a, r.build im.memory entry = .error (.fail (.memory (.outOfBounds a))) →
      ∃ k js, r.Spells im.data (im.indexOf entry) k js ∧ js.length < r.branchCount ∧
        a = entry + UInt64.ofNat (r.reach k js) := by
  have hiff : ∀ h, r.build im.memory entry = .error h ↔ r.FailsOn im.data (im.indexOf entry) entry h := fun h =>
    ⟨fun hb => failsOn_of_ends hsize (build_eq_iff.1 hb), build_of_failsOn hsize⟩
  refine ⟨hiff, fun x => (hiff _).trans ⟨?_, ?_⟩, fun e h => ?_, fun cause h => ?_, fun written h => ?_, fun a h => ?_⟩
  · intro h
    cases h with
    | overfull lt first excess => exact ⟨rfl, excess, _, lt, first⟩
  · rintro ⟨rfl, excess, k, lt, first⟩
    exact .overfull lt first excess
  · cases (hiff _).1 h
  · cases (hiff _).1 h
  · cases (hiff _).1 h
  · cases (hiff _).1 h with
    | ended fits spells lt next => exact ⟨_, _, spells, lt, rfl⟩

/-- Data that end behind the first byte of a near branch, after a short one; and the same data where the number of
branches asked for is the largest word. -/
theorem build_image_error_after_escape :
    (Recipe.mk ⟨[0xcc], none⟩ 5 2).build (Image.mk ⟨#[0x90, 0xcc, 0x75, 0x02, 0x0f]⟩ ⟨0x1000⟩).memory ⟨0x1000⟩ =
      .error (.fail (.memory (.outOfBounds ⟨0x1004⟩))) ∧
    (Recipe.mk ⟨[0xcc], none⟩ 5 0xffffffffffffffff).build
      (Image.mk ⟨#[0x90, 0xcc, 0x75, 0x02, 0x0f]⟩ ⟨0x1000⟩).memory ⟨0x1000⟩ = .error (.trap .capacity) := by
  have h := build_image_error_iff ⟨⟨[0xcc], none⟩, 5, 2⟩ ⟨⟨#[0x90, 0xcc, 0x75, 0x02, 0x0f]⟩, ⟨0x1000⟩⟩ ⟨0x1000⟩
    (by decide)
  have hspell : Recipe.Spells ⟨⟨[0xcc], none⟩, 5, 2⟩ [0x90, 0xcc, 0x75, 0x02, 0x0f] 0 1 [.ofByte 2] :=
    ⟨by decide, ⟨by decide, by decide⟩, by decide⟩
  have hhuge := build_image_error_iff ⟨⟨[0xcc], none⟩, 5, 0xffffffffffffffff⟩
    ⟨⟨#[0x90, 0xcc, 0x75, 0x02, 0x0f]⟩, ⟨0x1000⟩⟩ ⟨0x1000⟩ (by decide)
  exact ⟨(h.1 _).2 (.ended (by decide) hspell (by decide) .afterEscape),
    (hhuge.2.1 _).2 ⟨rfl, by decide, 1, by decide, hspell.first⟩⟩

end Recipe
end BranchChain
