import BranchChain.Proofs.Naming
import BranchChain.Proofs.Reading
/-!
# Proofs.Placing — a file placed by one of its segments

The load base of a symbol is the load base of the segment that keeps its address (`Object.Segment.sub_place`), so it
serves all of that segment.  From there each address of the segment has its byte where the segment says, in front of the
symbol as well as behind it, and a read fails only if the file ends first (`SymbolTable.read_at_loadBase`).
-/
namespace BranchChain

/-- **A read of an image in one line**: the bytes from the index on, if there are enough of them. -/
theorem Image.read_toList (im : Image) (a : Address) (n : Nat) :
    (im.memory.read a n).map (·.data.toList) =
      if im.indexOf a + n ≤ im.size then .ok ((im.behind a).take n) else .error (.outOfBounds a) := by
  split
  · rename_i h
    obtain ⟨b, hb, hl⟩ := im.read_ok a n h
    rw [hb, ← hl]
    rfl
  · rename_i h
    rw [im.read_error a n (Nat.not_le.1 h)]
    rfl

namespace Object
namespace Segment

variable (s : Segment)

/-- Where the file's first byte is when the segment is in place, around the address space if need be. -/
def base : Address := ⟨s.address - s.fileStart⟩

/-- What is kept at an address of the segment puts the file where the segment puts it. -/
theorem sub_place (a : UInt64) : (⟨a⟩ : Address) - (s.fileStart + (a - s.address)) = s.base := by
  show Address.mk (a - (s.fileStart + (a - s.address))) = ⟨s.address - s.fileStart⟩
  congr 1
  grind

theorem offsetFrom_base (a : Address) : a.offsetFrom s.base = s.fileStart + (a.word - s.address) := by
  show a.word - (s.address - s.fileStart) = s.fileStart + (a.word - s.address)
  grind

/-- **In front of the end of the segment no sum wraps**, not even where the base lies below the null address. -/
theorem indexOf_base {s : Segment} {bytes : ByteArray} {a : Address} (hfile : s.fileStart.toNat + s.fileSize.toNat < 2 ^ 64)
    (hle : s.address.toNat ≤ a.toNat) (hend : a.toNat ≤ s.address.toNat + s.fileSize.toNat) :
    (Image.mk bytes s.base).indexOf a = s.fileStart.toNat + (a.toNat - s.address.toNat) := by
  have hsub : (a.word - s.address).toNat = a.toNat - s.address.toNat :=
    UInt64.toNat_sub_of_le _ _ (UInt64.le_iff_toNat_le.2 hle)
  rw [Image.indexOf, offsetFrom_base, UInt64.toNat_add, hsub, Nat.mod_eq_of_lt]
  omega

end Segment

/-- The first segment that keeps an address is the first that tells a place for it. -/
theorem Contents.KeepsAt.find?_eq {c : Contents} {a o : UInt64} (h : c.KeepsAt a o) :
    ∃ s, c.segments.find? (fun s => (s.fileOffset? a).isSome) = some s ∧ s.Keeps a ∧
      o = s.fileStart + (a - s.address) := by
  obtain ⟨before, s, after, hs, hnone, hk, ho⟩ := h
  refine ⟨s, ?_, hk, by rw [← UInt64.toNat_inj, ho, Segment.toNat_place hk]⟩
  rw [hs, List.find?_append, List.find?_eq_none.2, List.find?_cons_of_pos]
  · rfl
  · rw [Segment.fileOffset?_of_keeps hk]
    rfl
  · intro x hx
    rw [Segment.fileOffset?_of_not_keeps (hnone x hx)]
    exact Bool.false_ne_true

end Object

namespace SymbolTable

open Object (Contents)

variable {c : Contents} {name : String} {base : Address}

theorem base_of_loadBase (h : (ofContents c).loadBase name = .ok base) :
    ∃ e s, (ofContents c).resolve name = .ok ⟨e.address⟩ ∧ c.meant? name = some e ∧
      c.segments.find? (fun s => (s.fileOffset? e.address).isSome) = some s ∧ base = s.base := by
  cases answers_ofContents c name with
  | unknown _ _ _ _ loadBase =>
    rw [loadBase] at h
    cases h
  | unstored _ _ _ _ _ loadBase =>
    rw [loadBase] at h
    cases h
  | @stored e o meant place _ resolve _ loadBase =>
    rw [loadBase, Except.ok.injEq] at h
    obtain ⟨s, hs, -, rfl⟩ := place.find?_eq
    exact ⟨e, s, resolve, meant, hs, by rw [← h, s.sub_place]⟩

/-- **At the load base of a symbol all of its segment is in place.**  Whatever the parser, the segment is the first of those
it tells that tells where the file keeps the symbol's address.  A read inside it, wherever the symbol stands in it and
whether or not the base lies below the null address, gives the bytes of the file that the segment puts there, or finds
that the file ends first. -/
theorem read_at_loadBase (parse : Object.Parser) (bytes : ByteArray) (t : SymbolTable) (event : Event)
    (h : ofBytes parse bytes = .ok (t, event)) (name : String) (base : Address) (hbase : t.loadBase name = .ok base) :
    ∃ (o : Object.Parsed) (c : Contents) (e : Object.Entry) (s : Object.Segment),
      parse bytes = .ok o ∧ o.Lists c.segments c.entries ∧
      c.meant? name = some e ∧ t.resolve name = .ok ⟨e.address⟩ ∧
      c.segments.find? (fun s => (s.fileOffset? e.address).isSome) = some s ∧
      (s.fileStart.toNat + s.fileSize.toNat < 2 ^ 64 → ∀ (a : Address) (n : Nat),
        s.address.toNat ≤ a.toNat → a.toNat + n ≤ s.address.toNat + s.fileSize.toNat →
        ((Image.mk bytes base).memory.read a n).map (·.data.toList) =
          if s.fileStart.toNat + (a.toNat - s.address.toNat) + n ≤ bytes.size then
            .ok ((bytes.data.toList.drop (s.fileStart.toNat + (a.toNat - s.address.toNat))).take n)
          else .error (.outOfBounds a)) := by
  obtain ⟨c, hc, rfl⟩ := ofBytes_eq_ok h
  obtain ⟨o, ho, hlists⟩ := Object.read_eq_ok_iff.1 hc
  obtain ⟨e, s, hresolve, hmeant, hs, rfl⟩ := base_of_loadBase hbase
  refine ⟨o, c, e, s, ho, hlists, hmeant, hresolve, hs, fun hfile a n hle hend => ?_⟩
  have hindex : (Image.mk bytes s.base).indexOf a = s.fileStart.toNat + (a.toNat - s.address.toNat) :=
    Object.Segment.indexOf_base hfile hle (by omega)
  rw [Image.read_toList, Image.behind, hindex]
  rfl

/-- From a load base below the null address: a read over the symbol, from in front of it, and one over the end of the
file. -/
theorem read_at_loadBase_shortFile :
    ∃ t event base, ofBytes Object.parse Object.shortFile = .ok (t, event) ∧ t.resolve "f" = .ok ⟨20⟩ ∧
      t.loadBase "f" = .ok base ∧ base = ⟨0xffffffffffffff34⟩ ∧
      ((Image.mk Object.shortFile base).memory.read ⟨18⟩ 5).map (·.data.toList) = .ok [0x00, 0x00, 0xcc, 0x75, 0x02] ∧
      ((Image.mk Object.shortFile base).memory.read ⟨23⟩ 2).map (·.data.toList) = .error (.outOfBounds ⟨23⟩) := by
  have hmeant : Object.shortContents.meant? "f" = some ⟨"f", 20, 0⟩ := by decide +kernel
  have hsegment : Object.shortContents.segments.find? (fun s => (s.fileOffset? 20).isSome) = some ⟨16, 220, 100⟩ := by
    decide +kernel
  have htable := ofBytes_of_read Object.read_shortFile
  have hbase : (ofContents Object.shortContents).loadBase "f" = .ok ⟨0xffffffffffffff34⟩ := by
    have hfind := find?_ofContents Object.shortContents "f"
    rw [hmeant, Option.map_some, Object.Contents.symbolOf,
      show Object.shortContents.fileOffset? 20 = some 224 by decide +kernel] at hfind
    exact loadBase_of_some hfind
  obtain ⟨o, c, e, s, ho, hlists, he, hresolve, hs, h⟩ := read_at_loadBase _ _ _ _ htable _ _ hbase
  cases Object.read_shortFile.symm.trans (Object.read_eq_ok_iff.2 ⟨o, ho, hlists⟩)
  cases hmeant.symm.trans he
  cases hsegment.symm.trans hs
  have hfile : UInt64.toNat 220 + UInt64.toNat 100 < 2 ^ 64 := by decide
  refine ⟨_, _, _, htable, hresolve, hbase, rfl, ?_, ?_⟩
  · exact (h hfile ⟨18⟩ 5 (by decide) (by decide)).trans (by decide +kernel)
  · exact (h hfile ⟨23⟩ 2 (by decide) (by decide)).trans (by decide +kernel)

end SymbolTable
end BranchChain
