import BranchChain.Proofs.Listing
import BranchChain.Symbol.Table
import Mathlib.Algebra.Ring.Nat
import Mathlib.Data.List.Dedup
/-!
# Proofs.Naming — names of a file and what they stand for

A table of symbols answers for a name with one entry of its file: the first of that name, or else the first of that name
behind an underscore (`SymbolTable.find?_ofContents`).  The place of its code is told by the first segment that keeps its
address (`Object.Contents.fileOffset?_eq_some_iff`), and the load base is that much in front of the address.
-/
namespace BranchChain

namespace Object

/-! ## Where a file keeps an address -/

/-- **The segment keeps a byte of the file for the address**, and the place of it is a word; the sums do not wrap. -/
def Segment.Keeps (s : Segment) (a : UInt64) : Prop :=
  s.address.toNat ≤ a.toNat ∧ a.toNat < s.address.toNat + s.fileSize.toNat ∧
    s.fileStart.toNat + (a.toNat - s.address.toNat) < 2 ^ 64

namespace Segment

variable {s : Segment} {a o : UInt64}

theorem keeps_iff : s.Keeps a ↔ s.address ≤ a ∧ a - s.address < s.fileSize ∧
    s.fileStart.toNat + (a - s.address).toNat < UInt64.size := by
  rw [Keeps, UInt64.le_iff_toNat_le, UInt64.lt_iff_toNat_lt, show UInt64.size = 2 ^ 64 from rfl]
  constructor
  · rintro ⟨hle, hlt, hsum⟩
    rw [UInt64.toNat_sub_of_le _ _ (UInt64.le_iff_toNat_le.2 hle)]
    omega
  · rintro ⟨hle, hlt, hsum⟩
    rw [UInt64.toNat_sub_of_le _ _ (UInt64.le_iff_toNat_le.2 hle)] at hlt hsum
    omega

theorem toNat_place (h : s.Keeps a) :
    (s.fileStart + (a - s.address)).toNat = s.fileStart.toNat + (a.toNat - s.address.toNat) := by
  rw [UInt64.toNat_add, UInt64.toNat_sub_of_le _ _ (UInt64.le_iff_toNat_le.2 h.1), Nat.mod_eq_of_lt h.2.2]

theorem fileOffset?_of_keeps (h : s.Keeps a) : s.fileOffset? a = some (s.fileStart + (a - s.address)) := by
  obtain ⟨hle, hlt, hsum⟩ := keeps_iff.1 h
  rw [fileOffset?, if_pos ⟨hle, hlt⟩, if_pos hsum]

theorem fileOffset?_of_not_keeps (h : ¬ s.Keeps a) : s.fileOffset? a = none := by
  rw [keeps_iff] at h
  unfold fileOffset?
  split
  · rename_i hin
    exact if_neg fun hsum => h ⟨hin.1, hin.2, hsum⟩
  · rfl

theorem fileOffset?_eq_some_iff :
    s.fileOffset? a = some o ↔ s.Keeps a ∧ o.toNat = s.fileStart.toNat + (a.toNat - s.address.toNat) := by
  by_cases h : s.Keeps a
  · rw [fileOffset?_of_keeps h, Option.some.injEq, ← UInt64.toNat_inj, toNat_place h]
    exact ⟨fun ho => ⟨h, ho.symm⟩, fun ho => ho.2.symm⟩
  · rw [fileOffset?_of_not_keeps h]
    exact ⟨fun ho => (by cases ho), fun ho => absurd ho.1 h⟩

theorem fileOffset?_eq_none_iff : s.fileOffset? a = none ↔ ¬ s.Keeps a := by
  refine ⟨fun h hk => ?_, fileOffset?_of_not_keeps⟩
  rw [fileOffset?_of_keeps hk] at h
  cases h

end Segment

/-- **The file keeps the address at a place**: the first segment that keeps it has it there. -/
def Contents.KeepsAt (c : Contents) (a o : UInt64) : Prop :=
  ∃ before s after, c.segments = before ++ s :: after ∧ (∀ x ∈ before, ¬ x.Keeps a) ∧ s.Keeps a ∧
    o.toNat = s.fileStart.toNat + (a.toNat - s.address.toNat)

theorem Contents.fileOffset?_eq_some_iff {c : Contents} {a o : UInt64} : c.fileOffset? a = some o ↔ c.KeepsAt a o := by
  unfold fileOffset? KeepsAt
  rw [List.findSome?_eq_some_iff]
  simp only [Segment.fileOffset?_eq_some_iff, Segment.fileOffset?_eq_none_iff]
  constructor
  · rintro ⟨before, s, after, hs, ⟨hk, ho⟩, hnone⟩
    exact ⟨before, s, after, hs, hnone, hk, ho⟩
  · rintro ⟨before, s, after, hs, hnone, hk, ho⟩
    exact ⟨before, s, after, hs, ⟨hk, ho⟩, hnone⟩

theorem Contents.fileOffset?_eq_none_iff {c : Contents} {a : UInt64} :
    c.fileOffset? a = none ↔ ∀ s ∈ c.segments, ¬ s.Keeps a := by
  unfold fileOffset?
  rw [List.findSome?_eq_none_iff]
  simp only [Segment.fileOffset?_eq_none_iff]

/-- **The entry a name stands for**: the first of that name, or else the first of that name behind an underscore. -/
def Contents.meant? (c : Contents) (name : String) : Option Entry :=
  (c.entries.find? (·.name == name)).or (c.entries.find? (·.name == "_" ++ name))

end Object

/-! ## Tables by name -/

/-- **The first to be stored under a name stays.** -/
theorem getElem?_foldl_insertIfNew {α β : Type} (key : α → String) (value : α → β) :
    ∀ (xs : List α) (m : Std.HashMap String β) (name : String),
      (xs.foldl (fun m x => m.insertIfNew (key x) (value x)) m)[name]? =
        m[name]?.or ((xs.find? (key · == name)).map value)
  | [], m, name => by simp
  | x :: xs, m, name => by
    rw [List.foldl_cons, getElem?_foldl_insertIfNew key value xs, Std.HashMap.getElem?_insertIfNew, List.find?_cons]
    by_cases hx : (key x == name) = true
    · rw [beq_iff_eq] at hx
      subst hx
      by_cases hm : key x ∈ m <;> simp [hm]
    · simp [hx]

/-- **A map has as many entries as there are names in it**, however often they are told. -/
theorem size_eq_length_dedup {β : Type} {m : Std.HashMap String β} {names : List String}
    (h : ∀ name, m[name]?.isSome ↔ name ∈ names) : m.size = names.dedup.length := by
  have hperm : m.keys.Perm names.dedup := by
    refine (List.perm_ext_iff_of_nodup Std.HashMap.nodup_keys (List.nodup_dedup _)).2 fun name => ?_
    rw [Std.HashMap.mem_keys, Std.HashMap.mem_iff_isSome_getElem?, h, List.mem_dedup]
  rw [← Std.HashMap.length_keys, hperm.length_eq]

namespace SymbolTable

open Object (Contents)

theorem getElem?_ofContents (c : Contents) (name : String) :
    (ofContents c).symbols[name]? = (c.entries.find? (·.name == name)).map c.symbolOf := by
  rw [ofContents, getElem?_foldl_insertIfNew (·.name) c.symbolOf]
  simp

theorem find?_ofContents (c : Contents) (name : String) :
    (ofContents c).find? name = (c.meant? name).map c.symbolOf := by
  rw [find?, getElem?_ofContents, getElem?_ofContents, Contents.meant?, Option.map_or]

/-- A table has as many symbols as there are names. -/
theorem size_ofContents (c : Contents) : (ofContents c).size = (c.entries.map (·.name)).dedup.length := by
  refine size_eq_length_dedup fun name => ?_
  rw [getElem?_ofContents, Option.isSome_map, List.find?_isSome, List.mem_map]
  simp only [beq_iff_eq]

variable {t : SymbolTable} {name : String} {s : Symbol}

/-! ## One look-up, three answers -/

theorem lookUp_of_none (h : t.find? name = none) : t.lookUp name = .error (.notFound name) := by
  rw [lookUp, h]

theorem lookUp_of_some (h : t.find? name = some s) : t.lookUp name = .ok s := by
  rw [lookUp, h]

theorem resolve_of_none (h : t.find? name = none) : t.resolve name = .error (.notFound name) := by
  rw [resolve, lookUp_of_none h]
  rfl

theorem resolve_of_some (h : t.find? name = some s) : t.resolve name = .ok ⟨s.address⟩ := by
  rw [resolve, lookUp_of_some h]
  rfl

theorem fileOffset_of_none (h : t.find? name = none) : t.fileOffset name = .error (.notFound name) := by
  rw [fileOffset, lookUp_of_none h]
  rfl

theorem fileOffset_of_some (h : t.find? name = some s) :
    t.fileOffset name = match s.fileOffset with
      | some o => .ok o
      | none => .error (.notInFile name) := by
  rw [fileOffset, lookUp_of_some h]
  rfl

theorem loadBase_of_none (h : t.find? name = none) : t.loadBase name = .error (.notFound name) := by
  rw [loadBase, resolve_of_none h]
  rfl

theorem loadBase_of_some (h : t.find? name = some s) :
    t.loadBase name = match s.fileOffset with
      | some o => .ok ((⟨s.address⟩ : Address) - o)
      | none => .error (.notInFile name) := by
  rw [loadBase, resolve_of_some h, fileOffset_of_some h]
  cases s.fileOffset <;> rfl

/-- **What a table answers for a name**, by the contents of a file: no entry has the name, or the name stands for an entry
whose code is nowhere in the file, or for one whose code has a place there.  The three exclude each other, so each answer
is given in its case only. -/
inductive Answers (t : SymbolTable) (c : Contents) (name : String) : Prop where
  | unknown (meant : c.meant? name = none) (find : t.find? name = none)
    (resolve : t.resolve name = .error (.notFound name)) (fileOffset : t.fileOffset name = .error (.notFound name))
    (loadBase : t.loadBase name = .error (.notFound name))
  | unstored {e : Object.Entry} (meant : c.meant? name = some e) (nowhere : ∀ s ∈ c.segments, ¬ s.Keeps e.address)
    (find : t.find? name = some ⟨e.name, e.address, e.size, none⟩) (resolve : t.resolve name = .ok ⟨e.address⟩)
    (fileOffset : t.fileOffset name = .error (.notInFile name)) (loadBase : t.loadBase name = .error (.notInFile name))
  | stored {e : Object.Entry} {o : UInt64} (meant : c.meant? name = some e) (place : c.KeepsAt e.address o)
    (find : t.find? name = some ⟨e.name, e.address, e.size, some o⟩) (resolve : t.resolve name = .ok ⟨e.address⟩)
    (fileOffset : t.fileOffset name = .ok o) (loadBase : t.loadBase name = .ok ((⟨e.address⟩ : Address) - o))

theorem answers_ofContents (c : Contents) (name : String) : (ofContents c).Answers c name := by
  have hfind := find?_ofContents c name
  cases hm : c.meant? name with
  | none =>
    rw [hm, Option.map_none] at hfind
    exact .unknown hm hfind (resolve_of_none hfind) (fileOffset_of_none hfind) (loadBase_of_none hfind)
  | some e =>
    rw [hm, Option.map_some, Contents.symbolOf] at hfind
    have hoffset := fileOffset_of_some hfind
    have hbase := loadBase_of_some hfind
    cases ho : c.fileOffset? e.address with
    | none =>
      rw [ho] at hfind hoffset hbase
      exact .unstored hm (Contents.fileOffset?_eq_none_iff.1 ho) hfind (resolve_of_some hfind) hoffset hbase
    | some o =>
      rw [ho] at hfind hoffset hbase
      exact .stored hm (Contents.fileOffset?_eq_some_iff.1 ho) hfind (resolve_of_some hfind) hoffset hbase

variable {parse : Object.Parser} {bytes : ByteArray} {event : Event}

theorem ofBytes_eq_ok (h : ofBytes parse bytes = .ok (t, event)) :
    ∃ c, Object.read parse bytes = .ok c ∧ t = ofContents c := by
  unfold ofBytes at h
  obtain ⟨c, hc, h⟩ := bind_eq_ok.1 h
  cases h
  exact ⟨c, hc, rfl⟩

theorem ofBytes_of_read {c : Contents} (h : Object.read parse bytes = .ok c) :
    ofBytes parse bytes = .ok (ofContents c, .symbolsRead (ofContents c).size c.segments.length) := by
  rw [ofBytes, h]
  rfl

/-- **A file that is read is answered for, name by name.**  Whatever the parser, of what it tells the first entry of a name
counts, the name as given before the name behind an underscore; there is one symbol for each name; and the address, the
place in the file and the load base are those of one entry. -/
theorem ofBytes_answers (parse : Object.Parser) (bytes : ByteArray) (t : SymbolTable) (event : Event)
    (h : ofBytes parse bytes = .ok (t, event)) :
    ∃ o c, parse bytes = .ok o ∧ o.Lists c.segments c.entries ∧
      t.size = (c.entries.map (·.name)).dedup.length ∧ ∀ name, t.Answers c name := by
  obtain ⟨c, hc, rfl⟩ := ofBytes_eq_ok h
  obtain ⟨o, ho, hlists⟩ := Object.read_eq_ok_iff.1 hc
  exact ⟨o, c, ho, hlists, size_ofContents c, answers_ofContents c⟩

/-- A name that stands for itself though its code is nowhere in the file, and one behind an underscore, whose load base
lies below the null address. -/
theorem ofBytes_answers_smallFile :
    ∃ t event, ofBytes Object.parse Object.smallFile = .ok (t, event) ∧ t.size = 3 ∧ t.resolve "g" = .ok ⟨0x9000⟩ ∧
      t.loadBase "g" = .error (.notInFile "g") ∧ t.fileOffset "f" = .ok 164 ∧
      t.loadBase "f" = .ok ⟨0xffffffffffffff70⟩ := by
  obtain ⟨o, c, ho, hlists, hsize, hanswers⟩ := ofBytes_answers _ _ _ _ (ofBytes_of_read Object.read_smallFile)
  cases Object.read_smallFile.symm.trans (Object.read_eq_ok_iff.2 ⟨o, ho, hlists⟩)
  have hg : Object.smallContents.meant? "g" = some ⟨"g", 0x9000, 0⟩ := by decide +kernel
  have hf : Object.smallContents.meant? "f" = some ⟨"_f", 20, 0⟩ := by decide +kernel
  have hgnowhere : Object.smallContents.fileOffset? 0x9000 = none := by decide +kernel
  have hfplace : Object.smallContents.fileOffset? 20 = some 164 := by decide +kernel
  refine ⟨_, _, ofBytes_of_read Object.read_smallFile, hsize.trans (by decide +kernel), ?_⟩
  cases hanswers "g" with
  | unknown meant => exact absurd (hg.symm.trans meant) (by simp)
  | stored meant place =>
    cases hg.symm.trans meant
    exact absurd (hgnowhere.symm.trans (Contents.fileOffset?_eq_some_iff.2 place)) (by simp)
  | unstored meant nowhere find resolve fileOffset loadBase =>
    cases hg.symm.trans meant
    refine ⟨resolve, loadBase, ?_⟩
    cases hanswers "f" with
    | unknown meant => exact absurd (hf.symm.trans meant) (by simp)
    | unstored meant nowhere =>
      cases hf.symm.trans meant
      exact absurd (hfplace.symm.trans (Contents.fileOffset?_eq_none_iff.2 nowhere)) (by simp)
    | stored meant place find resolve fileOffset loadBase =>
      cases hf.symm.trans meant
      cases hfplace.symm.trans (Contents.fileOffset?_eq_some_iff.2 place)
      exact ⟨fileOffset, loadBase⟩

end SymbolTable
end BranchChain
