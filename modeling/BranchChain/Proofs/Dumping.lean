import BranchChain.Proofs.ImageRecovery
import BranchChain.Proofs.Naming
/-!
# Proofs.Dumping — the code of a file and a dump of it

What lies in front of the entry is never read: data that are the same behind two starts spell the same there and fail
the same (`Recipe.build_image_of_behind`).  So a file placed at a symbol's load base, which may lie below the null
address, is as good as a dump of its bytes from the symbol's code on (`SymbolTable.build_file_eq_build_dump`).
-/
namespace BranchChain

/-! ## Data behind a start -/

section Behind

variable {data data' : List UInt8} {start start' : Nat} (hd : data'.drop start' = data.drop start)
include hd

theorem drop_add_of_drop_eq (n : Nat) : data'.drop (start' + n) = data.drop (start + n) := by
  rw [← List.drop_drop, ← List.drop_drop, hd]

/-- An anchor of no bytes stands at the end of data too, so both starts must be inside or at the end. -/
theorem Pattern.occursAt_of_drop_eq (p : Pattern) (h : start ≤ data.length) (h' : start' ≤ data'.length) (i : Nat) :
    p.OccursAt data' (start' + i) ↔ p.OccursAt data (start + i) := by
  have hlen := congrArg List.length hd
  rw [List.length_drop, List.length_drop] at hlen
  unfold OccursAt
  rw [drop_add_of_drop_eq hd i]
  exact and_congr_left fun _ => by omega

variable {r : Recipe} (h : start ≤ data.length) (h' : start' ≤ data'.length)
include h h'

theorem Pattern.FirstAt.of_drop_eq {p : Pattern} {k : Nat} (hf : p.FirstAt data start k) : p.FirstAt data' start' k := by
  refine ⟨(p.occursAt_of_drop_eq hd h h' k).2 hf.1, fun j hj hocc => ?_⟩
  exact hf.2 j hj ((p.occursAt_of_drop_eq hd h h' j).1 hocc)

theorem Recipe.Spells.of_drop_eq {k : Nat} {js : List Jump} (hs : r.Spells data start k js) :
    r.Spells data' start' k js where
  lt_limit := hs.lt_limit
  first := hs.first.of_drop_eq hd h h'
  encoded := by
    have henc := hs.encoded
    rw [Nat.add_assoc] at henc ⊢
    rwa [drop_add_of_drop_eq hd]

theorem Recipe.FailsOn.of_drop_eq {entry : Address} {e : Halt BuildError} (hf : r.FailsOn data start entry e) :
    r.FailsOn data' start' entry e := by
  cases hf with
  | noAnchor none => exact .noAnchor fun k hk hocc => none k hk ((r.anchor.occursAt_of_drop_eq hd h h' k).1 hocc)
  | overfull lt first excess => exact .overfull lt (first.of_drop_eq hd h h') excess
  | opcode fits spells lt place next hs he =>
    rw [← drop_add_of_drop_eq hd] at next
    exact .opcode fits (spells.of_drop_eq hd h h') lt place next hs he
  | secondOpcode fits spells lt place next hn =>
    rw [← drop_add_of_drop_eq hd] at next
    exact .secondOpcode fits (spells.of_drop_eq hd h h') lt place next hn
  | ended fits spells lt next =>
    rw [← drop_add_of_drop_eq hd] at next
    exact .ended fits (spells.of_drop_eq hd h h') lt next

end Behind

/-- **Nothing in front of the entry matters.**  Two images with the same bytes from the entry to their ends give the same
table or the same error. -/
theorem Recipe.build_image_of_behind (r : Recipe) {im im' : Image} {entry : Address} (hsize : im.size < 2 ^ 63)
    (hsize' : im'.size < 2 ^ 63) (h : im.indexOf entry ≤ im.size) (h' : im'.indexOf entry ≤ im'.size)
    (hb : im'.behind entry = im.behind entry) : r.build im'.memory entry = r.build im.memory entry := by
  cases hx : r.build im.memory entry with
  | ok t =>
    obtain ⟨fits, k, js, hspell, hlen, rfl⟩ := (build_image_eq_tableOf_iff hsize).1 hx
    exact (build_image_eq_tableOf_iff hsize').2 ⟨fits, k, js, hspell.of_drop_eq hb h h', hlen, rfl⟩
  | error e => exact build_of_failsOn hsize' ((failsOn_of_ends hsize (build_eq_iff.1 hx)).of_drop_eq hb h h')

/-! ## Files and dumps -/

theorem Address.offsetFrom_self (a : Address) : a.offsetFrom a = 0 := UInt64.sub_self _

/-- The way back of a difference, around the address space if need be. -/
theorem Address.offsetFrom_sub (a : Address) (o : UInt64) : a.offsetFrom (a - o) = o := by
  show a.word - (a.word - o) = o
  rw [UInt64.sub_eq_add_neg, UInt64.neg_sub, UInt64.add_comm, UInt64.sub_add_cancel]

namespace SymbolTable

variable {t : SymbolTable} {name : String} {a : Address} {o : UInt64}

theorem loadBase_of_ok (ha : t.resolve name = .ok a) (ho : t.fileOffset name = .ok o) : t.loadBase name = .ok (a - o) := by
  rw [loadBase, ha, ho]
  rfl

/-- **A file and a dump of its code agree**, whatever symbols were read from the file.  With the file placed at a symbol's
load base, a recovery from the symbol's address ends as it does over the bytes from the symbol's code on, placed at that
address: in the same table or the same error. -/
theorem build_file_eq_build_dump (r : Recipe) (bytes : ByteArray) (t : SymbolTable) (name : String) (a : Address)
    (o : UInt64) (hsize : bytes.size < 2 ^ 63) (ha : t.resolve name = .ok a) (ho : t.fileOffset name = .ok o)
    (hle : o.toNat ≤ bytes.size) :
    ∃ base, t.loadBase name = .ok base ∧
      r.build (Image.mk bytes base).memory a =
        r.build (Image.mk (bytes.extract o.toNat bytes.size) a).memory a := by
  refine ⟨a - o, loadBase_of_ok ha ho, ?_⟩
  have hdump : (Image.mk (bytes.extract o.toNat bytes.size) a).size = bytes.size - o.toNat := by
    rw [Image.size, ByteArray.size_extract, Nat.min_self]
  have hfile : (Image.mk bytes (a - o)).indexOf a = o.toNat := by
    rw [Image.indexOf, Address.offsetFrom_sub]
  have hstart : (Image.mk (bytes.extract o.toNat bytes.size) a).indexOf a = 0 := by
    rw [Image.indexOf, Address.offsetFrom_self]
    rfl
  refine r.build_image_of_behind (by omega) hsize (by omega) (by rw [hfile]; exact hle) ?_
  rw [Image.behind, Image.behind, hfile, hstart, List.drop_zero, Image.data, Image.data, ByteArray.data_extract,
    Array.toList_extract, List.extract_eq_take_drop, List.take_of_length_le]
  rw [List.length_drop]
  rfl

/-- A branch in the last bytes of a small file, whose load base lies below the null address. -/
theorem build_file_eq_build_dump_smallFile :
    ∃ t event, ofBytes Object.parse Object.smallFile = .ok (t, event) ∧ t.resolve "f" = .ok ⟨20⟩ ∧ t.fileOffset "f" = .ok 164 ∧
      ∃ base, t.loadBase "f" = .ok base ∧
        (Recipe.mk ⟨[0xcc], none⟩ 5 1).build (Image.mk Object.smallFile base).memory ⟨20⟩ =
          .ok ⟨⟨20⟩, 0, [⟨0, ⟨25⟩, 1, .short, 2⟩]⟩ := by
  have hfind := find?_ofContents Object.smallContents "f"
  rw [show Object.smallContents.meant? "f" = some ⟨"_f", 20, 0⟩ by decide +kernel, Option.map_some,
    Object.Contents.symbolOf, show Object.smallContents.fileOffset? 20 = some 164 by decide +kernel] at hfind
  have ha := resolve_of_some hfind
  have ho := fileOffset_of_some hfind
  obtain ⟨base, hbase, h⟩ := build_file_eq_build_dump ⟨⟨[0xcc], none⟩, 5, 1⟩ Object.smallFile _ "f" ⟨20⟩ 164
    (by decide +kernel) ha ho (by decide +kernel)
  exact ⟨_, _, ofBytes_of_read Object.read_smallFile, ha, ho, base, hbase, h.trans (by decide +kernel)⟩

end SymbolTable
end BranchChain
