import BranchChain.Object.Parse
import BranchChain.Proofs.Results
/-!
# Proofs.Listing — what a file is read for

Of all that a parser tells, only symbols and segments matter.  `Object.Parsed.Lists` says which these are in a file of
either kind and in which order, and `Object.Parsed.contents_eq_ok_iff` that these are the ones that are kept, and that
nothing is kept of any other file.
-/
namespace BranchChain

theorem filterMap_eq_map_filter {α β : Type} {f : α → Option β} {p : α → Bool} {g : α → β}
    (h : ∀ x, f x = (Option.guard p x).map g) (xs : List α) : xs.filterMap f = (xs.filter p).map g := by
  rw [← List.filterMap_eq_filter, List.map_filterMap]
  exact List.filterMap_congr fun x _ => h x

namespace Object

/-- **The segments and the symbols of a parsed file.**  In an ELF file they are the headers of loaded segments, and the
entries of the symbol table and behind them those of the dynamic one; in a Mach-O file all segments, and the entries with
a section.  An entry without an address or without a name is no symbol. -/
inductive Parsed.Lists : Parsed → List Segment → List Entry → Prop where
  | elf {headers : List ElfHeader} {listed dynamic : List ElfEntry} :
    Lists (.elf headers listed dynamic)
      ((headers.filter fun h => h.type = 1).map fun h => ⟨h.address, h.fileStart, h.fileSize⟩)
      (((listed ++ dynamic).filter fun e => e.address ≠ 0 ∧ e.name ≠ none ∧ e.name ≠ some "").map fun e =>
        ⟨e.name.getD "", e.address, e.size⟩)
  | machO {segments : List Segment} {entries : List MachOEntry} :
    Lists (.machO segments (entries.map .ok)) segments
      ((entries.filter fun e => e.sect ≠ 0 ∧ e.address ≠ 0 ∧ e.name ≠ "").map fun e => ⟨e.name, e.address, 0⟩)

theorem ElfHeader.segment?_eq (h : ElfHeader) :
    h.segment? = (Option.guard (fun h : ElfHeader => h.type = 1) h).map fun h => ⟨h.address, h.fileStart, h.fileSize⟩ := by
  unfold segment? loadType Option.guard
  by_cases ht : h.type = 1 <;> simp [ht]

theorem ElfEntry.entry?_eq (e : ElfEntry) :
    e.entry? = (Option.guard (fun e : ElfEntry => e.address ≠ 0 ∧ e.name ≠ none ∧ e.name ≠ some "") e).map fun e =>
      ⟨e.name.getD "", e.address, e.size⟩ := by
  obtain ⟨name, address, size⟩ := e
  unfold entry? Option.guard
  by_cases ha : address = 0
  · simp [ha]
  · cases name with
    | none => simp [ha]
    | some name => by_cases hn : name = "" <;> simp [ha, hn]

theorem MachOEntry.entry?_eq (e : MachOEntry) :
    e.entry? = (Option.guard (fun e : MachOEntry => e.sect ≠ 0 ∧ e.address ≠ 0 ∧ e.name ≠ "") e).map fun e =>
      ⟨e.name, e.address, 0⟩ := by
  unfold entry? Option.guard
  by_cases hs : e.sect = 0 <;> by_cases ha : e.address = 0 <;> by_cases hn : e.name = "" <;> simp [hs, ha, hn]

/-- Entries are all there if none of them is damaged. -/
theorem mapM_mapError_eq_ok_iff {entries : List (Except String MachOEntry)} {es : List MachOEntry} :
    (entries.mapM fun e => e.mapError SymbolError.parse) = .ok es ↔ entries = es.map .ok := by
  rw [mapM_eq_ok_iff]
  simp only [mapError_eq_ok]
  rw [← List.forall₂_map_right_iff (f := Except.ok), List.forall₂_eq_eq_eq]

/-- **What is kept of a parsed file are its segments and symbols**, if it has any. -/
theorem Parsed.contents_eq_ok_iff {o : Parsed} {c : Contents} : o.contents = .ok c ↔ o.Lists c.segments c.entries := by
  have helf (headers : List ElfHeader) (listed dynamic : List ElfEntry) :
      (elf headers listed dynamic).Lists (headers.filterMap ElfHeader.segment?)
        (listed.filterMap ElfEntry.entry? ++ dynamic.filterMap ElfEntry.entry?) := by
    rw [← List.filterMap_append, filterMap_eq_map_filter ElfHeader.segment?_eq, filterMap_eq_map_filter ElfEntry.entry?_eq]
    exact .elf
  have hmachO (segments : List Segment) (es : List MachOEntry) :
      (machO segments (es.map .ok)).Lists segments (es.filterMap MachOEntry.entry?) := by
    rw [filterMap_eq_map_filter MachOEntry.entry?_eq]
    exact .machO
  constructor
  · intro h
    cases o with
    | elf headers listed dynamic =>
      cases h
      exact helf headers listed dynamic
    | machO segments entries =>
      obtain ⟨es, hes, h⟩ := bind_eq_ok.1 h
      cases h
      rw [mapM_mapError_eq_ok_iff.1 hes]
      exact hmachO segments es
    | fatMachO | pe | other => cases h
  · obtain ⟨segments, entries⟩ := c
    rintro (_ | _)
    · rename_i headers listed dynamic
      rw [← filterMap_eq_map_filter ElfHeader.segment?_eq, ← filterMap_eq_map_filter ElfEntry.entry?_eq,
        List.filterMap_append]
      rfl
    · rename_i es
      rw [← filterMap_eq_map_filter MachOEntry.entry?_eq]
      exact bind_eq_ok.2 ⟨es, mapM_mapError_eq_ok_iff.2 rfl, rfl⟩

theorem read_eq_ok_iff {parse : Parser} {bytes : ByteArray} {c : Contents} :
    read parse bytes = .ok c ↔ ∃ o, parse bytes = .ok o ∧ o.Lists c.segments c.entries := by
  unfold read
  simp only [bind_eq_ok, mapError_eq_ok, Parsed.contents_eq_ok_iff]

/-! ## Two files in full -/

/-- Words as bytes, low byte first. -/
def littleWords (ws : List UInt32) : ByteArray :=
  ⟨(ws.flatMap fun w : UInt32 => [w.toUInt8, (w >>> 8).toUInt8, (w >>> 16).toUInt8, (w >>> 24).toUInt8]).toArray⟩

/-- **A small Mach-O file.**  Its one segment puts the last eight bytes of the file at address 16; `_g` stands in its
symbol table twice, `g` once with an address in no segment, and `_f` names the code in the last four bytes. -/
def smallFile : ByteArray := littleWords [
  0xfeedface, 7, 3, 2, 2, 80, 0,
  1, 56, 0, 0, 0, 0, 16, 8, 160, 8, 0, 0, 0, 0,
  2, 24, 108, 4, 156, 8,
  1, 0x10f, 16,
  2, 0x10f, 0x9000,
  1, 0x10f, 17,
  4, 0x10f, 20,
  0x00675f00, 0x0000665f,
  0xc30275cc]

def smallContents : Contents :=
  ⟨[⟨16, 160, 8⟩], [⟨"_g", 16, 0⟩, ⟨"g", 0x9000, 0⟩, ⟨"_g", 17, 0⟩, ⟨"_f", 20, 0⟩]⟩

theorem read_smallFile : read parse smallFile = .ok smallContents := eq_ok_of_toOption (by decide +kernel)

/-- **A small ELF file whose segment is longer than what is left of the file.**  The segment puts the last eight bytes of
the file at address 16 and promises a hundred; `f` names the code in the last four bytes. -/
def shortFile : ByteArray := littleWords [
  0x464c457f, 0x00010101, 0, 0, 0x00030002, 1, 0, 52, 84, 0, 0x00200034, 0x00280001, 0x00020003,
  1, 220, 16, 16, 100, 100, 5, 0,
  0, 0, 0, 0, 0, 0, 0, 0, 0, 0,
  0, 2, 0, 0, 204, 16, 2, 0, 0, 16,
  0, 3, 0, 0, 220, 4, 0, 0, 0, 0,
  1, 20, 0, 0,
  0x00006600, 0xc30275cc]

def shortContents : Contents := ⟨[⟨16, 220, 100⟩], [⟨"f", 20, 0⟩]⟩

theorem read_shortFile : read parse shortFile = .ok shortContents := eq_ok_of_toOption (by decide +kernel)

end Object
end BranchChain
