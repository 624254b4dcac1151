import BranchChain.Proofs.Wording
import BranchChain.Table.Rendering
/-!
# Proofs.Displaying — tables read from what is displayed

Every mark of a colour begins with an escape and nothing else in a displayed table does, so a table in colours is the plain
one once the marks are taken out (`Table.erase_render`).  A plain line is a row of words with gaps between them, however
wide the words are (`Text.words_columns`), and each field of a slot is a word of its line, or inside one.  So a slot is read
from its line (`Slot.ofLine?`), and a table from its lines, as no line has a break inside (`Table.ofDisplay?`).
-/
namespace BranchChain
namespace Text

/-! ## Marks taken out -/

/-- What is left of a text when marks are taken out, each as a whole where it begins; the first `skip` characters are the
rest of a mark. -/
def eraseFrom (marks : List (List Char)) : Nat → List Char → List Char
  | _, [] => []
  | skip + 1, _ :: cs => eraseFrom marks skip cs
  | 0, c :: cs =>
    match marks.find? (·.isPrefixOf (c :: cs)) with
    | some (_ :: mark) => eraseFrom marks mark.length cs
    | _ => c :: eraseFrom marks 0 cs

/-- **A text without the marks in it.** -/
def erase (marks : List String) (s : String) : String :=
  String.ofList (eraseFrom (marks.map String.toList) 0 s.toList)

def tableMarks : List String := ["\x1b[36m", "\x1b[31m", "\x1b[0m"]

/-- **One text is the other without its marks**, whatever stands behind them. -/
def ErasesTo (s s' : String) : Prop :=
  ∀ rest, eraseFrom (tableMarks.map String.toList) 0 (s.toList ++ rest) =
    s'.toList ++ eraseFrom (tableMarks.map String.toList) 0 rest

theorem ErasesTo.append {s s' t t' : String} (hs : ErasesTo s s') (ht : ErasesTo t t') :
    ErasesTo (s ++ t) (s' ++ t') := by
  intro rest
  rw [String.toList_append, String.toList_append, List.append_assoc, hs, ht, List.append_assoc]

theorem ErasesTo.erase_eq {s s' : String} (h : ErasesTo s s') : erase tableMarks s = s' := by
  have hall := h []
  rw [List.append_nil, eraseFrom, List.append_nil] at hall
  rw [erase, hall, String.ofList_toList]

example : erase tableMarks "a\x1b[31m b\x1b[0m \x1b[1mc" = "a b \x1b[1mc" := rfl

theorem erasesTo_mark {mark : String} (h : mark ∈ tableMarks) : ErasesTo mark "" := by
  intro rest
  simp only [tableMarks, List.mem_cons, List.not_mem_nil, or_false] at h
  obtain rfl | rfl | rfl := h <;> rfl

theorem erasesTo_self {s : String} (h : '\x1b' ∉ s.toList) : ErasesTo s s := by
  intro rest
  generalize s.toList = cs at h
  induction cs with
  | nil => rfl
  | cons c cs ih =>
    rw [List.mem_cons, not_or] at h
    -- no mark begins here, since each begins with an escape
    have hfind : (tableMarks.map String.toList).find? (·.isPrefixOf (c :: (cs ++ rest))) = none := by
      have hc : ('\x1b' == c) = false := beq_false_of_ne h.1
      simp [tableMarks, List.isPrefixOf, hc]
    rw [List.cons_append, eraseFrom, hfind, ih h.2]
    rfl

/-- **Colours are taken out of a text that has none but those it is painted with**, if it is painted. -/
theorem erasesTo_painted {colour : Colour} (h : colour.code ∈ tableMarks) {f : Bool → String} {before text behind : String}
    (hf : ∀ colours, f colours = before ++ paint colours colour text ++ behind) (hplain : '\x1b' ∉ (f false).toList) :
    ∀ colours, ErasesTo (f colours) (f false)
  | false => erasesTo_self hplain
  | true => by
    have hparts : f false = before ++ text ++ behind := hf false
    rw [hparts] at hplain ⊢
    simp only [String.toList_append, List.mem_append, not_or] at hplain
    obtain ⟨⟨hbefore, htext⟩, hbehind⟩ := hplain
    have hoff : colourOff ∈ tableMarks := List.mem_cons_of_mem _ (List.mem_cons_of_mem _ List.mem_cons_self)
    have hpainted := ((erasesTo_mark h).append (erasesTo_self htext)).append (erasesTo_mark hoff)
    rw [String.empty_append, String.append_empty] at hpainted
    rw [hf]
    exact ((erasesTo_self hbefore).append hpainted).append (erasesTo_self hbehind)

theorem erasesTo_join {α : Type} {f g : α → String} (h : ∀ x, ErasesTo (f x) (g x)) : ∀ xs : List α,
    ErasesTo (String.join (xs.map f)) (String.join (xs.map g))
  | [] => fun rest => rfl
  | x :: xs => by
    rw [List.map_cons, List.map_cons, String.join_cons, String.join_cons]
    exact (h x).append (erasesTo_join h xs)

/-! ## Words in columns -/

def isInk (c : Char) : Bool := decide (' ' < c) && !isBlank c

def Inked (w : List Char) : Prop := w ≠ [] ∧ ∀ c ∈ w, isInk c = true

theorem not_blank_of_isInk {c : Char} (h : isInk c = true) : isBlank c = false := by
  simp only [isInk, Bool.and_eq_true, Bool.not_eq_true'] at h
  exact h.2

theorem blank_lt_of_isInk {c : Char} (h : isInk c = true) : ' ' < c := by
  simp only [isInk, Bool.and_eq_true, decide_eq_true_eq] at h
  exact h.1

theorem Inked.append {v w : List Char} (hv : Inked v) (hw : Inked w) : Inked (v ++ w) :=
  ⟨fun h => hv.1 (List.append_eq_nil_iff.1 h).1, List.forall_mem_append.2 ⟨hv.2, hw.2⟩⟩

theorem Inked.cons {c : Char} {w : List Char} (hc : isInk c = true) (hw : Inked w) : Inked (c :: w) :=
  ⟨List.cons_ne_nil c w, List.forall_mem_cons.2 ⟨hc, hw.2⟩⟩

theorem inked_of_all {w : List Char} (hne : w ≠ []) (h : w.all isInk = true) : Inked w := ⟨hne, List.all_eq_true.1 h⟩

/-- **Words in a row**, each behind its gap. -/
def columns (cells : List (Nat × List Char)) : List Char := cells.flatMap fun x => List.replicate x.1 ' ' ++ x.2

theorem columns_cons (gap : Nat) (w : List Char) (cells : List (Nat × List Char)) :
    columns ((gap, w) :: cells) = List.replicate gap ' ' ++ (w ++ columns cells) := by
  rw [columns, List.flatMap_cons, List.append_assoc]
  rfl

theorem words_blanks (cs : List Char) : ∀ n, words (List.replicate n ' ' ++ cs) = words cs
  | 0 => rfl
  | n + 1 => by rw [List.replicate_succ, List.cons_append, words_blank ' ' _ (by decide), words_blanks cs n]

/-- **The words of a row are read from it**, if there are gaps between them. -/
theorem words_columns : ∀ {cells : List (Nat × List Char)}, (∀ x ∈ cells, Inked x.2) → (∀ x ∈ cells.tail, x.1 ≠ 0) →
    words (columns cells) = cells.map Prod.snd
  | [], _, _ => rfl
  | (gap, w) :: cells, hink, hgap => by
    obtain ⟨hw, hcells⟩ := List.forall_mem_cons.1 hink
    -- the next gap is not empty, so this word ends where it should
    have hends : ∀ c ∈ (columns cells).head?, isBlank c = true := by
      intro c hc
      cases cells with
      | nil => cases hc
      | cons y cells =>
        obtain ⟨n, hn⟩ := Nat.exists_eq_succ_of_ne_zero (hgap y List.mem_cons_self)
        rw [columns_cons, hn, List.replicate_succ] at hc
        cases hc
        decide
    have hrest := words_columns hcells fun y hy => hgap y (List.mem_of_mem_tail hy)
    rw [columns_cons, words_blanks, words_append_of_ends hw.1 (fun c hc => not_blank_of_isInk (hw.2 c hc)) hends, hrest]
    rfl

theorem not_mem_columns {cells : List (Nat × List Char)} (hink : ∀ x ∈ cells, Inked x.2) {c : Char} (hc : c < ' ') :
    c ∉ columns cells := by
  intro hmem
  obtain ⟨x, hx, hcx⟩ := List.mem_flatMap.1 hmem
  rw [List.mem_append, List.mem_replicate] at hcx
  obtain ⟨-, rfl⟩ | hcx := hcx
  · exact absurd hc (by decide)
  · exact absurd (Char.lt_trans hc (blank_lt_of_isInk ((hink x hx).2 c hcx))) (Char.lt_irrefl c)

theorem escape_not_mem_row {row : String} {cells : List (Nat × List Char)} (hrow : row.toList = columns cells ++ ['\n'])
    (hink : ∀ x ∈ cells, Inked x.2) : '\x1b' ∉ row.toList := by
  rw [hrow, List.mem_append, not_or]
  exact ⟨not_mem_columns hink (by decide), by decide⟩

/-- **Lines are read from a text that ends each of them.** -/
theorem splitOn_lines : ∀ {lines : List (List Char)}, (∀ l ∈ lines, '\n' ∉ l) →
    (lines.flatMap (· ++ ['\n'])).splitOn '\n' = lines ++ [[]]
  | [], _ => rfl
  | l :: lines, h => by
    obtain ⟨hl, hlines⟩ := List.forall_mem_cons.1 h
    rw [List.flatMap_cons, List.append_assoc, List.singleton_append, List.splitOn_append_cons_self_of_not_mem hl,
      splitOn_lines hlines]
    rfl

/-! ## Words of fields -/

theorem inked_toDigits {b : Nat} (hb : 1 < b) (hb' : b ≤ 16) (n : Nat) : Inked (Nat.toDigits b n) := by
  have hall : ∀ v < 16, isInk (Nat.digitChar v) = true := by decide
  refine ⟨Nat.toDigits_ne_nil, fun c hc => ?_⟩
  obtain ⟨v, hv, rfl⟩ := mem_toDigits hb hc
  exact hall v (by omega)

theorem inked_text (a : Address) : Inked a.text.toList := by
  obtain ⟨k, hk⟩ := a.toList_text
  have hdigits : Inked (Nat.toDigits 16 a.toNat) := inked_toDigits (by decide) (by decide) _
  have hzeros : ∀ n, Inked (List.replicate n '0' ++ Nat.toDigits 16 a.toNat) := by
    intro n
    induction n with
    | zero => exact hdigits
    | succ n ih => exact ih.cons rfl
  rw [hk]
  exact ((hzeros k).cons rfl).cons rfl

def address? (w : List Char) : Option Address := (Address.ofText (String.ofList w)).toOption

theorem address?_text (a : Address) : address? a.text.toList = some a := by
  rw [address?, String.ofList_toList, Address.ofText_text]
  rfl

def place (n : UInt64) : List Char := ['f', 'n', '+', '0', 'x'] ++ Nat.toDigits 16 n.toNat

theorem inked_place (n : UInt64) : Inked (place n) :=
  (inked_of_all (by decide) rfl).append (inked_toDigits (by decide) (by decide) _)

def place? (w : List Char) : Option UInt64 := (readWord 16 (w.drop 5)).toOption

theorem place?_place (n : UInt64) : place? (place n) = some n := by
  have hdrop : (place n).drop 5 = Nat.toDigits 16 n.toNat := rfl
  rw [place?, hdrop, readWord_toDigits (by decide) (by decide)]
  rfl

def withSign (n : Int) : List Char := (if n < 0 then '-' else '+') :: Nat.toDigits 10 n.natAbs

theorem inked_withSign (n : Int) : Inked (withSign n) := by
  refine Inked.cons ?_ (inked_toDigits (by decide) (by decide) _)
  split <;> rfl

def number? : List Char → Option Int
  | '-' :: ds => some (-Nat.ofDigitChars 10 ds 0)
  | '+' :: ds => some (Nat.ofDigitChars 10 ds 0)
  | _ => none

theorem number?_withSign (n : Int) : number? (withSign n) = some n := by
  have hdigits := Nat.ofDigitChars_toDigits (b := 10) (n := n.natAbs) (by decide) (by decide)
  unfold withSign
  -- the sign says which reading it is, and the digits are those of the magnitude
  split
  · rw [number?, hdigits, Option.some.injEq]
    omega
  · rw [number?, hdigits, Option.some.injEq]
    omega

end Text

open Text (Inked columns)

/-! ## Lines of slots -/

def Form.word : Form → List Char
  | .short => ['r', 'e', 'l', '8']
  | .near => ['r', 'e', 'l', '3', '2']

namespace Slot

def displacementWord (s : Slot) : List Char := Text.withSign s.displacement.toInt

/-- **The row of a slot.** -/
def cells (s : Slot) : List (Nat × List Char) :=
  [(2, ['['] ++ Nat.toDigits 10 s.index ++ [']']), (1, s.target.text.toList), (2, s.form.word),
    (6 - s.form.word.length + (8 - s.displacementWord.length), s.displacementWord),
    (2, "(JNE".toList), (1, "@".toList), (1, Text.place s.siteOffset ++ [')'])]

theorem toList_displacementText (s : Slot) :
    s.displacementText.toList = List.replicate (8 - s.displacementWord.length) ' ' ++ s.displacementWord := by
  have hsign : Text.Layout.sign ⟨' ', .right, true, false, false, 8⟩ (decide (s.displacement.toInt < 0)) =
      String.ofList [if s.displacement.toInt < 0 then '-' else '+'] := by
    by_cases h : s.displacement.toInt < 0
    · simp [Text.Layout.sign, h]
    · simp [Text.Layout.sign, h]
  rw [displacementText, Text.Layout.decimal, hsign]
  simp [Text.Layout.join, Text.Layout.pad, Text.decimal, displacementWord, Text.withSign, Nat.add_comm]

theorem toList_line (s : Slot) : (s.line false).toList = columns s.cells ++ ['\n'] := by
  have hindex : (Text.decimal s.index).toList = Nat.toDigits 10 s.index := String.toList_ofList
  have hsite : (Text.hex s.siteOffset.toNat).toList = Nat.toDigits 16 s.siteOffset.toNat := String.toList_ofList
  -- the blank that fills up the label of the short form belongs to the gap behind it
  have hform : s.form.label.toList ++ [' '] = s.form.word ++ List.replicate (6 - s.form.word.length) ' ' := by
    cases s.form <;> rfl
  have hline : (s.line false).toList = [' ', ' ', '['] ++ Nat.toDigits 10 s.index ++ [']', ' '] ++ s.target.text.toList ++
      [' ', ' '] ++ (s.form.label.toList ++ [' ']) ++ s.displacementText.toList ++ ([' ', ' '] ++ "(JNE".toList ++ [' '] ++
      "@".toList ++ [' '] ++ ['f', 'n', '+', '0', 'x']) ++ Nat.toDigits 16 s.siteOffset.toNat ++ [')', '\n'] := by
    unfold line
    simp only [String.toList_append, hindex, hsite, List.append_assoc]
    rfl
  rw [hline, hform, toList_displacementText]
  simp only [cells, Text.columns_cons, Text.place, List.append_assoc, List.replicate_add]
  rfl

theorem inked_cells (s : Slot) : ∀ x ∈ s.cells, Inked x.2 := by
  have hform : Inked s.form.word := by
    cases s.form with
    | short => exact Text.inked_of_all (by decide) rfl
    | near => exact Text.inked_of_all (by decide) rfl
  have hindex : Inked (['['] ++ Nat.toDigits 10 s.index ++ [']']) :=
    ((Text.inked_toDigits (by decide) (by decide) _).cons rfl).append (Text.inked_of_all (by decide) rfl)
  have hopen : Inked "(JNE".toList := Text.inked_of_all (by decide) rfl
  have hat : Inked "@".toList := Text.inked_of_all (by decide) rfl
  have hsite : Inked (Text.place s.siteOffset ++ [')']) :=
    (Text.inked_place _).append (Text.inked_of_all (by decide) rfl)
  simp only [cells, List.forall_mem_cons]
  exact ⟨hindex, Text.inked_text _, hform, Text.inked_withSign _, hopen, hat, hsite, fun x hx => absurd hx List.not_mem_nil⟩

theorem gaps_cells (s : Slot) : ∀ x ∈ s.cells.tail, x.1 ≠ 0 := by
  have hform : s.form.word.length < 6 := by cases s.form <;> decide
  simp only [cells, List.tail_cons, List.forall_mem_cons]
  exact ⟨by decide, by decide, by omega, by decide, by decide, by decide, fun x hx => absurd hx List.not_mem_nil⟩

/-- **The slot of a line.** -/
def ofLine? (line : List Char) : Option Slot :=
  match Text.words line with
  | [index, target, form, displacement, _, _, site] => do
    let target ← Text.address? target
    let form ← [Form.short, Form.near].find? (·.word == form)
    let displacement ← Text.number? displacement
    let siteOffset ← Text.place? site.dropLast
    return ⟨Nat.ofDigitChars 10 index.tail.dropLast 0, target, siteOffset, form, .ofInt displacement⟩
  | _ => none

theorem ofLine?_columns (s : Slot) : ofLine? (columns s.cells) = some s := by
  have hform : [Form.short, Form.near].find? (·.word == s.form.word) = some s.form := by cases s.form <;> rfl
  have hindex : (['['] ++ Nat.toDigits 10 s.index ++ [']']).tail.dropLast = Nat.toDigits 10 s.index := List.dropLast_concat
  rw [ofLine?, Text.words_columns s.inked_cells s.gaps_cells]
  simp only [cells, List.map_cons, List.map_nil, Text.address?_text, hform, displacementWord, Text.number?_withSign,
    List.dropLast_concat, Text.place?_place, hindex, Nat.ofDigitChars_toDigits (b := 10) (by decide) (by decide),
    bind, Option.bind_some, Int64.ofInt_toInt]
  rfl

example : ofLine? "  [7] 0xffffffffffffffff  rel32 -2147483648  (JNE @ fn+0x1f)".toList =
    some ⟨7, ⟨0xffffffffffffffff⟩, 0x1f, .near, -2147483648⟩ := rfl

theorem erasesTo_line (s : Slot) (colours : Bool) : Text.ErasesTo (s.line colours) (s.line false) := by
  obtain ⟨before, behind, hline⟩ : ∃ before behind, ∀ colours,
      s.line colours = before ++ Text.paint colours .red s.target.text ++ behind :=
    ⟨"  [" ++ Text.decimal s.index ++ "] ", "  " ++ s.form.label ++ " " ++ s.displacementText ++ "  (JNE @ fn+0x" ++
      Text.hex s.siteOffset.toNat ++ ")\n", fun colours => by unfold line; simp only [String.append_assoc]⟩
  exact Text.erasesTo_painted (by decide) hline (Text.escape_not_mem_row s.toList_line s.inked_cells) colours

end Slot

/-! ## Tables -/

namespace Table

def headerCells (t : Table) : List (Nat × List Char) :=
  [(0, "entry".toList), (1, t.entry.text.toList), (2, "preamble".toList), (1, "at".toList),
    (1, Text.place t.preambleOffset)]

theorem toList_header (t : Table) : (t.header false).toList = columns t.headerCells ++ ['\n'] := by
  have hoffset : (Text.hex t.preambleOffset.toNat).toList = Nat.toDigits 16 t.preambleOffset.toNat := String.toList_ofList
  unfold header
  simp only [String.toList_append, hoffset, headerCells, Text.columns_cons, Text.place, List.append_assoc]
  rfl

theorem inked_headerCells (t : Table) : ∀ x ∈ t.headerCells, Inked x.2 := by
  have hentry : Inked "entry".toList := Text.inked_of_all (by decide) rfl
  have hpreamble : Inked "preamble".toList := Text.inked_of_all (by decide) rfl
  have hat : Inked "at".toList := Text.inked_of_all (by decide) rfl
  simp only [headerCells, List.forall_mem_cons]
  exact ⟨hentry, Text.inked_text _, hpreamble, hat, Text.inked_place _, fun x hx => absurd hx List.not_mem_nil⟩

def ofHeader? (line : List Char) : Option (Address × UInt64) :=
  match Text.words line with
  | [_, entry, _, _, offset] => do return (← Text.address? entry, ← Text.place? offset)
  | _ => none

theorem ofHeader?_columns (t : Table) : ofHeader? (columns t.headerCells) = some (t.entry, t.preambleOffset) := by
  have hgaps : ∀ x ∈ t.headerCells.tail, x.1 ≠ 0 := by
    simp only [headerCells, List.tail_cons, List.forall_mem_cons]
    exact ⟨by decide, by decide, by decide, by decide, fun x hx => absurd hx List.not_mem_nil⟩
  rw [ofHeader?, Text.words_columns t.inked_headerCells hgaps]
  simp only [headerCells, List.map_cons, List.map_nil, Text.address?_text, Text.place?_place]
  rfl

theorem erasesTo_header (t : Table) (colours : Bool) : Text.ErasesTo (t.header colours) (t.header false) := by
  obtain ⟨behind, hheader⟩ : ∃ behind, ∀ colours, t.header colours = "" ++ Text.paint colours .cyan "entry" ++ behind :=
    ⟨" " ++ t.entry.text ++ "  preamble at fn+0x" ++ Text.hex t.preambleOffset.toNat ++ "\n",
      fun colours => by unfold header; simp only [String.append_assoc, String.empty_append]⟩
  exact Text.erasesTo_painted (by decide) hheader (Text.escape_not_mem_row t.toList_header t.inked_headerCells) colours

theorem erase_render (t : Table) (colours : Bool) : Text.erase Text.tableMarks (t.render colours) = t.render false :=
  ((t.erasesTo_header colours).append (Text.erasesTo_join (fun s => s.erasesTo_line colours) t.slots)).erase_eq

def lines (t : Table) : List (List Char) := columns t.headerCells :: t.slots.map fun s => columns s.cells

theorem toList_render (t : Table) : (t.render false).toList = t.lines.flatMap (· ++ ['\n']) := by
  have hslots : (t.slots.map fun s => s.line false).flatMap String.toList =
      (t.slots.map fun s => columns s.cells).flatMap (· ++ ['\n']) := by
    rw [List.flatMap_map, List.flatMap_map]
    simp only [Slot.toList_line]
  rw [render, String.toList_append, toList_header, String.toList_join, hslots, lines, List.flatMap_cons]

theorem splitOn_render (t : Table) : (t.render false).toList.splitOn '\n' = t.lines ++ [[]] := by
  rw [toList_render, Text.splitOn_lines]
  rw [lines, List.forall_mem_cons]
  refine ⟨Text.not_mem_columns t.inked_headerCells (by decide), fun l hl => ?_⟩
  obtain ⟨s, -, rfl⟩ := List.mem_map.1 hl
  exact Text.not_mem_columns s.inked_cells (by decide)

/-- **The table of a displayed text.** -/
def ofDisplay? (text : String) : Option Table :=
  match text.toList.splitOn '\n' with
  | head :: rows => do
    let (entry, offset) ← ofHeader? head
    return ⟨entry, offset, ← rows.dropLast.mapM Slot.ofLine?⟩
  | [] => none

theorem mapM_ofLine?_columns : ∀ slots : List Slot, (slots.map fun s => columns s.cells).mapM Slot.ofLine? = some slots
  | [] => rfl
  | s :: slots => by
    rw [List.map_cons, List.mapM_cons, s.ofLine?_columns, mapM_ofLine?_columns slots]
    rfl

theorem ofDisplay?_render (t : Table) : ofDisplay? (t.render false) = some t := by
  rw [ofDisplay?, splitOn_render, lines, List.cons_append]
  simp only [ofHeader?_columns, List.dropLast_concat, mapM_ofLine?_columns]
  rfl

/-- **What is displayed is the table, with colours and without.**  Without the marks of its colours a coloured table is the
plain one.  The plain one is a line above and a line for each slot, in order and each ended, of which the first is read as
the entry and the place of the marker and the others are read as the slots.  So the table is recovered from it, and no
other table is displayed the same. -/
theorem render_recovers (t : Table) :
    Text.erase ["\x1b[36m", "\x1b[31m", "\x1b[0m"] (t.render true) = t.render false ∧
    (∃ head rows, (t.render false).toList.splitOn '\n' = head :: rows ++ [[]] ∧ (head :: rows).length = t.size + 1 ∧
      ofHeader? head = some (t.entry, t.preambleOffset) ∧
      List.Forall₂ (fun s row => Slot.ofLine? row = some s) t.slots rows) ∧
    ofDisplay? (t.render false) = some t ∧
    ∀ t' : Table, t'.render false = t.render false ↔ t' = t := by
  refine ⟨t.erase_render true, ⟨_, _, t.splitOn_render, ?_, t.ofHeader?_columns, ?_⟩, t.ofDisplay?_render, fun t' => ⟨?_, ?_⟩⟩
  · rw [List.length_cons, List.length_map, size]
  · -- each slot stands over its own line
    rw [List.forall₂_map_right_iff, List.forall₂_same]
    exact fun s _ => s.ofLine?_columns
  · intro h
    have hsame : some t' = some t := by rw [← ofDisplay?_render t', h, ofDisplay?_render]
    exact Option.some.inj hsame
  · rintro rfl
    rfl

end Table
end BranchChain
