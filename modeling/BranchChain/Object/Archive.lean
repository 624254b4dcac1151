import BranchChain.Object.Bytes
import BranchChain.Text.Blank
import BranchChain.Text.Numeral
import Std.Data.HashSet
/-!
# Object.Archive — archives of object files

An archive is a row of members behind its mark, each with a head and the bytes it counts, starting at even places.
Three families of archives have lists for the linker among their members, which tell for symbols where the heads of
their members are.  No symbols are read from archives; what is told is whether the row can be walked, whether the lists
can be read, and whether every symbol of the list that counts is said to be in a member.  Bytes of other members need
not be there.
-/
namespace BranchChain
namespace Object
namespace Archive

def markSize : Nat := 8
def nameSize : Nat := 16
def headSize : Nat := 60

/-! ## Members -/

/-- **A member**: where its head is, the name in the head, a longer name if one stands in front of the member's bytes,
where these begin and how many there are. -/
structure Member where
  head : Nat
  name : List Char
  longName : Option (List Char)
  start : Nat
  size : Nat

/-- A list without what answers to `p` at its end. -/
def dropEnd {α : Type} (p : α → Bool) (l : List α) : List α := (l.reverse.dropWhile p).reverse

def decimal? (cs : List Char) : Option Nat := (Text.readWord 10 cs).toOption.map (·.toNat)

def longNameSize? : List Char → Option Nat
  | '#' :: '1' :: '/' :: cs => decimal? cs
  | _ => none

/-- **The member whose head is at a place.**  A longer name is one only if there are bytes behind it. -/
def member? (s : Source) (head : Nat) : Option Member := do
  let name := dropEnd (· == ' ') (← s.text? head nameSize).toList
  let _ ← s.range? head headSize
  let size ← decimal? (dropEnd Text.isBlank (← s.text? (head + 48) 10).toList)
  let start := head + headSize
  match longNameSize? name with
  | none => return ⟨head, name, none, start, size⟩
  | some length =>
    let longName ← s.text? start length
    if length < size then
      return ⟨head, name, some (dropEnd (· == '\x00') longName.toList), start + length, size - length⟩
    else return ⟨head, name, none, start, size⟩

/-! ## Lists for the linker -/

/-- Does a table of texts end amid one? -/
def isOpen (texts : ByteArray) : Bool := if h : 0 < texts.size then texts.get (texts.size - 1) != 0 else false

/-- The number of texts in a table, each ended by a NUL, the last perhaps by the table. -/
def textCount (texts : ByteArray) : Nat := (Texts.ofBytes texts).nuls.size + if isOpen texts then 1 else 0

/-- Does a text of a table, or the rest of one, begin at a place?  It does not amid a character. -/
def hasTextAt (texts : ByteArray) (i : Nat) : Bool :=
  if h : i < texts.size then texts.get i h < 0x80 || 0xc0 ≤ texts.get i h else i == texts.size && isOpen texts

def words? (s : Source) (width start count : Nat) : Option (List Nat) :=
  (List.range count).mapM fun i => s.word? width (start + width * i)

/-- A place for each text of the table that takes the rest of a list. -/
def placesWithTexts? (list : Source) (places : List Nat) (textStart : Nat) : Option (List Nat) := do
  let texts ← list.text? textStart (list.size - textStart)
  return places.take (textCount texts.toUTF8)

/-- **The first list of an archive**: a count, as many heads, and the names of the symbols. -/
def firstList? (bytes : ByteArray) : Option (List Nat) := do
  let list : Source := ⟨bytes, .big⟩
  let count ← list.word? 4 0
  if list.size / 4 < count then none
  else placesWithTexts? list (← words? list 4 4 count) (4 + 4 * count)

/-- **The second list of an archive** that has a first: a count, as many heads, and for each symbol the number of its
head, counted from one. -/
def secondList? (bytes : ByteArray) : Option (List Nat) := do
  let list : Source := ⟨bytes, .little⟩
  let count ← list.word? 4 0
  if list.size / 4 < count then none
  else
    let heads ← words? list 4 4 count
    let behind := 4 + 4 * count
    let symbols ← list.word? 4 behind
    if list.size / 2 < symbols then none
    else
      let numbers ← words? list 2 (behind + 4) symbols
      let heads := heads.toArray
      let places ← numbers.mapM fun n => if n = 0 then none else heads[n - 1]?
      placesWithTexts? list places (behind + 4 + 2 * symbols)

/-- **The only list of an archive**: pairs of a name's place and a head, as many as fill the bytes told, and a table of
names with its size. -/
def onlyList? (bytes : ByteArray) : Option (List Nat) := do
  let list : Source := ⟨bytes, .little⟩
  let size ← list.word? 4 0
  let textSize ← list.word? 4 (size + 4)
  let texts ← list.text? (size + 8) textSize
  let texts := texts.toUTF8
  (List.range (size / 8)).mapM fun i => do
    let name ← list.word? 4 (8 * i + 4)
    let head ← list.word? 4 (8 * i + 8)
    if hasTextAt texts name then return head else none

/-- The lists an archive may have had so far. -/
inductive Lists where
  | none
  | first
  | second
  | only
  deriving DecidableEq, Repr

/-! ## Walks -/

/-- **What a walk has met**: lists, the heads that the last of them names, and the heads of members that are no lists. -/
structure Walk where
  lists : Lists := .none
  named : List Nat := []
  heads : List Nat := []

/-- The names of members that are an only list. -/
def onlyListNames : List (List Char) := ["__.SYMDEF".toList, "__.SYMDEF SORTED".toList]

/-- **Takes a member in.**  An only list comes alone, and a second list behind a first.  A table of long names is read
together with the byte in front of it. -/
def Walk.take? (w : Walk) (s : Source) (m : Member) : Option Walk :=
  if m.name = ['/'] then do
    let bytes ← s.range? m.start m.size
    match w.lists with
    | .none => return { w with lists := .first, named := ← firstList? bytes }
    | .first => return { w with lists := .second, named := ← secondList? bytes }
    | .second | .only => none
  else if m.longName.any onlyListNames.contains then do
    let bytes ← s.range? m.start m.size
    match w.lists with
    | .none => return { w with lists := .only, named := ← onlyList? bytes }
    | _ => none
  else if m.name = ['/', '/'] then do
    let _ ← s.text? (m.start - 1) (m.size + 1)
    return w
  else some { w with heads := m.head :: w.heads }

def walk? (s : Source) : Nat → Nat → Walk → Option Walk
  | 0, _, w => some w
  | n + 1, start, w =>
    if s.size ≤ start + 1 then some w
    else do
      let m ← member? s (start + start % 2)
      walk? s n (m.start + m.size) (← w.take? s m)

/-- **Is the archive whole?**  A member takes a head at least. -/
def isWhole (bytes : ByteArray) : Bool :=
  (walk? ⟨bytes, .little⟩ (bytes.size / headSize + 1) markSize {}).any fun w =>
    let heads := Std.HashSet.ofList w.heads
    w.named.all heads.contains

end Archive
end Object
end BranchChain
