import BranchChain.Text.Numeral
/-!
# Text.Layout — numbers in columns

A number is written as sign, base mark and digits.  Short of its width it is filled up: with zeros between the mark and
the digits if the layout asks for zeros, which then overrule fill and alignment, else with the fill character on the
side the alignment leaves free.  A centred number has the odd fill on its right.
-/
namespace BranchChain
namespace Text

inductive Align where
  | left
  | centre
  | right
  deriving DecidableEq, Repr

/-- **How a number is laid out.** -/
structure Layout where
  fill : Char := ' '
  align : Align := .right
  plus : Bool := false
  mark : Bool := false
  zeros : Bool := false
  width : Nat := 0
  deriving DecidableEq, Repr

namespace Layout

/-- Fills a text up to the width. -/
def pad (l : Layout) (text : String) : String :=
  let gap := l.width - text.length
  let filled (n : Nat) := String.ofList (List.replicate n l.fill)
  match l.align with
  | .left => text ++ filled gap
  | .centre => filled (gap / 2) ++ text ++ filled (gap - gap / 2)
  | .right => filled gap ++ text

/-- A number from its head (sign and mark) and its digits. -/
def join (l : Layout) (head digits : String) : String :=
  if l.zeros then
    head ++ String.ofList (List.replicate (l.width - (head.length + digits.length)) '0') ++ digits
  else l.pad (head ++ digits)

def sign (l : Layout) (negative : Bool) : String := if negative then "-" else if l.plus then "+" else ""

/-- **A whole number in decimal.** -/
def decimal (l : Layout) (n : Int) : String := l.join (l.sign (decide (n < 0))) (Text.decimal n.natAbs)

/-- **A number in hexadecimal.** -/
def hex (l : Layout) (n : Nat) : String := l.join (l.sign false ++ if l.mark then "0x" else "") (Text.hex n)

/-- A number in hexadecimal with capital letters; the mark keeps its small one. -/
def hexCapitals (l : Layout) (n : Nat) : String :=
  l.join (l.sign false ++ if l.mark then "0x" else "") (String.ofList ((Nat.toDigits 16 n).map Char.toUpper))

end Layout

/-! ## Layouts written out -/

/-- What is to be laid out: the plain text of a value, or its number. -/
inductive Rendition where
  | plain
  | hex
  | hexCapitals
  deriving DecidableEq, Repr

def alignOf? : Char → Option Align
  | '<' => some .left
  | '^' => some .centre
  | '>' => some .right
  | _ => none

/-- Fill and alignment, which come first: a character may stand before the alignment. -/
def takeAlign (l : Layout) : List Char → Layout × List Char
  | c :: d :: cs =>
    match alignOf? d, alignOf? c with
    | some a, _ => (⟨c, a, l.plus, l.mark, l.zeros, l.width⟩, cs)
    | none, some a => (⟨l.fill, a, l.plus, l.mark, l.zeros, l.width⟩, d :: cs)
    | none, none => (l, c :: d :: cs)
  | [c] => match alignOf? c with
    | some a => (⟨l.fill, a, l.plus, l.mark, l.zeros, l.width⟩, [])
    | none => (l, [c])
  | [] => (l, [])

def takePlus (l : Layout) : List Char → Layout × List Char
  | '+' :: cs => (⟨l.fill, l.align, true, l.mark, l.zeros, l.width⟩, cs)
  | cs => (l, cs)

def takeMark (l : Layout) : List Char → Layout × List Char
  | '#' :: cs => (⟨l.fill, l.align, l.plus, true, l.zeros, l.width⟩, cs)
  | cs => (l, cs)

def takeZeros (l : Layout) : List Char → Layout × List Char
  | '0' :: cs => (⟨l.fill, l.align, l.plus, l.mark, true, l.width⟩, cs)
  | cs => (l, cs)

def takeWidth (l : Layout) (cs : List Char) : Layout × List Char :=
  let ds := cs.takeWhile Char.isDigit
  (⟨l.fill, l.align, l.plus, l.mark, l.zeros, Nat.ofDigitChars 10 ds 0⟩, cs.dropWhile Char.isDigit)

/-- **Reads a written layout**: fill and alignment, sign, mark, zeros, width, then the letter of the base. -/
def readLayout (cs : List Char) : Option (Layout × Rendition) :=
  let (l, cs) := takeAlign ⟨' ', .right, false, false, false, 0⟩ cs
  let (l, cs) := takePlus l cs
  let (l, cs) := takeMark l cs
  let (l, cs) := takeZeros l cs
  match takeWidth l cs with
  | (l, []) => some (l, .plain)
  | (l, ['x']) => some (l, .hex)
  | (l, ['X']) => some (l, .hexCapitals)
  | _ => none

end Text
end BranchChain
