import BranchChain.Json
/-!
# Json.Token — a text cut into tokens

Cutting stops at the first place where no token can be read, and says there what is wrong.  Two readers follow: one
takes a value, one only passes over it.  Who passes over a string does not pair its surrogates, and who passes over a
number does not measure it; so a token keeps apart what is wrong for the one and for the other.
-/
namespace BranchChain
namespace Json

/-- **What is wrong with a text**: it is no JSON, it ends too early, or it holds a value of the wrong kind. -/
inductive ReadFault where
  | malformed
  | cutShort
  | mismatch
  deriving DecidableEq, Repr

/-- A number as its reader sees it: a machine word, any other number a double can hold, or one too large for that. -/
inductive Number where
  | word (n : UInt64)
  | other
  | tooLarge
  deriving DecidableEq, Repr

inductive Token where
  | braceOpen
  | braceClose
  | bracketOpen
  | bracketClose
  | comma
  | colon
  | null
  | bool (b : Bool)
  | number (n : Number)
  /-- A string, unless a surrogate in it stands alone. -/
  | string (s : Option String)
  /-- No token: whether a quote opens it, what is wrong for who takes the value, and for who passes over it. -/
  | broken (quoted : Bool) (taken passed : ReadFault)
  deriving DecidableEq, Repr

/-! ## Strings -/

/-- A character, or a unit of sixteen bits by its number. -/
inductive Piece where
  | plain (c : Char)
  | unit (n : Nat)
  deriving DecidableEq, Repr

/-- The character an escape of one letter stands for. -/
def escaped? : Char → Option Char
  | '"' => some '"'
  | '\\' => some '\\'
  | '/' => some '/'
  | 'b' => some '\x08'
  | 'f' => some '\x0c'
  | 'n' => some '\n'
  | 'r' => some '\r'
  | 't' => some '\t'
  | _ => none

def unit? (a b c d : Char) : Option Nat := do
  let a ← Text.digitValue? 16 a
  let b ← Text.digitValue? 16 b
  let c ← Text.digitValue? 16 c
  let d ← Text.digitValue? 16 d
  return ((a * 16 + b) * 16 + c) * 16 + d

/-- Too few characters are left for four digits: the text ends too early if it has less than four bytes. -/
def shortUnit (cs : List Char) : ReadFault := if (String.ofList cs).utf8ByteSize < 4 then .cutShort else .malformed

/-- Continues a string behind pieces, which are kept last first. -/
def piecesBehind (before : List Piece) : List Char → List Piece × Except ReadFault (List Char)
  | [] => (before.reverse, .error .cutShort)
  | '"' :: cs => (before.reverse, .ok cs)
  | '\\' :: 'u' :: a :: b :: c :: d :: cs =>
    match unit? a b c d with
    | some n => piecesBehind (.unit n :: before) cs
    | none => (before.reverse, .error .malformed)
  | '\\' :: 'u' :: cs => (before.reverse, .error (shortUnit cs))
  | '\\' :: e :: cs =>
    match escaped? e with
    | some c => piecesBehind (.plain c :: before) cs
    | none => (before.reverse, .error .malformed)
  | ['\\'] => (before.reverse, .error .cutShort)
  | c :: cs => if c.toNat < 0x20 then (before.reverse, .error .malformed) else piecesBehind (.plain c :: before) cs

/-- **The pieces of a string** behind its opening quote, and the text behind its closing one. -/
def pieces (cs : List Char) : List Piece × Except ReadFault (List Char) := piecesBehind [] cs

def isLead (n : Nat) : Bool := 0xd800 ≤ n && n < 0xdc00

def isTrail (n : Nat) : Bool := 0xdc00 ≤ n && n < 0xe000

def paired (n m : Nat) : Char := Char.ofNat ((n - 0xd800) * 0x400 + (m - 0xdc00) + 0x10000)

/-- Continues to spell pieces behind characters, which are kept last first. -/
def spellBehind (closed : Bool) (before : List Char) : List Piece → Option (List Char)
  | [] => some before.reverse
  | .plain c :: ps => spellBehind closed (c :: before) ps
  | [.unit n] =>
    if isTrail n then none
    else if isLead n then (if closed then none else some before.reverse)
    else some (Char.ofNat n :: before).reverse
  | .unit n :: .unit m :: ps =>
    if isTrail n then none
    else if isLead n then (if isTrail m then spellBehind closed (paired n m :: before) ps else none)
    else spellBehind closed (Char.ofNat n :: before) (.unit m :: ps)
  | .unit n :: .plain c :: ps =>
    if isTrail n || isLead n then none else spellBehind closed (c :: Char.ofNat n :: before) ps

/-- **The characters pieces spell**, none if a surrogate stands alone.  At the end of a string that is not closed a
leading surrogate may still find its other half. -/
def spell (closed : Bool) (ps : List Piece) : Option (List Char) := spellBehind closed [] ps

/-- A string behind its opening quote, as a token, and the rest unless the token is broken. -/
def stringToken (cs : List Char) : Token × List Char :=
  match pieces cs with
  | (ps, .ok rest) => (.string ((spell true ps).map String.ofList), rest)
  | (ps, .error f) => (.broken true (if (spell false ps).isSome then f else .malformed) f, [])

/-! ## Numbers

A number too large for a double is told by its leading digits, as many as fit a word, and a power of ten.  Both are
rounded to doubles before they are multiplied, so close to the limit the verdict is the product's and not the
number's. -/

/-- From here on a number rounds to infinity. -/
def doubleLimit : Nat := (1 <<< 1024) - (1 <<< 970)

/-- **The nearest number of fifty-three binary digits**, of two the even one. -/
def roundToDouble (n : Nat) : Nat :=
  let unit := 1 <<< (n.log2 + 1 - 53)
  let down := n / unit
  let rest := n % unit
  (if unit < 2 * rest ∨ (unit = 2 * rest ∧ down % 2 = 1) then down + 1 else down) * unit

/-- **A number by its leading digits**: a word, and the power of ten it counts. -/
structure Magnitude where
  leading : Nat
  exponent : Int
  deriving DecidableEq, Repr

namespace Magnitude

def isTooLarge (m : Magnitude) : Bool :=
  m.leading != 0 &&
    (308 < m.exponent ||
      (0 ≤ m.exponent && doubleLimit ≤ roundToDouble m.leading * roundToDouble (Nat.pow 10 m.exponent.toNat)))

/-- The number a magnitude stands for where no word does. -/
def number (m : Magnitude) : Number := if m.isTooLarge then .tooLarge else .other

end Magnitude

/-- Continues a word by digits as long as it stays one, and tells the digits left over. -/
def fill (n : Nat) : List Char → Nat × List Char
  | [] => (n, [])
  | c :: cs =>
    let next := n * 10 + (c.toNat - '0'.toNat)
    if next < UInt64.size then fill next cs else (n, c :: cs)

/-- The magnitude of a whole number: a digit left over counts a power of ten. -/
def wholeMagnitude (whole : List Char) : Magnitude :=
  let (n, left) := fill 0 whole
  ⟨n, left.length⟩

/-- A magnitude with the digits behind the point: a digit left over counts nothing. -/
def Magnitude.withPlaces (m : Magnitude) (places : List Char) : Magnitude :=
  let (n, left) := fill m.leading places
  ⟨n, m.exponent - (places.length - left.length : Nat)⟩

/-- A number that lacks digits behind its sign, its point or its exponent mark. -/
def digitsMissing (rest : List Char) : Token × List Char :=
  (.broken false (if rest.isEmpty then .cutShort else .malformed) .malformed, [])

/-- As far as exponents are read; no text has digits enough to make up for more. -/
def mostExponent : Nat := 1 <<< 31

/-- The exponent digits spell, as far as it is read. -/
def readExponent (ds : List Char) : Nat := ds.foldl (fun n c => min mostExponent (n * 10 + (c.toNat - '0'.toNat))) 0

/-- The exponent, if there is one, behind all digits. -/
def exponentToken (m : Magnitude) (plain : Number) : List Char → Token × List Char
  | e :: cs =>
    if e = 'e' ∨ e = 'E' then
      let (negative, cs) := match cs with
        | '-' :: cs => (true, cs)
        | '+' :: cs => (false, cs)
        | cs => (false, cs)
      let ds := cs.takeWhile Char.isDigit
      let rest := cs.dropWhile Char.isDigit
      if ds.isEmpty then digitsMissing rest
      else
        let n : Int := readExponent ds
        (.number (Magnitude.number ⟨m.leading, if negative then m.exponent - n else m.exponent + n⟩), rest)
    else (.number plain, e :: cs)
  | [] => (.number plain, [])

def numberToken (negative : Bool) (cs : List Char) : Token × List Char :=
  let whole := cs.takeWhile Char.isDigit
  let rest := cs.dropWhile Char.isDigit
  let m := wholeMagnitude whole
  if whole.isEmpty then digitsMissing rest
  else if whole.head? = some '0' ∧ 1 < whole.length then (.broken false .malformed .malformed, [])
  else
    match rest with
    | '.' :: cs =>
      let places := cs.takeWhile Char.isDigit
      let rest := cs.dropWhile Char.isDigit
      let m := m.withPlaces places
      if places.isEmpty then digitsMissing rest else exponentToken m m.number rest
    | rest =>
      let plain : Number := if !negative ∧ m.exponent = 0 then .word (UInt64.ofNat m.leading) else m.number
      exponentToken m plain rest

/-! ## Texts -/

def isSpace (c : Char) : Bool := c == ' ' || c == '\n' || c == '\t' || c == '\r'

/-- The rest of a name such as `null`. -/
def nameToken (t : Token) : List Char → List Char → Token × List Char
  | [], cs => (t, cs)
  | _ :: _, [] => (.broken false .cutShort .cutShort, [])
  | e :: es, c :: cs => if c = e then nameToken t es cs else (.broken false .malformed .malformed, [])

/-- The token that begins with a character, and the rest. -/
def tokenFrom (c : Char) (cs : List Char) : Token × List Char :=
  match c with
  | '\x7b' => (.braceOpen, cs)
  | '\x7d' => (.braceClose, cs)
  | '[' => (.bracketOpen, cs)
  | ']' => (.bracketClose, cs)
  | ',' => (.comma, cs)
  | ':' => (.colon, cs)
  | '"' => stringToken cs
  | 'n' => nameToken .null ['u', 'l', 'l'] cs
  | 't' => nameToken (.bool true) ['r', 'u', 'e'] cs
  | 'f' => nameToken (.bool false) ['a', 'l', 's', 'e'] cs
  | '-' => numberToken true cs
  | c => if c.isDigit then numberToken false (c :: cs) else (.broken false .malformed .malformed, [])

/-- Cuts at most `n` tokens; each takes a character at least. -/
def cut : Nat → List Char → List Token
  | 0, _ => []
  | n + 1, cs =>
    match cs.dropWhile isSpace with
    | [] => []
    | c :: cs => let (t, rest) := tokenFrom c cs; t :: cut n rest

def tokens (cs : List Char) : List Token := cut cs.length cs

end Json
end BranchChain
