/-!
# Text.Numeral — whole numbers as digits

Numbers are written in the fewest digits, hexadecimal in lower case.  A machine word is read digit by digit from the
left, so the first fault met is the one reported: a character that is no digit before an overflow at the same place,
an overflow before anything to its right.
-/
namespace BranchChain
namespace Text

def decimal (n : Nat) : String := String.ofList (Nat.toDigits 10 n)

def hex (n : Nat) : String := String.ofList (Nat.toDigits 16 n)

/-- **A whole number with its sign**: the minus is written, the plus is not. -/
def signed (n : Int) : String := if n < 0 then "-" ++ decimal n.natAbs else decimal n.natAbs

/-- The two digits of a byte, high half first. -/
def hexByte (b : UInt8) : List Char := [Nat.digitChar (b.toNat / 16), Nat.digitChar (b.toNat % 16)]

/-- The value of a digit, letters of both cases standing for ten and more. -/
def digitValue? (base : Nat) (c : Char) : Option Nat :=
  let v :=
    if '0' ≤ c ∧ c ≤ '9' then some (c.toNat - '0'.toNat)
    else if 'a' ≤ c ∧ c ≤ 'z' then some (c.toNat - 'a'.toNat + 10)
    else if 'A' ≤ c ∧ c ≤ 'Z' then some (c.toNat - 'A'.toNat + 10)
    else none
  v.filter (· < base)

/-- Why a text is no machine word. -/
inductive NumeralError where
  | empty
  | foreignDigit
  | tooLarge
  deriving DecidableEq, Repr

def NumeralError.message : NumeralError → String
  | .empty => "cannot parse integer from empty string"
  | .foreignDigit => "invalid digit found in string"
  | .tooLarge => "number too large to fit in target type"

/-- Continues a numeral whose digits so far are worth `acc`, keeping the value a machine word. -/
def readDigits (base : Nat) : Nat → List Char → Except NumeralError Nat
  | acc, [] => .ok acc
  | acc, c :: cs =>
    match digitValue? base c with
    | none => .error .foreignDigit
    | some d => if acc * base + d < UInt64.size then readDigits base (acc * base + d) cs else .error .tooLarge

/-- **Reads a machine word**: one `+` may stand before the digits, and a sign alone is no numeral. -/
def readWord (base : Nat) : List Char → Except NumeralError UInt64
  | [] => .error .empty
  | '+' :: c :: cs => (readDigits base 0 (c :: cs)).map UInt64.ofNat
  | cs => (readDigits base 0 cs).map UInt64.ofNat

end Text
end BranchChain
