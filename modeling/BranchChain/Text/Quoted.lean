import BranchChain.Text.Numeral
import BranchChain.Text.Printable
/-!
# Text.Quoted — names of files in messages

A name stands between double quotes on one line.  The double quote, the backslash and the usual control characters are
escaped with a backslash; what does not show by itself is written by its number.
-/
namespace BranchChain
namespace Text

/-- A character inside a quoted name. -/
def quotedChar (c : Char) : List Char :=
  if c = '\x00' then ['\\', '0']
  else if c = '\t' then ['\\', 't']
  else if c = '\r' then ['\\', 'r']
  else if c = '\n' then ['\\', 'n']
  else if c = '\\' ∨ c = '"' then ['\\', c]
  else if isPrintable c ∧ ¬ isExtending c then [c]
  else ['\\', 'u', '\x7b'] ++ Nat.toDigits 16 c.toNat ++ ['\x7d']

/-- **A name between quotes.** -/
def quoted (s : String) : String := String.ofList ('"' :: s.toList.flatMap quotedChar ++ ['"'])

end Text
end BranchChain
