import BranchChain.Address
import BranchChain.Text.Blank
/-!
# Address.Reader — addresses written by people

White space around the text does not count.  Digits behind the mark `0x` are hexadecimal, others decimal, and one plus
may stand before them.
-/
namespace BranchChain
namespace Address

/-- **Why a text is no address.** -/
structure ReadError where
  text : String
  cause : Text.NumeralError
  deriving DecidableEq, Repr

def ReadError.message (e : ReadError) : String := "invalid address '" ++ e.text ++ "': " ++ e.cause.message

/-- The number of a text without white space around it. -/
def readTrimmed : List Char → Except Text.NumeralError UInt64
  | '0' :: 'x' :: cs => Text.readWord 16 cs
  | '0' :: 'X' :: cs => Text.readWord 16 cs
  | cs => Text.readWord 10 cs

/-- **The address a text spells.** -/
def ofText (s : String) : Except ReadError Address :=
  let cs := Text.trim s.toList
  match readTrimmed cs with
  | .ok n => .ok ⟨n⟩
  | .error cause => .error ⟨String.ofList cs, cause⟩

end Address
end BranchChain
