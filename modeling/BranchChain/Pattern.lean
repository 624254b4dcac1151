import BranchChain.Text.Blank
import BranchChain.Text.Numeral
/-!
# Pattern — anchors made of fixed bytes

A pattern is a byte sequence, with or without a name.  Its text is the bytes as pairs of hexadecimal digits between
blanks; read, each pair may stand behind one mark `0x`.  What is written is read again as the same bytes.
-/
namespace BranchChain

/-- **A byte sequence to look for.**  Patterns are equal if their names are, too. -/
structure Pattern where
  bytes : List UInt8
  name : Option String := none
  deriving DecidableEq, Repr, Inhabited

/-- **Why a text is no pattern**: its first word that is not a byte. -/
structure PatternError where
  word : String
  deriving DecidableEq, Repr

namespace PatternError

def reason (e : PatternError) : String := "'" ++ e.word ++ "' is not a hex byte"

def message (e : PatternError) : String := "Invalid pattern: " ++ e.reason

end PatternError

namespace Pattern

/-- **The marker in front of a chain**: `mov eax, 0x6a786a63; xor rax, rax`. -/
def preamble : Pattern := ⟨[0xb8, 0x63, 0x6a, 0x78, 0x6a, 0x48, 0x31, 0xc0], some "jump chain preamble"⟩

def length (p : Pattern) : Nat := p.bytes.length

def isEmpty (p : Pattern) : Bool := p.bytes.isEmpty

def named (p : Pattern) (name : String) : Pattern := ⟨p.bytes, some name⟩

/-- The bytes in one piece. -/
def array (p : Pattern) : ByteArray := ⟨p.bytes.toArray⟩

/-- **Do data begin with the bytes wanted?** -/
def startsWith (data wanted : ByteArray) : Bool := wanted.size ≤ data.size && data.extract 0 wanted.size == wanted

/-- **Do data begin with the pattern?** -/
def begins (p : Pattern) (data : ByteArray) : Bool := startsWith data p.array

theorem begins_iff (p : Pattern) (data : ByteArray) : p.begins data = true ↔ p.bytes <+: data.data.toList := by
  have hbeq (b : ByteArray) : (b == p.array) = true ↔ b.data.toList = p.bytes := by
    rw [show (b == p.array) = (b.data == p.bytes.toArray) from rfl, beq_iff_eq]
    exact ⟨fun e => by rw [e], fun e => by rw [← e]⟩
  have hextract : (data.extract 0 p.array.size).data.toList = data.data.toList.take p.bytes.length := by
    rw [ByteArray.data_extract, Array.toList_extract, List.extract_eq_take_drop, List.drop_zero, Nat.sub_zero]
    rfl
  rw [begins, startsWith, Bool.and_eq_true, hbeq, hextract, decide_eq_true_iff]
  -- what begins with the pattern is long enough for it
  exact ⟨fun h => List.prefix_iff_eq_take.2 h.2.symm, fun h => ⟨h.length_le, (List.prefix_iff_eq_take.1 h).symm⟩⟩

/-! ## Text -/

/-- **The bytes as pairs of digits** with one blank between them. -/
def hex (p : Pattern) : String := " ".intercalate (p.bytes.map fun b => String.ofList (Text.hexByte b))

/-- The bytes in brackets, behind the name if there is one. -/
def text (p : Pattern) : String :=
  match p.name with
  | some name => name ++ " [" ++ p.hex ++ "]"
  | none => "[" ++ p.hex ++ "]"

/-- A word without the mark it may begin with. -/
def unmarked : List Char → List Char
  | '0' :: 'x' :: cs => cs
  | '0' :: 'X' :: cs => cs
  | cs => cs

/-- **A byte written with two digits.** -/
def readByte (word : List Char) : Except PatternError UInt8 :=
  match unmarked word with
  | [c, d] =>
    match Text.digitValue? 16 c, Text.digitValue? 16 d with
    | some h, some l => .ok (UInt8.ofNat (16 * h + l))
    | _, _ => .error ⟨String.ofList word⟩
  | _ => .error ⟨String.ofList word⟩

/-- **The pattern a text spells**, without a name. -/
def ofHex (s : String) : Except PatternError Pattern := do
  let bytes ← (Text.words s.toList).mapM readByte
  return ⟨bytes, none⟩

end Pattern
end BranchChain
