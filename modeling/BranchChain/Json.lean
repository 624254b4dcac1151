import BranchChain.Text.Numeral
/-!
# Json — values and their text

Values whose numbers are whole.  Fields keep their order.  Two texts are written: the compact one has no blanks, the
pretty one has an item per line, two blanks deeper per level, and no line inside an empty list or object.  In strings
the quote, the backslash and the control characters are escaped and nothing else is.
-/
namespace BranchChain

inductive Json where
  | null
  | bool (b : Bool)
  | int (n : Int)
  | str (s : String)
  | arr (items : List Json)
  | obj (fields : List (String × Json))
  deriving Repr, Inhabited

namespace Json

/-! ## Strings -/

/-- A character inside a string. -/
def escapeChar (c : Char) : List Char :=
  if c = '"' then ['\\', '"']
  else if c = '\\' then ['\\', '\\']
  else if c = '\x08' then ['\\', 'b']
  else if c = '\x0c' then ['\\', 'f']
  else if c = '\n' then ['\\', 'n']
  else if c = '\r' then ['\\', 'r']
  else if c = '\t' then ['\\', 't']
  else if c.toNat < 0x20 then ['\\', 'u', '0', '0'] ++ Text.hexByte (UInt8.ofNat c.toNat)
  else [c]

/-- **A string with its quotes.** -/
def quote (s : String) : String := String.ofList ('"' :: s.toList.flatMap escapeChar ++ ['"'])

/-! ## Compact text -/

mutual

/-- **The text without blanks.** -/
def compact : Json → String
  | .null => "null"
  | .bool b => if b then "true" else "false"
  | .int n => Text.signed n
  | .str s => quote s
  | .arr items => "[" ++ ",".intercalate (compactItems items) ++ "]"
  | .obj fields => "\x7b" ++ ",".intercalate (compactFields fields) ++ "\x7d"

def compactItems : List Json → List String
  | [] => []
  | j :: js => compact j :: compactItems js

def compactFields : List (String × Json) → List String
  | [] => []
  | (k, j) :: fs => (quote k ++ ":" ++ compact j) :: compactFields fs

end

/-! ## Pretty text -/

/-- A line break and the blanks of a level. -/
def newline (level : Nat) : String := String.ofList ('\n' :: List.replicate (2 * level) ' ')

mutual

/-- The text with an item per line, for a value that stands at a level. -/
def prettyAt (level : Nat) : Json → String
  | .null => "null"
  | .bool b => if b then "true" else "false"
  | .int n => Text.signed n
  | .str s => quote s
  | .arr [] => "[]"
  | .arr (j :: js) => "[" ++ ",".intercalate (prettyItems (level + 1) (j :: js)) ++ newline level ++ "]"
  | .obj [] => "\x7b\x7d"
  | .obj (f :: fs) => "\x7b" ++ ",".intercalate (prettyFields (level + 1) (f :: fs)) ++ newline level ++ "\x7d"

/-- The lines of items at a level. -/
def prettyItems (level : Nat) : List Json → List String
  | [] => []
  | j :: js => (newline level ++ prettyAt level j) :: prettyItems level js

/-- The lines of fields at a level. -/
def prettyFields (level : Nat) : List (String × Json) → List String
  | [] => []
  | (k, j) :: fs => (newline level ++ quote k ++ ": " ++ prettyAt level j) :: prettyFields level fs

end

/-- **The text with an item per line.** -/
def pretty (j : Json) : String := prettyAt 0 j

end Json
end BranchChain
