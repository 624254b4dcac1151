/-!
# Text.Terminal — texts without terminal codes

A terminal takes some characters as codes: control characters, and sequences that an escape opens.  What is written
for anything but a terminal is freed of them, character by character.  White space comes through even amid a sequence
of the short kinds, and then what follows comes through as well, up to the next control character; there the sequence
goes on where it stood.
-/
namespace BranchChain
namespace Text

/-- **Where a reader stands in a sequence of codes.** -/
inductive CodeState where
  /-- In no sequence. -/
  | ground
  | escape
  | escapeMore
  | control
  | deviceEntry
  | deviceParameter
  | deviceMore
  /-- In a text meant for the terminal, which only its own end mark closes. -/
  | string
  /-- In a command to the terminal's system, which a bell may close. -/
  | command
  deriving DecidableEq, Repr

/-- White space in lines; the blank is a part of sequences. -/
def isBreak (c : Char) : Bool := c == '\t' || c == '\n' || c == '\x0c' || c == '\r'

/-- Does the character stand for itself? -/
def isPlain (c : Char) : Bool := (0x20 ≤ c.toNat && c.toNat != 0x7f) || isBreak c

/-- Is a byte behind the first of the character's encoding the end mark `0x9c`?  Each of these bytes holds six bits. -/
def holdsEndMark (c : Char) : Bool :=
  let n := c.toNat
  (0x80 ≤ n && n % 0x40 == 0x1c) || (0x800 ≤ n && n / 0x40 % 0x40 == 0x1c)
    || (0x10000 ≤ n && n / 0x1000 % 0x40 == 0x1c)

namespace CodeState

def isBetween (low high c : Char) : Bool := low ≤ c && c ≤ high

/-- **The state behind a character.** -/
def next (s : CodeState) (c : Char) : CodeState :=
  if c = '\x18' ∨ c = '\x1a' then .ground
  else if c = '\x1b' then .escape
  else
    match s with
    | .ground => .ground
    | .escape =>
      if isBetween ' ' '/' c then .escapeMore
      else if c = '[' then .control
      else if c = ']' then .command
      else if c = 'P' then .deviceEntry
      else if c = 'X' ∨ c = '^' ∨ c = '_' then .string
      else if isBetween '0' '~' c then .ground
      else .escape
    | .escapeMore => if isBetween '0' '~' c then .ground else .escapeMore
    | .control => if isBetween '@' '~' c then .ground else .control
    | .deviceEntry =>
      if isBetween '@' '~' c then .string
      else if isBetween ' ' '/' c then .deviceMore
      else if isBetween '0' '?' c then .deviceParameter
      else .deviceEntry
    | .deviceParameter =>
      if isBetween '<' '~' c then .string else if isBetween ' ' '/' c then .deviceMore else .deviceParameter
    | .deviceMore => if isBetween '0' '~' c then .string else .deviceMore
    | .string => if holdsEndMark c then .ground else .string
    | .command => if c = '\x07' then .ground else .command

/-- **Does a character come through?** -/
def passes : CodeState → Char → Bool
  | .ground, c => isPlain c
  | .escape, c | .escapeMore, c | .control, c => isBreak c
  | _, _ => false

end CodeState

/-- A reader of codes: its state, and whether it lets plain characters through whatever the state. -/
structure CodeReader where
  state : CodeState := .ground
  letting : Bool := false
  deriving DecidableEq, Repr

/-- Reads a character, and tells whether it comes through. -/
def CodeReader.read (r : CodeReader) (c : Char) : CodeReader × Bool :=
  if r.letting ∧ isPlain c then (⟨if c.toNat < 0x80 then r.state else .ground, true⟩, true)
  else (⟨r.state.next c, r.state.passes c⟩, r.state.passes c)

/-- What comes through of a text. -/
def withoutCodesFrom (r : CodeReader) : List Char → List Char
  | [] => []
  | c :: cs =>
    let (r, through) := r.read c
    if through then c :: withoutCodesFrom r cs else withoutCodesFrom r cs

/-- **A text without the codes in it.** -/
def withoutCodes (s : String) : String := String.ofList (withoutCodesFrom {} s.toList)

end Text
end BranchChain
