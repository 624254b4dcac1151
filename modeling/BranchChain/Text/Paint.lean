/-!
# Text.Paint — colours on a terminal

A coloured text stands between a code that turns its colour on and one that turns all colours off.
-/
namespace BranchChain
namespace Text

inductive Colour where
  | red
  | green
  | yellow
  | blue
  | cyan
  | grey
  | boldRed
  deriving DecidableEq, Repr

def Colour.code : Colour → String
  | .red => "\x1b[31m"
  | .green => "\x1b[32m"
  | .yellow => "\x1b[33m"
  | .blue => "\x1b[34m"
  | .cyan => "\x1b[36m"
  | .grey => "\x1b[90m"
  | .boldRed => "\x1b[1m\x1b[31m"

def colourOff : String := "\x1b[0m"

/-- **A text in a colour**, if colours are on. -/
def paint (on : Bool) (c : Colour) (s : String) : String := if on then c.code ++ s ++ colourOff else s

end Text
end BranchChain
