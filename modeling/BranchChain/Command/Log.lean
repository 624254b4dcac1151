import BranchChain.Event
import BranchChain.Text.Paint
import BranchChain.Text.Terminal
/-!
# Command.Log — a log as lines

A log is written from a level up.  Each event has a head, which tells its level and where it comes from; lines behind
the first of its text are indented.  In colours the head is painted and the text kept; without them no terminal code
gets into the log, wherever it comes from.
-/
namespace BranchChain
namespace Command

/-- The least grave level that is logged; none for silence.  Names are read without regard to case, and as no character
beyond ASCII has a letter of theirs for its small one, only ASCII counts. -/
def levelOf (name : String) : Option Level :=
  match String.ofList (name.toList.map Char.toLower) with
  | "trace" => some .trace
  | "debug" => some .debug
  | "warn" => some .warn
  | "error" => some .error
  | "off" => none
  | _ => some .info

def levelColour : Level → Text.Colour
  | .error => .boldRed
  | .warn => .yellow
  | .info => .green
  | .debug => .blue
  | .trace => .cyan

/-- Level names are as wide as the widest. -/
def levelWidth : Nat := 5

/-- The head of an event: level and channel in brackets. -/
def headOf (colours : Bool) (e : Event) : String :=
  let level := Text.Layout.pad ⟨' ', .left, false, false, false, levelWidth⟩ e.level.name
  Text.paint colours .grey "[" ++ Text.paint colours (levelColour e.level) level ++ " " ++ e.channel
    ++ Text.paint colours .grey "]" ++ " "

/-- Lines behind the first, four blanks in. -/
def indented (text : String) : String :=
  String.ofList (text.toList.flatMap fun c => if c = '\n' then ['\n', ' ', ' ', ' ', ' '] else [c])

/-- **The lines of an event.** -/
def eventText (colours : Bool) (e : Event) : String :=
  let text := headOf colours e ++ indented e.text ++ "\n"
  if colours then text else Text.withoutCodes text

/-- **The lines of a log** from a level up. -/
def logText (colours : Bool) (level : Option Level) (log : List Event) : String :=
  String.join ((log.filter fun e => level.any (e.level.rank ≤ ·.rank)).map (eventText colours))

end Command
end BranchChain
