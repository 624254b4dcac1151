import BranchChain.Command.Log
import BranchChain.Command.Source
import BranchChain.Table.Rendering
/-!
# Command.Run — carrying out an invocation

A command only reads, so all of it up to the last step is a function of what it can see.  It ends in a failure or in
what is left to do, which is at most one file to write; nothing is left to do after a failure.  Whether that file could
be written decides how the command ends.  A command that breaks off has nothing left to do either.
-/
namespace BranchChain
namespace Command

/-- **A file to write**, and what to say once it is written. -/
structure Delivery where
  file : String
  text : String
  notice : String
  deriving DecidableEq, Repr

/-- **A command carried out but for its delivery.** -/
structure Report where
  log : List Event
  out : String
  verdict : Except (Halt Failure) (Option Delivery)

/-- **A command carried out.** -/
structure Outcome where
  log : List Event
  out : String
  result : Except (Halt Failure) Unit

/-- How the command ends, by whether its delivery could be made. -/
def Report.finish (r : Report) (delivered : Delivery → Except FileError Unit) : Outcome :=
  match r.verdict with
  | .error h => ⟨r.log, r.out, .error h⟩
  | .ok none => ⟨r.log, r.out, .ok ()⟩
  | .ok (some d) =>
    match delivered d with
    | .ok () => ⟨r.log, r.out ++ d.notice, .ok ()⟩
    | .error cause => ⟨r.log, r.out, .error (.fail (.output cause))⟩

/-! ## Actions -/

/-- **The table an invocation asks for.** -/
def tableOf (lib : Libraries) (i : Invocation) (v : FileView) : Trace Table := do
  orFail .source (i.source.validate v)
  let s ← orFail id (i.source.settings lib v)
  let s : Settings := ⟨s.anchor, s.scanLimit, i.count.getD s.branchCount⟩
  let code ← i.source.opened lib v
  let recipe ← orFail .build s.recipe
  let done := recipe.recover code.image.memory code.entry
  tell done.log
  orHalt .build done.result

/-- A marker found: its pattern, the entry, and its offset from there. -/
structure Found where
  anchor : Pattern
  entry : Address
  offset : UInt64

/-- **The marker an invocation asks for.** -/
def markerOf (lib : Libraries) (i : Invocation) (v : FileView) : Trace Found := do
  orFail .source (i.source.validate v)
  let s ← orFail id (i.source.settings lib v)
  let anchor ← orFail .anchor s.pattern
  let code ← i.source.opened lib v
  let found := anchor.find code.image.memory code.entry s.scanLimit.toNat
  tell (anchor.scanLog s.scanLimit.toNat code.entry found)
  return ⟨anchor, code.entry, ← orFail .search found⟩

def Found.line (f : Found) (colours : Bool) : String :=
  Text.paint colours .green "[+]" ++ " " ++ f.anchor.text ++ " at " ++ (f.entry + f.offset).text ++ " (fn+0x"
    ++ Text.hex f.offset.toNat ++ ")\n"

/-- The table as a file, if one is asked for. -/
def deliveryOf (i : Invocation) (colours : Bool) (t : Table) : Option Delivery :=
  i.output.map fun file =>
    ⟨file, t.jsonText,
      if i.quiet then "" else Text.paint colours .green ("Table written to: " ++ Text.quoted file) ++ "\n"⟩

/-- A step's end as a report, by what it prints and leaves to do. -/
def reportOf {α : Type} (step : Trace α) (out : α → String) (rest : α → Option Delivery) : Report :=
  match step.run.run [] with
  | (.ok x, log) => ⟨log, out x, .ok (rest x)⟩
  | (.error h, log) => ⟨log, "", .error h⟩

/-- **Carries out an invocation**, in colours if they are on and not refused. -/
def report (lib : Libraries) (i : Invocation) (v : FileView) (coloursOn : Bool) : Report :=
  let colours := coloursOn && !i.noColor
  match i.action with
  | .build => reportOf (tableOf lib i v) (fun t => if i.quiet then "" else t.render colours) (deliveryOf i colours)
  | .scan => reportOf (markerOf lib i v) (fun f => if i.quiet then "" else f.line colours) fun _ => none

/-! ## In a tree of files -/

/-- **Carries out an invocation in a tree of files**, and the tree afterwards. -/
def execute (lib : Libraries) (i : Invocation) (fs : Files) (coloursOn : Bool) : Outcome × Files :=
  let r := report lib i fs.view coloursOn
  match r.verdict with
  | .ok (some d) =>
    let written := fs.write d.file d.text.toUTF8
    (r.finish fun _ => written.map fun _ => (), written.toOption.getD fs)
  | _ => (r.finish fun _ => .ok (), fs)

/-! ## As a process -/

/-- The line that tells a failure. -/
def failureLine (colours : Bool) (f : Failure) : String := Text.paint colours .red "[!]" ++ " " ++ f.message ++ "\n"

namespace Outcome

/-- **The exit code.**  A process that breaks off has one of its own. -/
def code (o : Outcome) : Nat :=
  match o.result with
  | .ok () => 0
  | .error (.fail _) => 1
  | .error (.trap _) => 101

/-- **What a process says apart from its output.**  Refusing colours does not reach the log.  What is said of a trap is
not the process's own. -/
def diagnostics (o : Outcome) (i : Invocation) (coloursOn : Bool) : String :=
  logText coloursOn (levelOf i.logLevel) o.log ++
    match o.result with
    | .ok () => ""
    | .error (.fail f) => failureLine (coloursOn && !i.noColor) f
    | .error (.trap _) => ""

end Outcome

/-! ## Usage -/

def versionText : String := "jumpchain 1.0.0\n"

def helpText : String :=
  "Recovers handler addresses from x86-64 JNE jump chains\n\n" ++
  "Usage: jumpchain [OPTIONS] <COMMAND>\n\n" ++
  "Commands:\n" ++
  "  build  Decode the jump chain and print the handler table\n" ++
  "  scan   Only locate the chain preamble\n" ++
  "  help   Print this message or the help of the given subcommand(s)\n\n" ++
  "Options:\n" ++
  "  -l, --log-level <LOG_LEVEL>  [default: info]\n" ++
  "  -q, --quiet                  \n" ++
  "      --no-color               \n" ++
  "  -h, --help                   Print help\n" ++
  "  -V, --version                Print version\n"

/-- The exit code of a command line that is not carried out. -/
def UsageError.code : UsageError → Nat
  | .displayHelp | .displayVersion => 0
  | _ => 2

def UsageError.message : UsageError → String
  | .displayHelp | .nothingAsked => helpText
  | .displayVersion => versionText
  | .missingAction => "error: a subcommand is required\n"
  | .unknownAction => "error: unrecognized subcommand\n"
  | .unknownArgument => "error: unexpected argument\n"
  | .invalidValue => "error: a value is required\n"
  | .unreadableValue => "error: invalid value\n"
  | .conflict => "error: an argument cannot be used multiple times\n"
  | .tooManyValues => "error: unexpected value\n"

end Command
end BranchChain
