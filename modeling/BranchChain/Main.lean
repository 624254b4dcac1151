import BranchChain.Command.Run
/-!
# Main — the program

Looks at the files an invocation names, carries it out on what was seen, and makes its delivery.
-/
namespace BranchChain
namespace Main

open Command

/-- The refusal behind an error of the system, whose number may come with either sign. -/
def fileError : IO.Error → FileError
  | .noFileOrDirectory .. => .missing
  | .inappropriateType _ number _ => if number = 21 ∨ number = 0 - 21 then .isDirectory else .notDirectory
  | .invalidArgument _ number text =>
    if number = 36 ∨ number = 0 - 36 then .nameTooLong else .other text
  | .permissionDenied .. => .other "Permission denied (os error 13)"
  | e => .other (toString e)

/-- What stands under a name; a directory shows by refusing to be read. -/
def look (name : String) : IO (Except FileError Node) := do
  try return .ok (.file (← IO.FS.readBinFile name))
  catch e =>
    match fileError e with
    | .isDirectory => return .ok .directory
    | cause => return .error cause

/-- The view of the files an invocation names. -/
def viewOf (i : Invocation) : IO FileView := do
  let names := [i.source.binary, i.source.raw, i.source.config].filterMap id
  let seen ← names.mapM fun name => return (name, ← look name)
  return fun name => ((seen.find? (·.1 == name)).map (·.2)).getD (.error .missing)

def deliver (d : Delivery) : IO (Except FileError Unit) := do
  try
    IO.FS.writeFile d.file d.text
    return .ok ()
  catch e => return .error (fileError e)

/-- Colours are on if they are forced, or if nobody refuses them and a terminal shows them. -/
def coloursOn : IO Bool := do
  let forced ← IO.getEnv "CLICOLOR_FORCE"
  let refused ← IO.getEnv "NO_COLOR"
  let wanted ← IO.getEnv "CLICOLOR"
  if forced.any (· != "0") then return true
  else if refused.isSome || wanted == some "0" then return false
  else (← IO.getStdout).isTty

/-- What is said where a process breaks off. -/
def trapText : Trap → String
  | .overflow => "attempt to add with overflow\n"
  | .outside => "index out of bounds\n"
  | .capacity => "capacity overflow\n"

def carryOut (i : Invocation) : IO UInt32 := do
  let colours ← coloursOn
  let r := report .atHand i (← viewOf i) colours
  let delivered ← match r.verdict with
    | .ok (some d) => deliver d
    | _ => pure (.ok ())
  let o := r.finish fun _ => delivered
  (← IO.getStdout).putStr o.out
  (← IO.getStderr).putStr (o.diagnostics i colours)
  if let .error (.trap t) := o.result then (← IO.getStderr).putStr (trapText t)
  return UInt32.ofNat o.code

end Main
end BranchChain

open BranchChain in
def main (args : List String) : IO UInt32 := do
  match Command.readArguments args with
  | .ok i => Main.carryOut i
  | .error e =>
    let stream ← if e.code = 0 then IO.getStdout else IO.getStderr
    stream.putStr e.message
    return UInt32.ofNat e.code
