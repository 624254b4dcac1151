import BranchChain.Address.Reader
/-!
# Command.Arguments — reading a command line

Arguments are read from left to right.  A word in front of the action belongs to the program, one behind it to the
action; the options about the log and the colours may stand in either place, and the later place wins.  The value of an
option may be attached to it or follow it.  An attached value is looked at once, a following one only when the next
option is met or the line ends, so an argument that nobody knows is told before it.
-/
namespace BranchChain
namespace Command

inductive Action where
  | build
  | scan
  deriving DecidableEq, Repr

def Action.name : Action → String
  | .build => "build"
  | .scan => "scan"

def Action.ofName? (s : String) : Option Action := [build, scan].find? (·.name == s)

/-! ## Options -/

inductive Opt where
  | logLevel
  | quiet
  | noColor
  | help
  | version
  | binary
  | symbol
  | raw
  | base
  | config
  | anchor
  | scanLimit
  | count
  | output
  deriving DecidableEq, Repr

/-- Whose arguments are read: the program's, or those of an action. -/
inductive Scope where
  | program
  | action (a : Action)
  deriving DecidableEq, Repr

namespace Opt

def all : List Opt :=
  [logLevel, quiet, noColor, help, version, binary, symbol, raw, base, config, anchor, scanLimit, count, output]

def name : Opt → String
  | .logLevel => "log-level"
  | .quiet => "quiet"
  | .noColor => "no-color"
  | .help => "help"
  | .version => "version"
  | .binary => "binary"
  | .symbol => "symbol"
  | .raw => "raw"
  | .base => "base"
  | .config => "config"
  | .anchor => "anchor"
  | .scanLimit => "scan-limit"
  | .count => "count"
  | .output => "output"

def letter? : Opt → Option Char
  | .logLevel => some 'l'
  | .quiet => some 'q'
  | .help => some 'h'
  | .version => some 'V'
  | .binary => some 'b'
  | .symbol => some 's'
  | .config => some 'c'
  | .count => some 'n'
  | .output => some 'o'
  | .noColor | .raw | .base | .anchor | .scanLimit => none

def takesValue : Opt → Bool
  | .quiet | .noColor | .help | .version => false
  | _ => true

/-- **Where an option may stand.** -/
def allowed : Opt → Scope → Bool
  | .logLevel, _ | .quiet, _ | .noColor, _ | .help, _ => true
  | .version, s => s = .program
  | .count, s | .output, s => s = .action .build
  | _, s => s ≠ .program

end Opt

def Scope.long? (s : Scope) (name : String) : Option Opt := Opt.all.find? fun o => o.allowed s && o.name == name

def Scope.short? (s : Scope) (c : Char) : Option Opt := Opt.all.find? fun o => o.allowed s && o.letter? == some c

/-! ## Faults -/

/-- **Why a command line is not carried out**; some of these are what its writer asked for. -/
inductive UsageError where
  | displayHelp
  | displayVersion
  | nothingAsked
  | missingAction
  | unknownAction
  | unknownArgument
  | invalidValue
  | unreadableValue
  | conflict
  | tooManyValues
  deriving DecidableEq, Repr

/-- A number written in decimal, as an option takes it. -/
def readCount (v : String) : Except Text.NumeralError UInt64 := Text.readWord 10 v.toList

/-- **What is wrong with the value of an option**: paths are not empty, numbers and addresses can be read. -/
def Opt.fault? : Opt → String → Option UsageError
  | .binary, v | .raw, v | .config, v | .output, v => if v.isEmpty then some .invalidValue else none
  | .base, v => if (Address.ofText v).toBool then none else some .unreadableValue
  | .scanLimit, v | .count, v => if (readCount v).toBool then none else some .unreadableValue
  | _, _ => none

/-! ## Reading -/

/-- **What has been read**: options with their values, the option whose value is still to be looked at, and whether
options have been closed by two dashes. -/
structure Reading where
  given : List (Opt × String) := []
  pending : Option (Opt × Option String) := none
  closed : Bool := false
  deriving DecidableEq, Repr

namespace Reading

def value? (r : Reading) (o : Opt) : Option String := (r.given.find? (·.1 == o)).map (·.2)

/-- Takes an option with its value, if it has one; an option stands once. -/
def accept (r : Reading) (o : Opt) : Option String → Except UsageError Reading
  | none => .error .invalidValue
  | some v =>
    if (r.value? o).isSome then .error .conflict
    else match o.fault? v with
      | some e => .error e
      | none => .ok ⟨r.given ++ [(o, v)], r.pending, r.closed⟩

/-- **Looks at the pending option.** -/
def settle (r : Reading) : Except UsageError Reading :=
  match r.pending with
  | none => .ok r
  | some (o, v) => accept ⟨r.given, none, r.closed⟩ o v

/-- Is the next argument a value, whatever it says? -/
def awaits? (r : Reading) : Option Opt :=
  match r.pending with
  | some (o, none) => some o
  | _ => none

def awaiting (r : Reading) : Bool := r.awaits?.isSome

/-- An option without a value. -/
def flag (r : Reading) (o : Opt) : Except UsageError Reading := do
  let r ← r.settle
  match o with
  | .help => .error .displayHelp
  | .version => .error .displayVersion
  | o => r.accept o (some "true")

/-- An option whose value is attached. -/
def attached (r : Reading) (o : Opt) (v : String) : Except UsageError Reading := do (← r.settle).accept o (some v)

/-- An option whose value follows. -/
def following (r : Reading) (o : Opt) : Except UsageError Reading := do
  let r ← r.settle
  return ⟨r.given, some (o, none), r.closed⟩

/-- **A long option**, behind its dashes. -/
def long (r : Reading) (s : Scope) (cs : List Char) : Except UsageError Reading :=
  let name := String.ofList (cs.takeWhile (· != '='))
  let value := (cs.dropWhile (· != '=')).tail?.map String.ofList
  match s.long? name, value with
  | none, _ => .error .unknownArgument
  | some o, some v => if o.takesValue then r.attached o v else .error .tooManyValues
  | some o, none => if o.takesValue then r.following o else r.flag o

/-- **Short options**, behind their dash: flags, then perhaps an option whose value is the rest. -/
def short (r : Reading) (s : Scope) : List Char → Except UsageError Reading
  | [] => .ok r
  | c :: cs =>
    match s.short? c with
    | none => .error .unknownArgument
    | some o =>
      if o.takesValue then
        match cs with
        | [] => r.following o
        | '=' :: v => r.attached o (String.ofList v)
        | v => r.attached o (String.ofList v)
      else do (← r.flag o).short s cs

/-- **An argument that is no action.** -/
def argument (r : Reading) (s : Scope) (arg : String) : Except UsageError Reading :=
  let word : Except UsageError Reading :=
    match r.awaits? with
    | some o => .ok ⟨r.given, some (o, some arg), r.closed⟩
    | none => .error (if s = .program then .unknownAction else .unknownArgument)
  if r.closed then
    .error (if s = .program ∧ ¬ (arg = "help" ∨ (Action.ofName? arg).isSome) then .unknownAction else .unknownArgument)
  else
    match arg.toList with
    | ['-', '-'] => .ok ⟨r.given, r.pending, true⟩
    | '-' :: '-' :: cs => r.long s cs
    | '-' :: c :: cs => r.short s (c :: cs)
    | _ => word

end Reading

/-- The action a line asks for, with its arguments. -/
structure Asked where
  action : Action
  rest : List String

/-- What asking for help leads to: there is help for the program and for each thing one can ask for. -/
def helpOn : List String → UsageError
  | [] => .displayHelp
  | [s] => if s = "help" ∨ (Action.ofName? s).isSome then .displayHelp else .unknownAction
  | _ => .unknownAction

/-- **Reads the program's arguments** up to the action. -/
def readProgram : Reading → List String → Except UsageError (Reading × Option Asked)
  | r, [] => .ok (r, none)
  | r, arg :: rest =>
    let further : Except UsageError (Reading × Option Asked) := do readProgram (← r.argument .program arg) rest
    if r.closed ∨ r.awaiting then further
    else if arg = "help" then .error (helpOn rest)
    else match Action.ofName? arg with
      | some a => .ok (r, some ⟨a, rest⟩)
      | none => further

/-! ## Invocations -/

/-- **Where the code comes from and how to look at it**, as asked for. -/
structure Source where
  binary : Option String := none
  symbol : Option String := none
  raw : Option String := none
  base : Option Address := none
  config : Option String := none
  anchor : Option String := none
  scanLimit : Option UInt64 := none
  deriving DecidableEq, Repr

/-- **A command line that can be carried out.** -/
structure Invocation where
  action : Action
  source : Source := {}
  count : Option UInt64 := none
  output : Option String := none
  logLevel : String := "info"
  quiet : Bool := false
  noColor : Bool := false
  deriving DecidableEq, Repr

/-- The invocation that the readings of both places make. -/
def invocationOf (outer inner : Reading) (a : Action) : Invocation where
  action := a
  source := {
    binary := inner.value? .binary
    symbol := inner.value? .symbol
    raw := inner.value? .raw
    base := (inner.value? .base).bind fun v => (Address.ofText v).toOption
    config := inner.value? .config
    anchor := inner.value? .anchor
    scanLimit := (inner.value? .scanLimit).bind fun v => (readCount v).toOption }
  count := (inner.value? .count).bind fun v => (readCount v).toOption
  output := inner.value? .output
  logLevel := ((inner.value? .logLevel).or (outer.value? .logLevel)).getD "info"
  quiet := ((inner.value? .quiet).or (outer.value? .quiet)).isSome
  noColor := ((inner.value? .noColor).or (outer.value? .noColor)).isSome

/-- **Reads a command line**, without the program's own name. -/
def readArguments (args : List String) : Except UsageError Invocation := do
  let (outer, asked) ← readProgram {} args
  match asked with
  | some ⟨a, rest⟩ =>
    let inner ← rest.foldlM (fun (r : Reading) arg => r.argument (.action a) arg) {}
    let inner ← inner.settle
    let outer ← outer.settle
    return invocationOf outer inner a
  | none =>
    let outer ← outer.settle
    .error (if outer.given.isEmpty then .nothingAsked else .missingAction)

end Command
end BranchChain
