import BranchChain.Command.Arguments
import BranchChain.Command.Failure
import BranchChain.Command.Files
import BranchChain.Command.Libraries
import BranchChain.Symbol.Table
/-!
# Command.Source — from options to code and settings

Options about the source are checked against each other before any file is read.  Settings come from their file, if one
is named, and must be valid there; options overrule them field by field, and the outcome must be valid again.  Code is
either a dump placed at a base, which is its entry, or a binary placed so that a symbol's address falls on its code.
-/
namespace BranchChain
namespace Command

/-- Code to look at. -/
inductive Code where
  | binary (file symbol : String)
  | raw (file : String) (base : Address)
  deriving DecidableEq, Repr

/-- Code in memory and where its function starts. -/
structure Opened where
  image : Image
  entry : Address

/-- **A step of a command**: it may fail or break off, and what it told before is kept. -/
abbrev Trace := ExceptT (Halt Failure) (StateM (List Event))

def tell (es : List Event) : Trace Unit := modify (· ++ es)

def orHalt {ε α : Type} (cause : ε → Failure) (x : Except (Halt ε) α) : Trace α :=
  ExceptT.mk (pure (x.mapError (.map cause)))

def orFail {ε α : Type} (cause : ε → Failure) (x : Except ε α) : Trace α := orHalt cause (x.mapError .fail)

namespace Source

/-- **Are the options consistent?**  Which files hold the code is asked first, then what each way needs, then the
settings file. -/
def validate (s : Source) (v : FileView) : Except SourceError Unit :=
  match s.binary, s.raw with
  | none, none => .error .noFile
  | some _, some _ => .error .twoFiles
  | _, _ =>
    if s.binary.isSome ∧ s.symbol.isNone then .error .noSymbol
    else if s.raw.isSome ∧ s.base.isNone then .error .noBase
    else match s.config with
      | some file => if v.has file then .ok () else .error (.noConfig file)
      | none => .ok ()

/-- The settings in the file, the defaults if none is named. -/
def fileSettings (s : Source) (lib : Libraries) (v : FileView) : Except Failure Settings :=
  match s.config with
  | some file => (Settings.load lib.describe (v.read file)).mapError .load
  | none => .ok {}

/-- Settings with the options' values in place of theirs. -/
def overrule (s : Source) (t : Settings) : Settings :=
  ⟨s.anchor.getD t.anchor, s.scanLimit.getD t.scanLimit, t.branchCount⟩

/-- **The settings a command works with.** -/
def settings (s : Source) (lib : Libraries) (v : FileView) : Except Failure Settings := do
  let t := s.overrule (← s.fileSettings lib v)
  (t.validate).mapError .settings
  return t

/-- The code the options name. -/
def code? (s : Source) : Option Code :=
  match s.binary, s.symbol, s.raw, s.base with
  | some file, some symbol, _, _ => some (.binary file symbol)
  | _, _, some file, some base => some (.raw file base)
  | _, _, _, _ => none

/-- **Opens the code.** -/
def opened (s : Source) (lib : Libraries) (v : FileView) : Trace Opened := do
  match s.code? with
  | none => throw (.fail .noCode)
  | some (.raw file base) =>
    let bytes ← orFail (.memory ∘ .io) (v.map file)
    return ⟨⟨bytes, base⟩, base⟩
  | some (.binary file symbol) =>
    let bytes ← orFail (.symbol ∘ .io) (v.read file)
    let (table, event) ← orFail .symbol (SymbolTable.ofBytes lib.parse bytes)
    tell [event]
    let entry ← orFail .symbol (table.resolve symbol)
    let base ← orFail .symbol (table.loadBase symbol)
    tell [.entryResolved symbol entry file]
    let bytes ← orFail (.memory ∘ .io) (v.map file)
    return ⟨⟨bytes, base⟩, entry⟩

end Source
end Command
end BranchChain
