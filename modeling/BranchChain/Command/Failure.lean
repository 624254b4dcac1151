import BranchChain.Settings.Reader
import BranchChain.Symbol.Error
import BranchChain.Text.Quoted
/-!
# Command.Failure — why a command fails

A failure is told in one line: its own text, and behind it the text of each cause.
-/
namespace BranchChain
namespace Command

/-- **What is wrong with the options about the source.** -/
inductive SourceError where
  | noFile
  | twoFiles
  | noSymbol
  | noBase
  | noConfig (file : String)
  deriving DecidableEq, Repr

def SourceError.message : SourceError → String
  | .noFile => "Either --binary or --raw must be specified"
  | .twoFiles => "Cannot specify both --binary and --raw"
  | .noSymbol => "--binary requires --symbol"
  | .noBase => "--raw requires --base"
  | .noConfig file => "Config file does not exist: " ++ Text.quoted file

inductive Failure where
  | source (e : SourceError)
  | load (e : Settings.LoadError)
  | settings (e : SettingsError)
  | noCode
  | symbol (e : SymbolError)
  | memory (f : Fault)
  | anchor (e : PatternError)
  | search (e : SearchError)
  | build (e : BuildError)
  | output (cause : FileError)
  deriving DecidableEq, Repr

namespace Failure

/-- The texts of a failure and its causes. -/
def causes : Failure → List String
  | .source e => [e.message]
  | .load e => [e.message]
  | .settings e => [e.message]
  | .noCode => ["No code source specified"]
  | .symbol e => e.causes
  | .memory f => f.causes
  | .anchor e => [e.message]
  | .search e => e.causes
  | .build e => e.causes
  | .output cause => [cause.message]

def message (f : Failure) : String := ": ".intercalate f.causes

end Failure
end Command
end BranchChain
