import BranchChain.Address
import BranchChain.FileError
/-!
# Symbol.Error — why a name has no address
-/
namespace BranchChain

/-- Files whose symbols are not read. -/
inductive Foreign where
  | fatMachO
  | pe
  | unknown
  deriving DecidableEq, Repr

def Foreign.name : Foreign → String
  | .fatMachO => "fat Mach-O"
  | .pe => "PE"
  | .unknown => "unknown object"

/-- **What goes wrong on the way from a name to an address.** -/
inductive SymbolError where
  | notFound (name : String)
  | notInFile (name : String)
  | unsupported (what : Foreign)
  | io (cause : FileError)
  | parse (text : String)
  deriving DecidableEq, Repr

namespace SymbolError

def message : SymbolError → String
  | .notFound name => "Symbol not found: " ++ name
  | .notInFile name => "Symbol " ++ name ++ " is not backed by file contents"
  | .unsupported what => "Unsupported binary format: " ++ what.name
  | .io cause => "IO error: " ++ cause.message
  | .parse text => "Parse error: " ++ text

def causes (e : SymbolError) : List String :=
  match e with
  | .io cause => [e.message, cause.message]
  | _ => [e.message]

end SymbolError
end BranchChain
