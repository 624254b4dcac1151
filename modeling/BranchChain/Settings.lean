import BranchChain.Json
import BranchChain.Table.Recovery
/-!
# Settings — how a chain is looked for

The anchor's text, the limit of the search and the number of handlers.  Settings are valid if the anchor's text spells
at least one byte and the limit is not zero; valid settings make a recipe.
-/
namespace BranchChain

/-- **The settings of a recovery.** -/
structure Settings where
  anchor : String := Pattern.preamble.hex
  scanLimit : UInt64 := Pattern.defaultLimit
  branchCount : UInt64 := 3
  deriving DecidableEq, Repr

/-- **What is wrong with settings.** -/
inductive SettingsError where
  | anchor (e : PatternError)
  | emptyAnchor
  | zeroLimit
  deriving DecidableEq, Repr

def SettingsError.message : SettingsError → String
  | .anchor e => e.message
  | .emptyAnchor => "anchor must contain at least one byte"
  | .zeroLimit => "scan_limit must be greater than 0"

namespace Settings

/-- The anchor's bytes, named. -/
def pattern (s : Settings) : Except PatternError Pattern := (Pattern.ofHex s.anchor).map (·.named "anchor")

/-- **The anchor is looked at before the limit.** -/
def validate (s : Settings) : Except SettingsError Unit :=
  match s.pattern with
  | .error e => .error (.anchor e)
  | .ok p => if p.isEmpty then .error .emptyAnchor else if s.scanLimit = 0 then .error .zeroLimit else .ok ()

def recipe (s : Settings) : Except BuildError Recipe :=
  match s.pattern with
  | .error e => .error (.invalidAnchor e)
  | .ok p => .ok ⟨p, s.scanLimit.toNat, s.branchCount.toNat⟩

def json (s : Settings) : Json :=
  .obj [("anchor", .str s.anchor), ("scan_limit", .int s.scanLimit.toNat), ("branch_count", .int s.branchCount.toNat)]

end Settings
end BranchChain
