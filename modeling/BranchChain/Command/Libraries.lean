import BranchChain.Object.Parse
import BranchChain.Settings.Reader
/-!
# Command.Libraries — what commands leave to others

Commands take no object file apart and have no words for what is wrong with a settings text.  They ask for both; whoever
runs them says who answers.
-/
namespace BranchChain
namespace Command

/-- **Who takes object files apart**, and who words what is wrong with the text of a settings file. -/
structure Libraries where
  parse : Object.Parser
  describe : String → Json.ReadFault → String

/-- The words of the libraries at hand, which say no more than the fault. -/
def faultText : Json.ReadFault → String
  | .malformed => "the settings are no JSON text"
  | .cutShort => "the settings end too early"
  | .mismatch => "the settings hold a value of the wrong kind"

/-- **The libraries at hand.** -/
def Libraries.atHand : Libraries := ⟨Object.parse, fun _ => faultText⟩

end Command
end BranchChain
