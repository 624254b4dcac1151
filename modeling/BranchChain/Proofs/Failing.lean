import BranchChain.Command.Failure
/-!
# Proofs.Failing — the words for a failure

A failure is told by its own text and those of its causes, put together on the way up.  `Command.Failure.told` has for each
failure the line as it is read in the end, and `Command.Failure.message_eq_told` says that this line is what comes out.  A
cause that is part of the text above it is told twice.
-/
namespace BranchChain

/-- What is wrong with an anchor, in words. -/
def PatternError.told (e : PatternError) : String := "'" ++ e.word ++ "' is not a hex byte"

/-- What is wrong with settings, in words. -/
def SettingsError.told : SettingsError → String
  | .anchor e => "Invalid pattern: " ++ e.told
  | .emptyAnchor => "anchor must contain at least one byte"
  | .zeroLimit => "scan_limit must be greater than 0"

/-- A fault in words. -/
def Fault.words : Fault → String
  | .io cause => "IO error: " ++ cause.message
  | .invalidAddress written => "Invalid address: " ++ written
  | .outOfBounds a => "Out of bounds: address " ++ a.short ++ " not in range"

/-- A fault and what caused it. -/
def Fault.told : Fault → String
  | .io cause => "IO error: " ++ cause.message ++ ": " ++ cause.message
  | f => f.words

namespace Command

/-- **The line a failure is told in.** -/
def Failure.told : Failure → String
  | .source .noFile => "Either --binary or --raw must be specified"
  | .source .twoFiles => "Cannot specify both --binary and --raw"
  | .source .noSymbol => "--binary requires --symbol"
  | .source .noBase => "--raw requires --base"
  | .source (.noConfig file) => "Config file does not exist: " ++ Text.quoted file
  | .load (.io cause) => cause.message
  | .load (.json _ text) => text
  | .load (.invalid e) => e.told
  | .settings e => e.told
  | .noCode => "No code source specified"
  | .symbol (.notFound name) => "Symbol not found: " ++ name
  | .symbol (.notInFile name) => "Symbol " ++ name ++ " is not backed by file contents"
  | .symbol (.unsupported .fatMachO) => "Unsupported binary format: fat Mach-O"
  | .symbol (.unsupported .pe) => "Unsupported binary format: PE"
  | .symbol (.unsupported .unknown) => "Unsupported binary format: unknown object"
  | .symbol (.io cause) => "IO error: " ++ cause.message ++ ": " ++ cause.message
  | .symbol (.parse text) => "Parse error: " ++ text
  | .memory f => f.told
  | .anchor e => "Invalid pattern: " ++ e.told
  | .search (.notFound limit) => "Did not find jump chain preamble within 0x" ++ Text.hex limit ++ " bytes"
  | .search (.memory f) => "Memory error: " ++ f.words ++ ": " ++ f.told
  | .build (.preambleNotFound limit) => "Did not find jump chain preamble within 0x" ++ Text.hex limit ++ " bytes"
  | .build (.unknownOpcode index offset bytes) =>
    "Unknown opcode " ++ " ".intercalate (bytes.map fun b => String.ofList (Text.hexByte b)) ++ " for handler "
      ++ Text.decimal index ++ " at fn+0x" ++ Text.hex offset.toNat
  | .build (.invalidAnchor e) => "Invalid anchor: " ++ e.told
  | .build (.memory f) => "Memory error: " ++ f.words ++ ": " ++ f.told
  | .output cause => cause.message

end Command

namespace Fault

theorem message_eq_words (f : Fault) : f.message = f.words := by
  cases f <;> rfl

theorem intercalate_causes (f : Fault) : ": ".intercalate f.causes = f.told := by
  cases f <;> rfl

/-- What is told in front of a fault stays in front of it. -/
theorem intercalate_cons_causes (s : String) (f : Fault) : ": ".intercalate (s :: f.causes) = s ++ ": " ++ f.told := by
  cases f with
  | io cause =>
    show s ++ ": " ++ ("IO error: " ++ cause.message) ++ ": " ++ cause.message =
      s ++ ": " ++ ("IO error: " ++ cause.message ++ ": " ++ cause.message)
    simp only [String.append_assoc]
  | invalidAddress | outOfBounds => rfl

end Fault

namespace Command

/-- **What a failure tells is the line for it.** -/
theorem Failure.message_eq_told (f : Failure) : f.message = f.told := by
  match f with
  | .source e => cases e <;> rfl
  | .load (.io _) | .load (.json _ _) => rfl
  | .load (.invalid e) | .settings e => cases e <;> rfl
  | .noCode => rfl
  | .symbol (.notFound _) | .symbol (.notInFile _) | .symbol (.io _) | .symbol (.parse _) => rfl
  | .symbol (.unsupported what) => cases what <;> decide +kernel
  | .memory f => exact f.intercalate_causes
  | .anchor e => rfl
  | .search (.memory f) | .build (.memory f) =>
    show _ = "Memory error: " ++ f.words ++ ": " ++ f.told
    rw [← f.message_eq_words]
    exact f.intercalate_cons_causes _
  | .search (.notFound _) | .build (.preambleNotFound _) | .build (.unknownOpcode ..) | .build (.invalidAnchor _) => rfl
  | .output cause => rfl

end Command
end BranchChain
