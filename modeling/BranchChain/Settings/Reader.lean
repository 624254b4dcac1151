import BranchChain.Json.Token
import BranchChain.Settings
/-!
# Settings.Reader — settings files

A settings file is a JSON object with any of the three fields, in any order, or an array of up to three values in the
order of the fields.  What is missing keeps its default.  Fields of other names are passed over, whatever they hold; a
known field may stand only once.  The reader goes from token to token and stops at the first that does not fit, so of
two faults the one that is read first is told.
-/
namespace BranchChain
namespace Settings

open Json (Token ReadFault)

inductive Field where
  | anchor
  | scanLimit
  | branchCount
  deriving DecidableEq, Repr

namespace Field

def name : Field → String
  | .anchor => "anchor"
  | .scanLimit => "scan_limit"
  | .branchCount => "branch_count"

def ofName? (s : String) : Option Field := [anchor, scanLimit, branchCount].find? (·.name == s)

/-- The field behind one in an array. -/
def next? : Field → Option Field
  | .anchor => some .scanLimit
  | .scanLimit => some .branchCount
  | .branchCount => none

end Field

/-! ## Drafts -/

/-- The fields read so far. -/
structure Draft where
  anchor : Option String := none
  scanLimit : Option UInt64 := none
  branchCount : Option UInt64 := none
  deriving DecidableEq, Repr

namespace Draft

def has (d : Draft) : Field → Bool
  | .anchor => d.anchor.isSome
  | .scanLimit => d.scanLimit.isSome
  | .branchCount => d.branchCount.isSome

/-- **The settings a draft stands for**: what is missing keeps its default. -/
def settings (d : Draft) : Settings :=
  let s : Settings := {}
  ⟨d.anchor.getD s.anchor, d.scanLimit.getD s.scanLimit, d.branchCount.getD s.branchCount⟩

/-- What is wrong with a token where a value of another kind is wanted. -/
def refuse : Token → ReadFault
  | .number .tooLarge => .malformed
  | .string none => .malformed
  | .broken _ taken _ => taken
  | .braceClose | .bracketClose | .comma | .colon => .malformed
  | _ => .mismatch

/-- **Takes the value of a field.** -/
def put (d : Draft) : Field → Token → Except ReadFault Draft
  | .anchor, .string (some s) => .ok ⟨some s, d.scanLimit, d.branchCount⟩
  | .scanLimit, .number (.word n) => .ok ⟨d.anchor, some n, d.branchCount⟩
  | .branchCount, .number (.word n) => .ok ⟨d.anchor, d.scanLimit, some n⟩
  | _, t => .error (refuse t)

end Draft

/-! ## Passing over values -/

/-- An array or an object that is open. -/
inductive Frame where
  | array
  | object
  deriving DecidableEq, Repr

/-- Where a reader stands in a value it passes over. -/
inductive Spot where
  | value
  | firstItem
  | firstKey
  | key
  | colon
  | behind
  deriving DecidableEq, Repr

/-- A spot inside open frames, the innermost first. -/
structure Passing where
  spot : Spot
  frames : List Frame
  deriving DecidableEq, Repr

namespace Passing

/-- Behind a value; nothing is left to pass over once no frame is open. -/
def behind (frames : List Frame) : Option Passing := if frames.isEmpty then none else some ⟨.behind, frames⟩

/-- The value that begins with a token. -/
def value (frames : List Frame) : Token → Except ReadFault (Option Passing)
  | .braceOpen => .ok (some ⟨.firstKey, .object :: frames⟩)
  | .bracketOpen => .ok (some ⟨.firstItem, .array :: frames⟩)
  | .null | .bool _ | .number _ | .string _ => .ok (behind frames)
  | .broken _ _ passed => .error passed
  | _ => .error .malformed

def key (frames : List Frame) : Token → Except ReadFault (Option Passing)
  | .string _ => .ok (some ⟨.colon, frames⟩)
  | .broken true _ passed => .error passed
  | _ => .error .malformed

/-- **Passes over a token**; none at the end of the value. -/
def step (p : Passing) (t : Token) : Except ReadFault (Option Passing) :=
  match p.spot, t, p.frames with
  | .value, t, frames => value frames t
  | .firstItem, .bracketClose, _ :: frames => .ok (behind frames)
  | .firstItem, t, frames => value frames t
  | .firstKey, .braceClose, _ :: frames => .ok (behind frames)
  | .firstKey, t, frames => key frames t
  | .key, t, frames => key frames t
  | .colon, .colon, frames => .ok (some ⟨.value, frames⟩)
  | .behind, .comma, .array :: frames => .ok (some ⟨.value, .array :: frames⟩)
  | .behind, .comma, .object :: frames => .ok (some ⟨.key, .object :: frames⟩)
  | .behind, .bracketClose, .array :: frames => .ok (behind frames)
  | .behind, .braceClose, .object :: frames => .ok (behind frames)
  | _, _, _ => .error .malformed

end Passing

/-! ## Reading -/

/-- Where the reader of settings stands. -/
inductive Place where
  | start
  | firstKey
  | key
  | colon (f : Option Field)
  | value (f : Field)
  | passing (p : Passing)
  | entryEnd
  | firstItem
  | item (f : Field)
  | itemEnd (next : Option Field)
  | done
  deriving DecidableEq, Repr

/-- A key: a known one may not have been read before. -/
def readKey (d : Draft) : Token → Except ReadFault (Draft × Place)
  | .string (some s) =>
    match Field.ofName? s with
    | some f => if d.has f then .error .mismatch else .ok (d, .colon (some f))
    | none => .ok (d, .colon none)
  | .broken true taken _ => .error taken
  | _ => .error .malformed

/-- **Reads a token.** -/
def step : Draft × Place → Token → Except ReadFault (Draft × Place)
  | (d, .start), .braceOpen => .ok (d, .firstKey)
  | (d, .start), .bracketOpen => .ok (d, .firstItem)
  | (_, .start), t => .error (Draft.refuse t)
  | (d, .firstKey), .braceClose => .ok (d, .done)
  | (d, .firstKey), t => readKey d t
  | (d, .key), t => readKey d t
  | (d, .colon (some f)), .colon => .ok (d, .value f)
  | (d, .colon none), .colon => .ok (d, .passing ⟨.value, []⟩)
  | (d, .value f), t => (d.put f t).map (·, .entryEnd)
  | (d, .passing p), t => (p.step t).map fun q => (d, q.elim .entryEnd .passing)
  | (d, .entryEnd), .comma => .ok (d, .key)
  | (d, .entryEnd), .braceClose => .ok (d, .done)
  | (d, .firstItem), .bracketClose => .ok (d, .done)
  | (d, .firstItem), t => (d.put .anchor t).map (·, .itemEnd (Field.next? .anchor))
  | (d, .item f), t => (d.put f t).map (·, .itemEnd f.next?)
  | (d, .itemEnd (some f)), .comma => .ok (d, .item f)
  | (d, .itemEnd _), .bracketClose => .ok (d, .done)
  | _, _ => .error .malformed

/-- **Reads all tokens**; a text that ends before its value does is too short. -/
def ofTokens (ts : List Token) : Except ReadFault Settings := do
  match ← ts.foldlM step ({}, .start) with
  | (d, .done) => .ok d.settings
  | _ => .error .cutShort

/-- **The settings a text holds.** -/
def ofJson (text : String) : Except ReadFault Settings := ofTokens (Json.tokens text.toList)

/-! ## Files -/

/-- **Why no settings are loaded.**  What is wrong with their text comes with the words for it. -/
inductive LoadError where
  | io (cause : FileError)
  | json (f : ReadFault) (text : String)
  | invalid (e : SettingsError)
  deriving DecidableEq, Repr

def LoadError.message : LoadError → String
  | .io cause => cause.message
  | .json _ text => text
  | .invalid e => e.message

/-- **Loads settings** from what reading their file gave, and accepts only valid ones.  Who words the fault of a text sees
the whole text. -/
def load (describe : String → ReadFault → String) (file : Except FileError ByteArray) : Except LoadError Settings := do
  let bytes ← file.mapError .io
  let some text := String.fromUTF8? bytes | throw (.io .notUtf8)
  let s ← (ofJson text).mapError fun f => .json f (describe text f)
  (s.validate).mapError .invalid
  return s

end Settings
end BranchChain
