import BranchChain.Pattern
import BranchChain.Slot
import BranchChain.Text.Layout
import BranchChain.Text.Quoted
/-!
# Event — what a run tells about itself

The steps worth a record, as data.  How grave one is, which part of the program it comes from and how it reads follow
from the event alone.
-/
namespace BranchChain

/-- How grave an event is, the gravest first. -/
inductive Level where
  | error
  | warn
  | info
  | debug
  | trace
  deriving DecidableEq, Repr

namespace Level

def rank : Level → Nat
  | .error => 1
  | .warn => 2
  | .info => 3
  | .debug => 4
  | .trace => 5

def name : Level → String
  | .error => "ERROR"
  | .warn => "WARN"
  | .info => "INFO"
  | .debug => "DEBUG"
  | .trace => "TRACE"

end Level

inductive Event where
  | preambleFound (offset : UInt64)
  | preambleMissing (pattern : Pattern) (limit : Nat) (base : Address)
  | handlerDecoded (slot : Slot)
  | tableDecoded (entry : Address) (short near : Nat)
  | symbolsRead (symbols segments : Nat)
  | entryResolved (symbol : String) (entry : Address) (file : String)
  deriving DecidableEq, Repr

namespace Event

def level : Event → Level
  | .preambleFound _ => .info
  | .preambleMissing .. => .warn
  | .handlerDecoded _ => .debug
  | .tableDecoded .. => .info
  | .symbolsRead .. => .debug
  | .entryResolved .. => .info

/-- The part of the program that speaks. -/
def channel : Event → String
  | .preambleFound _ => "jumpchain::pattern::scanner"
  | .preambleMissing .. => "jumpchain::pattern::scanner"
  | .handlerDecoded _ => "jumpchain::jumptable::builder"
  | .tableDecoded .. => "jumpchain::jumptable::builder"
  | .symbolsRead .. => "jumpchain::symbol::binary"
  | .entryResolved .. => "jumpchain::ui::cli::handler"

/-- A number behind the mark, filled with zeros to a width that counts the mark. -/
def marked (width n : Nat) : String := Text.Layout.hex ⟨' ', .right, false, true, true, width⟩ n

/-- A whole number at the right end of a column. -/
def column (width : Nat) (n : Int) : String := Text.Layout.decimal ⟨' ', .right, false, false, false, width⟩ n

def text : Event → String
  | .preambleFound offset => "found jump chain preamble at offset " ++ marked 4 offset.toNat
  | .preambleMissing pattern limit base =>
    "preamble " ++ pattern.text ++ " not found within " ++ marked 0 limit ++ " bytes of " ++ base.text
  | .handlerDecoded slot =>
    "handler idx " ++ Text.decimal slot.index ++ " " ++ column 2 slot.form.bits ++ " bit joffset "
      ++ column 4 slot.displacement.toInt ++ "  abs " ++ marked 8 slot.target.toNat
      ++ "  (JNE @ fn+" ++ marked 4 slot.siteOffset.toNat ++ ")"
  | .tableDecoded entry short near =>
    "decoded " ++ Text.decimal (short + near) ++ " handlers at " ++ entry.text ++ " (" ++ Text.decimal short
      ++ " short, " ++ Text.decimal near ++ " near)"
  | .symbolsRead symbols segments =>
    "parsed " ++ Text.decimal symbols ++ " symbols from " ++ Text.decimal segments ++ " load segments"
  | .entryResolved symbol entry file => "resolved " ++ symbol ++ " to " ++ entry.text ++ " in " ++ Text.quoted file

end Event
end BranchChain
