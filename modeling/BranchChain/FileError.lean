/-!
# FileError — what the file system refuses

The refusals an operating system reports with a number, and what fails without asking it: a name that no system takes,
and bytes that are no text.
-/
namespace BranchChain

inductive FileError where
  | missing
  | isDirectory
  | notDirectory
  | noDevice
  | nameTooLong
  | nulInName
  | notUtf8
  | other (text : String)
  deriving DecidableEq, Repr

def FileError.message : FileError → String
  | .missing => "No such file or directory (os error 2)"
  | .noDevice => "No such device (os error 19)"
  | .notDirectory => "Not a directory (os error 20)"
  | .isDirectory => "Is a directory (os error 21)"
  | .nameTooLong => "File name too long (os error 36)"
  | .nulInName => "file name contained an unexpected NUL byte"
  | .notUtf8 => "stream did not contain valid UTF-8"
  | .other text => text

end BranchChain
