import BranchChain.FileError
import BranchChain.Text.Blank
/-!
# Command.Files — files by name

A command sees files through a view: what stands under a name, or why nothing can be seen there.  A tree of files gives
such a view, by walking from the working directory through the parts of a name, and takes new files where their
directory is.  Of what lies outside the working directory only the directories that hold it are known.
-/
namespace BranchChain
namespace Command

/-- What stands under a name. -/
inductive Node where
  | file (bytes : ByteArray)
  | directory

/-- **What a command can see of the files.** -/
abbrev FileView := String → Except FileError Node

namespace FileView

def has (v : FileView) (name : String) : Bool := (v name).toBool

def read (v : FileView) (name : String) : Except FileError ByteArray := do
  match ← v name with
  | .file bytes => .ok bytes
  | .directory => .error .isDirectory

/-- The bytes of a file mapped into memory; a directory opens, but has nothing to map. -/
def map (v : FileView) (name : String) : Except FileError ByteArray := do
  match ← v name with
  | .file bytes => .ok bytes
  | .directory => .error .noDevice

end FileView

/-! ## Trees of files -/

def partsOf (name : String) : List String := (Text.splitAt (· == '/') name.toList).map String.ofList

/-- The longest part a directory takes, in bytes. -/
def longestPart : Nat := 255

/-- The longest name, in bytes. -/
def longestName : Nat := 4095

/-- Is a part one of the two that every directory has? -/
def isDots (part : String) : Bool := part == "." || part == ".."

/-- **Files and directories by their paths**, seen from the working directory.  A path is the parts from there on,
behind as many `..` as it takes to leave that directory; paths from the root begin with `/`. -/
structure Files where
  nodes : List (List String × Node)

namespace Files

/-- What stands at a path.  A directory is also what other paths lead through, and what holds the working directory. -/
def at? (fs : Files) (path : List String) : Option Node :=
  if path.all (· == "..") || path == ["/"] then some .directory
  else match fs.nodes.find? (·.1 == path) with
    | some (_, n) => some n
    | none => if fs.nodes.any fun (p, _) => path.isPrefixOf p then some .directory else none

/-- The directory that holds a directory; the root holds itself. -/
def above (path : List String) : List String :=
  if path == ["/"] then path else if path.all (· == "..") then path ++ [".."] else path.dropLast

/-- **From a directory to what stands there** under a part of a name. -/
def enter (directory : List String) (part : String) : Except FileError (List String) :=
  if part = "." then .ok directory
  else if part = ".." then .ok (above directory)
  else if longestPart < part.utf8ByteSize then .error .nameTooLong
  else .ok (directory ++ [part])

/-- Walks through all parts but the last: the directory reached, and the last part. -/
def walk (fs : Files) (directory : List String) : List String → Except FileError (List String × Option String)
  | [] => .ok (directory, none)
  | [last] => .ok (directory, some last)
  | part :: parts => do
    let here ← enter directory part
    match fs.at? here with
    | some .directory => walk fs here parts
    | some (.file _) => .error .notDirectory
    | none => .error .missing

/-- **The directory a name leads to, and the part behind it.** -/
def locate (fs : Files) (name : String) : Except FileError (List String × Option String) :=
  if name.toList.contains '\x00' then .error .nulInName
  else if name.isEmpty then .error .missing
  else if longestName < name.utf8ByteSize then .error .nameTooLong
  else fs.walk (if name.startsWith "/" then ["/"] else []) (partsOf name)

/-- **The view of a tree.**  A name with a stroke at its end is a directory's. -/
def view (fs : Files) : FileView := fun name => do
  let (directory, last) ← fs.locate name
  let path ← match last with
    | some last => enter directory last
    | none => .ok directory
  match fs.at? path with
  | none => .error .missing
  | some (.file bytes) => if name.endsWith "/" then .error .notDirectory else .ok (.file bytes)
  | some .directory => .ok .directory

/-- **The tree with a file written**, which replaces a file of that name.  What can only be a directory is refused
before anybody looks. -/
def write (fs : Files) (name : String) (bytes : ByteArray) : Except FileError Files := do
  match ← fs.locate name with
  | (_, none) => .error .isDirectory
  | (directory, some last) =>
    if isDots last || name.endsWith "/" then .error .isDirectory
    else
      let path ← enter directory last
      match fs.at? path with
      | some .directory => .error .isDirectory
      | _ => .ok ⟨(path, .file bytes) :: fs.nodes.filter (·.1 != path)⟩

end Files
end Command
end BranchChain
