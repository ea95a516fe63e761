/-!
# Files

What a program sees of the files around it: under each path a text, or the reason why there is
none. A tree in memory answers as a system with folders does. A path is followed name by name, and
the first name that leads nowhere decides the reason.
-/

namespace ScriptHost
namespace Command

/-- Why a file cannot be read. -/
inductive FileFault
  | missing
  | notDirectory
  | isDirectory
  | nameTooLong
  | denied
  | notText
  deriving DecidableEq, Repr

def FileFault.message : FileFault → String
  | .missing => "No such file or directory (os error 2)"
  | .notDirectory => "Not a directory (os error 20)"
  | .isDirectory => "Is a directory (os error 21)"
  | .nameTooLong => "File name too long (os error 36)"
  | .denied => "Permission denied (os error 13)"
  | .notText => "stream did not contain valid UTF-8"

/-- The contents of files by path. -/
abbrev Files :=
  String → Except FileFault String

/-! ## Trees -/

inductive FileNode
  | file (text : String)
  | folder (members : List (String × FileNode))

/-- A node of a tree with the folders around it, the nearest first. -/
structure FileCursor where
  here : FileNode
  around : List FileNode := []

namespace FileCursor

/-- In bytes, as is the length of a path. -/
def longestName : Nat :=
  255

def longestPath : Nat :=
  4095

/-- The folder around a place; the root is its own. -/
def parent (p : FileCursor) : FileCursor :=
  match p.around with
  | [] => p
  | outer :: rest => ⟨outer, rest⟩

def root (p : FileCursor) : FileCursor :=
  match p.around.getLast? with
  | none => p
  | some outermost => ⟨outermost, []⟩

def member (p : FileCursor) (members : List (String × FileNode)) (name : String) :
    Except FileFault FileCursor :=
  if longestName < name.utf8ByteSize then
    .error .nameTooLong
  else
    match members.lookup name with
    | some node => .ok ⟨node, p.here :: p.around⟩
    | none => .error .missing

/-- One step of a path. The empty name and the single dot stay in a folder, but not in a file. -/
def enter (p : FileCursor) (name : String) : Except FileFault FileCursor :=
  match p.here with
  | .file _ => .error .notDirectory
  | .folder members =>
      match name with
      | "" => .ok p
      | "." => .ok p
      | ".." => .ok p.parent
      | name => p.member members name

def follow (p : FileCursor) (names : List String) : Except FileFault FileCursor :=
  names.foldlM enter p

def text (p : FileCursor) : Except FileFault String :=
  match p.here with
  | .file text => .ok text
  | .folder _ => .error .isDirectory

/-- A path that begins with a slash starts at the root. -/
def start (p : FileCursor) (path : String) : FileCursor :=
  if path.toList.head? = some '/' then p.root else p

/-- The files as they are seen from a place. -/
def files (p : FileCursor) : Files := fun path =>
  if path.isEmpty then
    .error .missing
  else if longestPath < path.utf8ByteSize then
    .error .nameTooLong
  else do
    let found ← (p.start path).follow (path.splitOn "/")
    found.text

end FileCursor

end Command
end ScriptHost
