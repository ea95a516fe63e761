import ScriptHost.Command.Execution

/-!
# The command line

Reads the files that the arguments name, lets the program decide what to do with them, and prints
what it answers.
-/

namespace ScriptHost

open Command

/-- The code with which the system says that what is read as a file is a directory. -/
def isDirectoryCode : UInt32 :=
  21

def faultOf : IO.Error → FileFault
  | .permissionDenied _ _ _ => .denied
  | .inappropriateType _ code _ => if code = isDirectoryCode then .isDirectory else .notDirectory
  | .invalidArgument _ _ _ => .nameTooLong
  | .noFileOrDirectory _ _ _ => .missing
  | .userError _ => .notText
  | _ => .missing

def readFile (name : String) : IO (Except FileFault String) := do
  try
    return .ok (← IO.FS.readFile name)
  catch e =>
    return .error (faultOf e)

def readFiles (names : List String) : IO Files := do
  let mut contents := []
  for name in names do
    contents := (name, ← readFile name) :: contents
  let found := contents
  return fun name => (found.lookup name).getD (.error .missing)

/-- More instructions than any machine executes. -/
def endlessBudget : Nat :=
  1000000000000000000000000

end ScriptHost

open ScriptHost in
def main (args : List String) : IO UInt32 := do
  -- the arguments alone tell which files are asked for, so the program itself needs no input
  let files ← readFiles (Command.filesOf args)
  match Command.program endlessBudget files args with
  | some outcome =>
      IO.print outcome.output
      IO.eprint outcome.complaint
      return outcome.code.toUInt32
  | none => return 1
