import ScriptHost.Command.Files
import ScriptHost.Host.Event
import ScriptHost.Host.NativeError

/-!
# Failures of commands

Why a command fails, and the report of it: what failed, and below that the causes, each on a line
of its own. Several causes are numbered.
-/

namespace ScriptHost
namespace Command

/-! ## Failures -/

inductive Failure
  | configUnreadable (path : String) (fault : FileFault)
  | configInvalid (path : String)
  | fileUnreadable (path : String) (fault : FileFault)
  | eventUnknown (text : String)
  | callMalformed (text : String)
  | scriptFailed (e : Script.ScriptError)
  | callFailed (name : String) (e : Host.NativeError)
  | codeFailed (e : Script.ScriptError)

/-- What failed, followed by its causes. -/
def Failure.messages : Failure → List String
  | .configUnreadable path fault =>
      ["loading config " ++ path, "failed to read " ++ path ++ ": " ++ fault.message,
        fault.message]
  | .configInvalid path => ["loading config " ++ path, "invalid configuration"]
  | .fileUnreadable path fault => ["reading " ++ path, fault.message]
  | .eventUnknown text => [Host.Event.complaint text]
  | .callMalformed text => ["invalid --call '" ++ text ++ "', expected name:id:payload"]
  | .scriptFailed e => ["running script", e.message]
  | .callFailed name e => ["calling '" ++ name ++ "'", e.message]
  | .codeFailed e => ["evaluation failed", e.message]

/-! ## Reports -/

/-- A text whose lines after the first are moved to the right. -/
def hang (indent text : String) : String :=
  String.intercalate ("\n" ++ indent) (text.splitOn "\n")

def padLeft (width : Nat) (s : String) : String :=
  String.ofList (List.replicate (width - s.length) ' ') ++ s

def causeLine (number : Nat) (text : String) : String :=
  "\n" ++ padLeft 5 (toString number) ++ ": " ++ hang "       " text

def causeLines : Nat → List String → String
  | _, [] => ""
  | n, text :: rest => causeLine n text ++ causeLines (n + 1) rest

def causes : List String → String
  | [] => ""
  | [text] => "\n\nCaused by:\n    " ++ hang "    " text
  | texts => "\n\nCaused by:" ++ causeLines 0 texts

def report : List String → String
  | [] => ""
  | text :: rest => "Error: " ++ text ++ causes rest ++ "\n"

end Command
end ScriptHost
