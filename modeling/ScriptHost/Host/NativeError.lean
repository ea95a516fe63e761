import ScriptHost.Script.Error

/-!
# Errors of the host

The failures that a native window system reports, with the numeric codes that scripts see, and the
failures of operations on a window, of which those are one kind.
-/

namespace ScriptHost
namespace Host

/-- Why a window system refuses something. -/
inductive NativeError
  | missingDependency
  | canceled
  | invalidState
  | invalidArgument
  | unspecified
  | duplicate
  | notFound
  deriving DecidableEq, Repr

namespace NativeError

/-- The code that stands for success. -/
def okCode : Int :=
  0

/-- All failures in the order of their codes. -/
def all : List NativeError :=
  [.missingDependency, .canceled, .invalidState, .invalidArgument, .unspecified, .duplicate,
    .notFound]

/-- Scripts see failures as numbers. -/
def code : NativeError → Int
  | .missingDependency => -5
  | .canceled => -4
  | .invalidState => -3
  | .invalidArgument => -2
  | .unspecified => -1
  | .duplicate => 1
  | .notFound => 2

def ofCode? (n : Int) : Option NativeError :=
  all.find? fun e => e.code == n

/-- The word that the names of script functions use for the failure. -/
def ident : NativeError → String
  | .missingDependency => "missing_dependency"
  | .canceled => "canceled"
  | .invalidState => "invalid_state"
  | .invalidArgument => "invalid_argument"
  | .unspecified => "unspecified"
  | .duplicate => "duplicate"
  | .notFound => "not_found"

def message : NativeError → String
  | .missingDependency => "missing dependency"
  | .canceled => "operation canceled"
  | .invalidState => "invalid state"
  | .invalidArgument => "invalid argument"
  | .unspecified => "unspecified error"
  | .duplicate => "duplicate"
  | .notFound => "not found"

/-- The code of a failure tells which one it is. -/
theorem ofCode?_code (e : NativeError) : ofCode? e.code = some e := by
  cases e <;> rfl

end NativeError

/-- Why an operation on a window fails. -/
inductive HostError
  | outOfMemory
  | native (e : NativeError)
  | script (e : Script.ScriptError)
  | vmUnavailable
  deriving DecidableEq

namespace HostError

def message : HostError → String
  | .outOfMemory => "out of memory"
  | .native e => "native runtime error: " ++ e.message
  | .script e => "VM error: " ++ e.message
  | .vmUnavailable => "VM is no longer available"

/-- Only failures of the native side have codes. -/
def nativeCode? : HostError → Option Int
  | .native e => some e.code
  | _ => none

end HostError

end Host
end ScriptHost
