import ScriptHost.Machine.Stack

/-!
# Short descriptions

One-line descriptions of callees and call setups, for diagnostics.
-/

namespace ScriptHost
namespace Machine

variable {ν : Type}

def Callable.shown : Callable ν → String
  | .script f => "Script(" ++ f.name ++ ")"
  | .native _ => "Native"

def CallSetup.shown (setup : CallSetup ν) : String :=
  "CallSetup \x7b name: " ++ Text.quoted setup.name ++ ", base: " ++ toString setup.base ++ " \x7d"

end Machine
end ScriptHost
