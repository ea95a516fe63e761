import ScriptHost.Machine.Run

/-!
# Reporting functions

Four native functions through which a script reports to whoever embeds it: it can have a list of
values recorded, raise an error, and get its arguments back or counted.
-/

namespace ScriptHost
namespace Host

open Script Machine

/-- What a script can report to whoever embeds it. -/
inductive Recorder
  | record
  | fail
  | first
  | count
  deriving DecidableEq, Repr

/-- The recorded argument lists, oldest first. -/
abbrev CallLog := Array (List Value)

namespace Recorder

def all : List Recorder :=
  [.record, .fail, .first, .count]

def name : Recorder → String
  | .record => "record"
  | .fail => "fail"
  | .first => "first"
  | .count => "count"

def ofName? (s : String) : Option Recorder :=
  all.find? fun r => r.name == s

/-- The text of the error that `fail` raises. -/
def complaint (args : List Value) : String :=
  match args with
  | v :: _ => v.shown
  | [] => "boom"

def run (r : Recorder) (args : List Value) : Attempt ScriptError CallLog Value := fun log =>
  match r with
  | .record => (.ok .null, log.push args)
  | .fail => (.error (.runtime (.raised (complaint args))), log)
  | .first => (.ok (args.headD .null), log)
  | .count => (.ok (.number (Float.ofNat args.length)), log)

end Recorder

/-- The machine with the four functions under their own names. -/
def withRecorders {ν : Type} (embed : Recorder → ν) (vm : Vm ν) : Vm ν :=
  Recorder.all.foldl (fun vm r => vm.registerNative r.name (embed r)) vm

end Host
end ScriptHost
