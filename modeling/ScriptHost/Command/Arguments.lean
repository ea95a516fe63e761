import ScriptHost.Text.Split

/-!
# Arguments of the command line

Two commands, one that evaluates a code and one that runs a script file, each with options of its
own, and options that both take before or after the name of the command. The value of an option is
attached to it or is the next argument.
-/

namespace ScriptHost
namespace Command

/-! ## What may be asked for -/

inductive Task
  | run (file : String) (events calls : List String)
  | eval (code : String) (names : List String)
  deriving DecidableEq, Repr

structure Job where
  config : Option String
  task : Task
  deriving DecidableEq, Repr

inductive Demand
  | job (j : Job)
  | version
  | help
  | misuse
  deriving DecidableEq, Repr

/-! ## Options -/

/-- Options that take a value. -/
inductive Setting
  | config
  | logLevel
  | emit
  | call
  | print
  deriving DecidableEq, Repr

inductive Switch
  | setting (s : Setting)
  | help
  | version
  deriving DecidableEq, Repr

/-- Where options may stand: before the name of the command, or after it. -/
inductive Place
  | front
  | run
  | eval
  deriving DecidableEq, Repr

def Place.ofName? : String → Option Place
  | "run" => some .run
  | "eval" => some .eval
  | _ => none

/-- The options of a place, with their long names and their letters. -/
def switches (place : Place) : List (Switch × String × Option Char) :=
  [(.setting .config, "config", some 'c'), (.setting .logLevel, "log-level", none),
    (.help, "help", some 'h')] ++
  match place with
  | .front => [(.version, "version", some 'V')]
  | .run => [(.setting .emit, "emit", none), (.setting .call, "call", none)]
  | .eval => [(.setting .print, "print", some 'p')]

def ofName? (place : Place) (name : String) : Option Switch :=
  ((switches place).find? fun s => s.2.1 == name).map Prod.fst

def ofLetter? (place : Place) (letter : Char) : Option Switch :=
  ((switches place).find? fun s => s.2.2 == some letter).map Prod.fst

/-! ## Kinds of arguments -/

inductive Argument
  | plain (text : String)
  | separator
  | named (name : String) (value : Option String)
  | letters (cs : List Char)
  deriving DecidableEq, Repr

/-- Cuts a name from its value at the first sign of equality. -/
def splitValue (cs : List Char) : String × Option String :=
  match Text.splitAtFirst '=' cs with
  | some (name, value) => (String.ofList name, some (String.ofList value))
  | none => (String.ofList cs, none)

def Argument.ofText (text : String) : Argument :=
  match text.toList with
  | ['-', '-'] => .separator
  | '-' :: '-' :: cs =>
      let (name, value) := splitValue cs
      .named name value
  | '-' :: c :: cs => .letters (c :: cs)
  | _ => .plain text

/-! ## Reading -/

/-- What has been given so far in one place, in order. -/
structure Given where
  settings : List (Setting × String) := []
  operand : Option String := none

namespace Given

def values (g : Given) (s : Setting) : List String :=
  (g.settings.filter fun p => p.1 = s).map Prod.snd

def value? (g : Given) (s : Setting) : Option String :=
  (g.values s).head?

/-- An option for one value is given once at most, and the name of a file is not empty. -/
def accepts (g : Given) (s : Setting) (value : String) : Bool :=
  match s with
  | .config => (g.values .config).isEmpty && value ≠ ""
  | .logLevel => (g.values .logLevel).isEmpty
  | .emit | .call | .print => true

def addSetting (g : Given) (s : Setting) (value : String) : Except Demand Given :=
  if g.accepts s value then
    .ok { g with settings := g.settings ++ [(s, value)] }
  else
    .error .misuse

/-- Both commands take one operand: the name of a file, or a code. -/
def addOperand (g : Given) (place : Place) (text : String) : Except Demand Given :=
  match place, g.operand with
  | .run, none => if text = "" then .error .misuse else .ok { g with operand := some text }
  | .eval, none => .ok { g with operand := some text }
  | _, _ => .error .misuse

end Given

/-- What an option asks for: the new state, or a setting that still waits for its value. -/
inductive Effect
  | done (g : Given)
  | waiting (s : Setting)

def applySwitch (g : Given) (switch : Option Switch) (attached : Option String) :
    Except Demand Effect :=
  match switch, attached with
  | some (.setting s), some value => (g.addSetting s value).map .done
  | some (.setting s), none => .ok (.waiting s)
  -- Help and version end the reading of arguments, whatever stands behind them.
  | some .help, none => .error .help
  | some .version, none => .error .version
  | _, _ => .error .misuse

/-- Letters behind one dash. Each but the last stands for an option without a value; what follows
the letter of another is its value. -/
def applyLetters (place : Place) (g : Given) : List Char → Except Demand Effect
  | [] => .ok (.done g)
  | c :: rest =>
      match ofLetter? place c with
      | some (.setting s) =>
          -- A sign of equality before the value is not part of it.
          let value := match rest with
            | '=' :: value => value
            | value => value
          applySwitch g (some (.setting s))
            (if rest.isEmpty then none else some (String.ofList value))
      | switch => applySwitch g switch none

/-- How the arguments of a place end: at the last one, or at the name of a command. -/
inductive Ending
  | complete
  | command (name : String) (rest : List String)

def addOperands (place : Place) (g : Given) : List String → Except Demand Given
  | [] => .ok g
  | text :: rest => do
      let g ← g.addOperand place text
      addOperands place g rest

/-- Reads the arguments of a place. `waiting` is the option whose value comes next. -/
def scan (place : Place) (g : Given) (waiting : Option Setting) :
    List String → Except Demand (Given × Ending)
  | [] => if waiting.isSome then .error .misuse else .ok (g, .complete)
  | text :: rest =>
      match waiting, Argument.ofText text with
      | some s, .plain value => do
          let g ← g.addSetting s value
          scan place g none rest
      -- A value that begins with a dash has to be attached to its option.
      | some _, _ => .error .misuse
      | none, .separator => do
          let g ← addOperands place g rest
          return (g, .complete)
      | none, .named name value => do
          match ← applySwitch g (ofName? place name) value with
          | .done g => scan place g none rest
          | .waiting s => scan place g (some s) rest
      | none, .letters cs => do
          match ← applyLetters place g cs with
          | .done g => scan place g none rest
          | .waiting s => scan place g (some s) rest
      | none, .plain text =>
          if place = .front then
            .ok (g, .command text rest)
          else do
            let g ← g.addOperand place text
            scan place g none rest

/-! ## Commands -/

/-- The configuration file that is named behind the command counts before the one in front. -/
def configFile (front behind : Given) : Option String :=
  (behind.value? .config).or (front.value? .config)

def task? (place : Place) (g : Given) : Option Task :=
  match place, g.operand with
  | .run, some file => some (.run file (g.values .emit) (g.values .call))
  | .eval, some code => some (.eval code (g.values .print))
  | _, _ => none

def readCommand (front : Given) (place : Place) (args : List String) : Except Demand Demand := do
  let (behind, _) ← scan place {} none args
  match task? place behind with
  | some task => return .job ⟨configFile front behind, task⟩
  | none => return .misuse

/-- Help on a command, or on everything. -/
def readHelp : List String → Demand
  | [] => .help
  | [name] => if (Place.ofName? name).isSome || name == "help" then .help else .misuse
  | _ => .misuse

def readFront (args : List String) : Except Demand Demand := do
  match ← scan .front {} none args with
  | (_, .complete) => return .misuse
  | (front, .command name rest) =>
      match Place.ofName? name with
      | some place => readCommand front place rest
      | none => return if name = "help" then readHelp rest else .misuse

def read (args : List String) : Demand :=
  match readFront args with
  | .ok demand => demand
  | .error demand => demand

end Command
end ScriptHost
