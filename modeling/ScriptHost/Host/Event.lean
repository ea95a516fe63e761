import ScriptHost.Number.Numeral
import ScriptHost.Text.Flag
import ScriptHost.Text.Split

/-!
# Lifecycle events

What the window system reports about a window, how such an event is written, and to which handler
slots it goes. An event is written as its kind, followed by a colon and an argument if it has one.
-/

namespace ScriptHost
namespace Host

/-- What happens to a window while it is shown. -/
inductive Event
  | loadStarted
  | loadFinished
  | domReady
  | titleChanged (title : String)
  | uriChanged (uri : String)
  | closeRequested
  | focusChanged (focused : Bool)
  | resized (width height : UInt32)
  deriving DecidableEq, Repr

/-! ## Handler slots -/

/-- Where a script function can be put to be called with events of a kind. -/
inductive HandlerSlot
  | close
  | resize
  | focus
  | domReady
  | load
  | navigate
  | title
  deriving DecidableEq, Repr

namespace HandlerSlot

def all : List HandlerSlot :=
  [.close, .resize, .focus, .domReady, .load, .navigate, .title]

def ident : HandlerSlot → String
  | .close => "close"
  | .resize => "resize"
  | .focus => "focus"
  | .domReady => "dom_ready"
  | .load => "load"
  | .navigate => "navigate"
  | .title => "title"

def ofIdent? (s : String) : Option HandlerSlot :=
  all.find? fun slot => slot.ident == s

end HandlerSlot

/-! ## The written form -/

namespace Event

def sizeText (width height : UInt32) : String :=
  toString width.toNat ++ "x" ++ toString height.toNat

/-- Every event has one text, and every kind begins in its own way. -/
def text : Event → String
  | .loadStarted => "load-started"
  | .loadFinished => "load-finished"
  | .domReady => "dom-ready"
  | .titleChanged title => "title:" ++ title
  | .uriChanged uri => "navigate:" ++ uri
  | .closeRequested => "close"
  | .focusChanged focused => "focus:" ++ Text.flag focused
  | .resized width height => "resize:" ++ sizeText width height

/-! ## Reading -/

/-- A decimal numeral of at least one digit, with an optional plus sign. -/
def natural? (cs : List Char) : Option Nat :=
  -- no minus sign, not even before a zero
  let digits := match cs with
    | '+' :: rest => rest
    | cs => cs
  if digits ≠ [] ∧ digits.all Number.isDigit then
    some (Number.numeralValue 10 digits)
  else
    none

/-- A size is a natural of 32 bits. -/
def pixels? (cs : List Char) : Option UInt32 := do
  let n ← natural? cs
  if n < UInt32.size then some (UInt32.ofNat n) else none

def flag? (s : String) : Option Bool :=
  if s = "true" then some true else if s = "false" then some false else none

def resized? (cs : List Char) : Option Event := do
  let (width, height) ← Text.splitAtFirst 'x' cs
  return .resized (← pixels? width) (← pixels? height)

def plain? (kind : String) : Option Event :=
  [loadStarted, loadFinished, domReady, closeRequested].find? fun e => e.text == kind

/-- What follows the first colon belongs to the argument. -/
def withArgument? (kind : String) (argument : List Char) : Option Event :=
  match kind with
  | "title" => some (.titleChanged (String.ofList argument))
  | "navigate" => some (.uriChanged (String.ofList argument))
  | "focus" => (flag? (String.ofList argument)).map .focusChanged
  | "resize" => resized? argument
  | _ => none

/-- The event that a text denotes, if any. -/
def ofText? (s : String) : Option Event :=
  match Text.splitAtFirst ':' s.toList with
  | some (kind, argument) => withArgument? (String.ofList kind) argument
  | none => plain? s

/-- The complaint about a text that is no event. -/
def complaint (s : String) : String :=
  "unrecognized event '" ++ s ++ "'"

/-! ## Routing -/

/-- The slots that an event goes to, in order, each with its payload. A finished load also counts
as the document becoming ready. -/
def routes : Event → List (HandlerSlot × Option String)
  | .loadStarted => [(.load, some "started")]
  | .loadFinished => [(.load, some "finished"), (.domReady, none)]
  | .domReady => [(.domReady, none)]
  | .titleChanged title => [(.title, some title)]
  | .uriChanged uri => [(.navigate, some uri)]
  | .closeRequested => [(.close, none)]
  | .focusChanged focused => [(.focus, some (Text.flag focused))]
  | .resized width height => [(.resize, some (sizeText width height))]

end Event

/-! ## Handlers -/

/-- The names of the script functions that handle events, by slot. -/
structure Handlers where
  close : Option String := none
  resize : Option String := none
  focus : Option String := none
  domReady : Option String := none
  load : Option String := none
  navigate : Option String := none
  title : Option String := none
  deriving DecidableEq, Repr

namespace Handlers

def get (h : Handlers) : HandlerSlot → Option String
  | .close => h.close
  | .resize => h.resize
  | .focus => h.focus
  | .domReady => h.domReady
  | .load => h.load
  | .navigate => h.navigate
  | .title => h.title

/-- The handler that a name stands for: an empty name stands for none. -/
def named (function : String) : Option String :=
  if function = "" then none else some function

def set (h : Handlers) (slot : HandlerSlot) (function : String) : Handlers :=
  match slot with
  | .close => { h with close := named function }
  | .resize => { h with resize := named function }
  | .focus => { h with focus := named function }
  | .domReady => { h with domReady := named function }
  | .load => { h with load := named function }
  | .navigate => { h with navigate := named function }
  | .title => { h with title := named function }

/-- A handler that is set is the only one that changes. -/
theorem get_set (h : Handlers) (slot other : HandlerSlot) (function : String) :
    (h.set slot function).get other = if slot = other then named function else h.get other := by
  cases slot <;> cases other <;> rfl

end Handlers

end Host
end ScriptHost
