import ScriptHost.Toml.Scalar

/-!
# Documents

A document is a tree of tables that is written piece by piece: a header opens a table, and the
assignments below it fill it in. What is written once may not be written again, so each table
remembers how it came to be, which decides who may add to it.
-/

namespace ScriptHost
namespace Toml

/-! ## The tree -/

/-- How a table came to be: by a header of its own, by the header of a table inside it, or by a
dotted key. -/
inductive Origin
  | header
  | implied
  | dotted
  deriving DecidableEq, Repr

/-- The elements of an array of tables stand in reverse order. -/
inductive Node
  | text (s : String)
  | integer (n : Int)
  | real
  | flag (b : Bool)
  | moment
  | list (items : List Node)
  | inline (entries : List (String × Node))
  | table (origin : Origin) (entries : List (String × Node))
  | tables (elements : List (List (String × Node)))

abbrev Entries :=
  List (String × Node)

namespace Entries

/-! ## Writing -/

def put (key : String) (node : Node) : Entries → Entries
  | [] => [(key, node)]
  | (k, n) :: rest => if k = key then (k, node) :: rest else (k, n) :: put key node rest

/-- Changes the table at a path, which is made on the way where it does not exist. The last
element of an array of tables stands for the array. With `dotted` the path belongs to an
assignment: it may neither enter a table with a header of its own nor end in a table that was not
made by dotted keys. -/
def change (dotted : Bool) (f : Entries → Option Entries) (path : List String)
    (entries : Entries) : Option Entries :=
  match path with
  | [] => f entries
  | key :: rest =>
      match entries.lookup key with
      | none => do
          let inner ← change dotted f rest []
          return entries.put key (.table (if dotted then .dotted else .implied) inner)
      | some (.table origin inner) => do
          let mayEnter := !dotted || origin ≠ .header
          let mayEnd := !dotted || rest ≠ [] || origin = .dotted
          if mayEnter && mayEnd then
            let inner ← change dotted f rest inner
            return entries.put key (.table origin inner)
          else
            none
      | some (.tables (last :: others)) => do
          if dotted && rest = [] then
            none
          else
            let last ← change dotted f rest last
            return entries.put key (.tables (last :: others))
      -- values are closed, tables between braces among them
      | some _ => none

def addNew (key : String) (node : Node) (entries : Entries) : Option Entries :=
  match entries.lookup key with
  | none => some (entries ++ [(key, node)])
  | some _ => none

/-- Assigns to a dotted key, given as its last part and what stands before. -/
def assign (path : List String) (key : String) (node : Node) (entries : Entries) :
    Option Entries :=
  entries.change true (addNew key node) path

/-! ## Headers -/

/-- A table that a longer header has implied may get its own header later. -/
def openTable (key : String) (entries : Entries) : Option Entries :=
  match entries.lookup key with
  | none => some (entries.put key (.table .header []))
  | some (.table .implied inner) => some (entries.put key (.table .header inner))
  | some _ => none

def openElement (key : String) (entries : Entries) : Option Entries :=
  match entries.lookup key with
  | none => some (entries.put key (.tables [[]]))
  | some (.tables elements) => some (entries.put key (.tables ([] :: elements)))
  | some _ => none

end Entries

/-! ## Building -/

/-- A key of one or more parts: the last one, and those before it. -/
structure Key where
  path : List String
  last : String
  deriving DecidableEq, Repr

def Key.ofParts? (parts : List String) : Option Key :=
  parts.getLast?.map fun last => ⟨parts.dropLast, last⟩

def Key.parts (k : Key) : List String :=
  k.path ++ [k.last]

inductive Line
  | blank
  | header (key : Key)
  | element (key : Key)
  | assignment (key : Key) (value : Node)

/-- What has been read so far, and the table that assignments go to. -/
structure Draft where
  root : Entries := []
  current : List String := []

namespace Draft

def add (d : Draft) : Line → Option Draft
  | .blank => some d
  | .header key => do
      let root ← d.root.change false (Entries.openTable key.last) key.path
      return ⟨root, key.parts⟩
  | .element key => do
      let root ← d.root.change false (Entries.openElement key.last) key.path
      return ⟨root, key.parts⟩
  | .assignment key value => do
      let root ← d.root.change false (Entries.assign key.path key.last value) d.current
      return { d with root := root }

end Draft

/-- The tables that the lines of a document write together. -/
def ofLines? (lines : List Line) : Option Entries :=
  (lines.foldlM Draft.add {}).map Draft.root

/-- The entries between the braces of a table that is written as a value. -/
def ofAssignments? (assignments : List (Key × Node)) : Option Entries :=
  assignments.foldlM (fun entries (key, value) => entries.assign key.path key.last value) []

end Toml
end ScriptHost
