import Undecorate.Fault.Number
import Undecorate.Object.Value

/-! # Scripted functions

Decorators can be tried out without a host language: a script is a function given as data, and a
literal is a value given as data, which may contain scripts. Literals are evaluated where they are
used, so every evaluation gives new objects and functions.
-/

namespace Undecorate

mutual

/-- A value given as data. -/
inductive Literal where
  | absent
  | bool (b : Bool)
  | int (n : Int)
  | float (x : Double)
  | text (t : Text)
  | source (text : String)
  /-- A text for a value that cannot be read: the evaluation fails. -/
  | unreadable (f : Fault)
  | list (items : List Literal)
  | record (fields : List (String × Literal))
  /-- The value bound to a name. -/
  | ref (name : String)
  /-- A new function. -/
  | function (script : Script)
  /-- A new function object, below the value bound to `parent`; without a script it does nothing. -/
  | cls (name : String) (parent : Option String) (script : Option Script)
  /-- A new object that inherits from the value bound to `proto`, with properties by mappings. -/
  | object (label : Option String) (proto : Option String)
      (properties : List (Literal × List (String × Literal)))
  /-- A new descriptor, by a mapping. -/
  | descriptor (fields : List (String × Literal))

/-- What a scripted function does when it is called. -/
inductive Deed where
  /-- Returns nothing. -/
  | keep
  /-- Returns the value of a literal. -/
  | give (value : Literal)
  /-- Returns the last argument. -/
  | last
  /-- Returns the function's name and the arguments. -/
  | arguments
  /-- Assigns fields of the last argument and returns it, or nothing. -/
  | assign (fields : List (String × Literal)) (returns : Bool)
  /-- Returns the mapping of the last argument with fields set and others dropped. -/
  | adjust (fields : List (String × Literal)) (drop : List String)
  /-- Returns a new function object below the last argument. -/
  | wrap (lead : String)
  /-- Defines a property of the first argument. -/
  | define (key : Literal) (fields : List (String × Literal))
  /-- Returns a new function. -/
  | factory (script : Script)
  /-- Fails. -/
  | fail (kind text : String)

/-- A function given as data: its name and what it does. -/
inductive Script where
  | mk (name : String) (deed : Deed)

end

instance : Inhabited Literal := ⟨.absent⟩

instance : Inhabited Script := ⟨.mk "fn" .keep⟩

namespace Literal

/-- A value that was read, or one that cannot be. -/
def ofReading {α : Type} (literal : α → Literal) : Except Fault α → Literal
  | .ok a => literal a
  | .error f => .unreadable f

/-- A floating number given by its text. -/
def ofDoubleText (s : String) : Literal := ofReading .float (Number.readDouble s.toList)

/-- A whole number given by its text. -/
def ofWholeText (s : String) : Literal := ofReading .int (Number.readWhole s.toList)

end Literal

/-- The name of a scripted function. -/
def Script.name : Script → String
  | .mk name _ => name

/-- What a scripted function does. -/
def Script.deed : Script → Deed
  | .mk _ deed => deed

end Undecorate
