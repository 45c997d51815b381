/-!
# Items of a document

What a TOML document says, with the parts of the text where it is said. A part of the text is given
by what follows its two ends.
-/

namespace DeployGate.Toml

/-- A part of a text: what follows its start, and what follows its end. -/
structure Span where
  start : List Char
  stop : List Char
  deriving DecidableEq, Repr

def Span.upTo (first last : Span) : Span := ⟨first.start, last.stop⟩

structure Key where
  name : String
  span : Span
  deriving DecidableEq, Repr

/-- A value without parts. Floats and dates are kept as they are written. -/
inductive Scalar
  | string (text : String)
  | integer (value : Int)
  | float (text : String)
  | boolean (value : Bool)
  | datetime (text : String)
  deriving DecidableEq, Repr

def Scalar.typeName : Scalar → String
  | string _ => "string"
  | integer _ => "integer"
  | float _ => "float"
  | boolean _ => "boolean"
  | datetime _ => "datetime"

/-- How a table came to be, which decides who may still add to it. -/
inductive Origin
  -- By a header of its own, or between braces.
  | written
  -- By a header of a table inside it.
  | passed
  -- By a dotted key.
  | dotted
  deriving DecidableEq, Repr

inductive Item
  | scalar (span : Span) (value : Scalar)
  | array (span : Span) (elements : List Item)
  -- A table inside a value.
  | inline (span : Option Span) (origin : Origin) (entries : List (Key × Item))
  -- A table made by headers and dotted keys.
  | table (span : Option Span) (origin : Origin) (entries : List (Key × Item))
  -- The tables of which each has a header of the same name in double brackets.
  | tables (items : List (Span × List (Key × Item)))
  deriving Repr

/-- The keys of a table with their items, in the order in which they came to be. -/
abbrev Entries := List (Key × Item)

def Item.span? : Item → Option Span
  | scalar span _ => some span
  | array span _ => some span
  | inline span _ _ => span
  | table span _ _ => span
  | tables items =>
    match items.head?, items.getLast? with
    | some first, some last => some (first.1.upTo last.1)
    | _, _ => none

end DeployGate.Toml
