import ClassHierarchy.Decimal.Binary64

namespace ClassHierarchy

inductive Toml where
  | string (s : String)
  | integer (n : Int)
  | float (x : Binary64)
  | boolean (b : Bool)
  | dateTime (text : String)
  | array (items : List Toml)
  | table (entries : List (String × Toml))

namespace Toml

abbrev Entries := List (String × Toml)

def string? : Toml → Option String
  | string s => some s
  | _ => none

def boolean? : Toml → Option Bool
  | boolean b => some b
  | _ => none

def isBare (c : Char) : Bool := c.isAlphanum || c = '-' || c = '_'

def Entries.field {α : Type} (entries : Entries) (key : String) (read : Toml → Option α) (default : α) : Option α :=
  match entries.lookup key with
  | none => some default
  | some v => read v

end Toml

abbrev Document := Toml.Entries

end ClassHierarchy
