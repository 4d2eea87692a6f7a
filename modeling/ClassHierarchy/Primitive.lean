namespace ClassHierarchy

inductive BaseType where
  | boolean | byte | char | short | int | long | float | double
  deriving DecidableEq

namespace BaseType

def all : List BaseType := [.boolean, .byte, .char, .short, .int, .long, .float, .double]

def code : BaseType → Char
  | .boolean => 'Z'
  | .byte => 'B'
  | .char => 'C'
  | .short => 'S'
  | .int => 'I'
  | .long => 'J'
  | .float => 'F'
  | .double => 'D'

def ofCode? (c : Char) : Option BaseType := all.find? (·.code == c)

def keyword : BaseType → String
  | .boolean => "boolean"
  | .byte => "byte"
  | .char => "char"
  | .short => "short"
  | .int => "int"
  | .long => "long"
  | .float => "float"
  | .double => "double"

def position : BaseType → Nat
  | .boolean => 0
  | .byte => 1
  | .char => 2
  | .short => 3
  | .int => 4
  | .long => 5
  | .float => 6
  | .double => 7

theorem ofCode?_code (b : BaseType) : ofCode? b.code = some b := by cases b <;> rfl

theorem code_of_ofCode? {c : Char} {b : BaseType} (h : ofCode? c = some b) : b.code = c := by
  simpa using List.find?_some h

theorem all_getElem?_position (b : BaseType) : all[b.position]? = some b := by cases b <;> rfl

end BaseType

inductive Primitive where
  | void
  | base (b : BaseType)
  deriving DecidableEq

namespace Primitive

def all : List Primitive := .void :: BaseType.all.map .base

def keyword : Primitive → String
  | .void => "void"
  | .base b => b.keyword

def ofCode? (c : Char) : Option Primitive :=
  if c = 'V' then some .void else (BaseType.ofCode? c).map .base

def position : Primitive → Nat
  | .void => 0
  | .base b => b.position + 1

theorem all_getElem?_position (p : Primitive) : all[p.position]? = some p := by
  cases p with
  | void => rfl
  | base b => simp [all, position, BaseType.all_getElem?_position]

end Primitive

/-- The place of a class in registration order. It means nothing outside the scope that gave it out. -/
@[ext]
structure ClassId where
  index : Nat
  deriving DecidableEq

namespace ClassId

instance : LT ClassId := ⟨fun a b => a.index < b.index⟩

instance : DecidableLT ClassId := fun a b => inferInstanceAs (Decidable (a.index < b.index))

def ofPrimitive (p : Primitive) : ClassId := ⟨p.position⟩

def isPrimitive (c : ClassId) : Bool := c.index < Primitive.all.length

def describe (c : ClassId) : String := s!"ClassId({c.index})"

end ClassId

end ClassHierarchy
