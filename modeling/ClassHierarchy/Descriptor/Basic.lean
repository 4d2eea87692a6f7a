import ClassHierarchy.FullName

namespace ClassHierarchy

inductive FieldType where
  | base (b : BaseType)
  | object (internal : String)
  | array (component : FieldType)
  deriving DecidableEq

namespace FieldType

def component : FieldType → List Char
  | .base b => [b.code]
  | .object internal => 'L' :: (dotted internal.toList ++ [';'])
  | .array t => '[' :: t.component

def fullName : FieldType → FullName
  | .base b => b.keyword
  | .object internal => .ofInternal internal
  | .array t => String.ofList ('[' :: t.component)

def dimensions : FieldType → Nat
  | .array t => t.dimensions + 1
  | _ => 0

def innermost : FieldType → FieldType
  | .array t => t.innermost
  | t => t

end FieldType

inductive ReturnType where
  | void
  | value (t : FieldType)
  deriving DecidableEq

def ReturnType.fullName : ReturnType → FullName
  | .void => Primitive.void.keyword
  | .value t => t.fullName

structure MethodDescriptor where
  params : List FieldType
  returns : ReturnType
  deriving DecidableEq

structure InvalidDescriptor where
  text : String
  deriving DecidableEq

def InvalidDescriptor.message (e : InvalidDescriptor) : String :=
  "invalid descriptor: " ++ e.text

def FieldType.render : FieldType → List Char
  | .base b => [b.code]
  | .object internal => 'L' :: (internal.toList ++ [';'])
  | .array t => '[' :: t.render

def ReturnType.render : ReturnType → List Char
  | .void => ['V']
  | .value t => t.render

def MethodDescriptor.render (d : MethodDescriptor) : List Char :=
  '(' :: (d.params.flatMap FieldType.render ++ ')' :: d.returns.render)

def FieldType.Spellable : FieldType → Prop
  | .base _ => True
  | .object internal => internal.toList ≠ [] ∧ ';' ∉ internal.toList
  | .array t => t.Spellable

end ClassHierarchy
