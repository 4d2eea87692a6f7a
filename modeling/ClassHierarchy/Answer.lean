import ClassHierarchy.Scope.Basic

namespace ClassHierarchy

/-- A class as a reader sees it. A handle that the scope does not have keeps its bare number. -/
inductive ClassRef where
  | named (name : FullName)
  | unknown (index : Nat)
  deriving DecidableEq

structure MethodView where
  owner : ClassRef
  name : String
  params : List ClassRef
  returns : ClassRef
  flags : AccessFlags
  deriving DecidableEq

structure DeclarationView where
  superClass : Option ClassRef
  interfaces : List ClassRef
  flags : AccessFlags
  framework : Bool
  derived : List ClassRef
  deriving DecidableEq

structure Summary where
  missing : Bool
  framework : Bool
  final : Bool
  interface : Bool
  abstract : Bool
  primitive : Bool
  array : Bool
  inner : Bool
  almostFinal : Bool
  superClass : Option ClassRef
  interfaces : List ClassRef
  derived : List ClassRef
  short : String
  deriving DecidableEq

structure HierarchyRow where
  name : FullName
  missing : Bool
  superClass : Option ClassRef
  derived : List ClassRef
  deriving DecidableEq

structure MethodFacts where
  method : MethodView
  static : Bool
  constructor : Bool
  staticInitializer : Bool
  ownName : String
  ownParams : Nat
  ownReturns : Option ClassRef
  ownAccepts : Bool
  signatures : List (Bool × Bool)
  deriving DecidableEq

inductive Misuse where
  | notArray (name : FullName)
  | notInner (name : FullName)
  | unknownId (id : ClassId)
  deriving DecidableEq

def Misuse.message : Misuse → String
  | .notArray name => s!"element class requested for non-array class {name}"
  | .notInner name => s!"outer class requested for non-inner class {name}"
  | .unknownId id => s!"{id.describe} does not belong to this scope"

inductive Answer where
  | nothing
  | flag (b : Bool)
  | count (n : Nat)
  | text (s : String)
  | cls (c : ClassRef)
  | classes (cs : List ClassRef)
  | method (m : MethodView)
  | methods (ms : List MethodView)
  | fields (fs : List (String × ClassRef))
  | handle (c : ClassId)
  | summary (s : Summary)
  | hierarchy (rows : List HierarchyRow)
  | declaration (d : DeclarationView)
  | rebased (d : DeclarationView) (unchanged : Bool)
  | methodFacts (m : MethodFacts)
  | attached
  | attachFailed (e : AttachError)
  | loadFailed (e : LoadError)
  | misuse (m : Misuse)
  deriving DecidableEq

structure Remark where
  loading : FullName
  answer : Answer
  size : Nat
  deriving DecidableEq

namespace Scope

def ref (s : Scope) (c : ClassId) : ClassRef :=
  match s.get? c with
  | some e => .named e.name
  | none => .unknown c.index

def viewMethod (s : Scope) (m : Method) : MethodView where
  owner := s.ref m.owner
  name := m.name
  params := m.params.map s.ref
  returns := s.ref m.returns
  flags := m.flags

def viewDeclaration (s : Scope) (d : Declaration) : DeclarationView where
  superClass := d.superClass.map s.ref
  interfaces := d.interfaces.map s.ref
  flags := d.flags
  framework := d.framework
  derived := []

end Scope

end ClassHierarchy
