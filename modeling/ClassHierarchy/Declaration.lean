import ClassHierarchy.Primitive
import ClassHierarchy.Stub

namespace ClassHierarchy

structure Method where
  owner : ClassId
  name : String
  params : List ClassId
  returns : ClassId
  flags : AccessFlags := 0
  deriving DecidableEq

structure Signature where
  name : String
  params : List ClassId := []
  returns : Option ClassId := none
  deriving DecidableEq

def constructorName : String := "<init>"

def staticInitializerName : String := "<clinit>"

namespace Signature

def defaultConstructor : Signature := { name := constructorName }

def staticInitializer : Signature := { name := staticInitializerName }

def accepts (s : Signature) (m : Method) : Bool :=
  s.name == m.name && s.params == m.params && s.returns.all (· == m.returns)

end Signature

namespace Method

def isStatic (m : Method) : Bool := m.flags.isStatic

def isConstructor (m : Method) : Bool := m.name == constructorName

def isStaticInitializer (m : Method) : Bool := m.name == staticInitializerName

def signature (m : Method) : Signature :=
  { name := m.name, params := m.params, returns := some m.returns }

def hides (m n : Method) : Bool := m.name == n.name && m.params == n.params

end Method

abbrev FieldTypes := List (String × ClassId)

namespace FieldTypes

def insert (name : String) (type : ClassId) : FieldTypes → FieldTypes
  | [] => [(name, type)]
  | (n, t) :: rest => if n = name then (name, type) :: rest else (n, t) :: insert name type rest

def find? (fs : FieldTypes) (name : String) : Option ClassId := fs.lookup name

end FieldTypes

structure Declaration where
  superClass : Option ClassId := none
  interfaces : List ClassId := []
  fields : FieldTypes := []
  staticFields : FieldTypes := []
  methods : List Method := []
  flags : AccessFlags := 0
  framework : Bool := false
  deriving DecidableEq

namespace Declaration

def missing : Declaration := {}

def withSuperClass (d : Declaration) (superClass : Option ClassId) : Declaration :=
  { d with superClass }

def mentions (d : Declaration) : List ClassId :=
  d.superClass.toList ++ d.interfaces ++ d.fields.map (·.2) ++ d.staticFields.map (·.2) ++
    d.methods.flatMap fun m => m.owner :: m.params ++ [m.returns]

def parents (d : Declaration) : List ClassId := d.superClass.toList ++ d.interfaces

def findMethod? (d : Declaration) (s : Signature) : Option Method := d.methods.find? s.accepts

def methodsNamed (d : Declaration) (name : String) : List Method :=
  d.methods.filter (·.name == name)

end Declaration

end ClassHierarchy
