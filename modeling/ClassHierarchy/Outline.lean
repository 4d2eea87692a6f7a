import ClassHierarchy.Query

namespace ClassHierarchy

inductive TypeRef where
  | named (name : FullName)
  | foreign (c : ClassId)

def TypeRef.read : TypeRef → Script ClassId
  | .named name => Script.register name
  | .foreign c => return c

def TypeRef.readAll : List TypeRef → Script (List ClassId)
  | [] => return []
  | t :: ts => return (← t.read) :: (← readAll ts)

def TypeRef.read? : Option TypeRef → Script (Option ClassId)
  | none => return none
  | some t => return some (← t.read)

structure SignatureOutline where
  name : String
  params : List TypeRef := []
  returns : Option TypeRef := none

def SignatureOutline.read (s : SignatureOutline) : Script Signature :=
  return { name := s.name, params := ← TypeRef.readAll s.params, returns := ← TypeRef.read? s.returns }

def SignatureOutline.readAll : List SignatureOutline → Script (List Signature)
  | [] => return []
  | s :: ss => return (← s.read) :: (← readAll ss)

structure MethodOutline where
  name : String
  params : List TypeRef := []
  returns : TypeRef := .named Primitive.void.keyword
  owner : Option TypeRef := none
  flags : AccessFlags := 0

def MethodOutline.read (c : ClassId) (m : MethodOutline) : Script Method := do
  let params ← TypeRef.readAll m.params
  let returns ← m.returns.read
  let owner ← TypeRef.read? m.owner
  return { owner := owner.getD c, name := m.name, params, returns, flags := m.flags }

def MethodOutline.readAll (c : ClassId) : List MethodOutline → Script (List Method)
  | [] => return []
  | m :: ms => return (← m.read c) :: (← readAll c ms)

structure Outline where
  flags : AccessFlags := 0
  framework : Bool := false
  superClass : Option TypeRef := none
  interfaces : List TypeRef := []
  fields : List (String × TypeRef) := []
  staticFields : List (String × TypeRef) := []
  methods : List MethodOutline := []

namespace Outline

def readFields : FieldTypes → List (String × TypeRef) → Script FieldTypes
  | fs, [] => return fs
  | fs, (name, t) :: rest => do readFields (fs.insert name (← t.read)) rest

def read (c : ClassId) (o : Outline) : Script Declaration := do
  let superClass ← TypeRef.read? o.superClass
  let interfaces ← TypeRef.readAll o.interfaces
  let fields ← readFields [] o.fields
  let staticFields ← readFields [] o.staticFields
  let methods ← MethodOutline.readAll c o.methods
  return { superClass, interfaces, fields, staticFields, methods
           flags := o.flags, framework := o.framework }

end Outline

end ClassHierarchy
