import ClassHierarchy.Script

namespace ClassHierarchy

namespace Script

def register (name : FullName) : Script ClassId := request (.register name)

def inspect : Script Scope := request .inspect

def resolve (c : ClassId) : Script Unit := request (.resolve c)

def superChain (c : ClassId) : Script (List ClassId) := request (.superChain c)

def interfaceClosure (roots : List ClassId) : Script (List ClassId) :=
  request (.interfaceClosure roots)

def emit (e : Event) : Script Unit := request (.emit e)

end Script

namespace Query

open Script

def name (c : ClassId) : Script FullName := return (← inspect).name c

def declaration (c : ClassId) : Script Declaration := do
  resolve c
  return (← inspect).declaration c

def isMissing (c : ClassId) : Script Bool := do
  resolve c
  return (← inspect).isMissing c

def ofDeclared {α : Type} (c : ClassId) (read : Declaration → α) : Script (Option α) := do
  if ← isMissing c then return none
  return some (read (← declaration c))

def firstDeclared {α : Type} (read : Declaration → Option α) : List ClassId → Script (Option α)
  | [] => return none
  | c :: cs => do
    match read (← declaration c) with
    | some a => return some a
    | none => firstDeclared read cs

def supertypes (c : ClassId) : Script (List ClassId) := do
  let chain ← superChain c
  return chain ++ (← interfaceClosure chain)

def isFramework (c : ClassId) : Script Bool := return (← declaration c).framework

def hasFlag (bit : AccessFlags) (c : ClassId) : Script Bool :=
  return (← ofDeclared c (·.flags.has bit)).getD false

def isFinal : ClassId → Script Bool := hasFlag .finalBit

def isInterface : ClassId → Script Bool := hasFlag .interfaceBit

def isAbstract : ClassId → Script Bool := hasFlag .abstractBit

def superClass (c : ClassId) : Script (Option ClassId) := return (← declaration c).superClass

def interfaces (c : ClassId) : Script (List ClassId) := return (← declaration c).interfaces

def derivedClasses (c : ClassId) : Script (List ClassId) := do
  resolve c
  return (← inspect).derived c

def isAlmostFinal (c : ClassId) : Script Bool := return (← derivedClasses c).isEmpty

def isArray (c : ClassId) : Script Bool := return (← name c).isArray

def isInner (c : ClassId) : Script Bool := return (← name c).outer?.isSome

def fieldType (c : ClassId) (field : String) : Script (Option ClassId) := do
  if ← isMissing c then return none
  firstDeclared (·.fields.find? field) (← superChain c)

def staticFieldType (c : ClassId) (field : String) : Script (Option ClassId) := do
  if ← isMissing c then return none
  firstDeclared (·.staticFields.find? field) (← supertypes c)

def fields (c : ClassId) : Script (Option FieldTypes) := ofDeclared c (·.fields)

def staticFields (c : ClassId) : Script (Option FieldTypes) := ofDeclared c (·.staticFields)

def findMethodHere (c : ClassId) (s : Signature) : Script (Option Method) :=
  return (← ofDeclared c (·.findMethod? s)).join

def findMethodsHere (c : ClassId) (method : String) : Script (Option (List Method)) :=
  ofDeclared c (·.methodsNamed method)

def findMethod (c : ClassId) (s : Signature) : Script (Option Method) := do
  if ← isMissing c then return none
  firstDeclared (·.findMethod? s) (← supertypes c)

def addVisible (out : List Method) (ms : List Method) : List Method :=
  ms.foldl (fun out m => if out.any (·.hides m) then out else out ++ [m]) out

def visibleMethods (select : ClassId → Declaration → List Method) :
    List Method → List ClassId → Script (List Method)
  | out, [] => return out
  | out, c :: cs => do
    visibleMethods select (addVisible out (select c (← declaration c))) cs

def findMethods (c : ClassId) (method : String) : Script (Option (List Method)) := do
  if ← isMissing c then return none
  return some (← visibleMethods (fun _ d => d.methodsNamed method) [] (← supertypes c))

def inheritable (c origin : ClassId) (d : Declaration) : List Method :=
  d.methods.filter fun m => origin == c || !(m.isConstructor || m.isStaticInitializer)

def allMethods (c : ClassId) : Script (Option (List Method)) := do
  if ← isMissing c then return none
  return some (← visibleMethods (inheritable c) [] (← superChain c))

def defaultConstructor (c : ClassId) : Script (Option Method) :=
  findMethodHere c .defaultConstructor

def staticInitializer (c : ClassId) : Script (Option Method) := findMethod c .staticInitializer

/-- Whether a value of type `c` can stand where `target` is expected. Among primitives anything
goes, and everything goes for `void`. -/
def isConvertibleTo (c target : ClassId) : Script Bool :=
  if target.isPrimitive then return target == .ofPrimitive .void || c.isPrimitive
  else if c = target then return true
  else request (.climbs c target)

def elementClass (c : ClassId) : Script (Except Misuse (Option ClassId)) := do
  let full ← name c
  if full.isArray then
    match full.element? with
    | some (.primitive p) => return .ok (some (.ofPrimitive p))
    | some (.named inner) => return .ok (some (← register inner))
    | none =>
      emit (.malformedArrayQueried full)
      return .ok none
  else return .error (.notArray full)

def outerClass (c : ClassId) : Script (Except Misuse ClassId) := do
  let full ← name c
  match full.outer? with
  | some outer => return .ok (← register outer)
  | none => return .error (.notInner full)

end Query

end ClassHierarchy
