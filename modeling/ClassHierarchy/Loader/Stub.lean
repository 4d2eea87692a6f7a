import ClassHierarchy.Config.Basic
import ClassHierarchy.Query
import ClassHierarchy.Session
import ClassHierarchy.Stub

namespace ClassHierarchy

structure StubSources where
  program : StubProvider
  platform : StubProvider
  options : HierarchyOptions := {}

namespace StubSources

def stub? (src : StubSources) (name : FullName) : Option (ClassStub × Bool) :=
  match src.program name with
  | some s => some (s, false)
  | none =>
    if src.options.platformFallback then (src.platform name).map (·, true) else none

def registerAll : List FullName → Script (List ClassId)
  | [] => return []
  | n :: ns => return (← Script.register n) :: (← registerAll ns)

def arrayDeclaration (name : FullName) (synthesize : Bool) :
    Script (Except LoadError Declaration) := do
  if synthesize then
    let object ← Script.register "java.lang.Object"
    let cloneable ← Script.register "java.lang.Cloneable"
    let serializable ← Script.register "java.io.Serializable"
    return .ok {
      superClass := some object
      interfaces := [cloneable, serializable]
      flags := .publicBit ||| .finalBit ||| .abstractBit
      framework := true }
  else return .error (.unavailable name "array classes have no stub definition")

def addFields (name : FullName) (d : Declaration) :
    List FieldStub → Script (Except LoadError Declaration)
  | [] => return .ok d
  | f :: fs =>
    match f.type with
    | .error e => return .error (.initializationFailed name s!"field {f.name}: {e.message}")
    | .ok t => do
      let c ← Script.register t.fullName
      let d := if f.isStatic then { d with staticFields := d.staticFields.insert f.name c }
        else { d with fields := d.fields.insert f.name c }
      addFields name d fs

def addMethods (owner : ClassId) (name : FullName) (d : Declaration) :
    List MethodStub → Script (Except LoadError Declaration)
  | [] => return .ok d
  | m :: ms =>
    match m.type with
    | .error e => return .error (.initializationFailed name s!"method {m.name}: {e.message}")
    | .ok t => do
      let params ← registerAll (t.params.map FieldType.fullName)
      let returns ← Script.register t.returns.fullName
      let method : Method := { owner, name := m.name, params, returns, flags := m.flags }
      addMethods owner name { d with methods := d.methods ++ [method] } ms

def stubDeclaration (c : ClassId) (name : FullName) (s : ClassStub) (framework : Bool) :
    Script (Except LoadError Declaration) := do
  let superName := if s.isInterface then [] else s.superName.toList
  let superClass ← registerAll superName
  let interfaces ← registerAll s.interfaces
  let d : Declaration :=
    { superClass := superClass.head?, interfaces, flags := s.flags, framework }
  match ← addFields name d s.fields with
  | .error e => return .error e
  | .ok d => addMethods c name d s.methods

def loader (src : StubSources) : Loader := fun c name => do
  if name.isArray then arrayDeclaration name src.options.synthesizeArrays
  else
    match src.stub? name with
    | none => return .error (.notFound name)
    | some (s, framework) =>
      Script.emit (if framework then .platformClassLoading name else .programClassLoading name)
      stubDeclaration c name s framework

end StubSources

end ClassHierarchy
