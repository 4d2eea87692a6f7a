import ClassHierarchy.Outline
import ClassHierarchy.Session
import ClassHierarchy.Text.Classes

namespace ClassHierarchy

inductive ClassStep where
  | id
  | display
  | describe
  | shortName
  | sameAs (other : TypeRef)
  | isMissing
  | isFramework
  | isArray
  | isInner
  | isPrimitive
  | isFinal
  | isInterface
  | isAbstract
  | isAlmostFinal
  | elementClass
  | outerClass
  | superClass
  | interfaces
  | derivedClasses
  | summary
  | rebind (superClass : TypeRef)
  | isConvertibleTo (target : TypeRef)
  | fieldType (field : String)
  | staticFieldType (field : String)
  | fields
  | staticFields
  | allMethods
  | findMethodHere (s : SignatureOutline)
  | findMethod (s : SignatureOutline)
  | findMethodsHere (method : String)
  | findMethods (method : String)
  | defaultConstructor
  | staticInitializer
  | attach (o : Outline)
  | attachMissing (superClass : Option FullName)
  | outline (o : Outline)
  | outlineRebased (o : Outline) (superClass : Option FullName)
  | loadDirectly
  | methodFacts (m : MethodOutline) (signatures : List SignatureOutline)

inductive Step where
  | findClass (name : FullName)
  | register (name : FullName)
  | registerAll (names : List FullName)
  | allClasses
  | dump
  | size
  | isEmpty
  | primitives
  | primitive (code : Option Char)
  | classById (id : TypeRef)
  | countDistinct (names : List FullName)
  | describeScope
  | missingDeclaration
  | hierarchy
  | onClass (c : TypeRef) (step : ClassStep)

namespace Answer

def ofClass (c : ClassId) : Script Answer := return .cls ((← Script.inspect).ref c)

def ofClass? : Option ClassId → Script Answer
  | none => return .nothing
  | some c => ofClass c

def ofClasses (cs : List ClassId) : Script Answer :=
  return .classes (cs.map (← Script.inspect).ref)

def ofMethod? : Option Method → Script Answer
  | none => return .nothing
  | some m => return .method ((← Script.inspect).viewMethod m)

def ofMethods? : Option (List Method) → Script Answer
  | none => return .nothing
  | some ms => return .methods (ms.map (← Script.inspect).viewMethod)

def ofFields? : Option FieldTypes → Script Answer
  | none => return .nothing
  | some fs => do
    let s ← Script.inspect
    return .fields (fs.map fun (name, c) => (name, s.ref c))

def ofDeclaration (d : Declaration) : Script Answer :=
  return .declaration ((← Script.inspect).viewDeclaration d)

def ofAttach : Except AttachError Unit → Answer
  | .ok () => .attached
  | .error e => .attachFailed e

end Answer

namespace Query

def summary (c : ClassId) : Script Summary := do
  let missing ← isMissing c
  let framework ← isFramework c
  let final ← isFinal c
  let interface ← isInterface c
  let abstract ← isAbstract c
  let array ← isArray c
  let inner ← isInner c
  let almostFinal ← isAlmostFinal c
  let superClass ← superClass c
  let interfaces ← interfaces c
  let derived ← derivedClasses c
  let s ← Script.inspect
  return {
    missing, framework, final, interface, abstract, primitive := c.isPrimitive, array, inner
    almostFinal, superClass := superClass.map s.ref, interfaces := interfaces.map s.ref
    derived := derived.map s.ref, short := (s.name c).short }

def hierarchyRows : List ClassId → Script (List HierarchyRow)
  | [] => return []
  | c :: cs => do
    let name ← name c
    let missing ← isMissing c
    let superClass ← superClass c
    let derived ← derivedClasses c
    let s ← Script.inspect
    let row : HierarchyRow :=
      { name, missing, superClass := superClass.map s.ref, derived := derived.map s.ref }
    return row :: (← hierarchyRows cs)

def methodFacts (m : Method) (signatures : List Signature) : Script MethodFacts := do
  let s ← Script.inspect
  return {
    method := s.viewMethod m
    static := m.isStatic
    constructor := m.isConstructor
    staticInitializer := m.isStaticInitializer
    ownName := m.signature.name
    ownParams := m.signature.params.length
    ownReturns := m.signature.returns.map s.ref
    ownAccepts := m.signature.accepts m
    signatures := signatures.map fun sig => (sig.accepts m, sig == m.signature) }

end Query

namespace ClassStep

open Query

def script (direct : Loader) (c : ClassId) : ClassStep → Script Answer
  | id => return .handle c
  | display => return .text (← name c)
  | describe => return .text ("ClassInfo(" ++ Text.quoted (← name c) ++ ")")
  | shortName => return .text (← name c).short
  | sameAs (.named other) => return .flag (c == (← Script.register other))
  | sameAs (.foreign _) => return .flag false
  | isMissing => return .flag (← Query.isMissing c)
  | isFramework => return .flag (← Query.isFramework c)
  | isArray => return .flag (← Query.isArray c)
  | isInner => return .flag (← Query.isInner c)
  | isPrimitive => return .flag c.isPrimitive
  | isFinal => return .flag (← Query.isFinal c)
  | isInterface => return .flag (← Query.isInterface c)
  | isAbstract => return .flag (← Query.isAbstract c)
  | isAlmostFinal => return .flag (← Query.isAlmostFinal c)
  | elementClass => do
    match ← Query.elementClass c with
    | .ok e => Answer.ofClass? e
    | .error m => return .misuse m
  | outerClass => do
    match ← Query.outerClass c with
    | .ok o => Answer.ofClass o
    | .error m => return .misuse m
  | superClass => do Answer.ofClass? (← Query.superClass c)
  | interfaces => do Answer.ofClasses (← Query.interfaces c)
  | derivedClasses => do Answer.ofClasses (← Query.derivedClasses c)
  | summary => return .summary (← Query.summary c)
  | rebind target => do
    Script.request (.rebind c (← target.read))
    return .nothing
  | isConvertibleTo target => return .flag (← Query.isConvertibleTo c (← target.read))
  | fieldType field => do Answer.ofClass? (← Query.fieldType c field)
  | staticFieldType field => do Answer.ofClass? (← Query.staticFieldType c field)
  | fields => do Answer.ofFields? (← Query.fields c)
  | staticFields => do Answer.ofFields? (← Query.staticFields c)
  | allMethods => do Answer.ofMethods? (← Query.allMethods c)
  | findMethodHere s => do Answer.ofMethod? (← Query.findMethodHere c (← s.read))
  | findMethod s => do Answer.ofMethod? (← Query.findMethod c (← s.read))
  | findMethodsHere method => do Answer.ofMethods? (← Query.findMethodsHere c method)
  | findMethods method => do Answer.ofMethods? (← Query.findMethods c method)
  | defaultConstructor => do Answer.ofMethod? (← Query.defaultConstructor c)
  | staticInitializer => do Answer.ofMethod? (← Query.staticInitializer c)
  | attach o => return .ofAttach (← Script.request (.attach c (← o.read c)))
  | attachMissing target => do
    let p ← TypeRef.read? (target.map .named)
    return .ofAttach (← Script.request (.attach c (Declaration.missing.withSuperClass p)))
  | outline o => do Answer.ofDeclaration (← o.read c)
  | outlineRebased o target => do
    let d ← o.read c
    let rebased := d.withSuperClass (← TypeRef.read? (target.map .named))
    return .rebased ((← Script.inspect).viewDeclaration rebased) (rebased == d)
  | loadDirectly => do
    match ← direct c (← name c) with
    | .ok d => Answer.ofDeclaration d
    | .error e => return .loadFailed e
  | methodFacts m signatures => do
    let m ← m.read c
    return .methodFacts (← Query.methodFacts m (← SignatureOutline.readAll signatures))

end ClassStep

namespace Step

def script (direct : Loader) : Step → Script Answer
  | findClass name => do Answer.ofClass? ((← Script.inspect).find? name)
  | register name => do Answer.ofClass (← Script.register name)
  | registerAll names => do Answer.ofClasses (← TypeRef.readAll (names.map .named))
  | allClasses => do Answer.ofClasses (← Script.inspect).ids
  | dump => return .text ("[" ++ ", ".intercalate (← Script.inspect).names ++ "]")
  | size => return .count (← Script.inspect).size
  | isEmpty => return .flag ((← Script.inspect).size == 0)
  | primitives => Answer.ofClasses (Primitive.all.map .ofPrimitive)
  | primitive code => Answer.ofClass? ((code.bind Primitive.ofCode?).map .ofPrimitive)
  | classById id => do
    let c ← id.read
    if c.index < (← Script.inspect).size then Answer.ofClass c else return .misuse (.unknownId c)
  | countDistinct names => return .count (← TypeRef.readAll (names.map .named)).eraseDups.length
  | describeScope =>
    return .text ("ClassScope \x7b classes: " ++ toString (← Script.inspect).size ++ ", .. \x7d")
  | missingDeclaration => Answer.ofDeclaration .missing
  | hierarchy => return .hierarchy (← Query.hierarchyRows (← Script.inspect).ids)
  | onClass c step => do step.script direct (← c.read)

end Step

/-- The most classes that one scope can hold. A budget of as many steps is never used up: loads
nest and walks go on over distinct classes. -/
def Scope.capacity : Nat := UInt32.size

def Session.step (L : Loader) (w : Session) (step : Step) : Option (Answer × Session) :=
  (L.perform Scope.capacity (step.script L)).exec w

def Session.steps (L : Loader) (w : Session) : List Step → Option (List Answer × Session)
  | [] => some ([], w)
  | x :: xs => do
    let (a, w₁) ← w.step L x
    let (as, w') ← w₁.steps L xs
    return (a :: as, w')

end ClassHierarchy
