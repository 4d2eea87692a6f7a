import ClassHierarchy.Proofs.Checked.Queries
import ClassHierarchy.Proofs.Run.Control
import ClassHierarchy.Step

namespace ClassHierarchy

def Request.Reads : Request → Prop
  | .inspect | .resolve _ | .superChain _ | .interfaceClosure _ | .climbs .. => True
  | _ => False

namespace Script

variable {α β : Type}

theorem Uses.map {P : Request → Prop} {q : Script α} (h : Uses P q) (f : α → β) :
    Uses P (do return f (← q)) := h.bind fun _ => trivial

theorem reads_request {r : Request} (h : r.Reads) : Uses Request.Reads (request r) := ⟨h, fun _ => trivial⟩

theorem reads_pure (a : α) : Uses Request.Reads (pure a : Script α) := trivial

theorem reads_inspect {f : Scope → Script β} (h : ∀ s, Uses Request.Reads (f s)) :
    Uses Request.Reads (inspect >>= f) := (reads_request trivial : Uses _ inspect).bind h

theorem reads_resolve (c : ClassId) : Uses Request.Reads (resolve c) := reads_request trivial

end Script

namespace Query

open Script

variable (c : ClassId)

theorem reads_name : Uses Request.Reads (name c) := reads_inspect fun _ => trivial

theorem reads_declaration : Uses Request.Reads (declaration c) :=
  (reads_resolve c).bind fun _ => reads_inspect fun _ => trivial

theorem reads_isMissing : Uses Request.Reads (isMissing c) :=
  (reads_resolve c).bind fun _ => reads_inspect fun _ => trivial

theorem reads_derivedClasses : Uses Request.Reads (derivedClasses c) :=
  (reads_resolve c).bind fun _ => reads_inspect fun _ => trivial

theorem reads_unless_missing {α : Type} {q : Script (Option α)} (hq : Uses Request.Reads q) :
    Uses Request.Reads (do if ← isMissing c then return none else q) := by
  apply (reads_isMissing c).bind
  intro b
  cases b with
  | true => exact reads_pure none
  | false => exact hq

theorem reads_ofDeclared {α : Type} (read : Declaration → α) : Uses Request.Reads (ofDeclared c read) :=
  reads_unless_missing c ((reads_declaration c).map _)

theorem reads_hasFlag (bit : AccessFlags) : Uses Request.Reads (hasFlag bit c) := (reads_ofDeclared c _).map _

theorem reads_firstDeclared {α : Type} (read : Declaration → Option α) (cs : List ClassId) :
    Uses Request.Reads (firstDeclared read cs) := by
  induction cs with
  | nil => exact reads_pure none
  | cons c cs ih =>
    apply (reads_declaration c).bind
    intro d
    cases read d with
    | none => exact ih
    | some a => exact reads_pure (some a)

theorem reads_visibleMethods (select : ClassId → Declaration → List Method) (out : List Method)
    (cs : List ClassId) : Uses Request.Reads (visibleMethods select out cs) := by
  induction cs generalizing out with
  | nil => exact reads_pure out
  | cons c cs ih => exact (reads_declaration c).bind fun d => ih _

theorem reads_superChain : Uses Request.Reads (Script.superChain c) := reads_request trivial

theorem reads_interfaceClosure (roots : List ClassId) : Uses Request.Reads (Script.interfaceClosure roots) :=
  reads_request trivial

theorem reads_supertypes : Uses Request.Reads (supertypes c) :=
  (reads_superChain c).bind fun chain => (reads_interfaceClosure chain).map _

theorem reads_fieldType (field : String) : Uses Request.Reads (fieldType c field) :=
  reads_unless_missing c ((reads_superChain c).bind fun _ => reads_firstDeclared _ _)

theorem reads_staticFieldType (field : String) : Uses Request.Reads (staticFieldType c field) :=
  reads_unless_missing c ((reads_supertypes c).bind fun _ => reads_firstDeclared _ _)

theorem reads_findMethodHere (s : Signature) : Uses Request.Reads (findMethodHere c s) :=
  (reads_ofDeclared c _).map _

theorem reads_findMethod (s : Signature) : Uses Request.Reads (findMethod c s) :=
  reads_unless_missing c ((reads_supertypes c).bind fun _ => reads_firstDeclared _ _)

theorem reads_findMethods (method : String) : Uses Request.Reads (findMethods c method) :=
  reads_unless_missing c ((reads_supertypes c).bind fun _ => (reads_visibleMethods _ _ _).map _)

theorem reads_allMethods : Uses Request.Reads (allMethods c) :=
  reads_unless_missing c ((reads_superChain c).bind fun _ => (reads_visibleMethods _ _ _).map _)

theorem reads_isConvertibleTo (target : ClassId) : Uses Request.Reads (isConvertibleTo c target) := by
  unfold isConvertibleTo
  split
  · trivial
  · split
    · trivial
    · exact reads_request trivial

theorem reads_summary : Uses Request.Reads (summary c) := by
  apply (reads_isMissing c).bind
  intro missing
  apply ((reads_declaration c).map _ : Uses _ (isFramework c)).bind
  intro framework
  apply (reads_hasFlag c _).bind
  intro final
  apply (reads_hasFlag c _).bind
  intro interface
  apply (reads_hasFlag c _).bind
  intro abstract
  apply ((reads_name c).map _ : Uses _ (isArray c)).bind
  intro array
  apply ((reads_name c).map _ : Uses _ (isInner c)).bind
  intro inner
  apply ((reads_derivedClasses c).map _ : Uses _ (isAlmostFinal c)).bind
  intro almostFinal
  apply ((reads_declaration c).map _ : Uses _ (superClass c)).bind
  intro superClass
  apply ((reads_declaration c).map _ : Uses _ (interfaces c)).bind
  intro interfaces
  exact (reads_derivedClasses c).bind fun derived => reads_inspect fun _ => trivial

theorem reads_hierarchyRows (cs : List ClassId) : Uses Request.Reads (hierarchyRows cs) := by
  induction cs with
  | nil => trivial
  | cons c cs ih =>
    apply (reads_name c).bind
    intro name
    apply (reads_isMissing c).bind
    intro missing
    apply ((reads_declaration c).map _ : Uses _ (superClass c)).bind
    intro superClass
    apply (reads_derivedClasses c).bind
    intro derived
    exact reads_inspect fun _ => ih.map _

theorem reads_methodFacts (m : Method) (sigs : List Signature) : Uses Request.Reads (methodFacts m sigs) :=
  reads_inspect fun _ => trivial

variable {c} in
theorem Operation.of_reads {P : {α : Type} → Script α → Prop} {α : Type} {s : Scope} {q : Script α}
    (h : Operation s c q) (hreads : ∀ {α : Type} {q : Script α}, Uses Request.Reads q → P q)
    (helement : P (Query.elementClass c)) (houter : P (Query.outerClass c))
    (hattach : ∀ d, P (request (.attach c d))) (hrebind : ∀ p, P (request (.rebind c p))) : P q := by
  cases h with
  | name => exact hreads (reads_name c)
  | isMissing => exact hreads (reads_isMissing c)
  | isFramework | superClass | interfaces => exact hreads ((reads_declaration c).map _)
  | isFinal | isInterface | isAbstract => exact hreads (reads_hasFlag c _)
  | derivedClasses => exact hreads (reads_derivedClasses c)
  | isAlmostFinal => exact hreads ((reads_derivedClasses c).map _)
  | isArray | isInner => exact hreads ((reads_name c).map _)
  | fieldType field => exact hreads (reads_fieldType c field)
  | staticFieldType field => exact hreads (reads_staticFieldType c field)
  | fields | staticFields | findMethodsHere => exact hreads (reads_ofDeclared c _)
  | findMethodHere sig => exact hreads (reads_findMethodHere c sig)
  | findMethod sig => exact hreads (reads_findMethod c sig)
  | findMethods method => exact hreads (reads_findMethods c method)
  | allMethods => exact hreads (reads_allMethods c)
  | defaultConstructor => exact hreads (reads_findMethodHere c _)
  | staticInitializer => exact hreads (reads_findMethod c _)
  | isConvertibleTo target => exact hreads (reads_isConvertibleTo c target)
  | elementClass => exact helement
  | outerClass => exact houter
  | attach d => exact hattach d
  | rebind p => exact hrebind p

end Query

open Script

namespace Answer

theorem reads_ofClass (c : ClassId) : Uses Request.Reads (ofClass c) := reads_inspect fun _ => trivial

theorem reads_ofDeclaration (d : Declaration) : Uses Request.Reads (ofDeclaration d) :=
  reads_inspect fun _ => trivial

theorem reads_ofClasses (cs : List ClassId) : Uses Request.Reads (ofClasses cs) := reads_inspect fun _ => trivial

theorem reads_ofClass? (c? : Option ClassId) : Uses Request.Reads (ofClass? c?) := by
  cases c? with
  | none => trivial
  | some c => exact reads_ofClass c

theorem reads_ofMethod? (m? : Option Method) : Uses Request.Reads (ofMethod? m?) := by
  cases m? with
  | none => trivial
  | some m => exact reads_inspect fun _ => trivial

theorem reads_ofMethods? (ms? : Option (List Method)) : Uses Request.Reads (ofMethods? ms?) := by
  cases ms? with
  | none => trivial
  | some ms => exact reads_inspect fun _ => trivial

theorem reads_ofFields? (fs? : Option FieldTypes) : Uses Request.Reads (ofFields? fs?) := by
  cases fs? with
  | none => trivial
  | some fs => exact reads_inspect fun _ => trivial

end Answer

def ClassStep.isReading : ClassStep → Bool
  | .sameAs _ | .elementClass | .outerClass | .rebind _ | .isConvertibleTo _ | .findMethodHere _
  | .findMethod _ | .attach _ | .attachMissing _ | .outline _ | .outlineRebased .. | .loadDirectly
  | .methodFacts .. => false
  | _ => true

open Answer Query in
theorem ClassStep.reads {x : ClassStep} (h : x.isReading = true) (direct : Loader) (c : ClassId) :
    Uses Request.Reads (x.script direct c) := by
  cases x with
  | id | isPrimitive => trivial
  | display | describe | shortName => exact (reads_name c).map _
  | isArray | isInner => exact ((reads_name c).map _).map _
  | isMissing => exact (reads_isMissing c).map _
  | isFramework => exact ((reads_declaration c).map _).map _
  | isFinal | isInterface | isAbstract => exact (reads_hasFlag c _).map _
  | isAlmostFinal => exact ((reads_derivedClasses c).map _).map _
  | superClass => exact ((reads_declaration c).map _).bind fun _ => reads_ofClass? _
  | interfaces => exact ((reads_declaration c).map _).bind fun _ => reads_ofClasses _
  | derivedClasses => exact (reads_derivedClasses c).bind fun _ => reads_ofClasses _
  | summary => exact (reads_summary c).map _
  | fieldType field => exact (reads_fieldType c field).bind fun _ => reads_ofClass? _
  | staticFieldType field => exact (reads_staticFieldType c field).bind fun _ => reads_ofClass? _
  | fields | staticFields => exact (reads_ofDeclared c _).bind fun _ => reads_ofFields? _
  | allMethods => exact (reads_allMethods c).bind fun _ => reads_ofMethods? _
  | findMethodsHere method => exact (reads_ofDeclared c _).bind fun _ => reads_ofMethods? _
  | findMethods method => exact (reads_findMethods c method).bind fun _ => reads_ofMethods? _
  | defaultConstructor => exact (reads_findMethodHere c _).bind fun _ => reads_ofMethod? _
  | staticInitializer => exact (reads_findMethod c _).bind fun _ => reads_ofMethod? _
  | _ => cases h

end ClassHierarchy
