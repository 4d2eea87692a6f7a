import ClassHierarchy.Proofs.Run.Effects
import ClassHierarchy.Proofs.Run.Queries
import ClassHierarchy.Proofs.Twins.ByName

namespace ClassHierarchy

/-- Queries on one class that ask nothing about the rest of the scope. -/
inductive ClassStep.OrderFree : ClassStep → Prop
  | display : OrderFree .display
  | describe : OrderFree .describe
  | shortName : OrderFree .shortName
  | sameAs (other : FullName) : OrderFree (.sameAs (.named other))
  | isMissing : OrderFree .isMissing
  | isFramework : OrderFree .isFramework
  | isArray : OrderFree .isArray
  | isInner : OrderFree .isInner
  | isPrimitive : OrderFree .isPrimitive
  | isFinal : OrderFree .isFinal
  | isInterface : OrderFree .isInterface
  | isAbstract : OrderFree .isAbstract
  | elementClass : OrderFree .elementClass
  | outerClass : OrderFree .outerClass
  | superClass : OrderFree .superClass
  | interfaces : OrderFree .interfaces
  | isConvertibleTo (target : FullName) : OrderFree (.isConvertibleTo (.named target))
  | fieldType (field : String) : OrderFree (.fieldType field)
  | staticFieldType (field : String) : OrderFree (.staticFieldType field)
  | fields : OrderFree .fields
  | staticFields : OrderFree .staticFields
  | allMethods : OrderFree .allMethods
  | findMethodHere (s : SignatureOutline) (h : s.isNamed = true) : OrderFree (.findMethodHere s)
  | findMethod (s : SignatureOutline) (h : s.isNamed = true) : OrderFree (.findMethod s)
  | findMethodsHere (method : String) : OrderFree (.findMethodsHere method)
  | findMethods (method : String) : OrderFree (.findMethods method)
  | defaultConstructor : OrderFree .defaultConstructor
  | staticInitializer : OrderFree .staticInitializer

inductive ClassStep.Plain : ClassStep → Prop
  | orderFree {x : ClassStep} (h : x.OrderFree) : Plain x
  | id : Plain .id
  | isAlmostFinal : Plain .isAlmostFinal
  | derivedClasses : Plain .derivedClasses
  | summary : Plain .summary

inductive Step.OrderFree : Step → Prop
  | register (name : FullName) : OrderFree (.register name)
  | registerAll (names : List FullName) : OrderFree (.registerAll names)
  | primitives : OrderFree .primitives
  | primitive (code : Option Char) : OrderFree (.primitive code)
  | classById (name : FullName) : OrderFree (.classById (.named name))
  | missingDeclaration : OrderFree .missingDeclaration
  | onClass (name : FullName) {x : ClassStep} (h : x.OrderFree) : OrderFree (.onClass (.named name) x)

/-- A registration or a query, with its classes by name. -/
inductive Step.Plain : Step → Prop
  | orderFree {x : Step} (h : x.OrderFree) : Plain x
  | findClass (name : FullName) : Plain (.findClass name)
  | allClasses : Plain .allClasses
  | dump : Plain .dump
  | size : Plain .size
  | isEmpty : Plain .isEmpty
  | countDistinct (names : List FullName) : Plain (.countDistinct names)
  | describeScope : Plain .describeScope
  | onClass (name : FullName) {x : ClassStep} (h : x.Plain) : Plain (.onClass (.named name) x)

def Request.Mild : Request → Prop
  | .attach .. | .rebind .. | .note _ => False
  | _ => True

namespace Script

variable {α : Type}

theorem mild_request {r : Request} (h : r.Mild) : Uses Request.Mild (request r) := ⟨h, fun _ => trivial⟩

theorem mild_register (name : FullName) : Uses Request.Mild (register name) := mild_request trivial

theorem Uses.mild {q : Script α} (h : Uses Request.Reads q) : Uses Request.Mild q := by
  refine h.mono fun r hr => ?_
  cases r <;> trivial

end Script

namespace Query

open Script

theorem mild_elementClass (c : ClassId) : Uses Request.Mild (elementClass c) := by
  apply (reads_name c).mild.bind
  intro full
  split
  · split
    · trivial
    · exact (mild_register _).map _
    · exact Uses.bind (mild_request trivial) fun _ => trivial
  · trivial

theorem mild_outerClass (c : ClassId) : Uses Request.Mild (outerClass c) := by
  apply (reads_name c).mild.bind
  intro full
  split
  · exact (mild_register _).map _
  · trivial

end Query

section Steps

open Script

theorem TypeRef.mild_read (t : TypeRef) : Uses Request.Mild t.read := by
  cases t with
  | named name => exact mild_register name
  | foreign c => trivial

theorem TypeRef.mild_readAll (ts : List TypeRef) : Uses Request.Mild (readAll ts) := by
  induction ts with
  | nil => trivial
  | cons t ts ih => exact t.mild_read.bind fun _ => ih.map _

theorem TypeRef.mild_read? (t? : Option TypeRef) : Uses Request.Mild (read? t?) := by
  cases t? with
  | none => trivial
  | some t => exact t.mild_read.map _

theorem SignatureOutline.mild_read (s : SignatureOutline) : Uses Request.Mild s.read :=
  (TypeRef.mild_readAll s.params).bind fun _ => (TypeRef.mild_read? s.returns).map _

open Answer

variable {L : Loader} {c : ClassId}

theorem ClassStep.OrderFree.mild {x : ClassStep} (h : x.OrderFree) : Uses Request.Mild (x.script L c) := by
  cases h with
  | sameAs other => exact (mild_register other).map _
  | elementClass =>
    apply (Query.mild_elementClass c).bind
    intro e
    cases e with
    | ok e => exact (reads_ofClass? e).mild
    | error m => trivial
  | outerClass =>
    apply (Query.mild_outerClass c).bind
    intro o
    cases o with
    | ok o => exact (reads_ofClass o).mild
    | error m => trivial
  | isConvertibleTo target =>
    exact (mild_register target).bind fun _ => ((Query.reads_isConvertibleTo c _).map _).mild
  | findMethodHere s _ =>
    apply s.mild_read.bind
    intro sig
    exact ((Query.reads_findMethodHere c sig).bind fun _ => reads_ofMethod? _).mild
  | findMethod s _ =>
    apply s.mild_read.bind
    intro sig
    exact ((Query.reads_findMethod c sig).bind fun _ => reads_ofMethod? _).mild
  | _ => exact (ClassStep.reads rfl L c).mild

theorem ClassStep.Plain.mild {x : ClassStep} (h : x.Plain) : Uses Request.Mild (x.script L c) := by
  cases h with
  | orderFree h => exact h.mild
  | _ => exact (ClassStep.reads rfl L c).mild

theorem Step.OrderFree.mild {x : Step} (h : x.OrderFree) : Uses Request.Mild (x.script L) := by
  cases h with
  | register name => exact (mild_register name).bind fun _ => (reads_ofClass _).mild
  | registerAll names => exact (TypeRef.mild_readAll _).bind fun _ => (reads_ofClasses _).mild
  | primitives => exact (reads_ofClasses _).mild
  | primitive code => exact (reads_ofClass? _).mild
  | classById name =>
    apply (mild_register name).bind
    intro c
    refine (reads_inspect fun s => ?_).mild
    split
    · exact reads_ofClass c
    · trivial
  | missingDeclaration => exact (reads_ofDeclaration _).mild
  | onClass name h => exact (mild_register name).bind fun _ => h.mild

theorem Step.Plain.mild {x : Step} (h : x.Plain) : Uses Request.Mild (x.script L) := by
  cases h with
  | orderFree h => exact h.mild
  | findClass name => exact (reads_inspect fun _ => reads_ofClass? _).mild
  | allClasses => exact (reads_inspect fun _ => reads_ofClasses _).mild
  | dump | size | isEmpty | describeScope => exact (reads_inspect fun _ => reads_pure _).mild
  | countDistinct names => exact (TypeRef.mild_readAll _).map _
  | onClass name h => exact (mild_register name).bind fun _ => h.mild

end Steps

def Action.Unforced : Action → Session → Prop
  | .attach .., _ | .rebind .., _ => False
  | _, _ => True

instance : (x : Action) → (w : Session) → Decidable (x.Unforced w)
  | .attach .., _ | .rebind .., _ => .isFalse id
  | .look, _ | .register _, _ | .call _, _ | .finish .., _ | .emit _, _ | .note _, _ | .giveUp, _ =>
    .isTrue trivial

theorem Action.steady_of_unforced {x : Action} {w : Session} (h : x.Unforced w) : x.Steady w := by
  cases x with
  | rebind c p => exact h
  | _ => trivial

namespace Run

variable {α β : Type} {load : ClassId → Run (Except LoadError Declaration)} {w w' : Session}

theorem Leads.steady {p q : Run α} (h : p.Leads Action.Unforced w q w') : p.Leads Action.Steady w q w' :=
  h.mono fun _ _ => Action.steady_of_unforced

theorem Ends.steady {p : Run α} {a : α} (h : p.Ends Action.Unforced w a w') : p.Ends Action.Steady w a w' :=
  Leads.steady h

def Keeps (p : Run α) : Prop := ∀ w, p.Sound Action.Unforced (fun _ _ => True) w

theorem Keeps.bind {p : Run α} {f : α → Run β} (hp : p.Keeps) (hf : ∀ a, (f a).Keeps) : (p >>= f).Keeps :=
  fun w => (hp w).bind fun a v _ => hf a v

theorem keeps_act {x : Action} (h : ∀ w, x.Unforced w) : (act x).Keeps :=
  fun w => sound_act (h w) fun _ _ _ => trivial

theorem keeps_resolve (hload : ∀ c, (load c).Keeps) (c : ClassId) : (resolve load c).Keeps := by
  intro w
  apply Sound.look trivial
  split
  · have hcall : (act (.call c)).Keeps := keeps_act fun _ => trivial
    apply hcall.bind
    intro _
    exact (hload c).bind fun o => keeps_act fun _ => trivial
  · trivial

theorem carries_keeps (hload : ∀ c, (load c).Keeps) : Carries Keeps Request.Mild load where
  done _ _ := trivial
  bind := .bind
  exhausted _ := ⟨trivial, fun r => nomatch r⟩
  look := keeps_act fun _ => trivial
  resolve := keeps_resolve hload
  register _ _ := keeps_act fun _ => trivial
  attach _ _ h := absurd h id
  rebind _ _ h := absurd h id
  emit _ _ := keeps_act fun _ => trivial
  note _ h := absurd h id

end Run

namespace Loader

variable {α : Type} {L : Loader} {n : Nat}

theorem keeps_call (hL : ∀ c name, Script.Uses Request.Mild (L c name)) (n : Nat) (c : ClassId) :
    (L.call n c).Keeps := by
  induction n generalizing c with
  | zero => exact fun w => ⟨trivial, fun r => nomatch r⟩
  | succ n ih =>
    have h := Run.carries_keeps ih
    exact h.look.bind fun s => h.script (hL c _) n

theorem keeps_perform (hL : ∀ c name, Script.Uses Request.Mild (L c name)) {script : Script α}
    (hs : Script.Uses Request.Mild script) : (L.perform n script).Keeps :=
  (Run.carries_keeps (keeps_call hL n)).script hs n

end Loader

end ClassHierarchy
