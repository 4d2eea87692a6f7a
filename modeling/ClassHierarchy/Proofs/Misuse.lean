import ClassHierarchy.Proofs.Registry
import ClassHierarchy.Step

namespace ClassHierarchy

namespace FullName

variable {name : FullName}

theorem isArray_iff : name.isArray = true ↔ name.toList.head? = some '[' := by simp [isArray]

theorem outer?_eq_none_iff : name.outer? = none ↔ '$' ∉ name.toList := by
  simp [outer?, Text.splitLast?_eq_none]

end FullName

variable {α β : Type}

def Script.Returns (P : α → Prop) : Script α → Prop
  | .done a => P a
  | .ask _ k => ∀ x, Script.Returns P (k x)

namespace Script

variable {P : α → Prop} {Q : β → Prop}

theorem Returns.bind {q : Script α} {f : α → Script β} (h : Script.Returns P q)
    (hf : ∀ a, P a → Script.Returns Q (f a)) : Script.Returns Q (q >>= f) := by
  induction q with
  | done a => exact hf a h
  | ask r k ih => exact fun x => ih x (h x)

theorem returns_any (q : Script α) : Script.Returns (fun _ => True) q := by
  induction q with
  | done a => trivial
  | ask r k ih => exact ih

theorem Returns.imp {P' : α → Prop} {q : Script α} (h : Script.Returns P q) (hP : ∀ a, P a → P' a) :
    Script.Returns P' q := by
  induction q with
  | done a => exact hP a h
  | ask r k ih => exact fun x => ih x (h x)

theorem Returns.last {q : Script α} {f : α → Script β} (hf : ∀ a, Script.Returns Q (f a)) :
    Script.Returns Q (q >>= f) := (returns_any q).bind fun a _ => hf a

theorem Returns.ends {q : Script α} (h : Script.Returns P q) {L : Loader} {n : Nat} {may : Action → Session → Prop}
    {w v : Session} {a : α} (he : (L.perform n q).Ends may w a v) : P a := by
  induction q generalizing w with
  | done b =>
    obtain ⟨rfl, -⟩ := Run.ends_done_iff.mp he
    exact h
  | ask r k ih =>
    obtain ⟨x, u, -, hk⟩ := Run.ends_bind_iff.mp he
    exact ih x (h x) hk

end Script

def Answer.Proper (a : Answer) : Prop := ∀ m, a ≠ .misuse m

namespace Answer

open Script (Returns)

theorem proper_ofClass (c : ClassId) : Returns Proper (ofClass c) := .last fun _ => nofun

theorem proper_ofClass? (c? : Option ClassId) : Returns Proper (ofClass? c?) := by
  cases c? with
  | none => exact nofun
  | some c => exact proper_ofClass c

theorem proper_ofClasses (cs : List ClassId) : Returns Proper (ofClasses cs) := .last fun _ => nofun

theorem proper_ofMethod? (m? : Option Method) : Returns Proper (ofMethod? m?) := by
  cases m? with
  | none => exact nofun
  | some m => exact .last fun _ => nofun

theorem proper_ofMethods? (ms? : Option (List Method)) : Returns Proper (ofMethods? ms?) := by
  cases ms? with
  | none => exact nofun
  | some ms => exact .last fun _ => nofun

theorem proper_ofFields? (fs? : Option FieldTypes) : Returns Proper (ofFields? fs?) := by
  cases fs? with
  | none => exact nofun
  | some fs => exact .last fun _ => nofun

theorem proper_ofDeclaration (d : Declaration) : Returns Proper (ofDeclaration d) := .last fun _ => nofun

theorem proper_ofAttach (r : Except AttachError Unit) : (ofAttach r).Proper := by
  cases r <;> exact nofun

end Answer

open Script (Returns) in
open Answer in
theorem ClassStep.proper (L : Loader) (c : ClassId) {x : ClassStep} (he : x ≠ .elementClass) (ho : x ≠ .outerClass) :
    Returns Proper (x.script L c) := by
  cases x with
  | elementClass => exact absurd rfl he
  | outerClass => exact absurd rfl ho
  | id | isPrimitive => exact nofun
  | sameAs other =>
    cases other with
    | named name => exact .last fun _ => nofun
    | foreign d => exact nofun
  | display | describe | shortName | isMissing | isFramework | isArray | isInner | isFinal | isInterface
  | isAbstract | isAlmostFinal | summary =>
    exact .last fun _ => nofun
  | superClass | fieldType | staticFieldType => exact .last fun _ => proper_ofClass? _
  | interfaces | derivedClasses => exact .last fun _ => proper_ofClasses _
  | rebind | isConvertibleTo | methodFacts => exact .last fun _ => .last fun _ => nofun
  | fields | staticFields => exact .last fun _ => proper_ofFields? _
  | allMethods | findMethods | findMethodsHere => exact .last fun _ => proper_ofMethods? _
  | findMethodHere | findMethod => exact .last fun _ => .last fun _ => proper_ofMethod? _
  | defaultConstructor | staticInitializer => exact .last fun _ => proper_ofMethod? _
  | attach | attachMissing => exact .last fun _ => .last fun _ => proper_ofAttach _
  | outline => exact .last fun _ => proper_ofDeclaration _
  | outlineRebased => exact .last fun _ => .last fun _ => .last fun _ => nofun
  | loadDirectly =>
    refine .last fun _ => .last fun r => ?_
    cases r with
    | ok d => exact proper_ofDeclaration d
    | error e => exact nofun

namespace Loader

open Script (Returns)

variable {L : Loader} {n : Nat} {may : Action → Session → Prop} {w v : Session} {c : ClassId} {m : Misuse}

theorem elementClass_refuses (c : ClassId) : Returns (fun r => ∀ m, r = .error m →
    ∃ full : FullName, m = .notArray full ∧ full.toList.head? ≠ some '[') (Query.elementClass c) := by
  refine .last fun full => ?_
  split
  · split
    · exact nofun
    · exact .last fun _ => nofun
    · exact .last fun _ => nofun
  next ha =>
    rintro _ ⟨⟩
    exact ⟨full, rfl, fun hb => ha (FullName.isArray_iff.mpr hb)⟩

theorem outerClass_refuses (c : ClassId) : Returns (fun r => ∀ m, r = .error m →
    ∃ full : FullName, m = .notInner full ∧ '$' ∉ full.toList) (Query.outerClass c) := by
  refine .last fun full => ?_
  split
  · exact .last fun _ => nofun
  next ho =>
    rintro _ ⟨⟩
    exact ⟨full, rfl, FullName.outer?_eq_none_iff.mp ho⟩

theorem elementClass_misuses (t : TypeRef) : Returns (fun a => ∀ m, a = .misuse m →
    ∃ full : FullName, m = .notArray full ∧ full.toList.head? ≠ some '[') ((Step.onClass t .elementClass).script L) := by
  refine .last fun c => (elementClass_refuses c).bind fun r hr => ?_
  cases r with
  | ok e => exact (Answer.proper_ofClass? e).imp fun a ha m hm => absurd hm (ha m)
  | error m =>
    rintro _ ⟨⟩
    exact hr m rfl

theorem outerClass_misuses (t : TypeRef) : Returns (fun a => ∀ m, a = .misuse m →
    ∃ full : FullName, m = .notInner full ∧ '$' ∉ full.toList) ((Step.onClass t .outerClass).script L) := by
  refine .last fun c => (outerClass_refuses c).bind fun r hr => ?_
  cases r with
  | ok o => exact (Answer.proper_ofClass o).imp fun a ha m hm => absurd hm (ha m)
  | error m =>
    rintro _ ⟨⟩
    exact hr m rfl

inductive Refuses (s : Scope) : Step → Misuse → Prop
  | unknownId {c : ClassId} (h : ¬ s.Registered c) : Refuses s (.classById (.foreign c)) (.unknownId c)
  | notArray (t : TypeRef) {full : FullName} (h : full.toList.head? ≠ some '[') :
    Refuses s (.onClass t .elementClass) (.notArray full)
  | notInner (t : TypeRef) {full : FullName} (h : '$' ∉ full.toList) :
    Refuses s (.onClass t .outerClass) (.notInner full)

theorem ends_classById (L : Loader) (n : Nat) (w : Session) (c : ClassId) :
    (L.perform n ((Step.classById (.foreign c)).script L)).Ends Action.Steady w
      (if c.index < w.scope.size then .cls (w.scope.ref c) else .misuse (.unknownId c)) w := by
  refine ends_perform_bind (ends_pure c) (ends_perform_bind ends_inspect ?_)
  split
  · exact ends_map ends_inspect fun s => Answer.cls (s.ref c)
  · exact ends_pure _

theorem ends_classById_named (hn : w.scope.Named) (name : FullName) : ∃ c u,
    (L.perform n ((Step.classById (.named name)).script L)).Ends Action.Steady w (.cls c) u := by
  obtain ⟨u, hregister, hscope⟩ := ends_register L n w name
  obtain ⟨-, hc, -⟩ := Scope.register_named hn name
  rw [← hscope] at hc
  refine ⟨u.scope.ref (w.scope.register name).1, u,
    ends_perform_bind hregister (ends_perform_bind ends_inspect ?_)⟩
  rw [if_pos (show _ < u.scope.size from hc)]
  exact ends_map ends_inspect fun s => Answer.cls (s.ref (w.scope.register name).1)

theorem refuses_of_misuse (hn : w.scope.Named) {x : Step}
    (h : (L.perform n (x.script L)).Ends may w (.misuse m) v) : Refuses w.scope x m := by
  have hproper : ∀ {q : Script Answer}, Returns Answer.Proper q → ¬ (L.perform n q).Ends may w (.misuse m) v :=
    fun hq he => hq.ends he m rfl
  cases x with
  | findClass name => exact absurd h (hproper (.last fun _ => Answer.proper_ofClass? _))
  | register name => exact absurd h (hproper (.last fun _ => Answer.proper_ofClass _))
  | registerAll names => exact absurd h (hproper (.last fun _ => Answer.proper_ofClasses _))
  | allClasses => exact absurd h (hproper (.last fun _ => Answer.proper_ofClasses _))
  | dump | size | isEmpty | countDistinct | describeScope => exact absurd h (hproper (.last fun _ => nofun))
  | primitives => exact absurd h (hproper (Answer.proper_ofClasses _))
  | primitive code => exact absurd h (hproper (Answer.proper_ofClass? _))
  | missingDeclaration => exact absurd h (hproper (Answer.proper_ofDeclaration _))
  | hierarchy => exact absurd h (hproper (.last fun _ => .last fun _ => nofun))
  | classById t =>
    cases t with
    | named name =>
      obtain ⟨c, u, he⟩ := ends_classById_named (L := L) (n := n) hn name
      cases (h.unique he).1
    | foreign c =>
      obtain ⟨ha, -⟩ := h.unique (ends_classById L n w c)
      split at ha
      · cases ha
      next hc =>
        obtain rfl := Answer.misuse.inj ha
        exact .unknownId hc
  | onClass t x =>
    by_cases he : x = .elementClass
    · subst he
      obtain ⟨full, rfl, hf⟩ := (elementClass_misuses t).ends h m rfl
      exact .notArray t hf
    by_cases ho : x = .outerClass
    · subst ho
      obtain ⟨full, rfl, hf⟩ := (outerClass_misuses t).ends h m rfl
      exact .notInner t hf
    exact absurd h (hproper (.last fun c => ClassStep.proper L c he ho))

theorem ends_elementClass_iff (L : Loader) (n : Nat) (hn : w.scope.Named) (hc : w.scope.Registered c) :
    ∃ r v, (L.perform n (Query.elementClass c)).Ends Action.Steady w r v ∧
      ∀ m, r = .error m ↔ m = .notArray (w.scope.name c) ∧ (w.scope.name c).toList.head? ≠ some '[' := by
  by_cases ha : (w.scope.name c).isArray = true
  · obtain ⟨e, v, he, -⟩ := ends_elementClass (L := L) (n := n) hn hc ha
    refine ⟨.ok e, v, he, fun m => ⟨nofun, fun h => absurd (FullName.isArray_iff.mp ha) h.2⟩⟩
  · refine ⟨.error (.notArray (w.scope.name c)), w, ends_perform_bind ends_name ?_, fun m => ?_⟩
    · rw [if_neg ha]
      exact ends_pure _
    · rw [FullName.isArray_iff] at ha
      simp [ha, eq_comm]

theorem ends_outerClass_iff (L : Loader) (n : Nat) (w : Session) (c : ClassId) :
    ∃ r v, (L.perform n (Query.outerClass c)).Ends Action.Steady w r v ∧
      ∀ m, r = .error m ↔ m = .notInner (w.scope.name c) ∧ '$' ∉ (w.scope.name c).toList := by
  rw [← FullName.outer?_eq_none_iff]
  cases ho : (w.scope.name c).outer? with
  | some outer =>
    obtain ⟨v, hregister, -⟩ := ends_register L n w outer
    refine ⟨.ok (w.scope.register outer).1, v, ends_perform_bind ends_name ?_, fun m => by simp⟩
    rw [ho]
    exact ends_map hregister Except.ok
  | none =>
    refine ⟨.error (.notInner (w.scope.name c)), w, ends_perform_bind ends_name ?_, fun m => ?_⟩
    · rw [ho]
      exact ends_pure _
    · simp [eq_comm]

end Loader

end ClassHierarchy
