import ClassHierarchy.Proofs.Scope.Primitives
import ClassHierarchy.Proofs.Twins.Follow

namespace ClassHierarchy

open List Relator

def Signature.Agrees (Linked : Session → Session → Prop) (R : Session → Session → ClassId → ClassId → Prop)
    (w v : Session) (s s' : Signature) : Prop :=
  ∀ w' v', Linked w' v' → w.scope.Grows w'.scope → v.scope.Grows v'.scope →
    ∀ m m', m.Alike (R w' v') m' → s.accepts m = s'.accepts m'

theorem Script.run_request (load : ClassId → Run (Except LoadError Declaration)) (n : Nat) (r : Request) :
    (Script.request r).run (Run.handle load n) = Run.handle load n r := bind_pure (Run.handle load n r)

section

variable {α α' β β' : Type} (T : Scope) (Linked : Session → Session → Prop)
  (load load' : ClassId → Run (Except LoadError Declaration)) (n m : Nat)

def Script.Follows (q : Script α) (q' : Script α') (w v : Session) (B : Session → Session → α → α' → Prop) :
    Prop := Run.Follows T Linked (q.run (Run.handle load n)) (q'.run (Run.handle load' m)) w v B

variable {T Linked load load' n m} {w v : Session} {A : Session → Session → α → α' → Prop}
  {B : Session → Session → β → β' → Prop}

theorem Script.follows_pure {a : α} {a' : α'} (hl : Linked w v) (h : A w v a a') :
    Script.Follows T Linked load load' n m (pure a) (pure a') w v A := Run.follows_done hl h

theorem Script.Follows.bind {q : Script α} {q' : Script α'} {f : α → Script β} {f' : α' → Script β'}
    (h : Script.Follows T Linked load load' n m q q' w v A)
    (hf : ∀ a a' w₁ v₁, w.scope.Grows w₁.scope → v.scope.Grows v₁.scope → Linked w₁ v₁ → A w₁ v₁ a a' →
      Script.Follows T Linked load load' n m (f a) (f' a') w₁ v₁ B) :
    Script.Follows T Linked load load' n m (q >>= f) (q' >>= f') w v B := by
  unfold Script.Follows
  rw [Program.run_bind, Program.run_bind]
  exact Run.Follows.bind h hf

theorem Script.Follows.map {q : Script α} {q' : Script α'} {f : α → β} {f' : α' → β'}
    (h : Script.Follows T Linked load load' n m q q' w v A)
    (hf : ∀ w₁ v₁ a a', w.scope.Grows w₁.scope → v.scope.Grows v₁.scope → Linked w₁ v₁ → A w₁ v₁ a a' →
      B w₁ v₁ (f a) (f' a')) :
    Script.Follows T Linked load load' n m (do return f (← q)) (do return f' (← q')) w v B :=
  h.bind fun a a' w₁ v₁ hw hv hl ha => follows_pure hl (hf w₁ v₁ a a' hw hv hl ha)

theorem Script.follows_inspect {f : Scope → Script β} {f' : Scope → Script β'}
    (h : Script.Follows T Linked load load' n m (f w.scope) (f' v.scope) w v B) :
    Script.Follows T Linked load load' n m (Script.inspect >>= f) (Script.inspect >>= f') w v B := by
  unfold Script.Follows
  rw [Program.run_bind, Program.run_bind]
  unfold Script.inspect
  rw [run_request, run_request]
  exact Run.follows_look h

end

namespace Tracking

open Script (Follows follows_pure follows_inspect run_request)

variable {T : Scope} {Linked : Session → Session → Prop} {R : Session → Session → ClassId → ClassId → Prop}
  {load load' : ClassId → Run (Except LoadError Declaration)} {n m : Nat} {w v : Session} {c c' : ClassId}

section

variable (h : Tracking T Linked R load load') (hl : Linked w v)
include h hl

theorem query_resolve (hc : R w v c c') :
    Follows T Linked load load' n m (Script.resolve c) (Script.resolve c') w v
      fun w' v' _ _ => w'.Level R v' c c' := by
  unfold Follows Script.resolve
  rw [run_request, run_request]
  exact h.resolve hl hc

theorem query_declaration (hc : R w v c c') :
    Follows T Linked load load' n m (Query.declaration c) (Query.declaration c') w v
      fun w' v' => Declaration.Alike (R w' v') := by
  apply (h.query_resolve hl hc).bind
  intro _ _ w₁ v₁ _ _ hl₁ hlevel
  exact follows_inspect (follows_pure hl₁ hlevel.2)

theorem query_isMissing (hc : R w v c c') :
    Follows T Linked load load' n m (Query.isMissing c) (Query.isMissing c') w v
      fun _ _ b b' => b = b' := by
  apply (h.query_resolve hl hc).bind
  intro _ _ w₁ v₁ _ _ hl₁ hlevel
  exact follows_inspect (follows_pure hl₁ hlevel.1)

theorem query_derivedClasses (hc : R w v c c') :
    Follows T Linked load load' n m (Query.derivedClasses c) (Query.derivedClasses c') w v
      fun _ _ _ _ => True := by
  apply (h.query_resolve hl hc).bind
  intro _ _ w₁ v₁ _ _ hl₁ _
  exact follows_inspect (follows_pure hl₁ trivial)

theorem query_isAlmostFinal (hc : R w v c c') :
    Follows T Linked load load' n m (Query.isAlmostFinal c) (Query.isAlmostFinal c') w v
      fun _ _ _ _ => True := (h.query_derivedClasses hl hc).map fun _ _ _ _ _ _ _ _ => trivial

theorem unless_missing {α α' : Type} {P : Session → Session → α → α' → Prop} {q : Script (Option α)}
    {q' : Script (Option α')} (hc : R w v c c')
    (hq : ∀ w₁ v₁, w.scope.Grows w₁.scope → v.scope.Grows v₁.scope → Linked w₁ v₁ →
      Follows T Linked load load' n m q q' w₁ v₁ fun w' v' => Option.Rel (P w' v')) :
    Follows T Linked load load' n m (do if ← Query.isMissing c then return none else q)
      (do if ← Query.isMissing c' then return none else q') w v fun w' v' => Option.Rel (P w' v') := by
  apply (h.query_isMissing hl hc).bind
  rintro b _ w₁ v₁ hw hv hl₁ rfl
  cases b with
  | true => exact follows_pure hl₁ .none
  | false => exact hq w₁ v₁ hw hv hl₁

theorem query_ofDeclared {α α' : Type} {P : Session → Session → α → α' → Prop} {read : Declaration → α}
    {read' : Declaration → α'} (hc : R w v c c')
    (hread : ∀ w' v' d d', Linked w' v' → w.scope.Grows w'.scope → v.scope.Grows v'.scope →
      d.Alike (R w' v') d' → P w' v' (read d) (read' d')) :
    Follows T Linked load load' n m (Query.ofDeclared c read) (Query.ofDeclared c' read') w v
      fun w' v' => Option.Rel (P w' v') := by
  apply h.unless_missing hl hc
  intro w₁ v₁ hw hv hl₁
  apply (h.query_declaration hl₁ (h.mono hw hv hc)).map
  intro w₂ v₂ d d' hw₂ hv₂ hl₂ hd
  exact .some (hread w₂ v₂ d d' hl₂ (hw.trans hw₂) (hv.trans hv₂) hd)

theorem query_firstDeclared {α α' : Type} {P : Session → Session → α → α' → Prop}
    {read : Declaration → Option α} {read' : Declaration → Option α'} {cs cs' : List ClassId}
    (hc : Forall₂ (R w v) cs cs')
    (hread : ∀ w' v' d d', Linked w' v' → w.scope.Grows w'.scope → v.scope.Grows v'.scope →
      d.Alike (R w' v') d' → Option.Rel (P w' v') (read d) (read' d')) :
    Follows T Linked load load' n m (Query.firstDeclared read cs) (Query.firstDeclared read' cs') w v
      fun w' v' => Option.Rel (P w' v') := by
  induction cs generalizing cs' w v with
  | nil =>
    cases hc
    exact follows_pure hl .none
  | cons c cs ih =>
    cases hc with
    | @cons _ c' _ cs' hc hcs =>
      apply (h.query_declaration hl hc).bind
      intro d d' w₁ v₁ hw hv hl₁ hd
      have hr := hread w₁ v₁ d d' hl₁ hw hv hd
      generalize read d = x at hr ⊢
      generalize read' d' = x' at hr ⊢
      cases hr with
      | none =>
        apply ih hl₁ (h.forall₂_mono hw hv hcs)
        intro w' v' e e' hl' hw' hv' he
        exact hread w' v' e e' hl' (hw.trans hw') (hv.trans hv') he
      | some ha => exact follows_pure hl₁ (.some ha)

theorem query_visibleMethods {select select' : ClassId → Declaration → List Method} {cs cs' : List ClassId}
    (hc : Forall₂ (R w v) cs cs') {out out' : List Method} (ho : Forall₂ (Method.Alike (R w v)) out out')
    (hselect : ∀ w' v' b b' d d', Linked w' v' → w.scope.Grows w'.scope → v.scope.Grows v'.scope →
      R w' v' b b' → d.Alike (R w' v') d' →
      Forall₂ (Method.Alike (R w' v')) (select b d) (select' b' d')) :
    Follows T Linked load load' n m (Query.visibleMethods select out cs)
      (Query.visibleMethods select' out' cs') w v fun w' v' => Forall₂ (Method.Alike (R w' v')) := by
  induction cs generalizing cs' out out' w v with
  | nil =>
    cases hc
    exact follows_pure hl ho
  | cons c cs ih =>
    cases hc with
    | @cons _ c' _ cs' hc hcs =>
      apply (h.query_declaration hl hc).bind
      intro d d' w₁ v₁ hw hv hl₁ hd
      apply ih hl₁ (h.forall₂_mono hw hv hcs)
      · apply forall₂_addVisible (h.biUnique hl₁)
        · exact ho.imp fun _ _ hm => hm.mono fun _ _ => h.mono hw hv
        · exact hselect w₁ v₁ c c' d d' hl₁ hw hv (h.mono hw hv hc) hd
      · intro w' v' b b' e e' hl' hw' hv' hb he
        exact hselect w' v' b b' e e' hl' (hw.trans hw') (hv.trans hv') hb he

theorem query_isFramework (hc : R w v c c') :
    Follows T Linked load load' n m (Query.isFramework c) (Query.isFramework c') w v
      fun _ _ b b' => b = b' := (h.query_declaration hl hc).map fun _ _ _ _ _ _ _ hd => hd.framework

theorem query_superClass (hc : R w v c c') :
    Follows T Linked load load' n m (Query.superClass c) (Query.superClass c') w v
      fun w' v' => Option.Rel (R w' v') := (h.query_declaration hl hc).map fun _ _ _ _ _ _ _ hd => hd.superClass

theorem query_interfaces (hc : R w v c c') :
    Follows T Linked load load' n m (Query.interfaces c) (Query.interfaces c') w v
      fun w' v' => Forall₂ (R w' v') := (h.query_declaration hl hc).map fun _ _ _ _ _ _ _ hd => hd.interfaces

theorem query_hasFlag (hc : R w v c c') (bit : AccessFlags) :
    Follows T Linked load load' n m (Query.hasFlag bit c) (Query.hasFlag bit c') w v
      fun _ _ b b' => b = b' := by
  have hf : Follows T Linked load load' n m (Query.ofDeclared c (·.flags.has bit))
      (Query.ofDeclared c' (·.flags.has bit)) w v fun _ _ => Option.Rel (· = ·) := by
    apply h.query_ofDeclared hl hc
    intro _ _ d d' _ _ _ hd
    rw [hd.flags]
  apply hf.map
  intro _ _ b b' _ _ _ hb
  rw [optionRel_eq hb]

theorem query_fields (hc : R w v c c') :
    Follows T Linked load load' n m (Query.fields c) (Query.fields c') w v
      fun w' v' => Option.Rel (FieldTypes.Alike (R w' v')) :=
  h.query_ofDeclared hl hc fun _ _ _ _ _ _ _ hd => hd.fields

theorem query_staticFields (hc : R w v c c') :
    Follows T Linked load load' n m (Query.staticFields c) (Query.staticFields c') w v
      fun w' v' => Option.Rel (FieldTypes.Alike (R w' v')) :=
  h.query_ofDeclared hl hc fun _ _ _ _ _ _ _ hd => hd.staticFields

theorem query_findMethodsHere (hc : R w v c c') (method : String) :
    Follows T Linked load load' n m (Query.findMethodsHere c method) (Query.findMethodsHere c' method) w v
      fun w' v' => Option.Rel (Forall₂ (Method.Alike (R w' v'))) :=
  h.query_ofDeclared hl hc fun _ _ _ _ _ _ _ hd => hd.methodsNamed method

theorem query_findMethodHere (hc : R w v c c') {s s' : Signature} (hs : s.Agrees Linked R w v s') :
    Follows T Linked load load' n m (Query.findMethodHere c s) (Query.findMethodHere c' s') w v
      fun w' v' => Option.Rel (Method.Alike (R w' v')) := by
  have hf : Follows T Linked load load' n m (Query.ofDeclared c (·.findMethod? s))
      (Query.ofDeclared c' (·.findMethod? s')) w v
      fun w' v' => Option.Rel (Option.Rel (Method.Alike (R w' v'))) := by
    apply h.query_ofDeclared hl hc
    intro w' v' d d' hl' hw hv hd
    exact hd.findMethod? (hs w' v' hl' hw hv)
  apply hf.map
  intro _ _ x x' _ _ _ hx
  cases hx with
  | none => exact .none
  | some hx => exact hx

theorem isPrimitive (hc : R w v c c') : c.isPrimitive = c'.isPrimitive := by
  rw [Bool.eq_iff_iff, ClassId.isPrimitive_iff, ClassId.isPrimitive_iff]
  exact exists_congr (h.primitive hl hc)

end

section

variable (h : Tracking T Linked R load load') (hnm : n ≤ m) (hl : Linked w v) (hc : R w v c c')
include h hnm hl hc

theorem query_superChain :
    Follows T Linked load load' n m (Script.superChain c) (Script.superChain c') w v
      fun w' v' => Forall₂ (R w' v') := by
  unfold Follows Script.superChain
  rw [run_request, run_request]
  exact h.superChain hnm hl .nil (.some hc)

theorem query_supertypes :
    Follows T Linked load load' n m (Query.supertypes c) (Query.supertypes c') w v
      fun w' v' => Forall₂ (R w' v') := by
  apply (h.query_superChain hnm hl hc).bind
  intro chain chain' w₁ v₁ _ _ hl₁ hchain
  have hclosure : Follows T Linked load load' n m (Script.interfaceClosure chain)
      (Script.interfaceClosure chain') w₁ v₁ fun w' v' => Forall₂ (R w' v') := by
    unfold Follows Script.interfaceClosure
    rw [run_request, run_request]
    exact h.interfaceClosure hnm hl₁ hchain hchain .nil
  apply hclosure.map
  intro w₂ v₂ above above' hw hv _ habove
  exact rel_append (h.forall₂_mono hw hv hchain) habove

theorem query_fieldType (field : String) :
    Follows T Linked load load' n m (Query.fieldType c field) (Query.fieldType c' field) w v
      fun w' v' => Option.Rel (R w' v') := by
  apply h.unless_missing hl hc
  intro w₁ v₁ hw hv hl₁
  apply (h.query_superChain hnm hl₁ (h.mono hw hv hc)).bind
  intro chain chain' w₂ v₂ _ _ hl₂ hchain
  exact h.query_firstDeclared hl₂ hchain fun _ _ _ _ _ _ _ hd => hd.fields.find? field

theorem query_staticFieldType (field : String) :
    Follows T Linked load load' n m (Query.staticFieldType c field) (Query.staticFieldType c' field) w v
      fun w' v' => Option.Rel (R w' v') := by
  apply h.unless_missing hl hc
  intro w₁ v₁ hw hv hl₁
  apply (h.query_supertypes hnm hl₁ (h.mono hw hv hc)).bind
  intro types types' w₂ v₂ _ _ hl₂ htypes
  exact h.query_firstDeclared hl₂ htypes fun _ _ _ _ _ _ _ hd => hd.staticFields.find? field

theorem query_findMethods (method : String) :
    Follows T Linked load load' n m (Query.findMethods c method) (Query.findMethods c' method) w v
      fun w' v' => Option.Rel (Forall₂ (Method.Alike (R w' v'))) := by
  apply h.unless_missing hl hc
  intro w₁ v₁ hw hv hl₁
  apply (h.query_supertypes hnm hl₁ (h.mono hw hv hc)).bind
  intro types types' w₂ v₂ _ _ hl₂ htypes
  have hms : Follows T Linked load load' n m (Query.visibleMethods (fun _ d => d.methodsNamed method) [] types)
      (Query.visibleMethods (fun _ d => d.methodsNamed method) [] types') w₂ v₂
      fun w' v' => Forall₂ (Method.Alike (R w' v')) :=
    h.query_visibleMethods hl₂ htypes .nil fun _ _ _ _ _ _ _ _ _ _ hd => hd.methodsNamed method
  exact hms.map fun _ _ _ _ _ _ _ hms => .some hms

theorem query_allMethods :
    Follows T Linked load load' n m (Query.allMethods c) (Query.allMethods c') w v
      fun w' v' => Option.Rel (Forall₂ (Method.Alike (R w' v'))) := by
  apply h.unless_missing hl hc
  intro w₁ v₁ hw hv hl₁
  apply (h.query_superChain hnm hl₁ (h.mono hw hv hc)).bind
  intro chain chain' w₂ v₂ hw₂ hv₂ hl₂ hchain
  have hms : Follows T Linked load load' n m (Query.visibleMethods (Query.inheritable c) [] chain)
      (Query.visibleMethods (Query.inheritable c') [] chain') w₂ v₂
      fun w' v' => Forall₂ (Method.Alike (R w' v')) := by
    apply h.query_visibleMethods hl₂ hchain .nil
    intro w' v' b b' d d' hl' hw' hv' hb hd
    have hc' := h.mono ((hw.trans hw₂).trans hw') ((hv.trans hv₂).trans hv') hc
    exact forall₂_inheritable (h.biUnique hl') hc' hb hd
  exact hms.map fun _ _ _ _ _ _ _ hms => .some hms

theorem query_findMethod {s s' : Signature} (hs : s.Agrees Linked R w v s') :
    Follows T Linked load load' n m (Query.findMethod c s) (Query.findMethod c' s') w v
      fun w' v' => Option.Rel (Method.Alike (R w' v')) := by
  apply h.unless_missing hl hc
  intro w₁ v₁ hw hv hl₁
  apply (h.query_supertypes hnm hl₁ (h.mono hw hv hc)).bind
  intro types types' w₂ v₂ hw₂ hv₂ hl₂ htypes
  apply h.query_firstDeclared hl₂ htypes
  intro w' v' d d' hl' hw' hv' hd
  exact hd.findMethod? (hs w' v' hl' ((hw.trans hw₂).trans hw') ((hv.trans hv₂).trans hv'))

theorem query_isConvertibleTo {target target' : ClassId} (ht : R w v target target') :
    Follows T Linked load load' n m (Query.isConvertibleTo c target) (Query.isConvertibleTo c' target') w v
      fun _ _ b b' => b = b' := by
  unfold Query.isConvertibleTo
  rw [h.isPrimitive hl ht, h.isPrimitive hl hc]
  have hvoid : target = .ofPrimitive .void ↔ target' = .ofPrimitive .void := h.primitive hl ht .void
  have hsame : c = target ↔ c' = target' := rel_eq (h.biUnique hl) hc ht
  by_cases hp : target'.isPrimitive = true
  · rw [if_pos hp, if_pos hp]
    have he : (target == .ofPrimitive .void) = (target' == .ofPrimitive .void) := by simp [hvoid]
    rw [he]
    exact follows_pure hl rfl
  · rw [if_neg hp, if_neg hp]
    by_cases he : c = target
    · rw [if_pos he, if_pos (hsame.mp he)]
      exact follows_pure hl rfl
    · rw [if_neg he, if_neg (mt hsame.mpr he)]
      unfold Follows
      rw [run_request, run_request]
      exact h.climbs hnm hl ht (.cons hc .nil) (.cons hc .nil)

end

end Tracking

end ClassHierarchy
