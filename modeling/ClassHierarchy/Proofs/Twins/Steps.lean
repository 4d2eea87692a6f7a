import ClassHierarchy.Proofs.Twins.Namesakes

namespace ClassHierarchy

open List Relator

theorem map_eq_of_forall₂ {α β γ : Type} {P : α → β → Prop} {f : α → γ} {g : β → γ}
    (h : ∀ a b, P a b → f a = g b) {xs : List α} {ys : List β} (hxy : Forall₂ P xs ys) :
    xs.map f = ys.map g := eq_of_forall₂ (fun _ _ he => he) (rel_map h hxy)

namespace Scope

variable {s s' t : Scope} {c : ClassId}

theorem ref_of_registered (h : s.Registered c) : s.ref c = .named (s.name c) := by
  obtain ⟨e, he⟩ := registered_iff.mp h
  simp [ref, Scope.name, he]

theorem Within.widened (h : s.Within t) (hw : s.Widened s') (hk : ∀ name, s'.Knows name → t.Knows name) :
    s'.Within t where
  knows := hk
  settled c c' hc hc' hn := by
    rintro ⟨st, hst⟩
    rw [hw.quiet.settled] at hst
    have hev := hw.quiet.evolves fun _ => False
    rw [hev.name (.of_settled hst)] at hn
    exact h.settled c c' (.of_settled hst) hc' hn ⟨st, hst⟩

end Scope

namespace Session

variable {w v : Session} {c c' : ClassId} {m m' : Method}

theorem Namesakes.ref (h : w.Namesakes v c c') : w.scope.ref c = v.scope.ref c' := by
  rw [Scope.ref_of_registered h.1, Scope.ref_of_registered h.2.1, h.2.2]

theorem ref_of_namesakes (c c' : ClassId) (h : w.Namesakes v c c') : w.scope.ref c = v.scope.ref c' := h.ref

theorem viewMethod_of_alike (m m' : Method) (h : m.Alike (w.Namesakes v) m') :
    w.scope.viewMethod m = v.scope.viewMethod m' := by
  simp only [Scope.viewMethod, MethodView.mk.injEq]
  exact ⟨h.owner.ref, h.name, map_eq_of_forall₂ ref_of_namesakes h.params, h.returns.ref, h.flags⟩

theorem viewFields_of_alike {fs fs' : FieldTypes} (h : fs.Alike (w.Namesakes v) fs') :
    fs.map (fun f => (f.1, w.scope.ref f.2)) = fs'.map fun f => (f.1, v.scope.ref f.2) :=
  map_eq_of_forall₂ (fun _ _ hf => Prod.ext hf.1 hf.2.ref) h

end Session

open Script (Follows follows_pure follows_inspect run_request)
open Session (Namesakes Linked ref_of_namesakes)

section

variable {α α' : Type} (L : Loader) (t : Session) (n : Nat)

abbrev Script.Mirrors (q : Script α) (q' : Script α') (w v : Session) (B : Session → Session → α → α' → Prop) :
    Prop := Follows t.scope (Linked L t) (L.call (n + 1)) (L.call (n + 1)) (n + 1) (n + 1) q q' w v B

abbrev Session.Reads {α : Type} (_ _ : Session) (a a' : α) : Prop := a = a'

end

open Script (Mirrors)
open Session (Reads)

variable {L : Loader} {t w v : Session} {n : Nat} {c c' : ClassId}

theorem Script.mirrors_register (ht : t.Uniform L) (hl : Linked L t w v) (name : FullName) :
    Mirrors L t n (register name) (register name) w v Namesakes := by
  intro c w' he hT
  obtain ⟨-, _, w₁, hx, he⟩ := Run.ends_ask_iff.mp he
  obtain ⟨rfl, rfl⟩ := Run.ends_done_iff.mp he
  obtain ⟨hw', hc, hn⟩ := hl.1.register hx
  obtain ⟨c', v', hx'⟩ : ∃ c' v', (Action.register name).perform v = some (c', v') := ⟨_, _, rfl⟩
  obtain ⟨hv', hc', hn'⟩ := hl.2.1.register hx'
  have hscope : v'.scope = (v.scope.register name).2.2 := Action.scope_of_perform hx'
  have hwide := v.scope.widened_register name
  obtain ⟨-, -, -, hknown⟩ := Scope.register_named hl.2.1.named name
  rw [← hscope] at hwide hknown
  have hname : t.scope.Knows name := hT.knows ⟨_, hc, hn⟩
  refine ⟨c', v', Run.ends_ask_iff.mpr ⟨trivial, c', v', hx', .refl _ _⟩, hwide.quiet.evolves _,
    ⟨hw', hv', hl.2.2.widened hwide ?_⟩, hc, hc', hn.trans hn'.symm⟩
  intro x hx
  obtain hx | rfl | hx := hknown x hx
  · exact hl.2.2.knows x hx
  · exact hname
  · exact ht.named.closed name hname x hx

theorem Script.mirrors_emit (hl : Linked L t w v) (e : Event) :
    Mirrors L t n (emit e) (emit e) w v Reads := by
  intro r w' he hT
  obtain ⟨-, _, w₁, hx, he⟩ := Run.ends_ask_iff.mp he
  obtain ⟨-, rfl⟩ := Run.ends_done_iff.mp he
  obtain ⟨-, rfl⟩ := Prod.mk.inj (Option.some.inj hx)
  have hx' : (Action.emit e).perform v = some ((), v.emit e) := rfl
  exact ⟨(), v.emit e, Run.ends_ask_iff.mpr ⟨trivial, (), v.emit e, hx', .refl _ _⟩, .refl v.scope,
    ⟨hl.1.emit, hl.2.1.emit, hl.2.2⟩, rfl⟩

theorem Query.mirrors_name (hl : Linked L t w v) (hc : w.Namesakes v c c') :
    Mirrors L t n (name c) (name c') w v Reads := follows_inspect (follows_pure hl hc.2.2)

theorem Query.mirrors_isArray (hl : Linked L t w v) (hc : w.Namesakes v c c') :
    Mirrors L t n (isArray c) (isArray c') w v Reads :=
  (mirrors_name hl hc).map fun _ _ _ _ _ _ _ he => congrArg FullName.isArray he

theorem Query.mirrors_isInner (hl : Linked L t w v) (hc : w.Namesakes v c c') :
    Mirrors L t n (isInner c) (isInner c') w v Reads :=
  (mirrors_name hl hc).map fun _ _ _ _ _ _ _ he => congrArg (fun name => (FullName.outer? name).isSome) he

namespace Answer

theorem ends_ofClass? {load : ClassId → Run (Except LoadError Declaration)} (x : Option ClassId) (w : Session) :
    ∃ a, Run.Ends Action.Steady ((ofClass? x).run (Run.handle load n)) w a w := by
  cases x with
  | none => exact ⟨.nothing, .refl _ _⟩
  | some c => exact ⟨.cls (w.scope.ref c), (Run.ends_look_bind_iff trivial).mpr (.refl _ _)⟩

variable (hl : Linked L t w v)
include hl

theorem mirrors_ofClass (hc : w.Namesakes v c c') : Mirrors L t n (ofClass c) (ofClass c') w v Reads :=
  follows_inspect (follows_pure hl (congrArg Answer.cls hc.ref))

theorem mirrors_ofClass? {x x' : Option ClassId} (hx : Option.Rel (w.Namesakes v) x x') :
    Mirrors L t n (ofClass? x) (ofClass? x') w v Reads := by
  cases hx with
  | none => exact follows_pure hl rfl
  | some hc => exact mirrors_ofClass hl hc

theorem mirrors_ofClasses {cs cs' : List ClassId} (hc : Forall₂ (w.Namesakes v) cs cs') :
    Mirrors L t n (ofClasses cs) (ofClasses cs') w v Reads :=
  follows_inspect (follows_pure hl (congrArg Answer.classes (map_eq_of_forall₂ ref_of_namesakes hc)))

theorem mirrors_ofMethod? {x x' : Option Method} (hx : Option.Rel (Method.Alike (w.Namesakes v)) x x') :
    Mirrors L t n (ofMethod? x) (ofMethod? x') w v Reads := by
  cases hx with
  | none => exact follows_pure hl rfl
  | some hm =>
    apply follows_inspect
    exact follows_pure hl (congrArg Answer.method (Session.viewMethod_of_alike _ _ hm))

theorem mirrors_ofMethods? {x x' : Option (List Method)}
    (hx : Option.Rel (Forall₂ (Method.Alike (w.Namesakes v))) x x') :
    Mirrors L t n (ofMethods? x) (ofMethods? x') w v Reads := by
  cases hx with
  | none => exact follows_pure hl rfl
  | some hm =>
    apply follows_inspect
    exact follows_pure hl (congrArg Answer.methods (map_eq_of_forall₂ Session.viewMethod_of_alike hm))

theorem mirrors_ofFields? {x x' : Option FieldTypes} (hx : Option.Rel (FieldTypes.Alike (w.Namesakes v)) x x') :
    Mirrors L t n (ofFields? x) (ofFields? x') w v Reads := by
  cases hx with
  | none => exact follows_pure hl rfl
  | some hf => exact follows_inspect (follows_pure hl (congrArg Answer.fields (Session.viewFields_of_alike hf)))

end Answer

section Names

variable (ht : t.Uniform L) (hl : Linked L t w v)
include ht hl

theorem TypeRef.mirrors_read {r : TypeRef} (hr : r.isNamed = true) :
    Mirrors L t n r.read r.read w v Namesakes := by
  cases r with
  | named name => exact Script.mirrors_register ht hl name
  | foreign c => cases hr

theorem TypeRef.mirrors_readAll {rs : List TypeRef} (hrs : rs.all TypeRef.isNamed = true) :
    Mirrors L t n (readAll rs) (readAll rs) w v fun w' v' => Forall₂ (w'.Namesakes v') := by
  induction rs generalizing w v with
  | nil => exact follows_pure hl .nil
  | cons r rs ih =>
    rw [all_cons, Bool.and_eq_true] at hrs
    apply (mirrors_read ht hl hrs.1).bind
    intro c c' w₁ v₁ _ _ hl₁ hc
    apply (ih hl₁ hrs.2).map
    intro w₂ v₂ cs cs' hw hv _ hcs
    exact .cons (hc.mono hw hv) hcs

theorem TypeRef.mirrors_read? {r? : Option TypeRef} (hr : r?.all TypeRef.isNamed = true) :
    Mirrors L t n (read? r?) (read? r?) w v fun w' v' => Option.Rel (w'.Namesakes v') := by
  cases r? with
  | none => exact follows_pure hl .none
  | some r => exact (mirrors_read ht hl hr).map fun _ _ _ _ _ _ _ hc => .some hc

theorem SignatureOutline.mirrors_read {s : SignatureOutline} (hs : s.isNamed = true) :
    Mirrors L t n s.read s.read w v fun w' v' => Signature.Alike (w'.Namesakes v') := by
  rw [isNamed, Bool.and_eq_true] at hs
  apply (TypeRef.mirrors_readAll ht hl hs.1).bind
  intro params params' w₁ v₁ _ _ hl₁ hparams
  apply (TypeRef.mirrors_read? ht hl₁ hs.2).map
  intro w₂ v₂ returns returns' hw hv _ hreturns
  exact ⟨rfl, hparams.imp fun _ _ hc => hc.mono hw hv, hreturns⟩

theorem Query.mirrors_elementClass (hc : w.Namesakes v c c') :
    Mirrors L t n (elementClass c) (elementClass c') w v
      fun w' v' => Result.Alike (Option.Rel (w'.Namesakes v')) := by
  apply (mirrors_name hl hc).bind
  rintro full _ w₁ v₁ _ _ hl₁ rfl
  cases full.isArray with
  | false => exact follows_pure hl₁ (.error _)
  | true =>
    cases full.element? with
    | none =>
      apply (Script.mirrors_emit hl₁ _).bind
      intro _ _ w₂ v₂ _ _ hl₂ _
      exact follows_pure hl₂ (.ok .none)
    | some e =>
      cases e with
      | primitive p =>
        have hp := (hl₁.1.exchange hl₁.2.1).primitive p
        exact follows_pure hl₁ (.ok (.some hp))
      | named inner => exact (Script.mirrors_register ht hl₁ inner).map fun _ _ _ _ _ _ _ hc => .ok (.some hc)

theorem Query.mirrors_outerClass (hc : w.Namesakes v c c') :
    Mirrors L t n (outerClass c) (outerClass c') w v fun w' v' => Result.Alike (w'.Namesakes v') := by
  apply (mirrors_name hl hc).bind
  rintro full _ w₁ v₁ _ _ hl₁ rfl
  cases full.outer? with
  | none => exact follows_pure hl₁ (.error _)
  | some outer => exact (Script.mirrors_register ht hl₁ outer).map fun _ _ _ _ _ _ _ hc => .ok hc

end Names

theorem Signature.Alike.agrees {s s' : Signature} (h : s.Alike (w.Namesakes v) s') :
    s.Agrees (Linked L t) Namesakes w v s' := by
  intro w' v' hl hw hv m m' hm
  exact (h.mono fun _ _ hc => hc.mono hw hv).accepts (Session.namesakes_biUnique hl.1.named hl.2.1.named) hm

namespace Answer

theorem mirrors_flag {q q' : Script Bool} (hq : Mirrors L t n q q' w v Reads) :
    Mirrors L t n (do return Answer.flag (← q)) (do return Answer.flag (← q')) w v Reads :=
  hq.map fun _ _ _ _ _ _ _ hb => congrArg Answer.flag hb

end Answer

theorem Session.Namesakes.mirrors_bind {α α' β β' : Type} {A : Session → Session → α → α' → Prop}
    {B : Session → Session → β → β' → Prop} {q : Script α} {q' : Script α'} {f : α → Script β}
    {f' : α' → Script β'} (hc : w.Namesakes v c c') (hq : Mirrors L t n q q' w v A)
    (hf : ∀ a a' w₁ v₁, Linked L t w₁ v₁ → w₁.Namesakes v₁ c c' → Mirrors L t n (f a) (f' a') w₁ v₁ B) :
    Mirrors L t n (q >>= f) (q' >>= f') w v B :=
  hq.bind fun a a' w₁ v₁ hw hv hl₁ _ => hf a a' w₁ v₁ hl₁ (hc.mono hw hv)

section Steps

variable (hL : L.ByName) (ht : t.Uniform L) (hl : Linked L t w v)
include hL ht hl

theorem ClassStep.OrderFree.mirrors {x : ClassStep} (hx : x.OrderFree) (hc : w.Namesakes v c c') :
    Mirrors L t n (x.script L c) (x.script L c') w v Reads := by
  have h := Session.tracking_namesakes hL ht (n + 1) n
  have hn := Nat.le_refl (n + 1)
  have hname : Mirrors L t n (Query.name c) (Query.name c') w v Reads := Query.mirrors_name hl hc
  cases hx with
  | display | describe | shortName => exact hname.map fun _ _ _ _ _ _ _ he => by rw [he]
  | isArray => exact Answer.mirrors_flag (Query.mirrors_isArray hl hc)
  | isInner => exact Answer.mirrors_flag (Query.mirrors_isInner hl hc)
  | sameAs other =>
    apply (Script.mirrors_register ht hl other).map
    intro w₁ v₁ o o' hw hv hl₁ ho
    have he : c = o ↔ c' = o' := rel_eq (h.biUnique hl₁) (hc.mono hw hv) ho
    simp [he]
  | isMissing => exact Answer.mirrors_flag (h.query_isMissing hl hc)
  | isFramework => exact Answer.mirrors_flag (h.query_isFramework hl hc)
  | isPrimitive => exact follows_pure hl (congrArg Answer.flag (h.isPrimitive hl hc))
  | isFinal | isInterface | isAbstract => exact Answer.mirrors_flag (h.query_hasFlag hl hc _)
  | elementClass =>
    apply (Query.mirrors_elementClass ht hl hc).bind
    intro _ _ w₁ v₁ _ _ hl₁ he
    cases he with
    | error m => exact follows_pure hl₁ rfl
    | ok he => exact Answer.mirrors_ofClass? hl₁ he
  | outerClass =>
    apply (Query.mirrors_outerClass ht hl hc).bind
    intro _ _ w₁ v₁ _ _ hl₁ ho
    cases ho with
    | error m => exact follows_pure hl₁ rfl
    | ok ho => exact Answer.mirrors_ofClass hl₁ ho
  | superClass => exact (h.query_superClass hl hc).bind fun _ _ _ _ _ _ hl₁ => Answer.mirrors_ofClass? hl₁
  | interfaces => exact (h.query_interfaces hl hc).bind fun _ _ _ _ _ _ hl₁ => Answer.mirrors_ofClasses hl₁
  | isConvertibleTo target =>
    apply (Script.mirrors_register ht hl target).bind
    intro o o' w₁ v₁ hw hv hl₁ ho
    exact Answer.mirrors_flag (h.query_isConvertibleTo hn hl₁ (hc.mono hw hv) ho)
  | fieldType field =>
    exact (h.query_fieldType hn hl hc field).bind fun _ _ _ _ _ _ hl₁ => Answer.mirrors_ofClass? hl₁
  | staticFieldType field =>
    exact (h.query_staticFieldType hn hl hc field).bind fun _ _ _ _ _ _ hl₁ => Answer.mirrors_ofClass? hl₁
  | fields => exact (h.query_fields hl hc).bind fun _ _ _ _ _ _ hl₁ => Answer.mirrors_ofFields? hl₁
  | staticFields => exact (h.query_staticFields hl hc).bind fun _ _ _ _ _ _ hl₁ => Answer.mirrors_ofFields? hl₁
  | allMethods => exact (h.query_allMethods hn hl hc).bind fun _ _ _ _ _ _ hl₁ => Answer.mirrors_ofMethods? hl₁
  | findMethodHere s hs =>
    apply (SignatureOutline.mirrors_read ht hl hs).bind
    intro s s' w₁ v₁ hw hv hl₁ hs
    exact (h.query_findMethodHere hl₁ (hc.mono hw hv) hs.agrees).bind fun _ _ _ _ _ _ hl₂ =>
      Answer.mirrors_ofMethod? hl₂
  | findMethod s hs =>
    apply (SignatureOutline.mirrors_read ht hl hs).bind
    intro s s' w₁ v₁ hw hv hl₁ hs
    exact (h.query_findMethod hn hl₁ (hc.mono hw hv) hs.agrees).bind fun _ _ _ _ _ _ hl₂ =>
      Answer.mirrors_ofMethod? hl₂
  | findMethodsHere method =>
    exact (h.query_findMethodsHere hl hc method).bind fun _ _ _ _ _ _ hl₁ => Answer.mirrors_ofMethods? hl₁
  | findMethods method =>
    exact (h.query_findMethods hn hl hc method).bind fun _ _ _ _ _ _ hl₁ => Answer.mirrors_ofMethods? hl₁
  | defaultConstructor =>
    have hs : Signature.Alike (w.Namesakes v) .defaultConstructor .defaultConstructor := ⟨rfl, .nil, .none⟩
    exact (h.query_findMethodHere hl hc hs.agrees).bind fun _ _ _ _ _ _ hl₁ => Answer.mirrors_ofMethod? hl₁
  | staticInitializer =>
    have hs : Signature.Alike (w.Namesakes v) .staticInitializer .staticInitializer := ⟨rfl, .nil, .none⟩
    exact (h.query_findMethod hn hl hc hs.agrees).bind fun _ _ _ _ _ _ hl₁ => Answer.mirrors_ofMethod? hl₁

theorem Query.mirrors_summary (hc : w.Namesakes v c c') :
    Mirrors L t n (summary c) (summary c') w v fun _ _ _ _ => True := by
  have h := Session.tracking_namesakes hL ht (n + 1) n
  apply hc.mirrors_bind (h.query_isMissing hl hc)
  intro _ _ w v hl hc
  apply hc.mirrors_bind (h.query_isFramework hl hc)
  intro _ _ w v hl hc
  apply hc.mirrors_bind (h.query_hasFlag hl hc _)
  intro _ _ w v hl hc
  apply hc.mirrors_bind (h.query_hasFlag hl hc _)
  intro _ _ w v hl hc
  apply hc.mirrors_bind (h.query_hasFlag hl hc _)
  intro _ _ w v hl hc
  apply hc.mirrors_bind (mirrors_isArray hl hc)
  intro _ _ w v hl hc
  apply hc.mirrors_bind (mirrors_isInner hl hc)
  intro _ _ w v hl hc
  apply hc.mirrors_bind (h.query_isAlmostFinal hl hc)
  intro _ _ w v hl hc
  apply hc.mirrors_bind (h.query_superClass hl hc)
  intro _ _ w v hl hc
  apply hc.mirrors_bind (h.query_interfaces hl hc)
  intro _ _ w v hl hc
  apply hc.mirrors_bind (h.query_derivedClasses hl hc)
  intro _ _ w v hl hc
  exact follows_inspect (follows_pure hl trivial)

theorem ClassStep.Plain.mirrors {x : ClassStep} (hx : x.Plain) (hc : w.Namesakes v c c') :
    Mirrors L t n (x.script L c) (x.script L c') w v fun _ _ _ _ => True := by
  have h := Session.tracking_namesakes hL ht (n + 1) n
  cases hx with
  | orderFree hx => exact (hx.mirrors hL ht hl hc).imp fun _ _ _ _ _ _ => trivial
  | id => exact follows_pure hl trivial
  | isAlmostFinal => exact (h.query_isAlmostFinal hl hc).map fun _ _ _ _ _ _ _ _ => trivial
  | derivedClasses =>
    exact (h.query_derivedClasses hl hc).bind fun _ _ _ _ _ _ hl₁ _ =>
      follows_inspect (follows_pure hl₁ trivial)
  | summary => exact (Query.mirrors_summary hL ht hl hc).map fun _ _ _ _ _ _ _ _ => trivial

theorem Step.OrderFree.mirrors {x : Step} (hx : x.OrderFree) :
    Mirrors L t n (x.script L) (x.script L) w v Reads := by
  cases hx with
  | register name =>
    exact (Script.mirrors_register ht hl name).bind fun _ _ _ _ _ _ hl₁ => Answer.mirrors_ofClass hl₁
  | registerAll names =>
    have hnames : (names.map TypeRef.named).all TypeRef.isNamed = true := by simp [TypeRef.isNamed]
    exact (TypeRef.mirrors_readAll ht hl hnames).bind fun _ _ _ _ _ _ hl₁ => Answer.mirrors_ofClasses hl₁
  | primitives =>
    apply Answer.mirrors_ofClasses hl
    rw [forall₂_map_left_iff, forall₂_map_right_iff, forall₂_same]
    intro p _
    exact (hl.1.exchange hl.2.1).primitive p
  | primitive code =>
    apply Answer.mirrors_ofClass? hl
    cases code.bind Primitive.ofCode? with
    | none => exact .none
    | some p => exact .some ((hl.1.exchange hl.2.1).primitive p)
  | classById name =>
    apply (Script.mirrors_register ht hl name).bind
    intro c c' w₁ v₁ _ _ hl₁ hc
    apply follows_inspect
    have hlt : c.index < w₁.scope.size := hc.1
    have hlt' : c'.index < v₁.scope.size := hc.2.1
    rw [if_pos hlt, if_pos hlt']
    exact Answer.mirrors_ofClass hl₁ hc
  | missingDeclaration => exact follows_inspect (follows_pure hl rfl)
  | onClass name hx =>
    apply (Script.mirrors_register ht hl name).bind
    intro c c' w₁ v₁ _ _ hl₁ hc
    exact hx.mirrors hL ht hl₁ hc

theorem Step.Plain.mirrors {x : Step} (hx : x.Plain) :
    Mirrors L t n (x.script L) (x.script L) w v fun _ _ _ _ => True := by
  cases hx with
  | orderFree hx => exact (hx.mirrors hL ht hl).imp fun _ _ _ _ _ _ => trivial
  | findClass name =>
    apply follows_inspect
    intro a w' he _
    obtain ⟨b, hb⟩ := Answer.ends_ofClass? (w.scope.find? name) w
    obtain ⟨rfl, rfl⟩ := he.unique hb
    obtain ⟨a', ha'⟩ := Answer.ends_ofClass? (v.scope.find? name) v
    exact ⟨a', v, ha', .refl _, hl, trivial⟩
  | allClasses => exact follows_inspect (follows_inspect (follows_pure hl trivial))
  | dump | size | isEmpty | describeScope => exact follows_inspect (follows_pure hl trivial)
  | countDistinct names =>
    have hnames : (names.map TypeRef.named).all TypeRef.isNamed = true := by simp [TypeRef.isNamed]
    exact (TypeRef.mirrors_readAll ht hl hnames).map fun _ _ _ _ _ _ _ _ => trivial
  | onClass name hx =>
    apply (Script.mirrors_register ht hl name).bind
    intro c c' w₁ v₁ _ _ hl₁ hc
    exact hx.mirrors hL ht hl₁ hc

end Steps

end ClassHierarchy
