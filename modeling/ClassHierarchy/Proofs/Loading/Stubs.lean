import ClassHierarchy.Proofs.Twins.Steps

namespace ClassHierarchy

theorem FieldTypes.find?_cons (n x : String) (t : ClassId) (fs : FieldTypes) :
    FieldTypes.find? ((n, t) :: fs) x = if x = n then some t else fs.find? x := by
  unfold FieldTypes.find?
  rw [List.lookup_cons]
  by_cases hx : x = n
  · simp [hx]
  · simp [hx, beq_false_of_ne hx]

theorem FieldTypes.find?_insert (fs : FieldTypes) (name x : String) (c : ClassId) :
    (fs.insert name c).find? x = if x = name then some c else fs.find? x := by
  induction fs with
  | nil => exact find?_cons name x c []
  | cons p fs ih =>
    obtain ⟨n, t⟩ := p
    unfold FieldTypes.insert
    split
    next hn =>
      subst hn
      rw [find?_cons, find?_cons]
      split <;> rfl
    next hn =>
      rw [find?_cons, find?_cons, ih]
      by_cases hx : x = n
      · simp [hx, hn]
      · simp [hx]

def FieldStub.lastType? (fs : List FieldStub) (static : Bool) (name : String) : Option FullName :=
  (fs.reverse.find? fun f => f.isStatic == static && f.name == name).bind fun f =>
    f.type.toOption.map FieldType.fullName

def MethodStub.view (owner : FullName) (m : MethodStub) (t : MethodDescriptor) : MethodView where
  owner := .named owner
  name := m.name
  params := t.params.map fun p => .named p.fullName
  returns := .named t.returns.fullName
  flags := m.flags

structure ClassStub.Readable (s : ClassStub) : Prop where
  fields : ∀ f ∈ s.fields, ∃ t, f.type = .ok t
  methods : ∀ m ∈ s.methods, ∃ t, m.type = .ok t

def Declaration.fieldsOf (d : Declaration) (static : Bool) : FieldTypes :=
  if static then d.staticFields else d.fields

/-- In the scope `s`, `d` says of the class `owner` what `stub` says. -/
structure Declaration.Renders (d : Declaration) (s : Scope) (owner : FullName) (stub : ClassStub)
    (framework : Bool) : Prop where
  superClass : d.superClass.map s.ref = if stub.isInterface then none else stub.superName.map .named
  interfaces : d.interfaces.map s.ref = stub.interfaces.map .named
  fields : ∀ static x,
    ((d.fieldsOf static).find? x).map s.ref = (FieldStub.lastType? stub.fields static x).map .named
  methods : List.Forall₂ (fun v m => ∃ t, MethodStub.type m = .ok t ∧ v = m.view owner t)
    (d.methods.map s.viewMethod) stub.methods
  flags : d.flags = stub.flags
  framework : d.framework = framework

namespace StubSources

open Script (replay replay_bind replay_register)

variable {s : Scope} {c : ClassId} {name : FullName} {stub : ClassStub} {framework : Bool}
  {d : Declaration} {o : Except LoadError Declaration}

theorem ref_of_find? {n : FullName} (h : s.find? n = some c) : s.ref c = .named n := by
  obtain ⟨hc, hn⟩ := Scope.find?_eq_some h
  rw [Scope.ref_of_registered hc, hn]

theorem replay_arrayDeclaration (h : replay s (arrayDeclaration name true) = some o) :
    ∃ object cloneable serializable, s.find? "java.lang.Object" = some object ∧
      s.find? "java.lang.Cloneable" = some cloneable ∧ s.find? "java.io.Serializable" = some serializable ∧
      o = .ok {
        superClass := some object
        interfaces := [cloneable, serializable]
        flags := .publicBit ||| .finalBit ||| .abstractBit
        framework := true } := by
  simp only [arrayDeclaration, if_true, replay_bind, replay_register] at h
  obtain ⟨object, hobject, h⟩ := Option.bind_eq_some_iff.mp h
  obtain ⟨cloneable, hcloneable, h⟩ := Option.bind_eq_some_iff.mp h
  obtain ⟨serializable, hserializable, h⟩ := Option.bind_eq_some_iff.mp h
  exact ⟨object, cloneable, serializable, hobject, hcloneable, hserializable, (Option.some.inj h).symm⟩

theorem lastType?_cons {f : FieldStub} {t : FieldType} {fs : List FieldStub} (hf : f.type = .ok t)
    (hfs : ∀ g ∈ fs, ∃ t, g.type = .ok t) (static : Bool) (x : String) :
    FieldStub.lastType? (f :: fs) static x =
      (FieldStub.lastType? fs static x).or (if f.isStatic = static ∧ f.name = x then some t.fullName else none) := by
  unfold FieldStub.lastType?
  rw [List.reverse_cons, List.find?_append]
  cases hlast : fs.reverse.find? fun f => f.isStatic == static && f.name == x with
  | none =>
    by_cases hx : f.isStatic = static ∧ f.name = x
    · simp [hx, hf, Except.toOption]
    · have hno : (f.isStatic == static && f.name == x) = false := by simpa using hx
      simp [hx, hno]
  | some g =>
    obtain ⟨t', ht'⟩ := hfs g (List.mem_reverse.mp (List.mem_of_find?_eq_some hlast))
    simp [ht', Except.toOption]

theorem replay_registerAll {names : List FullName} {cs : List ClassId}
    (h : replay s (registerAll names) = some cs) : cs.map s.ref = names.map .named := by
  induction names generalizing cs with
  | nil =>
    obtain rfl := Option.some.inj h
    rfl
  | cons n ns ih =>
    unfold registerAll at h
    rw [replay_bind, replay_register] at h
    obtain ⟨c, hc, h⟩ := Option.bind_eq_some_iff.mp h
    rw [replay_bind] at h
    obtain ⟨cs', hcs, h⟩ := Option.bind_eq_some_iff.mp h
    obtain rfl := Option.some.inj h
    rw [List.map_cons, List.map_cons, ref_of_find? hc, ih hcs]

theorem map_ref_addField {f : FieldStub} {n : FullName} (hc : s.find? n = some c) (static : Bool) (x : String) :
    (((if f.isStatic then { d with staticFields := d.staticFields.insert f.name c }
      else { d with fields := d.fields.insert f.name c } : Declaration).fieldsOf static).find? x).map s.ref =
      ((if f.isStatic = static ∧ f.name = x then some n else none).map .named).or
        (((d.fieldsOf static).find? x).map s.ref) := by
  by_cases hk : f.isStatic = static
  · subst hk
    cases f.isStatic
    all_goals
      simp only [Declaration.fieldsOf, if_true, Bool.false_eq_true, if_false, FieldTypes.find?_insert]
      by_cases hx : x = f.name
      · simp [hx, ref_of_find? hc]
      · simp [hx, Ne.symm hx]
  · cases hs : f.isStatic <;> cases static <;> simp_all [Declaration.fieldsOf]

theorem replay_addFields {fs : List FieldStub} (h : replay s (addFields name d fs) = some o) :
    (∃ fields staticFields, o = .ok { d with fields, staticFields } ∧ (∀ f ∈ fs, ∃ t, f.type = .ok t) ∧
      ∀ static x, ((({ d with fields, staticFields } : Declaration).fieldsOf static).find? x).map s.ref =
        ((FieldStub.lastType? fs static x).map .named).or (((d.fieldsOf static).find? x).map s.ref)) ∨
    (∃ e, o = .error e) ∧ ∃ f ∈ fs, ∃ e, f.type = .error e := by
  induction fs generalizing d with
  | nil =>
    obtain rfl := Option.some.inj h
    exact .inl ⟨d.fields, d.staticFields, rfl, nofun, fun static x => by simp [FieldStub.lastType?]⟩
  | cons f fs ih =>
    unfold addFields at h
    cases hf : f.type with
    | error e =>
      rw [hf] at h
      obtain rfl := Option.some.inj h
      exact .inr ⟨⟨_, rfl⟩, f, List.mem_cons_self, e, hf⟩
    | ok t =>
      rw [hf] at h
      dsimp only at h
      rw [replay_bind, replay_register] at h
      obtain ⟨c, hc, h⟩ := Option.bind_eq_some_iff.mp h
      obtain ⟨fields, statics, ho, hread, hfields⟩ | ⟨ho, g, hg, hbad⟩ := ih h
      · refine .inl ⟨fields, statics, ?_, List.forall_mem_cons.mpr ⟨⟨t, hf⟩, hread⟩, fun static x => ?_⟩
        · rw [ho]
          split <;> rfl
        · have hx := hfields static x
          rw [map_ref_addField hc] at hx
          rw [lastType?_cons hf hread, Option.map_or, Option.or_assoc, ← hx]
          split <;> rfl
      · exact .inr ⟨ho, g, List.mem_cons_of_mem f hg, hbad⟩

theorem replay_addMethods {ms : List MethodStub} (hc : s.ref c = .named name)
    (h : replay s (addMethods c name d ms) = some o) :
    (∃ added, o = .ok { d with methods := d.methods ++ added } ∧ (∀ m ∈ ms, ∃ t, m.type = .ok t) ∧
      List.Forall₂ (fun v m => ∃ t, MethodStub.type m = .ok t ∧ v = m.view name t)
        (added.map s.viewMethod) ms) ∨
    (∃ e, o = .error e) ∧ ∃ m ∈ ms, ∃ e, m.type = .error e := by
  induction ms generalizing d with
  | nil =>
    obtain rfl := Option.some.inj h
    exact .inl ⟨[], by rw [List.append_nil], nofun, .nil⟩
  | cons m ms ih =>
    unfold addMethods at h
    cases hm : m.type with
    | error e =>
      rw [hm] at h
      obtain rfl := Option.some.inj h
      exact .inr ⟨⟨_, rfl⟩, m, List.mem_cons_self, e, hm⟩
    | ok t =>
      rw [hm] at h
      dsimp only at h
      rw [replay_bind] at h
      obtain ⟨params, hparams, h⟩ := Option.bind_eq_some_iff.mp h
      rw [replay_bind, replay_register] at h
      obtain ⟨returns, hreturns, h⟩ := Option.bind_eq_some_iff.mp h
      obtain ⟨added, ho, hread, hadded⟩ | ⟨ho, m', hm', hbad⟩ := ih h
      · let method : Method := { owner := c, name := m.name, params, returns, flags := m.flags }
        have hview : s.viewMethod method = m.view name t := by
          simp [Scope.viewMethod, MethodStub.view, method, hc, ref_of_find? hreturns,
            replay_registerAll hparams, Function.comp_def]
        refine .inl ⟨method :: added, ?_, List.forall_mem_cons.mpr ⟨⟨t, hm⟩, hread⟩,
          .cons ⟨t, hm, hview⟩ hadded⟩
        rw [ho, List.append_assoc]
        rfl
      · exact .inr ⟨ho, m', List.mem_cons_of_mem m hm', hbad⟩

theorem replay_stubDeclaration (hc : s.ref c = .named name)
    (h : replay s (stubDeclaration c name stub framework) = some o) :
    (stub.Readable ∧ ∃ d, o = .ok d ∧ d.Renders s name stub framework) ∨
      ¬ stub.Readable ∧ ∃ e, o = .error e := by
  unfold stubDeclaration at h
  rw [replay_bind] at h
  obtain ⟨supers, hsupers, h⟩ := Option.bind_eq_some_iff.mp h
  rw [replay_bind] at h
  obtain ⟨interfaces, hinterfaces, h⟩ := Option.bind_eq_some_iff.mp h
  rw [replay_bind] at h
  obtain ⟨o₁, hadd, h⟩ := Option.bind_eq_some_iff.mp h
  obtain ⟨fields, statics, rfl, hread, hfields⟩ | ⟨⟨e, rfl⟩, f, hf, e', hbad⟩ := replay_addFields hadd
  · obtain ⟨methods, ho, hreadm, hmethods⟩ | ⟨ho, m, hm, e, hbad⟩ := replay_addMethods hc h
    · refine .inl ⟨⟨hread, hreadm⟩, _, ho, ?_⟩
      refine ⟨?_, replay_registerAll hinterfaces, fun static x => ?_, hmethods, rfl, rfl⟩
      · change supers.head?.map s.ref = _
        rw [← List.head?_map, replay_registerAll hsupers]
        cases stub.isInterface with
        | true => rfl
        | false => cases stub.superName <;> rfl
      · refine (hfields static x).trans ?_
        cases static <;> exact Option.or_none
    · refine .inr ⟨fun hr => ?_, ho⟩
      obtain ⟨t, ht⟩ := hr.methods m hm
      rw [hbad] at ht
      cases ht
  · refine .inr ⟨fun hr => ?_, _, Option.some.inj h.symm⟩
    obtain ⟨t, ht⟩ := hr.fields f hf
    rw [hbad] at ht
    cases ht

end StubSources

end ClassHierarchy
