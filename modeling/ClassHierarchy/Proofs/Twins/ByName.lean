import ClassHierarchy.Loader.Stub
import ClassHierarchy.Loader.Table
import ClassHierarchy.Proofs.Run.Control
import ClassHierarchy.Proofs.Scope.Names
import ClassHierarchy.Proofs.Twins.Content

namespace ClassHierarchy

open List Relator

structure Exchange (R : ClassId → ClassId → Prop) : Prop where
  biUnique : BiUnique R
  primitive : ∀ p, R (.ofPrimitive p) (.ofPrimitive p)

inductive Script.Alike {α α' : Type} (R : ClassId → ClassId → Prop) (A : α → α' → Prop) :
    Script α → Script α' → Prop
  | done {a : α} {a' : α'} : A a a' → Alike R A (.done a) (.done a')
  | register {name : FullName} {k : ClassId → Script α} {k' : ClassId → Script α'} :
      (∀ c c', R c c' → Alike R A (k c) (k' c')) →
      Alike R A (.ask (.register name) k) (.ask (.register name) k')
  | emit {e : Event} {k : Unit → Script α} {k' : Unit → Script α'} :
      Alike R A (k ()) (k' ()) → Alike R A (.ask (.emit e) k) (.ask (.emit e) k')

inductive Result.Alike {ε α α' : Type} (A : α → α' → Prop) : Except ε α → Except ε α' → Prop
  | error (e : ε) : Alike A (.error e) (.error e)
  | ok {a : α} {a' : α'} : A a a' → Alike A (.ok a) (.ok a')

abbrev Outcome.Alike (R : ClassId → ClassId → Prop) :
    Except LoadError Declaration → Except LoadError Declaration → Prop := Result.Alike (Declaration.Alike R)

def Loader.ByName (L : Loader) : Prop :=
  ∀ R, Exchange R → ∀ c c' name, R c c' → Script.Alike R (Outcome.Alike R) (L c name) (L c' name)

namespace Script

variable {α α' β β' : Type} {R : ClassId → ClassId → Prop} {A : α → α' → Prop} {B : β → β' → Prop}

theorem alike_register (name : FullName) : Script.Alike R R (Script.register name) (Script.register name) :=
  .register fun _ _ hc => .done hc

theorem Alike.bind {q : Script α} {q' : Script α'} {f : α → Script β} {f' : α' → Script β'}
    (h : Script.Alike R A q q') (hf : ∀ a a', A a a' → Script.Alike R B (f a) (f' a')) :
    Script.Alike R B (q >>= f) (q' >>= f') := by
  induction h with
  | done ha => exact hf _ _ ha
  | register _ ih => exact .register ih
  | emit _ ih => exact .emit ih

theorem Alike.map {q : Script α} {q' : Script α'} {f : α → β} {f' : α' → β'} (h : Script.Alike R A q q')
    (hf : ∀ a a', A a a' → B (f a) (f' a')) :
    Script.Alike R B (do return f (← q)) (do return f' (← q')) :=
  h.bind fun a a' ha => .done (hf a a' ha)

end Script

namespace StubSources

open Script (Alike alike_register)

variable {R : ClassId → ClassId → Prop}

theorem registerAll_alike (names : List FullName) :
    Alike R (Forall₂ R) (registerAll names) (registerAll names) := by
  induction names with
  | nil => exact .done .nil
  | cons name names ih =>
    apply (alike_register name).bind
    intro c c' hc
    exact ih.map fun _ _ hcs => .cons hc hcs

theorem arrayDeclaration_alike (name : FullName) (synthesize : Bool) :
    Alike R (Outcome.Alike R) (arrayDeclaration name synthesize) (arrayDeclaration name synthesize) := by
  cases synthesize with
  | false => exact .done (.error _)
  | true =>
    apply (alike_register _).bind
    intro object object' ho
    apply (alike_register _).bind
    intro cloneable cloneable' hc
    apply (alike_register _).bind
    intro serializable serializable' hs
    exact .done (.ok ⟨.some ho, .cons hc (.cons hs .nil), .nil, .nil, .nil, rfl, rfl⟩)

theorem addFields_alike (name : FullName) (fs : List FieldStub) {d d' : Declaration} (hd : d.Alike R d') :
    Alike R (Outcome.Alike R) (addFields name d fs) (addFields name d' fs) := by
  induction fs generalizing d d' with
  | nil => exact .done (.ok hd)
  | cons f fs ih =>
    unfold addFields
    cases f.type with
    | error e => exact .done (.error _)
    | ok t =>
      apply (alike_register _).bind
      intro c c' hc
      cases hf : f.isStatic with
      | true => exact ih { hd with staticFields := hd.staticFields.insert hc f.name }
      | false => exact ih { hd with fields := hd.fields.insert hc f.name }

theorem addMethods_alike (name : FullName) (ms : List MethodStub) {owner owner' : ClassId}
    (howner : R owner owner') {d d' : Declaration} (hd : d.Alike R d') :
    Alike R (Outcome.Alike R) (addMethods owner name d ms) (addMethods owner' name d' ms) := by
  induction ms generalizing d d' with
  | nil => exact .done (.ok hd)
  | cons m ms ih =>
    unfold addMethods
    cases m.type with
    | error e => exact .done (.error _)
    | ok t =>
      apply (registerAll_alike _).bind
      intro params params' hparams
      apply (alike_register _).bind
      intro returns returns' hreturns
      exact ih { hd with methods := rel_append hd.methods (.cons ⟨howner, rfl, hparams, hreturns, rfl⟩ .nil) }

theorem stubDeclaration_alike {c c' : ClassId} (hc : R c c') (name : FullName) (s : ClassStub)
    (framework : Bool) :
    Alike R (Outcome.Alike R) (stubDeclaration c name s framework) (stubDeclaration c' name s framework) := by
  apply (registerAll_alike _).bind
  intro supers supers' hsupers
  apply (registerAll_alike _).bind
  intro interfaces interfaces' hinterfaces
  have hhead : Option.Rel R supers.head? supers'.head? := by
    cases hsupers with
    | nil => exact .none
    | cons hs _ => exact .some hs
  have hd : Declaration.Alike R
      { superClass := supers.head?, interfaces, flags := s.flags, framework }
      { superClass := supers'.head?, interfaces := interfaces', flags := s.flags, framework } :=
    ⟨hhead, hinterfaces, .nil, .nil, .nil, rfl, rfl⟩
  apply (addFields_alike name s.fields hd).bind
  intro o o' ho
  cases ho with
  | error e => exact .done (.error e)
  | ok hd => exact addMethods_alike name s.methods hc hd

theorem byName (src : StubSources) : src.loader.ByName := by
  intro R _ c c' name hc
  unfold loader
  cases name.isArray with
  | true => exact arrayDeclaration_alike name _
  | false =>
    cases src.stub? name with
    | none => exact .done (.error _)
    | some found =>
      obtain ⟨s, framework⟩ := found
      exact .emit (stubDeclaration_alike hc name s framework)

end StubSources

def TypeRef.isNamed : TypeRef → Bool
  | .named _ => true
  | .foreign _ => false

def SignatureOutline.isNamed (s : SignatureOutline) : Bool :=
  s.params.all TypeRef.isNamed && s.returns.all TypeRef.isNamed

def MethodOutline.isNamed (m : MethodOutline) : Bool :=
  m.params.all TypeRef.isNamed && m.returns.isNamed && m.owner.all TypeRef.isNamed

def Outline.isNamed (o : Outline) : Bool :=
  o.superClass.all TypeRef.isNamed && o.interfaces.all TypeRef.isNamed &&
    o.fields.all (·.2.isNamed) && o.staticFields.all (·.2.isNamed) && o.methods.all MethodOutline.isNamed

def LoaderTable.isPlain (t : LoaderTable) : Bool :=
  t.rows.all fun row => row.2.before.isEmpty && row.2.outline.isNamed

section Outlines

open Script (Alike alike_register)

variable {R : ClassId → ClassId → Prop}

theorem TypeRef.read_alike {t : TypeRef} (ht : t.isNamed = true) : Alike R R t.read t.read := by
  cases t with
  | named name => exact alike_register name
  | foreign c => cases ht

theorem TypeRef.readAll_alike {ts : List TypeRef} (hts : ts.all TypeRef.isNamed = true) :
    Alike R (Forall₂ R) (readAll ts) (readAll ts) := by
  induction ts with
  | nil => exact .done .nil
  | cons t ts ih =>
    rw [all_cons, Bool.and_eq_true] at hts
    apply (read_alike hts.1).bind
    intro c c' hc
    exact (ih hts.2).map fun _ _ hcs => .cons hc hcs

theorem TypeRef.read?_alike {t? : Option TypeRef} (ht : t?.all TypeRef.isNamed = true) :
    Alike R (Option.Rel R) (read? t?) (read? t?) := by
  cases t? with
  | none => exact .done .none
  | some t => exact (read_alike ht).map fun _ _ hc => .some hc

theorem MethodOutline.read_alike {m : MethodOutline} (hm : m.isNamed = true) {c c' : ClassId}
    (hc : R c c') : Alike R (Method.Alike R) (m.read c) (m.read c') := by
  simp only [isNamed, Bool.and_eq_true] at hm
  apply (TypeRef.readAll_alike hm.1.1).bind
  intro params params' hparams
  apply (TypeRef.read_alike hm.1.2).bind
  intro returns returns' hreturns
  apply (TypeRef.read?_alike hm.2).map
  intro owner owner' howner
  have ho : R (owner.getD c) (owner'.getD c') := by
    cases howner with
    | none => exact hc
    | some ho => exact ho
  exact ⟨ho, rfl, hparams, hreturns, rfl⟩

theorem MethodOutline.readAll_alike {ms : List MethodOutline} (hms : ms.all MethodOutline.isNamed = true)
    {c c' : ClassId} (hc : R c c') :
    Alike R (Forall₂ (Method.Alike R)) (readAll c ms) (readAll c' ms) := by
  induction ms with
  | nil => exact .done .nil
  | cons m ms ih =>
    rw [all_cons, Bool.and_eq_true] at hms
    apply (read_alike hms.1 hc).bind
    intro a a' ha
    exact (ih hms.2).map fun _ _ has => .cons ha has

theorem Outline.readFields_alike {fs : List (String × TypeRef)} (hfs : fs.all (·.2.isNamed) = true)
    {out out' : FieldTypes} (ho : out.Alike R out') :
    Alike R (FieldTypes.Alike R) (readFields out fs) (readFields out' fs) := by
  induction fs generalizing out out' with
  | nil => exact .done ho
  | cons f fs ih =>
    rw [all_cons, Bool.and_eq_true] at hfs
    apply (TypeRef.read_alike hfs.1).bind
    intro c c' hc
    exact ih hfs.2 (ho.insert hc f.1)

theorem Outline.read_alike {o : Outline} (ho : o.isNamed = true) {c c' : ClassId} (hc : R c c') :
    Alike R (Declaration.Alike R) (o.read c) (o.read c') := by
  simp only [isNamed, Bool.and_eq_true] at ho
  obtain ⟨⟨⟨⟨hsuper, hi⟩, hf⟩, hs⟩, hm⟩ := ho
  apply (TypeRef.read?_alike hsuper).bind
  intro superClass superClass' hsuper
  apply (TypeRef.readAll_alike hi).bind
  intro interfaces interfaces' hi
  apply (readFields_alike hf .nil).bind
  intro fields fields' hf
  apply (readFields_alike hs .nil).bind
  intro staticFields staticFields' hs
  apply (MethodOutline.readAll_alike hm hc).map
  intro methods methods' hm
  exact ⟨hsuper, hi, hf, hs, hm, rfl, rfl⟩

theorem LoaderTable.byName {t : LoaderTable} (ht : t.isPlain = true) : t.loader.ByName := by
  intro R _ c c' name hc
  change Alike R _ (t.loaderWithin (t.rows.length + 1) c name) (t.loaderWithin (t.rows.length + 1) c' name)
  unfold loaderWithin
  cases hrow : t.rows.lookup name with
  | none =>
    cases t.failures.lookup name with
    | some e => exact .done (.error e)
    | none => exact .done (.error _)
  | some row =>
    have hmem : (name, row) ∈ t.rows := by
      obtain ⟨before, after, hsplit, -⟩ := lookup_eq_some_iff.mp hrow
      simp [hsplit]
    have hplain := all_eq_true.mp ht _ hmem
    simp only [Bool.and_eq_true, List.isEmpty_iff] at hplain
    simp only [Option.elim_some, hplain.1]
    cases t.failures.lookup name with
    | some e => exact .done (.error e)
    | none => exact (Outline.read_alike hplain.2 hc).map fun _ _ hd => .ok hd

end Outlines

end ClassHierarchy
