import ClassHierarchy.Loader.Table
import ClassHierarchy.Proofs.Run.Speaking

namespace ClassHierarchy

def TypeRef.names : TypeRef → List FullName
  | .named name => [name]
  | .foreign _ => []

def SignatureOutline.names (s : SignatureOutline) : List FullName :=
  s.params.flatMap TypeRef.names ++ s.returns.toList.flatMap TypeRef.names

def MethodOutline.names (m : MethodOutline) : List FullName :=
  m.params.flatMap TypeRef.names ++ m.returns.names ++ m.owner.toList.flatMap TypeRef.names

def Outline.names (o : Outline) : List FullName :=
  o.superClass.toList.flatMap TypeRef.names ++ o.interfaces.flatMap TypeRef.names ++
    o.fields.flatMap (fun f => f.2.names) ++ o.staticFields.flatMap (fun f => f.2.names) ++
    o.methods.flatMap MethodOutline.names

def ClassStep.names : ClassStep → List FullName
  | .sameAs t | .rebind t | .isConvertibleTo t => t.names
  | .findMethodHere s | .findMethod s => s.names
  | .attach o | .outline o => o.names
  | .attachMissing target => target.toList
  | .outlineRebased o target => o.names ++ target.toList
  | .methodFacts m signatures => m.names ++ signatures.flatMap SignatureOutline.names
  | _ => []

def Step.names : Step → List FullName
  | .register name => [name]
  | .registerAll names | .countDistinct names => names
  | .classById t => t.names
  | .onClass t step => t.names ++ step.names
  | _ => []

variable {B : FullName → Prop} {L : Loader} {c : ClassId}

open Script

section Outlines

theorem TypeRef.speaks_read {t : TypeRef} (h : ∀ n ∈ t.names, B n) : t.read.Speaks B := by
  cases t with
  | named name => exact speaks_register (h name (List.mem_singleton.mpr rfl))
  | foreign c => trivial

theorem TypeRef.speaks_readAll {ts : List TypeRef} (h : ∀ n ∈ ts.flatMap TypeRef.names, B n) :
    (readAll ts).Speaks B := by
  induction ts with
  | nil => trivial
  | cons t ts ih =>
    rw [List.flatMap_cons] at h
    obtain ⟨ht, hts⟩ := List.forall_mem_append.mp h
    exact (speaks_read ht).bind fun _ => (ih hts).map _

theorem TypeRef.speaks_read? {t? : Option TypeRef} (h : ∀ n ∈ t?.toList.flatMap TypeRef.names, B n) :
    (read? t?).Speaks B := by
  cases t? with
  | none => trivial
  | some t =>
    rw [Option.toList_some, List.flatMap_singleton] at h
    exact (speaks_read h).map _

theorem TypeRef.speaks_readNames {names : List FullName} (h : ∀ n ∈ names, B n) :
    (readAll (names.map .named)).Speaks B := by
  apply speaks_readAll
  intro n hn
  simp only [List.flatMap_map, List.mem_flatMap, TypeRef.names, List.mem_singleton] at hn
  obtain ⟨_, hm, rfl⟩ := hn
  exact h n hm

theorem TypeRef.speaks_readName? {name? : Option FullName} (h : ∀ n ∈ name?.toList, B n) :
    (read? (name?.map .named)).Speaks B := by
  cases name? with
  | none => trivial
  | some name => exact (speaks_register (h name (by simp))).map _

theorem SignatureOutline.speaks_read {s : SignatureOutline} (h : ∀ n ∈ s.names, B n) : s.read.Speaks B := by
  obtain ⟨hparams, hreturns⟩ := List.forall_mem_append.mp h
  exact (TypeRef.speaks_readAll hparams).bind fun _ => (TypeRef.speaks_read? hreturns).map _

theorem SignatureOutline.speaks_readAll {ss : List SignatureOutline}
    (h : ∀ n ∈ ss.flatMap SignatureOutline.names, B n) : (readAll ss).Speaks B := by
  induction ss with
  | nil => trivial
  | cons s ss ih =>
    rw [List.flatMap_cons] at h
    obtain ⟨hs, hss⟩ := List.forall_mem_append.mp h
    exact (speaks_read hs).bind fun _ => (ih hss).map _

theorem MethodOutline.speaks_read {m : MethodOutline} (h : ∀ n ∈ m.names, B n) : (m.read c).Speaks B := by
  obtain ⟨h, howner⟩ := List.forall_mem_append.mp h
  obtain ⟨hparams, hreturns⟩ := List.forall_mem_append.mp h
  apply (TypeRef.speaks_readAll hparams).bind
  intro params
  apply (TypeRef.speaks_read hreturns).bind
  intro returns
  exact (TypeRef.speaks_read? howner).map _

theorem MethodOutline.speaks_readAll {ms : List MethodOutline} (h : ∀ n ∈ ms.flatMap MethodOutline.names, B n) :
    (readAll c ms).Speaks B := by
  induction ms with
  | nil => trivial
  | cons m ms ih =>
    rw [List.flatMap_cons] at h
    obtain ⟨hm, hms⟩ := List.forall_mem_append.mp h
    exact (speaks_read hm).bind fun _ => (ih hms).map _

theorem Outline.speaks_readFields {fs : List (String × TypeRef)} (h : ∀ n ∈ fs.flatMap (fun f => f.2.names), B n)
    (known : FieldTypes) : (readFields known fs).Speaks B := by
  induction fs generalizing known with
  | nil => trivial
  | cons f fs ih =>
    rw [List.flatMap_cons] at h
    obtain ⟨hf, hfs⟩ := List.forall_mem_append.mp h
    exact (TypeRef.speaks_read hf).bind fun _ => ih hfs _

theorem Outline.speaks_read {o : Outline} (h : ∀ n ∈ o.names, B n) : (o.read c).Speaks B := by
  obtain ⟨h, hmethods⟩ := List.forall_mem_append.mp h
  obtain ⟨h, hstatics⟩ := List.forall_mem_append.mp h
  obtain ⟨h, hfields⟩ := List.forall_mem_append.mp h
  obtain ⟨hsuper, hinterfaces⟩ := List.forall_mem_append.mp h
  apply (TypeRef.speaks_read? hsuper).bind
  intro superClass
  apply (TypeRef.speaks_readAll hinterfaces).bind
  intro interfaces
  apply (speaks_readFields hfields []).bind
  intro fields
  apply (speaks_readFields hstatics []).bind
  intro staticFields
  exact (MethodOutline.speaks_readAll hmethods).map _

end Outlines

open Answer Query in
theorem ClassStep.speaks (hB : Vocabulary B) (hL : L.Speaks B) {x : ClassStep} (h : ∀ n ∈ x.names, B n)
    (c : ClassId) : (x.script L c).Speaks B := by
  cases x with
  | sameAs other =>
    cases other with
    | named other => exact (speaks_register (h other (List.mem_singleton.mpr rfl))).map _
    | foreign _ => trivial
  | elementClass =>
    apply (speaks_elementClass hB c).bind
    intro e
    cases e with
    | ok e => exact (reads_ofClass? e).speaks
    | error m => trivial
  | outerClass =>
    apply (speaks_outerClass hB c).bind
    intro o
    cases o with
    | ok o => exact (reads_ofClass o).speaks
    | error m => trivial
  | rebind target =>
    apply (TypeRef.speaks_read h).bind
    intro p
    exact (speaks_request (r := .rebind c p) trivial).map _
  | isConvertibleTo target =>
    exact (TypeRef.speaks_read h).bind fun p => ((reads_isConvertibleTo c p).map _).speaks
  | findMethodHere s =>
    apply (SignatureOutline.speaks_read h).bind
    intro sig
    exact ((reads_findMethodHere c sig).bind fun _ => reads_ofMethod? _).speaks
  | findMethod s =>
    apply (SignatureOutline.speaks_read h).bind
    intro sig
    exact ((reads_findMethod c sig).bind fun _ => reads_ofMethod? _).speaks
  | attach o =>
    apply (Outline.speaks_read h).bind
    intro d
    exact (speaks_request (r := .attach c d) trivial).map _
  | attachMissing target =>
    apply (TypeRef.speaks_readName? h).bind
    intro p
    exact (speaks_request (r := .attach c (Declaration.missing.withSuperClass p)) trivial).map _
  | outline o => exact (Outline.speaks_read h).bind fun d => (reads_ofDeclaration d).speaks
  | outlineRebased o target =>
    obtain ⟨ho, htarget⟩ := List.forall_mem_append.mp h
    apply (Outline.speaks_read ho).bind
    intro d
    apply (TypeRef.speaks_readName? htarget).bind
    intro p
    exact (reads_inspect fun _ => reads_pure _).speaks
  | loadDirectly =>
    apply speaks_name hB
    intro name hname
    apply (hL c name hname).bind
    intro o
    cases o with
    | ok d => exact (reads_ofDeclaration d).speaks
    | error e => trivial
  | methodFacts m signatures =>
    obtain ⟨hm, hsignatures⟩ := List.forall_mem_append.mp h
    apply (MethodOutline.speaks_read hm).bind
    intro method
    apply (SignatureOutline.speaks_readAll hsignatures).bind
    intro sigs
    exact ((reads_methodFacts method sigs).map _).speaks
  | _ => exact (ClassStep.reads rfl L c).speaks

open Answer in
theorem Step.speaks (hB : Vocabulary B) (hL : L.Speaks B) {x : Step} (h : ∀ n ∈ x.names, B n) :
    (x.script L).Speaks B := by
  cases x with
  | findClass name => exact (reads_inspect fun _ => reads_ofClass? _).speaks
  | register name => exact (speaks_register (h name (List.mem_singleton.mpr rfl))).bind fun c => (reads_ofClass c).speaks
  | registerAll names => exact (TypeRef.speaks_readNames h).bind fun cs => (reads_ofClasses cs).speaks
  | allClasses => exact (reads_inspect fun _ => reads_ofClasses _).speaks
  | dump | size | isEmpty | describeScope => exact (reads_inspect fun _ => reads_pure _).speaks
  | primitives => exact (reads_ofClasses _).speaks
  | primitive code => exact (reads_ofClass? _).speaks
  | classById t =>
    apply (TypeRef.speaks_read h).bind
    intro c
    refine (reads_inspect fun s => ?_).speaks
    split
    · exact reads_ofClass c
    · trivial
  | countDistinct names => exact (TypeRef.speaks_readNames h).map _
  | missingDeclaration => exact (reads_ofDeclaration _).speaks
  | hierarchy => exact (reads_inspect fun s => (Query.reads_hierarchyRows s.ids).map _).speaks
  | onClass t step =>
    obtain ⟨ht, hstep⟩ := List.forall_mem_append.mp h
    exact (TypeRef.speaks_read ht).bind fun c => ClassStep.speaks hB hL hstep c

namespace LoaderTable

def names (t : LoaderTable) : List FullName :=
  t.rows.flatMap fun row => row.2.before.flatMap Step.names ++ row.2.outline.names

theorem speaks_takeSteps (hB : Vocabulary B) (hL : L.Speaks B) {name : FullName} {steps : List Step}
    (h : ∀ n ∈ steps.flatMap Step.names, B n) : (takeSteps L name steps).Speaks B := by
  induction steps with
  | nil => trivial
  | cons x steps ih =>
    rw [List.flatMap_cons] at h
    obtain ⟨hx, hsteps⟩ := List.forall_mem_append.mp h
    apply (Step.speaks hB hL hx).bind
    intro answer
    have hinspect : inspect.Speaks B := speaks_request trivial
    apply hinspect.bind
    intro s
    have hnote (r : Remark) : (request (.note r)).Speaks B := speaks_request trivial
    exact (hnote _).bind fun _ => ih hsteps

theorem speaks_loaderWithin (hB : Vocabulary B) {t : LoaderTable} (h : ∀ n ∈ t.names, B n) (depth : Nat) :
    (t.loaderWithin depth).Speaks B := by
  induction depth with
  | zero => exact fun _ _ _ => trivial
  | succ depth ih =>
    intro c name _
    unfold loaderWithin
    have hrow : ∀ row, t.rows.lookup name = some row →
        (∀ n ∈ row.before.flatMap Step.names, B n) ∧ ∀ n ∈ row.outline.names, B n := by
      intro row hlookup
      obtain ⟨before, after, hrows, -⟩ := List.lookup_eq_some_iff.mp hlookup
      have hmem : (name, row) ∈ t.rows := by simp [hrows]
      apply List.forall_mem_append.mp
      intro n hn
      exact h n (List.mem_flatMap.mpr ⟨(name, row), hmem, hn⟩)
    have hsteps : ∀ n ∈ ((t.rows.lookup name).elim [] (·.before)).flatMap Step.names, B n := by
      cases hlookup : t.rows.lookup name with
      | none => nofun
      | some row => exact (hrow row hlookup).1
    apply (speaks_takeSteps hB ih hsteps).bind
    intro _
    cases t.failures.lookup name with
    | some e => trivial
    | none =>
      cases hlookup : t.rows.lookup name with
      | none => trivial
      | some row => exact (Outline.speaks_read (hrow row hlookup).2).map _

end LoaderTable

end ClassHierarchy
