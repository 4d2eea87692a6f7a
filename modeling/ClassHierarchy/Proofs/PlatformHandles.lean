import ClassHierarchy.Platform
import ClassHierarchy.Proofs.LoaderCalls
import ClassHierarchy.Proofs.Loading.StubNames

/-!
One handle for each platform class. A stub is found under its own name, except that the platform index also
takes internal names. So among classes with dotted names no two are built from one stub, and the program
always comes first; and no name gets a slash but from the caller or from a stub that has one.
-/

namespace ClassHierarchy

def FullName.Dotted (name : FullName) : Prop := '/' ∉ name.toList

instance (name : FullName) : Decidable name.Dotted := inferInstanceAs (Decidable ('/' ∉ name.toList))

theorem dotted_vocabulary : Vocabulary FullName.Dotted := by
  apply Vocabulary.of_infix
  · intro p
    cases p with
    | void => decide
    | base b => cases b <;> decide
  · intro name piece hname hpiece hmem
    exact hname (hpiece.subset hmem)

theorem slash_not_mem_dotted (cs : List Char) : '/' ∉ dotted cs := by
  intro h
  obtain ⟨c, -, hc⟩ := List.mem_map.mp h
  split at hc
  · cases hc
  next hne => exact hne hc

namespace FieldType

theorem slash_not_mem_component (t : FieldType) : '/' ∉ t.component := by
  induction t with
  | base b => cases b <;> decide
  | object internal => simp [component, slash_not_mem_dotted]
  | array t ih => simp [component, ih]

theorem fullName_dotted (t : FieldType) : t.fullName.Dotted := by
  cases t with
  | base b => exact dotted_vocabulary.primitive (.base b)
  | object internal => simp [FullName.Dotted, fullName, FullName.ofInternal, slash_not_mem_dotted]
  | array t => simp [FullName.Dotted, fullName, slash_not_mem_component]

end FieldType

theorem ReturnType.fullName_dotted (t : ReturnType) : t.fullName.Dotted := by
  cases t with
  | void => exact dotted_vocabulary.primitive .void
  | value t => exact t.fullName_dotted

def ClassStub.parentNames (s : ClassStub) : List FullName := s.superName.toList ++ s.interfaces

theorem ClassStub.names_dotted {s : ClassStub} (h : ∀ n ∈ s.parentNames, n.Dotted) : ∀ n ∈ s.names, n.Dotted := by
  refine List.forall_mem_append.mpr ⟨List.forall_mem_append.mpr ⟨h, ?_⟩, ?_⟩
  · intro n hn
    obtain ⟨f, -, hn⟩ := List.mem_flatMap.mp hn
    unfold FieldStub.names at hn
    split at hn
    next t _ => exact List.mem_singleton.mp hn ▸ t.fullName_dotted
    · cases hn
  · intro n hn
    obtain ⟨m, -, hn⟩ := List.mem_flatMap.mp hn
    unfold MethodStub.names at hn
    split at hn
    next t _ =>
      obtain hn | hn := List.mem_append.mp hn
      · obtain ⟨p, -, rfl⟩ := List.mem_map.mp hn
        exact p.fullName_dotted
      · exact List.mem_singleton.mp hn ▸ t.returns.fullName_dotted
    · cases hn

theorem StubTable.mem_of_find? {t : StubTable} {name : FullName} {s : ClassStub} (h : t.find? name = some s) :
    s ∈ t.stubs ∧ s.name = name := ⟨List.mem_of_find?_eq_some h, by simpa using List.find?_some h⟩

theorem PlatformIndex.key_of_dotted {name : FullName} (h : name.Dotted) : PlatformIndex.key name = name := by
  unfold PlatformIndex.key
  rw [if_neg (by simpa [FullName.Dotted] using h)]

namespace StubSources

def ofTables (program : StubTable) (platform : PlatformIndex) (options : HierarchyOptions) : StubSources where
  program := program.find?
  platform := platform.find?
  options := options

structure Builds (src : StubSources) (w : Session) (c : ClassId) (stub : ClassStub) (framework : Bool) : Prop where
  called : c ∈ w.calls
  noArray : (w.scope.name c).isArray = false
  found : src.stub? (w.scope.name c) = some (stub, framework)

variable {program : StubTable} {platform : PlatformIndex} {options : HierarchyOptions} {name : FullName}
  {stub : ClassStub}

theorem stub_of_program {src : StubSources} (h : src.stub? name = some (stub, false)) :
    src.program name = some stub := by
  unfold stub? at h
  cases hs : src.program name with
  | some s =>
    rw [hs] at h
    obtain ⟨rfl, -⟩ := Prod.mk.inj (Option.some.inj h)
    rfl
  | none =>
    rw [hs] at h
    dsimp only at h
    split at h
    · obtain ⟨s, -, hs⟩ := Option.map_eq_some_iff.mp h
      cases hs
    · cases h

theorem stub_of_platform {src : StubSources} (h : src.stub? name = some (stub, true)) :
    src.program name = none ∧ src.platform name = some stub := by
  unfold stub? at h
  cases hs : src.program name with
  | some s =>
    rw [hs] at h
    cases h
  | none =>
    rw [hs] at h
    dsimp only at h
    split at h
    · obtain ⟨s, hplatform, hs'⟩ := Option.map_eq_some_iff.mp h
      obtain ⟨rfl, -⟩ := Prod.mk.inj hs'
      exact ⟨rfl, hplatform⟩
    · cases h

variable {α : Type} {script : Script α} {budget : Nat} {may : Action → Session → Prop} {rest : Run α} {w : Session}
  {c c' : ClassId} {framework framework' : Bool}

theorem Builds.name_eq (h : (ofTables program platform options).Builds w c stub framework)
    (hc : (w.scope.name c).Dotted) : stub.name = w.scope.name c := by
  cases framework with
  | false => exact (StubTable.mem_of_find? (stub_of_program h.found)).2
  | true =>
    obtain ⟨-, hplatform⟩ := stub_of_platform h.found
    exact (StubTable.mem_of_find? hplatform).2.trans (PlatformIndex.key_of_dotted hc)

def TablesDotted (program : StubTable) (platform : PlatformIndex) : Prop :=
  ∀ s ∈ program.stubs ++ platform.table.stubs, ∀ n ∈ s.parentNames, n.Dotted

theorem speaks_dotted (h : TablesDotted program platform) :
    (ofTables program platform options).loader.Speaks FullName.Dotted := by
  apply speaks_loader (by decide)
  intro name s framework hs
  apply s.names_dotted
  apply h
  rw [List.mem_append]
  cases framework with
  | false => exact .inl (StubTable.mem_of_find? (stub_of_program hs)).1
  | true => exact .inr (StubTable.mem_of_find? (stub_of_platform hs).2).1

theorem one_handle_per_stub
    (h : ((ofTables program platform options).loader.perform budget script).Leads may .new rest w) :
    (∀ c stub, (ofTables program platform options).Builds w c stub false → stub.name = w.scope.name c) ∧
    (∀ c stub, (ofTables program platform options).Builds w c stub true →
      stub.name = PlatformIndex.key (w.scope.name c) ∧ program.find? (w.scope.name c) = none) ∧
    (∀ c stub framework, (ofTables program platform options).Builds w c stub framework →
      (w.scope.name c).Dotted →
        stub.name = w.scope.name c ∧ (framework = true → program.find? stub.name = none)) ∧
    (∀ c c' stub framework framework', (ofTables program platform options).Builds w c stub framework →
      (ofTables program platform options).Builds w c' stub framework' →
      (w.scope.name c).Dotted → (w.scope.name c').Dotted → c = c') ∧
    (script.Speaks FullName.Dotted → TablesDotted program platform → ∀ c, (w.scope.name c).Dotted) := by
  have hr : (ofTables program platform options).loader.Reaches may w := ⟨α, script, budget, rest, h⟩
  have hnamed : w.scope.Named := Loader.named_of_leads Scope.named_new h
  refine ⟨?_, ?_, ?_, ?_, ?_⟩
  · intro c stub hb
    exact (StubTable.mem_of_find? (stub_of_program hb.found)).2
  · intro c stub hb
    obtain ⟨hprogram, hplatform⟩ := stub_of_platform hb.found
    exact ⟨(StubTable.mem_of_find? hplatform).2, hprogram⟩
  · intro c stub framework hb hc
    refine ⟨hb.name_eq hc, ?_⟩
    rintro rfl
    rw [hb.name_eq hc]
    exact (stub_of_platform hb.found).1
  · intro c c' stub framework framework' hb hb' hc hc'
    have hreg := hr.called.registered hr.attended hb.called
    have hreg' := hr.called.registered hr.attended hb'.called
    exact hnamed.unique c c' hreg hreg' ((hb.name_eq hc).symm.trans (hb'.name_eq hc'))
  · intro hscript htables c
    have hL : (ofTables program platform options).loader.Speaks FullName.Dotted := speaks_dotted htables
    have hp := Loader.speaks_perform dotted_vocabulary hL hscript budget
    have hnew : Session.new.Speaks FullName.Dotted := ⟨Scope.named_new, Scope.speaks_new dotted_vocabulary⟩
    exact (Loader.speaks_of_leads dotted_vocabulary hp hnew h).2.name dotted_vocabulary c

theorem stub?_eq_of_name {src : StubSources} {key : FullName} {framework : Bool}
    (h : (src.stub? name).map (fun p => (p.1.name, p.2)) = some (key, framework)) :
    ∃ stub, src.stub? name = some (stub, framework) ∧ stub.name = key := by
  obtain ⟨⟨stub, framework'⟩, hs, hp⟩ := Option.map_eq_some_iff.mp h
  obtain ⟨hname, rfl⟩ := Prod.mk.inj hp
  exact ⟨stub, hs, hname⟩

def eclipsed : StubSources := ofTables ⟨[{ name := "java.lang.String" }]⟩ PlatformIndex.builtin {}

theorem one_handle_per_stub_of_integer : ∃ rest w stub,
    (eclipsed.loader.perform 2 (do Script.resolve (← Script.register "java.lang.Integer"))).Leads
      Run.anything .new rest w ∧
    eclipsed.Builds w ⟨9⟩ stub true ∧ stub.name = "java.lang.Integer" ∧
    StubTable.find? ⟨[{ name := "java.lang.String" }]⟩ stub.name = none ∧ ∀ c, (w.scope.name c).Dotted := by
  let script : Script Unit := do Script.resolve (← Script.register "java.lang.Integer")
  have hw : ((eclipsed.loader.perform 2 script).advance Run.anything 18 .new).map (fun m =>
      (m.2.calls, m.2.scope.name ⟨9⟩)) = some ([⟨9⟩], "java.lang.Integer") := by decide +kernel
  obtain ⟨⟨rest, w⟩, ha, hw⟩ := Option.map_eq_some_iff.mp hw
  obtain ⟨hcalls, hname⟩ := Prod.mk.inj hw
  obtain ⟨stub, hstub, -⟩ : ∃ stub, eclipsed.stub? "java.lang.Integer" = some (stub, true) ∧
      stub.name = "java.lang.Integer" := stub?_eq_of_name (by decide +kernel)
  have hb : eclipsed.Builds w ⟨9⟩ stub true := by
    refine ⟨by simp [hcalls], ?_, ?_⟩
    · rw [hname]
      decide
    · rw [hname, hstub]
  have hl := Run.leads_iff_advance.mpr ⟨18, ha⟩
  obtain ⟨-, -, hbuilt, -, hdotted⟩ := one_handle_per_stub hl
  have hscript : script.Speaks FullName.Dotted :=
    (Script.speaks_register (by decide)).bind fun c => (Script.reads_resolve c).speaks
  have htables : TablesDotted ⟨[{ name := "java.lang.String" }]⟩ PlatformIndex.builtin := by
    unfold TablesDotted
    decide +kernel
  have hnames := hdotted hscript htables
  obtain ⟨hstubName, hnone⟩ := hbuilt ⟨9⟩ stub true hb (hnames ⟨9⟩)
  exact ⟨rest, w, stub, hl, hb, hstubName.trans hname, hnone rfl, hnames⟩

theorem slashes_split_handles :
    ∃ w, eclipsed.loader.Reaches Run.anything w ∧
      (∃ c stub, eclipsed.Builds w c stub true ∧ stub.name ≠ w.scope.name c ∧
        (StubTable.find? ⟨[{ name := "java.lang.String" }]⟩ stub.name).isSome) ∧
      ∃ c c' stub, c ≠ c' ∧ eclipsed.Builds w c stub true ∧ eclipsed.Builds w c' stub true := by
  let script : Script Unit := do
    Script.resolve (← Script.register "java/lang/String")
    Script.resolve (← Script.register "java/lang/Object")
    Script.resolve (← Script.register "java.lang.Object")
  have hw : ((eclipsed.loader.perform 2 script).advance Run.anything 46 .new).map (fun m =>
      (m.2.calls, [9, 17, 10].map fun i => m.2.scope.name ⟨i⟩)) =
      some ([⟨9⟩, ⟨17⟩, ⟨10⟩], ["java/lang/String", "java/lang/Object", "java.lang.Object"]) := by decide +kernel
  obtain ⟨⟨rest, w⟩, ha, hw⟩ := Option.map_eq_some_iff.mp hw
  obtain ⟨hcalls, hnames⟩ := Prod.mk.inj hw
  simp only [List.map_cons, List.map_nil, List.cons.injEq, and_true] at hnames
  obtain ⟨hstring, hslashed, hobject⟩ := hnames
  obtain ⟨string, hstringStub, hstringName⟩ : ∃ stub, eclipsed.stub? "java/lang/String" = some (stub, true) ∧
      stub.name = "java.lang.String" := stub?_eq_of_name (by decide +kernel)
  obtain ⟨object, hobjectStub, -⟩ : ∃ stub, eclipsed.stub? "java.lang.Object" = some (stub, true) ∧
      stub.name = "java.lang.Object" := stub?_eq_of_name (by decide +kernel)
  have hsame : eclipsed.stub? "java/lang/Object" = eclipsed.stub? "java.lang.Object" := by
    decide +kernel
  refine ⟨w, ⟨_, script, 2, rest, Run.leads_iff_advance.mpr ⟨46, ha⟩⟩, ⟨⟨9⟩, string, ⟨?_, ?_, ?_⟩, ?_, ?_⟩,
    ⟨17⟩, ⟨10⟩, object, by decide, ⟨?_, ?_, ?_⟩, ⟨?_, ?_, ?_⟩⟩
  · simp [hcalls]
  · rw [hstring]
    decide
  · rw [hstring, hstringStub]
  · rw [hstringName, hstring]
    decide
  · rw [hstringName]
    decide
  · simp [hcalls]
  · rw [hslashed]
    decide
  · rw [hslashed, hsame, hobjectStub]
  · simp [hcalls]
  · rw [hobject]
    decide
  · rw [hobject, hobjectStub]

end StubSources

end ClassHierarchy
