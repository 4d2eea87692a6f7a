import ClassHierarchy.Proofs.Loading.Outcomes
import ClassHierarchy.Proofs.Loading.Stubs

namespace ClassHierarchy

namespace Scope

/-- What is known of a class whose load has failed. -/
structure Lacks (s : Scope) (c : ClassId) : Prop where
  missing : s.isMissing c = true
  declaration : s.declaration c = .missing
  heirs : ∀ p, c ∉ s.heirs p

/-- `c` has what `stub` says, unless the stub has a descriptor that cannot be read. -/
structure Translates (s : Scope) (c : ClassId) (stub : ClassStub) (framework : Bool) : Prop where
  present : stub.Readable → s.isMissing c = false
  renders : stub.Readable → (s.declaration c).Renders s (s.name c) stub framework
  unreadable : ¬ stub.Readable → s.Lacks c

structure IsArray (s : Scope) (c : ClassId) : Prop where
  present : s.isMissing c = false
  superClass : (s.declaration c).superClass.map s.ref = some (.named "java.lang.Object")
  interfaces : (s.declaration c).interfaces.map s.ref =
    [.named "java.lang.Cloneable", .named "java.io.Serializable"]
  flags : (s.declaration c).flags.isFinal = true ∧ (s.declaration c).flags.isAbstract = true
  framework : (s.declaration c).framework = true
  memberless : (s.declaration c).fields = [] ∧ (s.declaration c).staticFields = [] ∧
    (s.declaration c).methods = []

end Scope

namespace StubSources

open Script (replay replay_bind replay_register)

variable {src : StubSources} {w : Session} {c : ClassId} {st : Settled} {name : FullName} {s : Scope}
  {e : LoadError}

theorem loader_of_array (h : name.isArray = true) :
    src.loader c name = arrayDeclaration name src.options.synthesizeArrays := by
  unfold loader
  rw [if_pos h]

theorem loader_of_stub {stub : ClassStub} {framework : Bool} (h : name.isArray = false)
    (hs : src.stub? name = some (stub, framework)) : src.loader c name =
      Script.emit (if framework then .platformClassLoading name else .programClassLoading name) >>= fun _ =>
        stubDeclaration c name stub framework := by
  unfold loader
  rw [if_neg (by simp [h]), hs]

theorem loader_of_no_stub (h : name.isArray = false) (hs : src.stub? name = none) :
    src.loader c name = .done (.error (.notFound name)) := by
  unfold loader
  rw [if_neg (by simp [h]), hs]
  rfl

theorem lacks_of_error (ht : w.scope.Traced) (hst : w.scope.settled? c = some st)
    (hv : Scope.verdict (.error e) = (st.declaration, st.missing)) : w.scope.Lacks c := by
  obtain ⟨hd, hm⟩ := Prod.mk.inj hv
  have hdecl : w.scope.declaration c = .missing := (Scope.declaration_of_settled hst).trans hd.symm
  refine ⟨Scope.isMissing_iff.mpr ⟨st, hst, hm.symm⟩, hdecl, fun p hp => ?_⟩
  have hs := ht p c hp
  rw [hdecl] at hs
  cases hs

theorem present_of_ok {d : Declaration} (hst : w.scope.settled? c = some st)
    (hv : Scope.verdict (.ok d) = (st.declaration, st.missing)) :
    w.scope.isMissing c = false ∧ w.scope.declaration c = d := by
  obtain ⟨hd, hm⟩ := Prod.mk.inj hv
  refine ⟨?_, (Scope.declaration_of_settled hst).trans hd.symm⟩
  rw [Scope.isMissing, hst]
  exact hm.symm

section Settled

variable (hl : w.Left src.loader c) (hst : w.scope.settled? c = some st)
include hl hst

theorem array_synthesized (ha : (w.scope.name c).isArray = true) (hs : src.options.synthesizeArrays = true) :
    w.scope.IsArray c := by
  obtain ⟨o, ho, hv⟩ := hl.settled st hst
  rw [loader_of_array ha, hs] at ho
  obtain ⟨object, cloneable, serializable, hobject, hcloneable, hserializable, rfl⟩ := replay_arrayDeclaration ho
  obtain ⟨hm, hd⟩ := present_of_ok hst hv
  refine ⟨hm, ?_, ?_, ?_, ?_, ?_⟩ <;> rw [hd]
  · exact congrArg some (ref_of_find? hobject)
  · exact congrArg₂ (fun a b => [a, b]) (ref_of_find? hcloneable) (ref_of_find? hserializable)
  · dsimp only
    decide
  · exact ⟨rfl, rfl, rfl⟩

variable (ht : w.scope.Traced)
include ht

theorem array_missing (ha : (w.scope.name c).isArray = true) (hs : src.options.synthesizeArrays = false) :
    w.scope.Lacks c := by
  obtain ⟨o, ho, hv⟩ := hl.settled st hst
  rw [loader_of_array ha, hs] at ho
  obtain rfl := Option.some.inj ho
  exact lacks_of_error ht hst hv

theorem stub_missing (ha : (w.scope.name c).isArray = false) (hs : src.stub? (w.scope.name c) = none) :
    w.scope.Lacks c := by
  obtain ⟨o, ho, hv⟩ := hl.settled st hst
  rw [loader_of_no_stub ha hs] at ho
  obtain rfl := Option.some.inj ho
  exact lacks_of_error ht hst hv

theorem stub_translated {stub : ClassStub} {framework : Bool} (ha : (w.scope.name c).isArray = false)
    (hs : src.stub? (w.scope.name c) = some (stub, framework)) : w.scope.Translates c stub framework := by
  obtain ⟨o, ho, hv⟩ := hl.settled st hst
  rw [loader_of_stub ha hs, replay_bind] at ho
  obtain ⟨-, -, ho⟩ := Option.bind_eq_some_iff.mp ho
  have hc := Scope.ref_of_registered (.of_settled hst)
  obtain ⟨hread, d, rfl, hrenders⟩ | ⟨hbad, e, rfl⟩ := replay_stubDeclaration hc ho
  · obtain ⟨hm, hd⟩ := present_of_ok hst hv
    exact ⟨fun _ => hm, fun _ => hd ▸ hrenders, fun hbad => absurd hread hbad⟩
  · have hlacks := lacks_of_error ht hst hv
    exact ⟨fun hread => absurd hread hbad, fun hread => absurd hread hbad, fun _ => hlacks⟩

end Settled

theorem loader_congr {src' : StubSources} (ho : src'.options = src.options)
    (h : name.isArray = true ∨ src'.stub? name = src.stub? name) : src'.loader c name = src.loader c name := by
  cases ha : name.isArray with
  | true => rw [loader_of_array ha, loader_of_array ha, ho]
  | false =>
    have hs : src'.stub? name = src.stub? name := h.resolve_left (by simp [ha])
    cases hstub : src.stub? name with
    | none => rw [loader_of_no_stub ha hstub, loader_of_no_stub ha (hs.trans hstub)]
    | some p => rw [loader_of_stub ha hstub, loader_of_stub ha (hs.trans hstub)]

theorem stubs_translated (hr : src.loader.Reaches (fun x v => x.Spares c v) w) (hc : c.isPrimitive = false)
    (hn : w.scope.find? name = some c) :
    (∀ n, c ∉ w.stack → ∃ w' st, (src.loader.perform (n + 1) (Script.resolve c)).Ends Action.Steady w () w' ∧
      w'.scope.settled? c = some st) ∧
    (∀ st, w.scope.settled? c = some st →
      (name.isArray = true →
        (src.options.synthesizeArrays = true → w.scope.IsArray c) ∧
        (src.options.synthesizeArrays = false → w.scope.Lacks c)) ∧
      (name.isArray = false →
        (∀ stub, src.program name = some stub → w.scope.Translates c stub false) ∧
        (src.program name = none →
          (∀ stub, src.options.platformFallback = true → src.platform name = some stub →
            w.scope.Translates c stub true) ∧
          (src.options.platformFallback = false ∨ src.platform name = none → w.scope.Lacks c)))) ∧
    ∀ src' : StubSources, src'.options = src.options →
      (name.isArray = true ∨ src'.program name = src.program name ∧ ((src.program name).isSome ∨
        src.options.platformFallback = false ∨ src'.platform name = src.platform name)) →
      src'.loader c name = src.loader c name := by
  obtain ⟨hreg, rfl⟩ := Scope.find?_eq_some hn
  refine ⟨fun n hout => ?_, fun st hst => ?_, fun src' ho h => loader_congr ho (h.imp_right ?_)⟩
  · exact Loader.resolves src.byName hr.attended hreg hout n
  · have hl : w.Left src.loader c := hr.left src.byName (fun _ _ hx => hx) hc
    have ht : w.scope.Traced := hr.traced
    refine ⟨fun ha => ⟨array_synthesized hl hst ha, array_missing hl hst ht ha⟩, fun ha => ⟨?_, ?_⟩⟩
    · intro stub hp
      exact stub_translated hl hst ht ha (by simp [stub?, hp])
    · intro hp
      refine ⟨fun stub hf hs => ?_, fun hs => ?_⟩
      · exact stub_translated hl hst ht ha (by simp [stub?, hp, hf, hs])
      · apply stub_missing hl hst ht ha
        obtain hf | hs := hs
        · simp [stub?, hp, hf]
        · simp [stub?, hp, hs]
  · rintro ⟨hp, hs⟩
    unfold stub?
    rw [hp, ho]
    cases hprogram : src.program (w.scope.name c) with
    | some stub => rfl
    | none =>
      obtain hsome | hf | hs := hs
      · simp [hprogram] at hsome
      · simp [hf]
      · simp [hs]

def eclipsing : StubSources where
  program name := if name = "A" then some { name, superName := some "B", fields := [⟨"f", "[I", 0⟩] } else none
  platform name := if name = "A" ∨ name = "B" then some { name, fields := [⟨"f", "I", 0⟩, ⟨"g", "L", 0⟩] } else none

theorem stubs_translated_eclipsing :
    ∃ w, eclipsing.loader.Reaches (fun x v => x.Spares ⟨9⟩ v) w ∧ w.scope.find? "A" = some ⟨9⟩ ∧
      w.scope.isMissing ⟨9⟩ = false ∧
      (w.scope.declaration ⟨9⟩).Renders w.scope "A"
        { name := "A", superName := some "B", fields := [⟨"f", "[I", 0⟩] } false ∧
      w.scope.find? "B" = some ⟨10⟩ ∧ w.scope.Lacks ⟨10⟩ := by
  let script : Script Unit := do
    Script.resolve (← Script.register "A")
    Script.resolve (← Script.register "B")
  have h : ((eclipsing.loader.perform 2 script).advance
      (fun x v => x.Spares ⟨9⟩ v ∧ x.Spares ⟨10⟩ v) 15 .new).map (fun m =>
        (m.2.scope.find? "A", m.2.scope.find? "B", (m.2.scope.settled? ⟨9⟩).isSome,
          (m.2.scope.settled? ⟨10⟩).isSome)) = some (some ⟨9⟩, some ⟨10⟩, true, true) := by decide +kernel
  obtain ⟨⟨rest, w⟩, ha, hw⟩ := Option.map_eq_some_iff.mp h
  simp only [Prod.mk.injEq, Option.isSome_iff_exists] at hw
  obtain ⟨hA, hB, ⟨stA, hstA⟩, stB, hstB⟩ := hw
  have hl := Run.leads_iff_advance.mpr ⟨15, ha⟩
  have hrA : eclipsing.loader.Reaches (fun x v => x.Spares ⟨9⟩ v) w :=
    ⟨_, script, 2, rest, hl.mono fun _ _ hx => hx.1⟩
  have hrB : eclipsing.loader.Reaches (fun x v => x.Spares ⟨10⟩ v) w :=
    ⟨_, script, 2, rest, hl.mono fun _ _ hx => hx.2⟩
  obtain ⟨-, hcA, -⟩ := stubs_translated hrA rfl hA
  obtain ⟨-, hcB, -⟩ := stubs_translated hrB rfl hB
  have htA := ((hcA stA hstA).2 (by decide)).1 _ rfl
  have htB := (((hcB stB hstB).2 (by decide)).2 rfl).1 _ rfl rfl
  have hreadA : ClassStub.Readable { name := "A", superName := some "B", fields := [⟨"f", "[I", 0⟩] } := by
    refine ⟨fun f hf => ?_, nofun⟩
    obtain rfl := List.mem_singleton.mp hf
    exact ⟨_, rfl⟩
  refine ⟨w, hrA, hA, htA.present hreadA, ?_, hB, htB.unreadable fun hread => ?_⟩
  · have hname := (Scope.find?_eq_some hA).2
    exact hname ▸ htA.renders hreadA
  · obtain ⟨t, ht⟩ := hread.fields ⟨"g", "L", 0⟩ (by simp)
    cases ht

end StubSources

end ClassHierarchy
