import ClassHierarchy.Loader.Stub
import ClassHierarchy.Proofs.Run.Speaking

namespace ClassHierarchy

def FieldStub.names (f : FieldStub) : List FullName :=
  match f.type with
  | .ok t => [t.fullName]
  | .error _ => []

def MethodStub.names (m : MethodStub) : List FullName :=
  match m.type with
  | .ok t => t.params.map FieldType.fullName ++ [t.returns.fullName]
  | .error _ => []

def ClassStub.names (s : ClassStub) : List FullName :=
  s.superName.toList ++ s.interfaces ++ s.fields.flatMap FieldStub.names ++ s.methods.flatMap MethodStub.names

namespace StubSources

open Script

def arrayNames : List FullName := ["java.lang.Object", "java.lang.Cloneable", "java.io.Serializable"]

variable {B : FullName → Prop} {name : FullName} {c : ClassId} {d : Declaration}

theorem speaks_registerAll {names : List FullName} (h : ∀ n ∈ names, B n) : (registerAll names).Speaks B := by
  induction names with
  | nil => trivial
  | cons n ns ih =>
    obtain ⟨hn, hns⟩ := List.forall_mem_cons.mp h
    exact (speaks_register hn).bind fun _ => (ih hns).map _

theorem speaks_arrayDeclaration (h : ∀ n ∈ arrayNames, B n) (synthesize : Bool) :
    (arrayDeclaration name synthesize).Speaks B := by
  cases synthesize with
  | false => trivial
  | true =>
    apply (speaks_register (h _ (by simp [arrayNames]))).bind
    intro object
    apply (speaks_register (h _ (by simp [arrayNames]))).bind
    intro cloneable
    exact (speaks_register (h _ (by simp [arrayNames]))).map _

theorem speaks_addFields {fs : List FieldStub} (h : ∀ n ∈ fs.flatMap FieldStub.names, B n) :
    (addFields name d fs).Speaks B := by
  induction fs generalizing d with
  | nil => trivial
  | cons f fs ih =>
    rw [List.flatMap_cons] at h
    obtain ⟨hf, hfs⟩ := List.forall_mem_append.mp h
    unfold addFields
    cases ht : f.type with
    | error e => trivial
    | ok t =>
      apply (speaks_register (hf _ (by simp [FieldStub.names, ht]))).bind
      intro c
      exact ih hfs

theorem speaks_addMethods {ms : List MethodStub} (h : ∀ n ∈ ms.flatMap MethodStub.names, B n) :
    (addMethods c name d ms).Speaks B := by
  induction ms generalizing d with
  | nil => trivial
  | cons m ms ih =>
    rw [List.flatMap_cons] at h
    obtain ⟨hm, hms⟩ := List.forall_mem_append.mp h
    unfold addMethods
    cases ht : m.type with
    | error e => trivial
    | ok t =>
      rw [MethodStub.names, ht] at hm
      obtain ⟨hparams, hreturns⟩ := List.forall_mem_append.mp hm
      apply (speaks_registerAll hparams).bind
      intro params
      apply (speaks_register (hreturns _ (List.mem_singleton.mpr rfl))).bind
      intro returns
      exact ih hms

theorem speaks_stubDeclaration {s : ClassStub} {framework : Bool} (h : ∀ n ∈ s.names, B n) :
    (stubDeclaration c name s framework).Speaks B := by
  unfold ClassStub.names at h
  obtain ⟨h, hmethods⟩ := List.forall_mem_append.mp h
  obtain ⟨h, hfields⟩ := List.forall_mem_append.mp h
  obtain ⟨hsuper, hinterfaces⟩ := List.forall_mem_append.mp h
  have hsupers : ∀ n ∈ if s.isInterface then [] else s.superName.toList, B n := by
    split
    · nofun
    · exact hsuper
  apply (speaks_registerAll hsupers).bind
  intro superClass
  apply (speaks_registerAll hinterfaces).bind
  intro interfaces
  apply (speaks_addFields hfields).bind
  intro o
  cases o with
  | error e => trivial
  | ok d => exact speaks_addMethods hmethods

theorem speaks_loader {src : StubSources} (harray : ∀ n ∈ arrayNames, B n)
    (hstubs : ∀ name s framework, src.stub? name = some (s, framework) → ∀ n ∈ s.names, B n) :
    src.loader.Speaks B := by
  intro c name _
  unfold loader
  split
  · exact speaks_arrayDeclaration harray _
  · split
    · trivial
    next s framework hs =>
      have hemit (e : Event) : (emit e).Speaks B := speaks_request trivial
      exact (hemit _).bind fun _ => speaks_stubDeclaration (hstubs name s framework hs)

end StubSources

end ClassHierarchy
