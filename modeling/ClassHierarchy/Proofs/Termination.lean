import Mathlib.Data.List.Infix
import ClassHierarchy.Proofs.Loading.StubNames
import ClassHierarchy.Proofs.Run.StepNames
import ClassHierarchy.Proofs.Termination.Loads

namespace ClassHierarchy

namespace FullName

def pieces (names : List FullName) : List FullName :=
  names.flatMap fun name => (name.toList.tails.flatMap List.inits).map String.ofList

theorem mem_pieces {names : List FullName} {piece : FullName} :
    piece ∈ pieces names ↔ ∃ name ∈ names, piece.toList <:+: name.toList := by
  have hofList : ∀ cs : List Char, String.ofList cs = piece ↔ cs = piece.toList := by
    intro cs
    constructor
    · rintro rfl
      simp
    · rintro rfl
      simp
  simp only [pieces, List.mem_flatMap, List.mem_map, List.mem_tails, List.mem_inits, hofList,
    exists_eq_right, List.infix_iff_prefix_suffix]
  tauto

theorem subset_pieces {names : List FullName} {name : FullName} (h : name ∈ names) : name ∈ pieces names :=
  mem_pieces.mpr ⟨name, h, List.infix_rfl⟩

theorem pieces_vocabulary {names : List FullName} (h : ∀ p : Primitive, p.keyword ∈ names) :
    Vocabulary (· ∈ pieces names) := by
  apply Vocabulary.of_infix
  · intro p
    exact subset_pieces (h p)
  · intro name piece hname hpiece
    obtain ⟨whole, hwhole, hinfix⟩ := mem_pieces.mp hname
    exact mem_pieces.mpr ⟨whole, hwhole, hpiece.trans hinfix⟩

end FullName

def Script.Finite {α : Type} (q : Script α) : Prop :=
  ∃ names : List FullName, ∀ B, Vocabulary B → (∀ n ∈ names, B n) → q.Speaks B

def Loader.Finite (L : Loader) : Prop :=
  ∃ names : List FullName, ∀ B, Vocabulary B → (∀ n ∈ names, B n) → L.Speaks B

namespace Query

open Script

variable {α : Type} {s : Scope} {c : ClassId} {q : Script α}

theorem finite_of_reads (h : Uses Request.Reads q) : q.Finite := ⟨[], fun _ _ _ => h.speaks⟩

theorem finite_of_operation (h : Operation s c q) : q.Finite := by
  apply h.of_reads (P := Script.Finite) finite_of_reads
  case helement => exact ⟨[], fun _ hB _ => speaks_elementClass hB c⟩
  case houter => exact ⟨[], fun _ hB _ => speaks_outerClass hB c⟩
  case hattach => exact fun d => ⟨[], fun _ _ _ => speaks_request (r := .attach c d) trivial⟩
  case hrebind => exact fun p => ⟨[], fun _ _ _ => speaks_request (r := .rebind c p) trivial⟩

end Query

theorem LoaderTable.finite (t : LoaderTable) : t.loader.Finite :=
  ⟨t.names, fun _ hB h => t.speaks_loaderWithin hB h _⟩

theorem StubSources.finite {src : StubSources} {stubs : List ClassStub}
    (h : ∀ name s framework, src.stub? name = some (s, framework) → s ∈ stubs) : src.loader.Finite := by
  refine ⟨arrayNames ++ stubs.flatMap ClassStub.names, fun B _ hB => ?_⟩
  obtain ⟨harray, hstubs⟩ := List.forall_mem_append.mp hB
  apply speaks_loader harray
  intro name s framework hs n hn
  exact hstubs n (List.mem_flatMap.mpr ⟨s, h name s framework hs, hn⟩)

namespace Loader

variable {α : Type} {L : Loader} {may : Action → Session → Prop} {w : Session} {q : Script α}

/-- Under every large enough budget the script ends, with the same answer and in the same session. -/
def Completes (L : Loader) (w : Session) (q : Script α) : Prop :=
  ∃ a w' N, ∀ n, N ≤ n → (L.perform n q).Ends Run.anything w a w'

theorem completes (hL : L.Finite) (hr : L.Reaches may w) (hq : q.Finite) : L.Completes w q := by
  obtain ⟨loaded, hloaded⟩ := hL
  obtain ⟨asked, hasked⟩ := hq
  let names := loaded ++ asked ++ w.scope.names
  have hsub : ∀ name ∈ names, name ∈ FullName.pieces names := fun _ => FullName.subset_pieces
  have hnamed : w.scope.Named := by
    obtain ⟨β, script, budget, rest, hl⟩ := hr
    exact named_of_leads Scope.named_new hl
  have hprimitive : ∀ p : Primitive, p.keyword ∈ names := by
    intro p
    obtain ⟨β, script, budget, rest, hl⟩ := hr
    obtain ⟨hc, hname⟩ := Scope.name_ofPrimitive hl.evolves_any p
    exact List.mem_append_right _ (Scope.mem_names.mpr ⟨_, hc, hname⟩)
  have hB := FullName.pieces_vocabulary hprimitive
  have hkept : w.Kept (· ∈ FullName.pieces names) := by
    refine ⟨hr.attended, hr.called, hnamed, fun name hname => ?_⟩
    exact hsub name (List.mem_append_right _ (Scope.mem_names.mpr hname))
  have hspeaks : L.Speaks (· ∈ FullName.pieces names) :=
    hloaded _ hB fun n hn => hsub n (List.mem_append_left _ (List.mem_append_left _ hn))
  have hscript : q.Speaks (· ∈ FullName.pieces names) :=
    hasked _ hB fun n hn => hsub n (List.mem_append_left _ (List.mem_append_right _ hn))
  obtain ⟨a, w', -, N, hN⟩ := converges_perform hB (fun _ h => h) hspeaks hkept hscript
  exact ⟨a, w', N, hN⟩

theorem finite_of_step (hL : L.Finite) (x : Step) : (x.script L).Finite := by
  obtain ⟨loaded, hloaded⟩ := hL
  refine ⟨loaded ++ x.names, fun B hB h => ?_⟩
  obtain ⟨hl, hx⟩ := List.forall_mem_append.mp h
  exact x.speaks hB (hloaded B hB hl) hx

theorem every_operation_ends (hL : L.Finite) (hr : L.Reaches Run.anything w) :
    (∀ x : Step, L.Completes w (x.script L)) ∧
    (∀ {α : Type} {q : Script α} s c, Query.Operation s c q → L.Completes w q) ∧
    (∀ {α : Type} {q : Script α}, q.Finite → L.Completes w q) ∧
    (∀ t : LoaderTable, t.loader.Finite) ∧
    ∀ (src : StubSources) (stubs : List ClassStub),
      (∀ name s framework, src.stub? name = some (s, framework) → s ∈ stubs) → src.loader.Finite := by
  refine ⟨fun x => ?_, fun s c hq => ?_, completes hL hr, LoaderTable.finite, fun src stubs h => ?_⟩
  · exact completes hL hr (finite_of_step hL x)
  · exact completes hL hr (Query.finite_of_operation hq)
  · exact StubSources.finite h

def tangled : LoaderTable where
  rows := [
    ("A", {
      before := [.onClass (.named "A") (.rebind (.named "B")), .onClass (.named "B") .isMissing]
      outline := { superClass := some (.named "A"), interfaces := [.named "[[LB;", .named "["] } }),
    ("B", {
      before := [.onClass (.named "A") .allMethods]
      outline := { superClass := some (.named "A"), interfaces := [.named "B"] } })]

theorem every_operation_ends_in_tangle :
    ∃ w, tangled.loader.Reaches Run.anything w ∧ w.stack = [⟨10⟩, ⟨9⟩] ∧
      tangled.loader.Completes w (Query.findMethods ⟨10⟩ "m") ∧
      tangled.loader.Completes w (Step.hierarchy.script tangled.loader) := by
  let script : Script Unit := do Script.resolve (← Script.register "A")
  have h : ((tangled.loader.perform 5 script).advance Run.anything 20 .new).map (fun m => m.2.stack) =
      some [⟨10⟩, ⟨9⟩] := by decide +kernel
  obtain ⟨⟨rest, w⟩, ha, hstack⟩ := Option.map_eq_some_iff.mp h
  have hr : tangled.loader.Reaches Run.anything w :=
    ⟨_, script, 5, rest, Run.leads_iff_advance.mpr ⟨20, ha⟩⟩
  obtain ⟨hsteps, hoperations, -⟩ := every_operation_ends tangled.finite hr
  exact ⟨w, hr, hstack, hoperations .new ⟨10⟩ (.findMethods "m"), hsteps .hierarchy⟩

end Loader

end ClassHierarchy
