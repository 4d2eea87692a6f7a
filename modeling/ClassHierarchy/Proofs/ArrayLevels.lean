import ClassHierarchy.Proofs.Descriptor.Reading
import ClassHierarchy.Proofs.Registry

namespace ClassHierarchy

def FieldType.peel : Nat → FieldType → FieldType
  | k + 1, .array t => t.peel k
  | _, t => t

def Query.descend : Nat → ClassId → Script (Except Misuse (Option ClassId))
  | 0, c => return .ok (some c)
  | k + 1, c => do
    match ← Query.elementClass c with
    | .ok (some e) => Query.descend k e
    | r => return r

def ArrayElement.fullName : ArrayElement → FullName
  | .primitive p => p.keyword
  | .named name => name

theorem dotted_ne_nil {cs : List Char} (h : cs ≠ []) : dotted cs ≠ [] := by simpa [dotted] using h

namespace FieldType

variable {t : FieldType}

theorem element?_fullName (h : t.Spellable) :
    ∃ x, (array t).fullName.element? = some x ∧ x.fullName = t.fullName := by
  have helement : (array t).fullName.element? = ArrayElement.decode? t.component := by
    simp [FullName.element?, fullName]
  rw [helement]
  cases t with
  | base b => exact ⟨.primitive (.base b), by cases b <;> rfl, rfl⟩
  | object internal =>
    have hne := dotted_ne_nil h.1
    refine ⟨.named (.ofInternal internal), ?_, rfl⟩
    simp [component, ArrayElement.decode?, hne, FullName.ofInternal]
  | array t => exact ⟨.named (array t).fullName, rfl, rfl⟩

theorem peel_dimensions (t : FieldType) : t.peel t.dimensions = t.innermost := by
  induction t with
  | base b => rfl
  | object internal => rfl
  | array t ih => exact ih

end FieldType

namespace Scope

variable {s t : Scope} {c : ClassId} {name : FullName} {R : ClassId → Prop}

theorem Evolves.find? (h : s.Evolves R t) (ht : t.Named) (hf : s.find? name = some c) :
    t.find? name = some c := by
  obtain ⟨hc, hn⟩ := find?_eq_some hf
  exact ht.find?_iff.mpr ⟨h.registered hc, (h.name hc).trans hn⟩

theorem Named.find?_keyword (h : s.Named) (hnew : Scope.new.Evolves R s) (p : Primitive) :
    s.find? p.keyword = some (.ofPrimitive p) := h.find?_iff.mpr (name_ofPrimitive hnew p)

end Scope

namespace Loader

open Run (anything)

variable {α : Type} {L : Loader} {n budget k : Nat} {script : Script α} {rest : Run α} {w : Session}
  {c : ClassId} {t : FieldType}

section

variable (hn : w.scope.Named) (hnew : Scope.new.Evolves R w.scope)
include hn hnew

theorem ends_elementClass_of_element? (hc : w.scope.Registered c) {x : ArrayElement}
    (hx : (w.scope.name c).element? = some x) : ∃ e,
      (L.perform n (Query.elementClass c)).Ends Action.Steady w (.ok (some e)) w ∧
      w.scope.find? x.fullName = some e := by
  have ha := FullName.isArray_of_element? hx
  unfold Query.elementClass
  cases x with
  | primitive p =>
    refine ⟨.ofPrimitive p, ends_perform_bind ends_name ?_, hn.find?_keyword hnew p⟩
    rw [if_pos ha, hx]
    exact ends_pure _
  | named inner =>
    have hmem : inner ∈ w.scope.names := hn.element_known (Scope.mem_names.mpr ⟨c, hc, rfl⟩) hx
    obtain ⟨e, he⟩ := Scope.mem_names.mp hmem
    have hf := hn.find?_iff.mpr he
    refine ⟨e, ends_perform_bind ends_name ?_, hf⟩
    rw [if_pos ha, hx]
    exact ends_map (ends_register_of_find? hf) fun e => Except.ok (some e)

theorem ends_descend (ht : t.Spellable) (hf : w.scope.find? t.fullName = some c) (hk : k ≤ t.dimensions) :
    ∃ e, (L.perform n (Query.descend k c)).Ends Action.Steady w (.ok (some e)) w ∧
      w.scope.find? (t.peel k).fullName = some e := by
  induction k generalizing t c with
  | zero => exact ⟨c, ends_pure _, by simpa [FieldType.peel] using hf⟩
  | succ k ih =>
    cases t with
    | base b => cases hk
    | object internal => cases hk
    | array t =>
      obtain ⟨hc, hname⟩ := Scope.find?_eq_some hf
      obtain ⟨x, hx, hxt⟩ := FieldType.element?_fullName (t := t) ht
      obtain ⟨e, he, hfe⟩ := ends_elementClass_of_element? (L := L) (n := n) hn hnew hc (hname ▸ hx)
      rw [hxt] at hfe
      obtain ⟨e', he', hfe'⟩ := ih (t := t) ht hfe (Nat.le_of_succ_le_succ hk)
      exact ⟨e', ends_perform_bind he he', hfe'⟩

end

theorem array_levels (h : (L.perform budget script).Leads anything .new rest w) {text : String}
    (ht : FieldType.ofDescriptor text = .ok t) : ∃ c v,
    (∀ n, (L.perform n (Script.register t.fullName)).Ends anything w c v) ∧
    ∀ k ≤ t.dimensions, ∃ e,
      v.scope.find? (t.peel k).fullName = some e ∧ v.scope.name e = (t.peel k).fullName ∧
      (∀ u n, L.Continues anything v u →
        (L.perform n (Query.descend k c)).Ends anything u (.ok (some e)) u) ∧
      (k = t.dimensions →
        (∀ b, t.innermost = .base b → e = .ofPrimitive (.base b)) ∧
        ∀ internal, t.innermost = .object internal → v.scope.name e = .ofInternal internal) := by
  have hs : t.Spellable := (FieldType.ofDescriptor_eq_ok_iff.mp ht).1
  have hn := named_of_leads Scope.named_new h
  have hnew : Scope.new.Evolves (fun _ => True) w.scope := h.evolves_any
  obtain ⟨v, hreg, hv⟩ := ends_register L 0 w t.fullName
  obtain ⟨hvn, hc, hname, -⟩ := Scope.register_named hn t.fullName
  rw [← hv] at hvn hc hname
  have hvnew := hnew.trans hreg.evolves_any
  have hf := hvn.find?_iff.mpr ⟨hc, hname⟩
  refine ⟨_, v, fun _ => hreg.mono fun _ _ _ => trivial, fun k hk => ?_⟩
  obtain ⟨e, -, he⟩ := ends_descend (L := L) (n := 0) hvn hvnew hs hf hk
  refine ⟨e, he, (Scope.find?_eq_some he).2, ?_, ?_⟩
  · rintro u n ⟨_, _, _, _, hu⟩
    have hun := named_of_leads hvn hu
    have hvu := hu.evolves_any
    obtain ⟨e', hends, he'⟩ :=
      ends_descend (L := L) (n := n) hun (hvnew.trans hvu) hs (hvu.find? hun hf) hk
    obtain rfl : e = e' := Option.some.inj ((hvu.find? hun he).symm.trans he')
    exact hends.mono fun _ _ _ => trivial
  · rintro rfl
    rw [t.peel_dimensions] at he
    constructor
    · intro b hb
      rw [hb] at he
      exact Option.some.inj (he.symm.trans (hvn.find?_keyword hvnew (.base b)))
    · intro internal hi
      rw [hi] at he
      exact (Scope.find?_eq_some he).2

theorem array_levels_over_keyword : ∃ rest w t,
    (notFound.perform 0 (Script.register "A$[")).Leads anything .new rest w ∧
    FieldType.ofDescriptor "[[Lint;" = .ok t ∧ t.dimensions = 2 ∧ t.innermost = .object "int" ∧
    ∃ c v, (∀ n, (notFound.perform n (Script.register t.fullName)).Ends anything w c v) ∧ ∃ e,
      v.scope.name e = "int" ∧
      ∀ u n, notFound.Continues anything v u →
        (notFound.perform n (Query.descend 2 c)).Ends anything u (.ok (some e)) u := by
  have ht : FieldType.ofDescriptor "[[Lint;" = .ok (.array (.array (.object "int"))) := by decide +kernel
  obtain ⟨w, hw, -⟩ := ends_register notFound 0 .new "A$["
  have hl : (notFound.perform 0 (Script.register "A$[")).Leads anything .new _ w :=
    hw.mono fun _ _ _ => trivial
  obtain ⟨c, v, hreg, hlevels⟩ := array_levels hl ht
  obtain ⟨e, -, -, hdescend, hend⟩ := hlevels 2 le_rfl
  exact ⟨_, w, _, hl, ht, rfl, rfl, c, v, hreg, e, (hend rfl).2 "int" rfl, hdescend⟩

end Loader

end ClassHierarchy
