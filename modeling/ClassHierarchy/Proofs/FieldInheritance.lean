import ClassHierarchy.Loader.Table
import ClassHierarchy.Proofs.Lookups

namespace ClassHierarchy

open Relation

namespace Scope

variable {α : Type} {s : Scope} {c p x : ClassId} {chain chain' cs : List ClassId} {g : ClassId → Option α} {a : α}

def Passes (s : Scope) (g : ClassId → Option α) (x y : ClassId) : Prop := g x = none ∧ s.Extends x y

theorem IsSuperChain.extends_of_split {before after : List ClassId} {y : ClassId}
    (h : s.IsSuperChain c (before ++ x :: y :: after)) : s.Extends x y := by
  have hlinked := (List.isChain_split.mp h.linked).2
  exact (List.isChain_cons_cons.mp hlinked).1

theorem IsSuperChain.passes_iff (h : s.IsSuperChain c chain) : ReflTransGen (s.Passes g) c x ↔
    ∃ before after, chain = before ++ x :: after ∧ ∀ y ∈ before, g y = none := by
  constructor
  · intro hx
    induction hx with
    | refl =>
      obtain ⟨rest, rfl⟩ := List.head?_eq_some_iff.mp h.starts
      exact ⟨[], rest, rfl, nofun⟩
    | @tail y z _ hpasses ih =>
      obtain ⟨before, after, rfl, hbefore⟩ := ih
      have hsofar : ∀ x ∈ before ++ [y], g x = none := List.forall_mem_append.mpr ⟨hbefore, by simpa using hpasses.1⟩
      have hz := h.closed y (by simp) z hpasses.2
      rw [List.append_cons] at hz
      rcases List.mem_append.mp hz with hz | hz
      -- The super class has been met before: the chain is cut here, and all of it has been searched.
      · obtain ⟨before', after', hsplit⟩ := List.append_of_mem hz
        refine ⟨before', after' ++ after, by rw [List.append_cons, hsplit]; simp, fun x hx => hsofar x ?_⟩
        rw [hsplit]
        exact List.mem_append_left _ hx
      · obtain ⟨next, after, rfl⟩ := List.exists_cons_of_ne_nil (List.ne_nil_of_mem hz)
        obtain rfl : z = next := Option.some.inj (hpasses.2.symm.trans h.extends_of_split)
        exact ⟨before ++ [y], after, by simp, hsofar⟩
  · rintro ⟨before, after, rfl, hbefore⟩
    induction before using List.reverseRecOn generalizing x after with
    | nil =>
      obtain rfl : x = c := Option.some.inj h.starts
      exact .refl
    | append_singleton before y ih =>
      obtain ⟨hbefore, hy⟩ := List.forall_mem_append.mp hbefore
      rw [List.append_assoc] at h
      exact (ih _ hbefore h).tail ⟨by simpa using hy, h.extends_of_split⟩

theorem IsSuperChain.findSome?_eq_some_iff (h : s.IsSuperChain c chain) :
    chain.findSome? g = some a ↔ ∃ x, ReflTransGen (s.Passes g) c x ∧ g x = some a := by
  simp only [List.findSome?_eq_some_iff, h.passes_iff]
  constructor
  · rintro ⟨before, x, after, hchain, ha, hbefore⟩
    exact ⟨x, ⟨before, after, hchain, hbefore⟩, ha⟩
  · rintro ⟨x, ⟨before, after, hchain, hbefore⟩, ha⟩
    exact ⟨before, x, after, hchain, ha, hbefore⟩

theorem exists_passes_iff (hp : s.Extends c p) (hg : g c = none) :
    (∃ x, ReflTransGen (s.Passes g) c x ∧ g x = some a) ↔ ∃ x, ReflTransGen (s.Passes g) p x ∧ g x = some a := by
  constructor
  · rintro ⟨x, hx, ha⟩
    rcases hx.cases_head with rfl | ⟨y, hpasses, hx⟩
    · rw [hg] at ha
      cases ha
    · obtain rfl : p = y := Option.some.inj (hp.symm.trans hpasses.2)
      exact ⟨x, hx, ha⟩
  · rintro ⟨x, hx, ha⟩
    exact ⟨x, .head ⟨hg, hp⟩ hx, ha⟩

theorem IsSuperChain.findSome?_eq (h : s.IsSuperChain c chain) (h' : s.IsSuperChain p chain') (hp : s.Extends c p)
    (hg : g c = none) : chain.findSome? g = chain'.findSome? g := by
  ext a
  rw [h.findSome?_eq_some_iff, h'.findSome?_eq_some_iff, exists_passes_iff hp hg]

theorem Enumerates.findSome?_eq (h : s.Enumerates c chain cs) (hx : ReflTransGen s.Extends c x) (hg : g x ≠ none) :
    cs.findSome? g = chain.findSome? g := by
  obtain ⟨rest, rfl⟩ : chain <+: cs := h.spreads 0
  have hfound : (chain.findSome? g).isSome := List.findSome?_isSome_iff.mpr
    ⟨x, h.climbs.mem_iff.mpr hx, Option.isSome_iff_ne_none.mpr hg⟩
  rw [List.findSome?_append, Option.or_of_isSome hfound]

theorem Enumerates.findSome?_isSome_iff (h : s.Enumerates c chain cs) :
    (cs.findSome? g).isSome = true ↔ ∃ x, s.InheritsFrom c x ∧ g x ≠ none := by
  rw [List.findSome?_isSome_iff]
  simp only [h.mem_iff, Option.isSome_iff_ne_none]

theorem Charted.superClass (h : s.Charted c) (hp : s.Extends c p) : s.Charted p := by
  rintro x ⟨y, hy, hx⟩
  exact h x ⟨y, .head hp hy, hx⟩

end Scope

namespace Loader

variable {L : Loader} {n : Nat} {c : ClassId} {w : Session}

theorem fields_inherited (h : L.Reaches Action.Own w) (hc : w.scope.Registered c) (he : w.scope.Charted c)
    (hm : w.scope.isMissing c = false) (hn : w.scope.size < n) :
    (∀ p, w.scope.Extends c p → w.scope.isMissing p = false → ∀ field,
      ((w.scope.declaration c).fields.find? field = none → ∃ t?,
        (L.perform n (Query.fieldType c field)).Ends Action.Steady w t? w ∧
        (L.perform n (Query.fieldType p field)).Ends Action.Steady w t? w) ∧
      ((w.scope.declaration c).staticFields.find? field = none →
        (∃ x, ReflTransGen w.scope.Extends c x ∧ x ≠ c ∧ (w.scope.declaration x).staticFields.find? field ≠ none) →
        ∃ t, (L.perform n (Query.staticFieldType c field)).Ends Action.Steady w (some t) w ∧
          (L.perform n (Query.staticFieldType p field)).Ends Action.Steady w (some t) w)) ∧
    ∀ field, (∀ x, ReflTransGen w.scope.Extends c x → (w.scope.declaration x).staticFields.find? field = none) →
      ∃ t?, (L.perform n (Query.staticFieldType c field)).Ends Action.Steady w t? w ∧
        (t?.isSome = true ↔ ∃ x i, ReflTransGen w.scope.Extends c x ∧ TransGen w.scope.Lists x i ∧
          (w.scope.declaration i).staticFields.find? field ≠ none) := by
  obtain ⟨chain, cs, hwalks⟩ := exists_walks L he h.tallied hc hn
  have hclimbs := hwalks.enumerates.climbs
  refine ⟨fun p hp hmp field => ?_, fun field hnone => ⟨_, hwalks.staticFieldType hm field, ?_⟩⟩
  · have hcp := h.tallied.parent (Scope.parent_of_superClass hp)
    obtain ⟨chain', cs', hwalks'⟩ := exists_walks L (he.superClass hp) h.tallied hcp hn
    have hclimbs' := hwalks'.enumerates.climbs
    refine ⟨fun hfield => ⟨_, hwalks.fieldType hm field, ?_⟩, ?_⟩
    · rw [hclimbs.findSome?_eq hclimbs' hp hfield]
      exact hwalks'.fieldType hmp field
    · rintro hfield ⟨x, hx, hne, hdeclares⟩
      have hxp : ReflTransGen w.scope.Extends p x := by
        rcases hx.cases_head with rfl | ⟨y, hy, hx⟩
        · exact absurd rfl hne
        · obtain rfl : p = y := Option.some.inj (hp.symm.trans hy)
          exact hx
      have hstatic := hwalks.staticFieldType hm field
      have hstatic' := hwalks'.staticFieldType hmp field
      have hsome := (hwalks.enumerates.findSome?_isSome_iff
        (g := fun x => (w.scope.declaration x).staticFields.find? field)).mpr
          ⟨x, Scope.inheritsFrom_of_ascends hx, hdeclares⟩
      rw [hwalks'.enumerates.findSome?_eq hxp hdeclares, ← hclimbs.findSome?_eq hclimbs' hp hfield,
        ← hwalks.enumerates.findSome?_eq hx hdeclares] at hstatic'
      obtain ⟨t, ht⟩ := Option.isSome_iff_exists.mp hsome
      rw [ht] at hstatic hstatic'
      exact ⟨t, hstatic, hstatic'⟩
  · rw [hwalks.enumerates.findSome?_isSome_iff]
    constructor
    · rintro ⟨i, ⟨x, hx, hi⟩, hdeclares⟩
      rcases Relation.reflTransGen_iff_eq_or_transGen.mp hi with rfl | hi
      · exact absurd (hnone _ hx) hdeclares
      · exact ⟨x, i, hx, hi, hdeclares⟩
    · rintro ⟨x, i, hx, hi, hdeclares⟩
      exact ⟨i, ⟨x, hx, hi.to_reflTransGen⟩, hdeclares⟩

def twins : LoaderTable where
  rows := [
    ("A", { outline := { superClass := some (.named "B") } }),
    ("B", { outline := {
      superClass := some (.named "A")
      interfaces := [.named "I"]
      fields := [("f", .named "int")]
      staticFields := [("g", .named "long")] } }),
    ("I", { outline := { staticFields := [("h", .named "A")] } })]

theorem fields_inherited_in_circle : ∃ w, twins.loader.Reaches Action.Own w ∧ w.scope.Registered ⟨9⟩ ∧
    w.scope.Charted ⟨9⟩ ∧ w.scope.isMissing ⟨9⟩ = false ∧ w.scope.size < 13 ∧
    w.scope.Extends ⟨9⟩ ⟨10⟩ ∧ w.scope.Extends ⟨10⟩ ⟨9⟩ ∧ w.scope.isMissing ⟨10⟩ = false ∧
    (∃ t?, (twins.loader.perform 13 (Query.fieldType ⟨9⟩ "f")).Ends Action.Steady w t? w ∧
      (twins.loader.perform 13 (Query.fieldType ⟨10⟩ "f")).Ends Action.Steady w t? w) ∧
    (∃ t, (twins.loader.perform 13 (Query.staticFieldType ⟨9⟩ "g")).Ends Action.Steady w (some t) w ∧
      (twins.loader.perform 13 (Query.staticFieldType ⟨10⟩ "g")).Ends Action.Steady w (some t) w) ∧
    ∃ t, (twins.loader.perform 13 (Query.staticFieldType ⟨9⟩ "h")).Ends Action.Steady w (some t) w := by
  let script : Script (List ClassId) := do Query.supertypes (← Script.register "A")
  have h : ((twins.loader.perform 4 script).advance Action.Own 26 .new).map (fun p => decide (
      (p.2.scope.Resolved ∧ p.2.scope.size = 12 ∧ p.2.scope.isMissing ⟨9⟩ = false ∧
        p.2.scope.isMissing ⟨10⟩ = false) ∧
      ((p.2.scope.declaration ⟨9⟩).superClass = some ⟨10⟩ ∧ (p.2.scope.declaration ⟨10⟩).superClass = some ⟨9⟩ ∧
        (⟨11⟩ : ClassId) ∈ (p.2.scope.declaration ⟨10⟩).interfaces) ∧
      (p.2.scope.declaration ⟨9⟩).fields.find? "f" = none ∧
      (p.2.scope.declaration ⟨9⟩).staticFields.find? "g" = none ∧
      (p.2.scope.declaration ⟨10⟩).staticFields.find? "g" ≠ none ∧
      (∀ x ∈ ([⟨9⟩, ⟨10⟩] : List ClassId), (p.2.scope.declaration x).staticFields.find? "h" = none) ∧
      (p.2.scope.declaration ⟨11⟩).staticFields.find? "h" ≠ none)) = some true := by decide +kernel
  obtain ⟨⟨p, w⟩, hp, h⟩ := Option.map_eq_some_iff.mp h
  obtain ⟨⟨hres, hsize, hmA, hmB⟩, ⟨hAB, hBA, hI⟩, hf, hgA, hgB, hnone, hh⟩ := of_decide_eq_true h
  have hw : twins.loader.Reaches Action.Own w := ⟨_, script, 4, p, Run.leads_iff_advance.mpr ⟨26, hp⟩⟩
  have hc : w.scope.Registered ⟨9⟩ := lt_of_lt_of_eq (by decide) hsize.symm
  have he : w.scope.Charted ⟨9⟩ := (hres.explored ⟨9⟩).charted
  have hn : w.scope.size < 13 := lt_of_eq_of_lt hsize (by decide)
  have hcircle : ∀ x, ReflTransGen w.scope.Extends ⟨9⟩ x → x ∈ ([⟨9⟩, ⟨10⟩] : List ClassId) := by
    intro x hx
    induction hx with
    | refl => exact List.mem_cons_self
    | @tail y z _ hz ih =>
      rcases List.mem_pair.mp ih with rfl | rfl
      · obtain rfl : ⟨10⟩ = z := Option.some.inj (hAB.symm.trans hz)
        decide
      · obtain rfl : ⟨9⟩ = z := Option.some.inj (hBA.symm.trans hz)
        decide
  obtain ⟨hinherits, hinterfaces⟩ := fields_inherited hw hc he hmA hn
  obtain ⟨t?, ht, hsome⟩ := hinterfaces "h" fun x hx => hnone x (hcircle x hx)
  obtain ⟨t, rfl⟩ := Option.isSome_iff_exists.mp (hsome.mpr ⟨⟨10⟩, ⟨11⟩, .single hAB, .single hI, hh⟩)
  exact ⟨w, hw, hc, he, hmA, hn, hAB, hBA, hmB, (hinherits ⟨10⟩ hAB hmB "f").1 hf,
    (hinherits ⟨10⟩ hAB hmB "g").2 hgA ⟨⟨10⟩, .single hAB, by decide, hgB⟩, t, ht⟩

end Loader

end ClassHierarchy
