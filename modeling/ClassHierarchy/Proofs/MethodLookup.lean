import ClassHierarchy.Proofs.PlainSteps
import ClassHierarchy.Proofs.StubTranslation
import ClassHierarchy.Proofs.Supertypes
import ClassHierarchy.Proofs.Termination
import ClassHierarchy.Proofs.Twins.Namesakes

/-!
Looking up a method agrees with subtyping. The search for a method goes up the super classes and only then
along the interface lists, the search for a supertype follows both at once. They come to the same classes
because the loader of stubs gives interfaces no super class.
-/

namespace ClassHierarchy

/-- Each class in an interface list of which something is known is an interface or missing. -/
def Scope.Layered (s : Scope) : Prop := ∀ c i st, i ∈ (s.declaration c).interfaces → s.settled? i = some st →
  st.missing = true ∨ st.declaration.flags.isInterface = true

namespace Scope

variable {s : Scope}

theorem layered_iff : s.Layered ↔ ∀ c ∈ s.ids, ∀ i ∈ (s.declaration c).interfaces, ∀ st ∈ s.settled? i,
    st.missing = true ∨ st.declaration.flags.isInterface = true := by
  refine ⟨fun h c _ i hi st hst => h c i st hi hst, fun h c i st hi hst => h c ?_ i hi st hst⟩
  obtain ⟨st', hst'⟩ := (parent_of_interface hi).settled
  exact mem_ids.mpr (.of_settled hst')

instance : Decidable s.Layered := decidable_of_iff _ layered_iff.symm

end Scope

theorem Action.spares_of_unforced {x : Action} {w : Session} (h : x.Unforced w) (c : ClassId) : x.Spares c w := by
  cases x with
  | attach a d => exact absurd h id
  | rebind a p => exact absurd h id
  | _ => trivial

namespace StubSources

variable {src : StubSources} {w : Session} {c : ClassId} {st : Settled} (hl : w.Left src.loader c)
  (hst : w.scope.settled? c = some st) (ht : w.scope.Traced)
include hl hst ht

theorem array_not_interface (ha : (w.scope.name c).isArray = true) :
    (w.scope.declaration c).flags.isInterface = false := by
  cases hs : src.options.synthesizeArrays with
  | true =>
    obtain ⟨o, ho, hv⟩ := hl.settled st hst
    rw [loader_of_array ha, hs] at ho
    obtain ⟨_, _, _, -, -, -, rfl⟩ := replay_arrayDeclaration ho
    rw [(present_of_ok hst hv).2]
    dsimp only
    decide
  | false =>
    rw [(array_missing hl hst ht ha hs).declaration]
    decide

theorem superClass_of_interface (hi : (w.scope.declaration c).flags.isInterface = true) :
    (w.scope.declaration c).superClass = none := by
  cases ha : (w.scope.name c).isArray with
  | true =>
    rw [array_not_interface hl hst ht ha] at hi
    cases hi
  | false =>
    cases hs : src.stub? (w.scope.name c) with
    | none =>
      rw [(stub_missing hl hst ht ha hs).declaration]
      rfl
    | some found =>
      have htranslates := stub_translated hl hst ht ha hs
      by_cases hread : found.1.Readable
      · have hrenders := htranslates.renders hread
        have hflag : found.1.isInterface = true := by
          rw [ClassStub.isInterface, ← hrenders.flags]
          exact hi
        have hsuper := hrenders.superClass
        rw [if_pos hflag] at hsuper
        exact Option.map_eq_none_iff.mp hsuper
      · rw [(htranslates.unreadable hread).declaration]
        rfl

end StubSources

namespace Session

variable {α : Type} {L : Loader} {src : StubSources} {w w' : Session} {c i : ClassId} {st : Settled}

structure Lazy (L : Loader) (w : Session) : Prop where
  sane : w.Sane
  traced : w.scope.Traced
  grown : Scope.new.Grows w.scope
  left : ∀ c, c.isPrimitive = false → w.Left L c

theorem lazy_new : Session.new.Lazy L where
  sane := ⟨attended_new, Scope.tallied_new⟩
  traced := Scope.traced_new
  grown := .refl _
  left _ := left_new

theorem Lazy.leads {n : Nat} {q : Script α} {p : Run α} (hL : L.ByName) (h : w.Lazy L)
    (hl : (L.perform n q).Leads Action.Unforced w p w') : w'.Lazy L where
  sane := h.sane.leads (L.nested_perform n q) hl.steady
  traced := Scope.traced_of_leads h.traced hl
  grown := h.grown.trans hl.steady.evolves
  left c hc := Loader.left_of_leads hL (Loader.fetches_perform hL n q) (h.left c hc) hl fun _ _ hx =>
    Action.spares_of_unforced hx c

theorem Lazy.primitive (h : w.Lazy L) (hc : c.isPrimitive = true) : w.scope.isMissing c = false ∧
    w.scope.declaration c = { flags := .publicBit ||| .finalBit ||| .abstractBit, framework := true } := by
  obtain ⟨p, rfl⟩ := ClassId.isPrimitive_iff.mp hc
  obtain ⟨hd, hm⟩ := declaration_of_primitive h.grown p
  exact ⟨hm.trans (Scope.isMissing_new p), hd.trans (Scope.declaration_new p)⟩

theorem Lazy.missing (h : w.Lazy L) (hm : w.scope.isMissing c = true) : w.scope.declaration c = .missing := by
  cases hc : c.isPrimitive with
  | true =>
    rw [(h.primitive hc).1] at hm
    cases hm
  | false =>
    obtain ⟨st, hst, hmissing⟩ := Scope.isMissing_iff.mp hm
    obtain ⟨o, -, hv⟩ := (h.left c hc).settled st hst
    obtain ⟨hdecl, hfail⟩ := Prod.mk.inj hv
    cases o with
    | ok d =>
      rw [hmissing] at hfail
      cases hfail
    | error e => exact (Scope.declaration_of_settled hst).trans hdecl.symm

theorem Lazy.superClass_of_interface (h : w.Lazy src.loader) (hst : w.scope.settled? c = some st)
    (hi : st.missing = true ∨ st.declaration.flags.isInterface = true) :
    (w.scope.declaration c).superClass = none := by
  rcases hi with hm | hi
  · rw [h.missing (Scope.isMissing_iff.mpr ⟨st, hst, hm⟩)]
    rfl
  · rw [← Scope.declaration_of_settled hst] at hi
    cases hc : c.isPrimitive with
    | true => rw [(h.primitive hc).2]
    | false => exact StubSources.superClass_of_interface (h.left c hc) hst h.traced hi

theorem Lazy.present (h : w.Lazy L) {sig : Signature} {m : Method}
    (hm : (w.scope.declaration c).findMethod? sig = some m) :
    c.isPrimitive = false ∧ w.scope.isMissing c = false := by
  constructor
  · by_contra hc
    rw [(h.primitive (by simpa using hc)).2] at hm
    cases hm
  · by_contra hmissing
    rw [h.missing (by simpa using hmissing)] at hm
    cases hm

theorem Lazy.gathered (h : w.Lazy src.loader) (hl : w.scope.Layered) {a x : ClassId} {chain closure : List ClassId}
    (hs : w.scope.Supertypes a chain closure) : x ∈ chain ++ closure ↔ w.scope.Below a x := by
  apply hs.mem_iff
  intro i hi
  obtain ⟨c, hc⟩ := hs.spread.listed i hi
  obtain ⟨st, hst⟩ := hs.settled (List.mem_append_right chain hi)
  exact h.superClass_of_interface hst (hl c i st hc hst)

end Session

namespace Loader

variable {α : Type} {L : Loader} {src : StubSources} {n : Nat} {c : ClassId} {q : Script α} {a : α}
  {sig : Signature} {m? : Option Method} {m : Method} {w w' : Session}

/-- Some time before `z`, with no loader running and nothing forced until `z`, `c` was asked `q` and the answer
was `a`. -/
def Told (L : Loader) (c : ClassId) (q : Script α) (a : α) (z : Session) : Prop :=
  ∃ n w w', L.Reaches Action.Unforced w ∧ w.stack = [] ∧ w.scope.Registered c ∧
    (L.perform n q).Ends Run.anything w a w' ∧ L.Continues Action.Unforced w' z

theorem Reaches.lazy (hL : L.ByName) (h : L.Reaches Action.Unforced w) : w.Lazy L := by
  obtain ⟨β, script, budget, rest, hl⟩ := h
  exact Session.lazy_new.leads hL hl

theorem Continues.lazy (hL : L.ByName) (h : L.Continues Action.Unforced w w') (hw : w.Lazy L) : w'.Lazy L := by
  obtain ⟨β, script, budget, rest, hl⟩ := h
  exact hw.leads hL hl

theorem Continues.steady (h : L.Continues Action.Unforced w w') : L.Continues Action.Steady w w' := by
  obtain ⟨β, script, budget, rest, hl⟩ := h
  exact ⟨β, script, budget, rest, hl.steady⟩

theorem unforced_of_reads (hL : L.ByName) (hq : Script.Uses Request.Reads q)
    (h : (L.perform n q).Ends Run.anything w a w') : (L.perform n q).Ends Action.Unforced w a w' := by
  have hmild : ∀ c name, Script.Uses Request.Mild (L c name) := by
    intro c name
    apply (hL.harmless c name).mono
    rintro (_ | _) h <;> trivial
  exact (keeps_perform hmild hq.mild w).leads_due h

theorem findMethodHere_spec (hw : w.Sane) (hs : w.stack = []) (hc : w.scope.Registered c)
    (h : (L.perform n (Query.findMethodHere c sig)).Ends Action.Steady w (some m) w') :
    ∃ st, w'.scope.settled? c = some st ∧ (w'.scope.declaration c).findMethod? sig = some m := by
  unfold Query.findMethodHere at h
  rw [perform_bind] at h
  obtain ⟨found, w₁, hread, hdone⟩ := Run.ends_bind_iff.mp h
  obtain ⟨hm, rfl⟩ := Run.ends_done_iff.mp hdone
  obtain ⟨st, hst, rfl⟩ := ofDeclared_spec hw hs hc hread
  refine ⟨st, hst, ?_⟩
  split at hm
  · cases hm
  · exact hm

theorem findMethod_spec (hL : L.ByName) (hw : w.Lazy L) (hs : w.stack = []) (hc : w.scope.Registered c)
    (h : (L.perform n (Query.findMethod c sig)).Ends Action.Unforced w m? w') :
    w'.Lazy L ∧ ∃ chain closure, w'.scope.Supertypes c chain closure ∧
      m? = (chain ++ closure).findSome? fun x => (w'.scope.declaration x).findMethod? sig := by
  have hw' : w'.Lazy L := hw.leads hL h
  refine ⟨hw', ?_⟩
  obtain ⟨-, -, ⟨hm, rfl⟩ | hfound⟩ := search_spec (·.findMethod? sig) hw.sane hs hc h.steady
  · obtain ⟨st, hst, -⟩ := Scope.isMissing_iff.mp hm
    have hdecl := hw'.missing hm
    refine ⟨[c], [], Scope.supertypes_alone hst (by rw [hdecl]; rfl), ?_⟩
    rw [List.append_nil, List.findSome?_singleton, hdecl]
    rfl
  · exact hfound

theorem Told.below {b : ClassId} (h : src.loader.Told c (Query.isConvertibleTo c b) true w)
    (hb : b.isPrimitive = false) : w.scope.Below c b := by
  obtain ⟨n, v, v', hr, hs, hc, he, hcont⟩ := h
  have he := unforced_of_reads src.byName (Query.reads_isConvertibleTo c b) he
  exact ((convertible_iff (hr.lazy src.byName).sane hs hc hb he.steady).mp rfl).grows hcont.steady.grows

theorem Told.declared (h : src.loader.Told c (Query.findMethodHere c sig) (some m) w) :
    (w.scope.declaration c).findMethod? sig = some m := by
  obtain ⟨n, v, v', hr, hs, hc, he, hcont⟩ := h
  have he := unforced_of_reads src.byName (Query.reads_findMethodHere c sig) he
  obtain ⟨st, hst, hm⟩ := findMethodHere_spec (hr.lazy src.byName).sane hs hc he.steady
  rw [hcont.steady.grows.declaration id hst]
  exact hm

theorem method_lookup_agrees (hr : src.loader.Reaches Action.Unforced w) (hs : w.stack = [])
    (hc : w.scope.Registered c) (sig : Signature) :
    (∀ stubs : List ClassStub, (∀ name s framework, src.stub? name = some (s, framework) → s ∈ stubs) →
      src.loader.Completes w (Query.findMethod c sig) ∧
      ∀ target, src.loader.Completes w (Query.isConvertibleTo c target) ∧
        src.loader.Completes w (Query.findMethodHere target sig)) ∧
    ∀ n m? w' z, (src.loader.perform n (Query.findMethod c sig)).Ends Run.anything w m? w' →
      src.loader.Continues Action.Unforced w' z → z.stack = [] → z.scope.Layered →
      (∀ m, m? = some m → ∃ target, target.isPrimitive = false ∧ z.scope.Registered target ∧
        ∀ k, z.scope.size ≤ k → src.loader.Converts k c target z true z ∧
          (src.loader.perform k (Query.findMethodHere target sig)).Ends Action.Steady z (some m) z) ∧
      ∀ target m, target.isPrimitive = false → src.loader.Told c (Query.isConvertibleTo c target) true z →
        src.loader.Told target (Query.findMethodHere target sig) (some m) z → m?.isSome = true := by
  refine ⟨fun stubs hstubs => ?_, fun n m? w' z h hcont hz hlayered => ?_⟩
  · have hfinite := StubSources.finite hstubs
    refine ⟨completes hfinite hr (Query.finite_of_reads (Query.reads_findMethod c sig)), fun target => ⟨?_, ?_⟩⟩
    · exact completes hfinite hr (Query.finite_of_reads (Query.reads_isConvertibleTo c target))
    · exact completes hfinite hr (Query.finite_of_reads (Query.reads_findMethodHere target sig))
  · have h := unforced_of_reads src.byName (Query.reads_findMethod c sig) h
    have hgrows : w'.scope.Grows z.scope := hcont.steady.grows
    obtain ⟨hw', chain, closure, hsuper, rfl⟩ := findMethod_spec src.byName (hr.lazy src.byName) hs hc h
    have hlazy : z.Lazy src.loader := hcont.lazy src.byName hw'
    have hcz : z.scope.Registered c := hgrows.registered (h.steady.evolves.registered hc)
    -- What was gathered is settled, so that it is still the same at `z`.
    have hgathered : ∀ x, x ∈ chain ++ closure ↔ z.scope.Below c x :=
      fun x => hlazy.gathered hlayered (hsuper.grows hgrows)
    have hdeclared : ∀ x ∈ chain ++ closure, z.scope.declaration x = w'.scope.declaration x := by
      intro x hx
      obtain ⟨st, hst⟩ := hsuper.settled hx
      exact hgrows.declaration id hst
    refine ⟨fun m hm => ?_, fun target m hp hconv hhere => ?_⟩
    · obtain ⟨target, htarget, hm⟩ := List.exists_of_findSome?_eq_some hm
      rw [← hdeclared target htarget] at hm
      obtain ⟨hprimitive, hpresent⟩ := hlazy.present hm
      have hbelow := (hgathered target).mp htarget
      refine ⟨target, hprimitive, hbelow.registered hlazy.sane.tallied hcz, fun k hk => ⟨?_, ?_⟩⟩
      · refine converts_of_below hlazy.sane hz (fun x hx => ?_) hcz hprimitive hk hbelow
        obtain ⟨st, hst⟩ := (hsuper.grows hgrows).settled ((hgathered x).mpr hx)
        exact Scope.isUntouched_of_settled hst
      · obtain ⟨st, hst⟩ := (hsuper.grows hgrows).settled htarget
        exact hm ▸ ends_map (ends_ofDeclared (Scope.isUntouched_of_settled hst) hpresent _) Option.join
    · have htarget := (hgathered target).mpr (hconv.below hp)
      have hm := hhere.declared
      rw [hdeclared target htarget] at hm
      exact List.findSome?_isSome_iff.mpr ⟨target, htarget, by rw [hm]; rfl⟩

def crowned : StubSources where
  program name :=
    if name = "A" then some { name, superName := some "B", interfaces := ["J", "I"] }
    else if name = "I" then
      some { name, superName := some "A", flags := .interfaceBit, methods := [⟨"m", "()V", 0⟩] }
    else none
  platform _ := none

theorem method_lookup_agrees_when_crowned : ∃ w w' m target, crowned.loader.Reaches Action.Unforced w ∧
    (crowned.loader.perform 4 (Query.findMethod ⟨9⟩ { name := "m" })).Ends Run.anything w (some m) w' ∧
    w'.scope.Layered ∧ target.isPrimitive = false ∧ crowned.loader.Converts 13 ⟨9⟩ target w' true w' ∧
    (crowned.loader.perform 13 (Query.findMethodHere target { name := "m" })).Ends Action.Steady w' (some m) w' := by
  let lookup := crowned.loader.perform 4 (Query.findMethod ⟨9⟩ { name := "m" })
  have h : (((crowned.loader.perform 1 (Script.register "A")).advance Action.Unforced 1 .new).bind fun p =>
      (lookup.advance Action.Unforced 40 p.2).map fun p' =>
        ((p.2.stack, p.2.scope.size), (p'.1.result?.map Option.isSome, p'.2.stack),
          (p'.2.scope.size, decide p'.2.scope.Layered))) =
      some (([], 10), (some true, []), (13, true)) := by decide +kernel
  obtain ⟨⟨p, w⟩, hp, h⟩ := Option.bind_eq_some_iff.mp h
  obtain ⟨⟨p', w'⟩, hp', h⟩ := Option.map_eq_some_iff.mp h
  simp only [Prod.mk.injEq, decide_eq_true_eq, Option.map_eq_some_iff] at h
  obtain ⟨⟨hs, hsize⟩, ⟨⟨m?, hm?, hsome⟩, hs'⟩, hsize', hlayered⟩ := h
  obtain ⟨m, rfl⟩ := Option.isSome_iff_exists.mp hsome
  have hw : crowned.loader.Reaches Action.Unforced w := ⟨_, _, 1, p, Run.leads_iff_advance.mpr ⟨1, hp⟩⟩
  have hends : lookup.Ends Run.anything w (some m) w' := (Run.ends_of_advance hp' hm?).mono fun _ _ _ => trivial
  have hstill : crowned.loader.Continues Action.Unforced w' w' := ⟨Unit, .done (), 0, .done (), .refl _ _⟩
  have hreg : w.scope.Registered ⟨9⟩ := lt_of_lt_of_eq (by decide) hsize.symm
  obtain ⟨-, hagrees⟩ := method_lookup_agrees hw hs hreg { name := "m" }
  obtain ⟨hfound, -⟩ := hagrees 4 _ w' w' hends hstill hs' hlayered
  obtain ⟨target, hp, -, hanswers⟩ := hfound m rfl
  obtain ⟨hconverts, hhere⟩ := hanswers 13 (Nat.le_of_eq hsize')
  exact ⟨w, w', m, target, hw, hends, hlayered, hp, hconverts, hhere⟩

end Loader

end ClassHierarchy
