import ClassHierarchy.Proofs.Supertypes
import ClassHierarchy.Proofs.Termination

namespace ClassHierarchy

namespace Method

variable {x y m : Method}

theorem hides_iff : x.hides y = true ↔ x.name = y.name ∧ x.params = y.params := by simp [hides]

@[simp] theorem hides_self (m : Method) : m.hides m = true := hides_iff.mpr ⟨rfl, rfl⟩

theorem hides_congr (h : x.hides y = true) (m : Method) : m.hides x = m.hides y := by
  obtain ⟨hname, hparams⟩ := hides_iff.mp h
  simp [hides, hname, hparams]

end Method

namespace Query

variable {out ms : List Method} {m x : Method}

theorem addVisible_cons (out ms : List Method) (x : Method) : addVisible out (x :: ms) =
    addVisible (if out.any (·.hides x) then out else out ++ [x]) ms := rfl

theorem addVisible_append (out xs ys : List Method) :
    addVisible out (xs ++ ys) = addVisible (addVisible out xs) ys := List.foldl_append

theorem mem_addVisible : m ∈ addVisible out ms ↔
    m ∈ out ∨ (∀ x ∈ out, x.hides m = false) ∧ ms.find? (·.hides m) = some m := by
  induction ms generalizing out with
  | nil => simp [addVisible]
  | cons x ms ih =>
    rw [addVisible_cons, ih, List.find?_cons]
    cases hx : x.hides m with
    | true =>
      have hsame : ∀ y : Method, y.hides x = y.hides m := Method.hides_congr hx
      by_cases hhidden : ∃ y ∈ out, y.hides m = true
      · have hnot : ¬ ∀ y ∈ out, y.hides m = false := by simpa using hhidden
        simp [hsame, hhidden, hnot]
      · have hall : ∀ y ∈ out, y.hides m = false := by simpa using hhidden
        have hlast : ¬ ∀ y, y ∈ out ∨ y = x → y.hides m = false := fun h => by simp [h x (.inr rfl)] at hx
        have hsymm : x = m ↔ m = x := eq_comm
        simp only [hsame, List.any_eq_true, hhidden, if_false, List.mem_append, List.mem_singleton, hlast,
          false_and, or_false, Option.some_inj, hsymm]
        exact or_congr_right (and_iff_right hall).symm
    | false =>
      have hne : m ≠ x := by
        rintro rfl
        simp at hx
      by_cases hhidden : ∃ y ∈ out, y.hides x = true
      · simp [hhidden]
      · simp [hhidden, hne, hx, or_imp, forall_and]

/-- Of the methods `own`, `ms` has those that no earlier one of them hides. -/
def KeepsFirst (own ms : List Method) : Prop := ∀ m ∈ own, m ∈ ms ↔ own.find? (·.hides m) = some m

theorem mem_addVisible_of_hidden (h : ∃ x ∈ out, x.hides m = true) : m ∈ addVisible out ms ↔ m ∈ out := by
  have hnot : ¬ ∀ x ∈ out, x.hides m = false := by simpa using h
  rw [mem_addVisible]
  tauto

theorem exists_hides_of_find? {own : List Method} (hm : m ∈ own) :
    ∃ x ∈ addVisible [] own, x.hides m = true := by
  obtain ⟨x, hfind⟩ : ∃ x, own.find? (·.hides m) = some x := by
    rw [← Option.isSome_iff_exists, List.find?_isSome]
    exact ⟨m, hm, m.hides_self⟩
  have hx : x.hides m = true := by simpa using List.find?_some hfind
  have hsame : ∀ y : Method, y.hides x = y.hides m := Method.hides_congr hx
  refine ⟨x, mem_addVisible.mpr (.inr ⟨nofun, ?_⟩), hx⟩
  simpa only [hsame] using hfind

end Query

namespace Scope

variable {s t : Scope} {c : ClassId} {st : Settled} {R : ClassId → Prop}

theorem Evolves.methods (h : s.Evolves R t) (hc : s.settled? c = some st) :
    (t.declaration c).methods = (s.declaration c).methods := by
  obtain ⟨st', hc', hev⟩ := h.settled hc
  have hmembers := congrArg Declaration.methods hev.members
  rw [declaration_of_settled hc, declaration_of_settled hc']
  exact hmembers

theorem Evolves.isMissing (h : s.Evolves R t) (hc : s.settled? c = some st) : t.isMissing c = s.isMissing c := by
  obtain ⟨st', hc', hev⟩ := h.settled hc
  simp [Scope.isMissing, hc, hc', hev.missing]

end Scope

namespace Run

variable {load : ClassId → Run (Except LoadError Declaration)} {may : Action → Session → Prop} {n : Nat}
  {c : ClassId} {cs seen : List ClassId} {next? : Option ClassId} {w w' : Session}

theorem superChain_seen (h : (superChain load n seen next?).Ends may w cs w') :
    ∃ rest, cs = seen.reverse ++ rest := by
  induction n generalizing seen next? w with
  | zero =>
    cases next? with
    | none =>
      obtain ⟨rfl, -⟩ := ends_done_iff.mp h
      exact ⟨[], (List.append_nil _).symm⟩
    | some c =>
      obtain ⟨-, r, -⟩ := ends_ask_iff.mp h
      cases r
  | succ n ih =>
    cases next? with
    | none =>
      obtain ⟨rfl, -⟩ := ends_done_iff.mp h
      exact ⟨[], (List.append_nil _).symm⟩
    | some c =>
      unfold superChain at h
      split at h
      next =>
        obtain ⟨rfl, -⟩ := ends_done_iff.mp h
        exact ⟨[], (List.append_nil _).symm⟩
      next =>
        obtain ⟨_, w₁, -, h⟩ := ends_bind_iff.mp h
        obtain ⟨s, w₂, -, h⟩ := ends_bind_iff.mp h
        obtain ⟨rest, rfl⟩ := ih h
        exact ⟨c :: rest, by simp⟩

theorem superChain_starts (h : (superChain load n [] (some c)).Ends may w cs w') : ∃ rest, cs = c :: rest := by
  cases n with
  | zero =>
    obtain ⟨-, r, -⟩ := ends_ask_iff.mp h
    cases r
  | succ n =>
    obtain ⟨_, w₁, -, h⟩ := ends_bind_iff.mp h
    obtain ⟨s, w₂, -, h⟩ := ends_bind_iff.mp h
    exact superChain_seen h

section Alone

variable (hu : w.scope.isUntouched c = false)
include hu

theorem superChain_alone (hd : (w.scope.declaration c).superClass = none)
    (h : (superChain load n [] (some c)).Ends may w cs w') : cs = [c] ∧ w' = w := by
  cases n with
  | zero =>
    obtain ⟨-, r, -⟩ := ends_ask_iff.mp h
    cases r
  | succ n =>
    have hstop : (superChain load n [c] none).Ends Action.Steady w [c] w := by cases n <;> exact .refl _ _
    have hresolve : (resolve load c).Ends Action.Steady w () w := (ends_resolve_of_touched hu).mpr rfl
    exact h.unique (hresolve.bind ((ends_look_bind_iff trivial).mpr (hd ▸ hstop)))

theorem interfaceClosure_alone (hd : (w.scope.declaration c).interfaces = [])
    (h : (interfaceClosure load n [c] [c] []).Ends may w cs w') : cs = [] ∧ w' = w := by
  cases n with
  | zero =>
    obtain ⟨-, r, -⟩ := ends_ask_iff.mp h
    cases r
  | succ n =>
    have hstop : (interfaceClosure load n [] [c] []).Ends Action.Steady w [] w := by cases n <;> exact .refl _ _
    have hresolve : (resolve load c).Ends Action.Steady w () w := (ends_resolve_of_touched hu).mpr rfl
    refine h.unique (hresolve.bind ((ends_look_bind_iff trivial).mpr ?_))
    dsimp only
    rw [hd]
    exact hstop

end Alone

end Run

namespace Loader

variable {L : Loader} {n : Nat} {may : Action → Session → Prop} {c : ClassId} {cs : List ClassId} {w w' : Session}
  {select : ClassId → Declaration → List Method} {out ms : List Method} {m : Method}

theorem visibleMethods_kept (h : (L.perform n (Query.visibleMethods select out cs)).Ends may w ms w')
    (hm : ∃ x ∈ out, x.hides m = true) : m ∈ ms ↔ m ∈ out := by
  induction cs generalizing out w with
  | nil =>
    obtain ⟨rfl, -⟩ := Run.ends_done_iff.mp h
    exact Iff.rfl
  | cons c cs ih =>
    unfold Query.visibleMethods at h
    rw [perform_bind] at h
    obtain ⟨d, w₁, -, h⟩ := Run.ends_bind_iff.mp h
    obtain ⟨x, hx, hxm⟩ := hm
    rw [ih h ⟨x, Query.mem_addVisible.mpr (.inl hx), hxm⟩, Query.mem_addVisible_of_hidden ⟨x, hx, hxm⟩]

theorem visibleMethods_keepsFirst (hu : w.scope.isUntouched c = false)
    (h : (L.perform n (Query.visibleMethods select [] (c :: cs))).Ends may w ms w') :
    Query.KeepsFirst (select c (w.scope.declaration c)) ms := by
  unfold Query.visibleMethods at h
  rw [perform_bind] at h
  obtain ⟨d, w₁, hd, h⟩ := Run.ends_bind_iff.mp h
  obtain ⟨rfl, rfl⟩ := hd.unique (ends_declaration hu)
  intro m hm
  rw [visibleMethods_kept h (Query.exists_hides_of_find? hm), Query.mem_addVisible]
  simp

theorem visibleMethods_ends (h : ∀ x ∈ cs, w.scope.isUntouched x = false) :
    (L.perform n (Query.visibleMethods select out cs)).Ends Action.Steady w
      (Query.addVisible out (cs.flatMap fun x => select x (w.scope.declaration x))) w := by
  induction cs generalizing out with
  | nil => exact ends_pure out
  | cons c cs ih =>
    obtain ⟨hc, hcs⟩ := List.forall_mem_cons.mp h
    rw [List.flatMap_cons, Query.addVisible_append]
    exact ends_perform_bind (ends_declaration hc) (ih hcs)

def SetsOut (L : Loader) (n : Nat) (c : ClassId) (walk : Script (List ClassId)) : Prop :=
  ∀ {w cs w'}, (L.perform n walk).Ends Run.anything w cs w' → (∃ rest, cs = c :: rest) ∧
    (w.scope.isUntouched c = false → (w.scope.declaration c).parents = [] → cs = [c] ∧ w' = w)

theorem setsOut_superChain (L : Loader) (n : Nat) (c : ClassId) : L.SetsOut n c (Script.superChain c) := by
  intro w cs w' h
  unfold Script.superChain at h
  rw [perform_request] at h
  refine ⟨Run.superChain_starts h, fun hu hp => Run.superChain_alone hu ?_ h⟩
  exact Option.toList_eq_nil_iff.mp (List.append_eq_nil_iff.mp hp).1

theorem setsOut_supertypes (L : Loader) (n : Nat) (c : ClassId) : L.SetsOut n c (Query.supertypes c) := by
  intro w cs w' h
  unfold Query.supertypes at h
  rw [perform_bind] at h
  obtain ⟨chain, w₁, hchain, h⟩ := Run.ends_bind_iff.mp h
  rw [perform_bind] at h
  obtain ⟨closure, w₂, hclosure, h⟩ := Run.ends_bind_iff.mp h
  obtain ⟨rfl, rfl⟩ := Run.ends_done_iff.mp h
  obtain ⟨⟨rest, rfl⟩, halone⟩ := L.setsOut_superChain n c hchain
  refine ⟨⟨rest ++ closure, rfl⟩, fun hu hp => ?_⟩
  obtain ⟨hrest, rfl⟩ := halone hu hp
  unfold Script.interfaceClosure at hclosure
  rw [perform_request, hrest] at hclosure
  obtain ⟨rfl, rfl⟩ := Run.interfaceClosure_alone hu (List.append_eq_nil_iff.mp hp).2 hclosure
  exact ⟨by rw [hrest, List.append_nil], rfl⟩

theorem isMissing_touches {b : Bool} (h : (L.perform n (Query.isMissing c)).Ends may w b w') :
    w'.scope.isUntouched c = false ∧ b = w'.scope.isMissing c := by
  unfold Query.isMissing Script.resolve at h
  rw [perform_bind, perform_request] at h
  obtain ⟨_, w₁, hresolve, h⟩ := Run.ends_bind_iff.mp h
  have hread := ends_map (L := L) (n := n) (w := w₁) ends_inspect (·.isMissing c)
  obtain ⟨rfl, rfl⟩ := h.unique hread
  exact ⟨((Run.sound_resolve (L.nested_call n) c w).ends hresolve).2, rfl⟩

theorem visible_spec {walk : Script (List ClassId)} {ms? : Option (List Method)} (hwalk : L.SetsOut n c walk)
    (hselect : ∀ d d' : Declaration, d.methods = d'.methods → select c d = select c d')
    (h : (L.perform n (do
      if ← Query.isMissing c then return none
      return some (← Query.visibleMethods select [] (← walk)))).Ends Run.anything w ms? w') :
    w'.scope.isUntouched c = false ∧ (w'.scope.isMissing c = true ∧ ms? = none ∨
      w'.scope.isMissing c = false ∧ ∃ ms, ms? = some ms ∧
        Query.KeepsFirst (select c (w'.scope.declaration c)) ms) := by
  rw [perform_bind] at h
  obtain ⟨missing, w₁, hmissing, h⟩ := Run.ends_bind_iff.mp h
  obtain ⟨hu, rfl⟩ := isMissing_touches hmissing
  cases hm : w₁.scope.isMissing c with
  | true =>
    rw [hm] at h
    obtain ⟨rfl, rfl⟩ := Run.ends_done_iff.mp h
    exact ⟨hu, .inl ⟨hm, rfl⟩⟩
  | false =>
    rw [hm] at h
    change (L.perform n (walk >>= fun cs => Query.visibleMethods select [] cs >>= fun ms =>
      pure (some ms))).Ends _ _ _ _ at h
    rw [perform_bind] at h
    obtain ⟨cs, w₂, hcs, h⟩ := Run.ends_bind_iff.mp h
    rw [perform_bind] at h
    obtain ⟨ms, w₃, hms, h⟩ := Run.ends_bind_iff.mp h
    obtain ⟨rfl, rfl⟩ := Run.ends_done_iff.mp h
    obtain ⟨⟨rest, rfl⟩, halone⟩ := hwalk hcs
    cases hst : w₁.scope.settled? c with
    | some st =>
      have hwalked := hcs.evolves_any
      have hread := hms.evolves_any
      obtain ⟨st₂, hst₂, -⟩ := hwalked.settled hst
      obtain ⟨st₃, hst₃, -⟩ := hread.settled hst₂
      refine ⟨Scope.isUntouched_of_settled hst₃, .inr ⟨?_, ms, rfl, ?_⟩⟩
      · rw [hread.isMissing hst₂, hwalked.isMissing hst, hm]
      · rw [hselect _ _ (hread.methods hst₂)]
        exact visibleMethods_keepsFirst (Scope.isUntouched_of_settled hst₂) hms
    -- The loader of `c` is running; nothing is known of `c`, and nothing above it is asked for.
    | none =>
      obtain ⟨hrest, rfl⟩ := halone hu (by rw [Scope.declaration_of_unsettled hst]; rfl)
      rw [hrest] at hms
      have hkeeps := visibleMethods_keepsFirst hu hms
      have halone : (L.perform n (Query.visibleMethods select [] [c])).Ends Action.Steady w₂
          (Query.addVisible [] (select c (w₂.scope.declaration c))) w₂ :=
        ends_perform_bind (ends_declaration hu) (ends_pure _)
      obtain ⟨-, rfl⟩ := hms.unique halone
      exact ⟨hu, .inr ⟨hm, ms, rfl, hkeeps⟩⟩

theorem own_methods_kept (L : Loader) (w : Session) (c : ClassId) :
    (L.Finite → L.Reaches Run.anything w → L.Completes w (Query.allMethods c) ∧
      ∀ name, L.Completes w (Query.findMethods c name) ∧ L.Completes w (Query.findMethodsHere c name)) ∧
    (∀ n ms? w', (L.perform n (Query.allMethods c)).Ends Run.anything w ms? w' →
      w'.scope.isMissing c = true ∧ ms? = none ∨ w'.scope.isMissing c = false ∧
        ∃ ms, ms? = some ms ∧ Query.KeepsFirst (w'.scope.declaration c).methods ms) ∧
    ∀ name n ms? w', (L.perform n (Query.findMethods c name)).Ends Run.anything w ms? w' →
      w'.scope.isMissing c = true ∧ ms? = none ∨ w'.scope.isMissing c = false ∧
        ∃ ms here, ms? = some ms ∧ Query.KeepsFirst here ms ∧
          ∀ k, (L.perform k (Query.findMethodsHere c name)).Ends Action.Steady w' (some here) w' := by
  refine ⟨fun hL hr => ?_, fun n ms? w' h => ?_, fun name n ms? w' h => ?_⟩
  · refine ⟨completes hL hr (Query.finite_of_reads (Query.reads_allMethods c)), fun name => ⟨?_, ?_⟩⟩
    · exact completes hL hr (Query.finite_of_reads (Query.reads_findMethods c name))
    · exact completes hL hr (Query.finite_of_reads (Query.reads_ofDeclared c _))
  · have hown : ∀ d : Declaration, Query.inheritable c c d = d.methods := fun d => by simp [Query.inheritable]
    obtain ⟨-, hspec⟩ := visible_spec (L.setsOut_superChain n c) (fun d d' hd => by simp [Query.inheritable, hd]) h
    rwa [hown] at hspec
  · obtain ⟨hu, hmissing | ⟨hm, ms, hms, hkeeps⟩⟩ := visible_spec (L.setsOut_supertypes n c)
      (fun d d' hd => by simp [Declaration.methodsNamed, hd]) h
    · exact .inl hmissing
    · exact .inr ⟨hm, ms, _, hms, hkeeps, fun k => ends_ofDeclared hu hm (·.methodsNamed name)⟩

def bridging : LoaderTable where
  rows := [
    ("A", { outline := {
      superClass := some (.named "B")
      methods := [{ name := "m", returns := .named "int" }, { name := "m", returns := .named "long" }] } }),
    ("B", { outline := { methods := [{ name := "m" }] } })]

theorem own_methods_kept_in_bridging : ∃ w w₁ w₂ ms₁ ms₂ here,
    bridging.loader.Reaches Run.anything w ∧ bridging.loader.Completes w (Query.allMethods ⟨9⟩) ∧
    (bridging.loader.perform 4 (Query.allMethods ⟨9⟩)).Ends Run.anything w (some ms₁) w₁ ∧
    Query.KeepsFirst (w₁.scope.declaration ⟨9⟩).methods ms₁ ∧
    (bridging.loader.perform 4 (Query.findMethods ⟨9⟩ "m")).Ends Run.anything w (some ms₂) w₂ ∧
    Query.KeepsFirst here ms₂ ∧ ∀ k,
      (bridging.loader.perform k (Query.findMethodsHere ⟨9⟩ "m")).Ends Action.Steady w₂ (some here) w₂ := by
  let all := bridging.loader.perform 4 (Query.allMethods ⟨9⟩)
  let find := bridging.loader.perform 4 (Query.findMethods ⟨9⟩ "m")
  have h : (((bridging.loader.perform 4 (Script.register "A")).advance Run.anything 1 .new).bind fun p =>
      (all.advance Run.anything 20 p.2).bind fun p₁ => (find.advance Run.anything 24 p.2).map fun p₂ =>
        (p₁.1.result?.map Option.isSome, p₂.1.result?.map Option.isSome)) =
      some (some true, some true) := by decide +kernel
  obtain ⟨⟨p, w⟩, hp, h⟩ := Option.bind_eq_some_iff.mp h
  obtain ⟨⟨p₁, w₁⟩, hp₁, h⟩ := Option.bind_eq_some_iff.mp h
  obtain ⟨⟨p₂, w₂⟩, hp₂, h⟩ := Option.map_eq_some_iff.mp h
  simp only [Prod.mk.injEq, Option.map_eq_some_iff, Option.isSome_iff_exists] at h
  obtain ⟨⟨_, h₁, ms₁, rfl⟩, _, h₂, ms₂, rfl⟩ := h
  have hr : bridging.loader.Reaches Run.anything w := ⟨_, _, 4, p, Run.leads_iff_advance.mpr ⟨1, hp⟩⟩
  have hall := Run.ends_of_advance hp₁ h₁
  have hfind := Run.ends_of_advance hp₂ h₂
  obtain ⟨hcompletes, hmethods, hnamed⟩ := own_methods_kept bridging.loader w ⟨9⟩
  obtain ⟨-, ⟨⟩⟩ | ⟨-, _, ⟨⟩, hkeeps₁⟩ := hmethods 4 _ w₁ hall
  obtain ⟨-, ⟨⟩⟩ | ⟨-, _, here, ⟨⟩, hkeeps₂, hhere⟩ := hnamed "m" 4 _ w₂ hfind
  exact ⟨w, w₁, w₂, ms₁, ms₂, here, hr, (hcompletes bridging.finite hr).1, hall, hkeeps₁, hfind, hkeeps₂, hhere⟩

theorem bridge_method_lost : ∃ w w₁ w₂ w₃ ms here m, bridging.loader.Reaches Run.anything w ∧
    (bridging.loader.perform 4 (Query.allMethods ⟨9⟩)).Ends Run.anything w (some ms) w₁ ∧
    (bridging.loader.perform 4 (Query.findMethods ⟨9⟩ "m")).Ends Run.anything w₁ (some ms) w₂ ∧
    (bridging.loader.perform 4 (Query.findMethodsHere ⟨9⟩ "m")).Ends Run.anything w₂ (some here) w₃ ∧
    w₃.scope.isMissing ⟨9⟩ = false ∧ m ∈ (w₃.scope.declaration ⟨9⟩).methods ∧ m ∈ here ∧ m ∉ ms := by
  let int : Method := { owner := ⟨9⟩, name := "m", params := [], returns := .ofPrimitive (.base .int) }
  let long : Method := { int with returns := .ofPrimitive (.base .long) }
  have h : (((bridging.loader.perform 4 (Script.register "A")).advance Run.anything 1 .new).bind fun p =>
      ((bridging.loader.perform 4 (Query.allMethods ⟨9⟩)).advance Run.anything 20 p.2).bind fun p₁ =>
        ((bridging.loader.perform 4 (Query.findMethods ⟨9⟩ "m")).advance Run.anything 14 p₁.2).bind fun p₂ =>
          ((bridging.loader.perform 4 (Query.findMethodsHere ⟨9⟩ "m")).advance Run.anything 4 p₂.2).map fun p₃ =>
            decide (p₁.1.result? = some (some [int]) ∧ p₂.1.result? = some (some [int]) ∧
              p₃.1.result? = some (some [int, long]) ∧ p₃.2.scope.isMissing ⟨9⟩ = false ∧
              long ∈ (p₃.2.scope.declaration ⟨9⟩).methods)) = some true := by decide +kernel
  obtain ⟨⟨p, w⟩, hp, h⟩ := Option.bind_eq_some_iff.mp h
  obtain ⟨⟨p₁, w₁⟩, hp₁, h⟩ := Option.bind_eq_some_iff.mp h
  obtain ⟨⟨p₂, w₂⟩, hp₂, h⟩ := Option.bind_eq_some_iff.mp h
  obtain ⟨⟨p₃, w₃⟩, hp₃, h⟩ := Option.map_eq_some_iff.mp h
  obtain ⟨h₁, h₂, h₃, hm, hlong⟩ := of_decide_eq_true h
  have hr : bridging.loader.Reaches Run.anything w := ⟨_, _, 4, p, Run.leads_iff_advance.mpr ⟨1, hp⟩⟩
  exact ⟨w, w₁, w₂, w₃, _, _, long, hr, Run.ends_of_advance hp₁ h₁, Run.ends_of_advance hp₂ h₂,
    Run.ends_of_advance hp₃ h₃, hm, hlong, by decide, by decide⟩

end Loader

end ClassHierarchy
