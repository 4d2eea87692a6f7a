import ClassHierarchy.Step
import ClassHierarchy.Proofs.LoaderCalls
import ClassHierarchy.Proofs.Run.Reading

namespace ClassHierarchy

/-- The queries on `c` that look for something declared, and what they answer where nothing is. -/
inductive Query.Vacant (c : ClassId) : {α : Type} → Script α → α → Prop
  | isMissing : Vacant c (Query.isMissing c) true
  | isFramework : Vacant c (Query.isFramework c) false
  | isFinal : Vacant c (Query.isFinal c) false
  | isInterface : Vacant c (Query.isInterface c) false
  | isAbstract : Vacant c (Query.isAbstract c) false
  | interfaces : Vacant c (Query.interfaces c) []
  | fieldType (field : String) : Vacant c (Query.fieldType c field) none
  | staticFieldType (field : String) : Vacant c (Query.staticFieldType c field) none
  | fields : Vacant c (Query.fields c) none
  | staticFields : Vacant c (Query.staticFields c) none
  | allMethods : Vacant c (Query.allMethods c) none
  | findMethodHere (sig : Signature) : Vacant c (Query.findMethodHere c sig) none
  | findMethodsHere (method : String) : Vacant c (Query.findMethodsHere c method) none
  | findMethod (sig : Signature) : Vacant c (Query.findMethod c sig) none
  | findMethods (method : String) : Vacant c (Query.findMethods c method) none
  | defaultConstructor : Vacant c (Query.defaultConstructor c) none
  | staticInitializer : Vacant c (Query.staticInitializer c) none

def Settled.Bare (st : Settled) : Prop :=
  st.missing = true ∧ ∃ p, st.declaration = Declaration.missing.withSuperClass p

namespace Run

variable {α : Type}

def Attaches (c : ClassId) (p : Run α) (w : Session) (q : Run α) (w' : Session) : Prop :=
  ∃ (d : Declaration) (k : Except AttachError Unit → Run α) (v v' : Session),
    p.Leads anything w (.ask (.attach c d) k) v ∧ (Action.attach c d).perform v = some (.ok (), v') ∧
    (k (.ok ())).Leads anything v' q w'

/-- On the way the loader is called for `c` and comes back with an outcome that the scope refuses, and
nothing is attached to `c` between the two. -/
def FailsToLoad (c : ClassId) (p : Run α) (w : Session) (q : Run α) (w' : Session) : Prop :=
  ∃ (outcome : Except LoadError Declaration) (k k' : Unit → Run α) (u u' v v' : Session),
    p.Leads anything w (.ask (.call c) k) u ∧ (Action.call c).perform u = some ((), u') ∧
    (k ()).Leads anything u' (.ask (.finish c outcome) k') v ∧
    ¬ Attaches c (k ()) u' (.ask (.finish c outcome) k') v ∧ v.scope.Refuses outcome ∧
    (Action.finish c outcome).perform v = some ((), v') ∧ (k' ()).Leads anything v' q w'

end Run

namespace Loader

open Run (anything Attaches FailsToLoad)

variable {α : Type} {L : Loader} {n budget : Nat} {script : Script α} {p rest : Run α} {w w' u v : Session}
  {c : ClassId} {st : Settled} {outcome : Except LoadError Declaration}

theorem missing_kept {q : Run α} (hm : w.scope.isMissing c = true) (h : p.Leads anything w q w') :
    w'.scope.isMissing c = true := by
  obtain ⟨st, hst, hmissing⟩ := Scope.isMissing_iff.mp hm
  obtain ⟨st', hst', hsame, -⟩ := settled_kept hst h
  exact Scope.isMissing_iff.mpr ⟨st', hst', hsame.trans hmissing⟩

theorem settled_of_attaches {q : Run α} (h : Attaches c p w q w') : ∃ st, w'.scope.settled? c = some st := by
  obtain ⟨d, k, v, v', -, hx, hl⟩ := h
  obtain ⟨st, hst, -⟩ := attached_kept hx hl
  exact ⟨st, hst⟩

theorem attaches_of_settled {k k' : Unit → Run α} {u' : Session}
    (hu : (L.perform budget script).Leads anything .new (.ask (.call c) k) u)
    (hcall : (Action.call c).perform u = some ((), u'))
    (hl : (k ()).Leads anything u' (.ask (.finish c outcome) k') v)
    (hst : v.scope.settled? c = some st) : Attaches c (k ()) u' (.ask (.finish c outcome) k') v := by
  have hnested := L.nested_perform budget script .new
  have huntouched : u.scope.isUntouched c = true := (hnested.leads hu).1
  have hunset : u'.scope.settled? c = none := by
    have hscope : u'.scope = u.scope.mark c true := Action.scope_of_perform hcall
    rw [hscope, (u.scope.quiet_mark c true).settled]
    exact (Scope.isUntouched_iff.mp huntouched).2.1
  have hu' := hu.trans (.step trivial hcall (.refl _ _))
  obtain ⟨x, kx, r, t, t', ht, hbefore, hx, hafter, hrest⟩ :=
    hl.turn (I := fun v => v.scope.settled? c ≠ none) (by simp [hunset]) (by simp [hst])
  obtain ⟨stt, hstt⟩ := Option.ne_none_iff_exists'.mp hafter
  obtain ⟨d, rfl, ha⟩ | ⟨o, d, missing, rfl, -, -⟩ := Action.settles_cases hx (by simpa using hbefore) hstt
  · obtain rfl : r = .ok () := by
      simp only [Action.perform, ha, Option.some.injEq, Prod.mk.injEq] at hx
      exact hx.1.symm
    exact ⟨d, kx, t, t', ht, hx, hrest⟩
  -- The load cannot have ended before, for then `c` would have been called for again.
  · have htop : t.stack.head? = some c := (hnested.leads (hu'.trans ht)).1
    have hattended : t.Attended := Reaches.attended ⟨α, script, budget, _, hu'.trans ht⟩
    have hout : c ∉ t'.stack := by
      obtain ⟨below, hbelow⟩ := List.head?_eq_some_iff.mp htop
      rw [Action.stack_of_perform hx, hbelow]
      exact (List.nodup_cons.mp (hbelow ▸ hattended.nodup)).1
    have hin : c ∈ v.stack := List.mem_of_mem_head? (hnested.leads (hu'.trans hl)).1
    obtain ⟨k₂, s, -, hs, -⟩ := hrest.call_of_mem_stack hout hin
    have hagain := (((hu'.trans ht).trans (.step trivial hx (.refl _ _))).trans hs)
    have hfresh : s.scope.isUntouched c = true := (hnested.leads hagain).1
    obtain ⟨sts, hsts, -⟩ := settled_kept hstt hs
    rw [(Scope.isUntouched_iff.mp hfresh).2.1] at hsts
    cases hsts

theorem missing_of_fails (h : FailsToLoad c (L.perform budget script) .new rest w) :
    w.scope.isMissing c = true := by
  obtain ⟨outcome, k, k', u, u', v, v', hu, hcall, hl, hbare, hrefused, hfinish, hrest⟩ := h
  have hunset : v.scope.settled? c = none := by
    rw [Option.eq_none_iff_forall_ne_some]
    intro st hst
    exact hbare (attaches_of_settled hu hcall hl hst)
  have hv := (hu.trans (.step trivial hcall (.refl _ _))).trans hl
  have hin : c ∈ v.stack := List.mem_of_mem_head? ((L.nested_perform budget script .new).leads hv).1
  have hattended : v.Attended := Reaches.attended ⟨α, script, budget, _, hv⟩
  have hc : (v.scope.mark c false).Registered c :=
    (Scope.registered_congr (by simp)).mpr (hattended.registered hin)
  have hrefused : (v.scope.mark c false).Refuses outcome := by
    intro d hd
    obtain ⟨m, hm, hn⟩ := hrefused d hd
    exact ⟨m, hm, mt (Scope.registered_congr (by simp)).mp hn⟩
  apply missing_kept _ hrest
  have hscope : v'.scope = (v.scope.endLoad c outcome).2 := Action.scope_of_perform hfinish
  rw [hscope]
  obtain ⟨d, missing, hverdict, hi | ⟨-, hnone⟩⟩ := v.scope.endLoad_cases c outcome
  · rw [Scope.refuses_iff.mp hrefused] at hverdict
    obtain ⟨-, rfl⟩ := Prod.mk.inj hverdict
    obtain ⟨st, hst, hm, -⟩ := hi.settled
    exact Scope.isMissing_iff.mpr ⟨st, hst, hm⟩
  · obtain ⟨st, hst⟩ := Scope.settled_of_install?_eq_none hnone hc
    rw [(v.scope.quiet_mark c false).settled, hunset] at hst
    cases hst

theorem isMissing_new (c : ClassId) : Scope.new.isMissing c = false := by
  unfold Scope.isMissing Scope.settled?
  cases he : Scope.new.get? c with
  | none => rfl
  | some e =>
    obtain ⟨p, -, rfl⟩ := Scope.get?_new he
    rfl

theorem fails_of_missing (h : (L.perform budget script).Leads anything .new rest w)
    (hm : w.scope.isMissing c = true) : FailsToLoad c (L.perform budget script) .new rest w ∧
      ∃ st, w.scope.settled? c = some st ∧ st.Bare := by
  have hnested := L.nested_perform budget script .new
  have hnew : ¬ Session.new.scope.isMissing c = true := by simp [Session.new, isMissing_new]
  obtain ⟨x, k', r, v, v', hv, hbefore, hx, hafter, hrest⟩ :=
    h.turn (I := fun v => v.scope.isMissing c = true) hnew hm
  obtain ⟨st, hst, hmissing⟩ := Scope.isMissing_iff.mp hafter
  have hunset : v.scope.settled? c = none := by
    rw [Option.eq_none_iff_forall_ne_some]
    intro st₀ hst₀
    have hstep : Run.Leads anything (.ask x k') v (k' r) v' := .step trivial hx (.refl _ _)
    obtain ⟨st', hst', hsame, -⟩ := settled_kept hst₀ hstep
    obtain rfl : st = st' := Option.some.inj (hst.symm.trans hst')
    exact hbefore (Scope.isMissing_iff.mpr ⟨st₀, hst₀, hsame.symm.trans hmissing⟩)
  obtain ⟨d, rfl, ha⟩ | ⟨outcome, d, missing, rfl, hverdict, hi⟩ := Action.settles_cases hx hunset hst
  · obtain ⟨st', hst', hm', -⟩ := (Scope.installed_of_eq_some (Scope.attach_eq_ok ha).2).settled
    obtain rfl : st = st' := Option.some.inj (hst.symm.trans hst')
    rw [hmissing] at hm'
    cases hm'
  · obtain ⟨st', hst', hm', hdecl⟩ := hi.settled
    obtain rfl : st = st' := Option.some.inj (hst.symm.trans hst')
    obtain rfl : missing = true := hm'.symm.trans hmissing
    obtain rfl := Scope.missing_of_verdict hverdict
    have hin : c ∈ v.stack := List.mem_of_mem_head? (hnested.leads hv).1
    obtain ⟨k, u, u', hu, hcall, hl⟩ := hv.call_of_mem_stack (by simp [Session.stack, Session.new]) hin
    refine ⟨⟨outcome, k, k', u, u', v, v', hu, hcall, hl, ?_, ?_, hx, hrest⟩, ?_⟩
    · intro ha
      obtain ⟨st', hst'⟩ := settled_of_attaches ha
      rw [hunset] at hst'
      cases hst'
    · intro e he
      obtain ⟨m, hm, hn⟩ := Scope.refuses_iff.mpr hverdict e he
      exact ⟨m, hm, mt (Scope.registered_congr (by simp)).mpr hn⟩
    · obtain ⟨stw, hstw, hmw, hdw⟩ := settled_kept hst hrest
      refine ⟨stw, hstw, hmw.trans hmissing, stw.declaration.superClass, ?_⟩
      rw [hdecl] at hdw
      exact congrArg (·.withSuperClass stw.declaration.superClass) hdw

theorem vacant_ends {β : Type} {q : Script β} {a : β} (hs : w.scope.settled? c = some st) (hb : st.Bare)
    (hq : Query.Vacant c q a) : (L.perform n q).Ends Action.Steady w a w := by
  obtain ⟨hm, p, hd⟩ := hb
  have hu := Scope.isUntouched_of_settled hs
  have hm : w.scope.isMissing c = true := Scope.isMissing_iff.mpr ⟨st, hs, hm⟩
  have hd : w.scope.declaration c = Declaration.missing.withSuperClass p :=
    (Scope.declaration_of_settled hs).trans hd
  have hread := ends_declaration (L := L) (n := n) hu
  have hmembers {γ : Type} (read : Declaration → γ) :
      (L.perform n (Query.ofDeclared c read)).Ends Action.Steady w none w := ends_unless_missing hu hm _
  rw [hd] at hread
  cases hq with
  | isMissing =>
    rw [← hm]
    exact ends_isMissing hu
  | isFramework => exact ends_map hread (·.framework)
  | interfaces => exact ends_map hread (·.interfaces)
  | isFinal | isInterface | isAbstract => exact ends_map (hmembers _) (·.getD false)
  | fields | staticFields | findMethodsHere => exact hmembers _
  | findMethodHere | defaultConstructor => exact ends_map (hmembers _) Option.join
  | fieldType | staticFieldType | allMethods | findMethod | findMethods | staticInitializer =>
    exact ends_unless_missing hu hm _

theorem attach_settled (hs : w.scope.settled? c = some st) (d : Declaration) :
    ∃ e, (L.perform n (Script.request (.attach c d))).Ends Action.Steady w (.error e) w := by
  cases ha : w.scope.attach c d with
  | ok s =>
    have hunset := (Scope.installed_of_eq_some (Scope.attach_eq_ok ha).2).unsettled
    rw [hs] at hunset
    cases hunset
  | error e =>
    have hx : (Action.attach c d).perform w = some (.error e, w) := by simp [Action.perform, ha]
    exact ⟨e, Run.ends_ask_iff.mpr ⟨trivial, .error e, w, hx, .refl _ _⟩⟩

theorem missing_exactly (h : (L.perform budget script).Leads anything .new rest w) (c : ClassId) :
    (w.scope.isMissing c = true ↔ FailsToLoad c (L.perform budget script) .new rest w) ∧
    (∀ st q w', w.scope.settled? c = some st → rest.Leads anything w q w' →
      ∃ st', w'.scope.settled? c = some st' ∧ st'.missing = st.missing) ∧
    (∀ q w', w.scope.isMissing c = true → rest.Leads anything w q w' →
      (∃ st, w'.scope.settled? c = some st ∧ st.Bare) ∧
      (∀ {β : Type} {query : Script β} {a} n, Query.Vacant c query a →
        (L.perform n query).Ends anything w' a w') ∧
      ∀ d n, ∃ e, (L.perform n (Script.request (.attach c d))).Ends anything w' (.error e) w') ∧
    (∀ n, c ∈ w.stack → w.scope.settled? c = none →
      (L.perform n (Query.declaration c)).Ends anything w .missing w ∧
      (L.perform n (Query.derivedClasses c)).Ends anything w [] w) ∧
    ∀ n, (L.perform n (Step.missingDeclaration.script L)).Ends anything w
      (.declaration { superClass := none, interfaces := [], flags := 0, framework := false, derived := [] }) w := by
  refine ⟨⟨fun hm => (fails_of_missing h hm).1, missing_of_fails⟩, ?_, ?_, ?_, ?_⟩
  · intro st q w' hst hl
    obtain ⟨st', hst', hm, -⟩ := settled_kept hst hl
    exact ⟨st', hst', hm⟩
  · intro q w' hm hl
    obtain ⟨-, st, hst, hb⟩ := fails_of_missing (h.trans hl) (missing_kept hm hl)
    refine ⟨⟨st, hst, hb⟩, fun n hq => ?_, fun d n => ?_⟩
    · exact (vacant_ends hst hb hq).mono fun _ _ _ => trivial
    · obtain ⟨e, he⟩ := attach_settled (L := L) (n := n) hst d
      exact ⟨e, he.mono fun _ _ _ => trivial⟩
  · intro n hc hs
    have hattended : w.Attended := Reaches.attended ⟨α, script, budget, rest, h⟩
    have hl := (hattended.loading c).mpr hc
    have hu : w.scope.isUntouched c = false := by
      by_contra hu
      rw [(Scope.isUntouched_iff.mp (by simpa using hu)).2.2] at hl
      cases hl
    have hderived : w.scope.derived c = [] := by simp [Scope.derived, hs]
    rw [← Scope.declaration_of_unsettled hs, ← hderived]
    exact ⟨(ends_declaration hu).mono fun _ _ _ => trivial,
      (ends_derivedClasses hu).mono fun _ _ _ => trivial⟩
  · intro n
    exact (ends_map ends_inspect _).mono fun _ _ _ => trivial

def forsaking : Loader := fun c name => do
  let b ← Script.request (.register "B")
  let _ ← Script.request (.attach b { superClass := some c })
  Script.request (.rebind c b)
  return .error (.notFound name)

theorem missing_exactly_in_forsaking :
    let script : Script Unit := do
      let a ← Script.request (.register "A")
      Script.request (.resolve a)
      Script.request (.rebind a (← Script.request (.register "C")))
    ∃ rest w, (forsaking.perform 1 script).Leads anything .new rest w ∧
      w.scope.settled? ⟨9⟩ = some { declaration := { superClass := some ⟨11⟩ }, derived := [⟨10⟩], missing := true } ∧
      FailsToLoad ⟨9⟩ (forsaking.perform 1 script) .new rest w ∧
      ∀ n, (forsaking.perform n (Query.fieldType ⟨9⟩ "f")).Ends anything w none w := by
  intro script
  have h : ((forsaking.perform 1 script).advance anything 12 .new).map (fun m => m.2.scope.settled? ⟨9⟩) =
      some (some { declaration := { superClass := some ⟨11⟩ }, derived := [⟨10⟩], missing := true }) := by
    decide +kernel
  obtain ⟨⟨rest, w⟩, ha, hs⟩ := Option.map_eq_some_iff.mp h
  have hl := Run.leads_iff_advance.mpr ⟨12, ha⟩
  have hm : w.scope.isMissing ⟨9⟩ = true := Scope.isMissing_iff.mpr ⟨_, hs, rfl⟩
  have hall := missing_exactly hl ⟨9⟩
  obtain ⟨-, hvacant, -⟩ := hall.2.2.1 rest w hm (.refl _ _)
  exact ⟨rest, w, hl, hs, hall.1.mp hm, fun n => hvacant n (.fieldType "f")⟩

end Loader

end ClassHierarchy
