import Mathlib.Data.Option.Basic
import ClassHierarchy.Proofs.Run.Stack
import ClassHierarchy.Proofs.Scope.Primitives

namespace ClassHierarchy

namespace Scope

structure Tallied (s : Scope) : Prop where
  mentioned : ∀ c, ∀ m ∈ (s.declaration c).mentions, s.Registered m
  awaited : ∀ c p, s.waiting? c = some p → s.Registered p
  heirs : ∀ p x, s.Registered p → (x ∈ s.heirs p ↔ (s.declaration x).superClass = some p)
  orderly : s.Orderly

variable {s s' : Scope} {c p x : ClassId} {d : Declaration} {missing : Bool}

theorem superClass_mem_mentions (h : d.superClass = some p) : p ∈ d.mentions := by
  simp [Declaration.mentions, h]

theorem interfaces_subset_mentions (d : Declaration) : d.interfaces ⊆ d.mentions := by
  intro x hx
  simp [Declaration.mentions, hx]

theorem parents_subset_mentions (d : Declaration) : d.parents ⊆ d.mentions := by
  intro x hx
  simp only [Declaration.parents, Declaration.mentions, List.append_assoc, List.mem_append] at hx ⊢
  tauto

theorem mem_mentions_withSuperClass {m : ClassId} {q : Option ClassId}
    (h : m ∈ (d.withSuperClass q).mentions) : q = some m ∨ m ∈ d.mentions := by
  simp only [Declaration.mentions, Declaration.withSuperClass, List.append_assoc, List.mem_append,
    Option.mem_toList] at h ⊢
  tauto

theorem Tallied.quiet (h : s.Tallied) (hq : s.Quiet s')
    (hw : ∀ c p, s'.waiting? c = some p → s.waiting? c = some p ∨ s.Registered p) : s'.Tallied := by
  have hreg : ∀ c, s.Registered c → s'.Registered c :=
    fun c => (hq.evolves fun _ => False).registered
  constructor
  · intro c m hm
    rw [hq.declaration] at hm
    exact hreg m (h.mentioned c m hm)
  · intro c p hp
    obtain hp | hp := hw c p hp
    · exact hreg p (h.awaited c p hp)
    · exact hreg p hp
  · intro p x _
    rw [hq.heirs, hq.declaration]
    by_cases hp : s.Registered p
    · exact h.heirs p x hp
    -- A class registered only now has no heirs, and no declaration mentions it yet.
    · have hn : s.heirs p = [] := by simp [Scope.heirs, unregistered_get? hp]
      rw [hn]
      constructor
      · intro hx
        cases hx
      · intro hx
        exact absurd (h.mentioned x p (superClass_mem_mentions hx)) hp
  · exact hq.orderly h.orderly

theorem Tallied.installed (h : s.Tallied) (hi : s.Installed c d missing s')
    (hd : ∀ m ∈ d.mentions, s.Registered m) : s'.Tallied := by
  have hreg : ∀ x, s'.Registered x ↔ s.Registered x := fun x => registered_congr hi.size
  have hnone : ∀ p, (s.declaration c).superClass ≠ some p := by
    intro p hp
    rw [declaration_of_unsettled hi.unsettled] at hp
    cases hp
  have hnew : ∀ x, c ∉ s.heirs x := by
    intro x hx
    by_cases hr : s.Registered x
    · exact hnone x ((h.heirs x c hr).mp hx)
    · simp [Scope.heirs, unregistered_get? hr] at hx
  obtain ⟨st, hst, -, hdecl⟩ := hi.settled
  have hown : s'.declaration c = d.withSuperClass (s.waiting? c <|> d.superClass) := by
    rw [declaration_of_settled hst, hdecl]
  constructor
  · intro x m hm
    rw [hreg]
    by_cases hx : x = c
    · rw [hx, hown] at hm
      obtain hm | hm := mem_mentions_withSuperClass hm
      · rcases (Option.orElse_eq_some _ _ _).mp hm with hm | ⟨-, hm⟩
        · exact h.awaited c m hm
        · exact hd m (superClass_mem_mentions hm)
      · exact hd m hm
    · rw [hi.declaration x hx] at hm
      exact h.mentioned x m hm
  · intro x p hp
    rw [hreg]
    by_cases hx : x = c
    · rw [hx, hi.waiting_self] at hp
      cases hp
    · rw [hi.waiting x hx] at hp
      exact h.awaited x p hp
  · intro p x hp
    rw [hi.heirs p x ((hreg p).mp hp), h.heirs p x ((hreg p).mp hp)]
    by_cases hx : x = c
    · simp [hx, hnone p]
    · simp [hx, hi.declaration x hx]
  · exact hi.orderly h.orderly hnew

theorem Tallied.rebound (h : s.Tallied) (hr : s.Rebound c p s') (hp : s.Registered p) : s'.Tallied := by
  have hreg : ∀ x, s'.Registered x ↔ s.Registered x := fun x => registered_congr hr.size
  constructor
  · intro x m hm
    rw [hreg]
    by_cases hx : x = c
    · rw [hx, hr.declaration_self] at hm
      obtain hm | hm := mem_mentions_withSuperClass hm
      · cases hm
        exact hp
      · exact h.mentioned c m hm
    · rw [hr.declaration x hx] at hm
      exact h.mentioned x m hm
  · intro x q hq
    rw [hr.waiting] at hq
    exact (hreg q).mpr (h.awaited x q hq)
  · intro q x hq
    rw [hr.heirs q x ((hreg q).mp hq), h.heirs q x ((hreg q).mp hq)]
    by_cases hx : x = c
    · simp [hx, hr.declaration_self, Declaration.withSuperClass]
    · simp [hx, hr.declaration x hx]
  · apply hr.orderly h.orderly
    intro x hx
    by_cases hxr : s.Registered x
    · exact (h.heirs x c hxr).mp hx
    · simp [Scope.heirs, unregistered_get? hxr] at hx

theorem tallied_new : Scope.new.Tallied := by
  constructor
  · intro c m hm
    rw [mentions_new] at hm
    cases hm
  · intro c p hp
    obtain ⟨e, he, hw⟩ := Option.bind_eq_some_iff.mp hp
    obtain ⟨p, -, rfl⟩ := get?_new he
    cases hw
  · intro p x hp
    have hn : Scope.new.heirs p = [] := by
      obtain ⟨e, he⟩ := registered_iff.mp hp
      obtain ⟨q, -, rfl⟩ := get?_new he
      simp [Scope.heirs, he, primitiveEntry, Entry.heirs]
    rw [hn]
    constructor
    · intro hx
      cases hx
    · intro hx
      have hm := superClass_mem_mentions hx
      rw [mentions_new] at hm
      cases hm
  · intro c e he
    obtain ⟨p, -, rfl⟩ := get?_new he
    exact List.Pairwise.nil

end Scope

def Action.Own : Action → Session → Prop
  | .rebind _ p, w => w.scope.Registered p
  | _, _ => True

instance : (x : Action) → (w : Session) → Decidable (x.Own w)
  | .rebind _ p, w => inferInstanceAs (Decidable (p.index < w.scope.size))
  | .look, _ | .register _, _ | .attach .., _ | .call _, _ | .finish .., _ | .emit _, _ | .note _, _
  | .giveUp, _ => .isTrue trivial

variable {w w' : Session}

theorem Scope.Tallied.next {x : Action} {r : x.Reply} (h : w.scope.Tallied) (ho : x.Own w)
    (hx : x.perform w = some (r, w')) : w'.scope.Tallied := by
  rw [Action.scope_of_perform hx]
  cases x with
  | register name =>
    obtain ⟨names, hr⟩ := w.scope.register_eq_append name
    change (w.scope.register name).2.2.Tallied
    rw [hr]
    exact h.quiet (w.scope.quiet_append names) fun c p hp => .inl (waiting?_append names ▸ hp)
  | attach c d =>
    cases ha : w.scope.attach c d with
    | error e => simpa [Action.next, ha, Except.toOption] using h
    | ok s' =>
      obtain ⟨hf, hi⟩ := attach_eq_ok ha
      have ht := h.installed (installed_of_eq_some hi) (foreign?_eq_none_iff.mp hf)
      simpa [Action.next, ha, Except.toOption] using ht
  | rebind c p =>
    change (w.scope.rebind c p).Tallied
    cases hs : w.scope.settled? c with
    | some st => exact h.rebound (rebound_of_settled hs) ho
    | none =>
      apply h.quiet (quiet_rebind hs p)
      intro x q hq
      rw [waiting?_rebind_of_unsettled hs] at hq
      split at hq
      · obtain ⟨-, -, rfl⟩ := Option.map_eq_some_iff.mp hq
        exact .inr ho
      · exact .inl hq
  | call c => exact h.quiet (w.scope.quiet_mark c true) fun x p hp => .inl (waiting?_mark true ▸ hp)
  | finish c outcome =>
    have hm := h.quiet (w.scope.quiet_mark c false) fun x p hp => .inl (waiting?_mark false ▸ hp)
    obtain ⟨d, missing, hv, hi | ⟨he, -⟩⟩ := w.scope.endLoad_cases c outcome
    · exact hm.installed hi (verdict_registered hv)
    · change (w.scope.endLoad c outcome).2.Tallied
      rw [he]
      exact hm
  | giveUp => cases r
  | look | emit e | note m => exact h

theorem Scope.Tallied.leads {α : Type} {p q : Run α} {w w' : Session} (h : w.scope.Tallied)
    (hl : p.Leads Action.Own w q w') : w'.scope.Tallied := by
  induction hl with
  | refl => exact h
  | step ho hx _ ih => exact ih (h.next ho hx)

theorem Action.own_of_steady {x : Action} {w : Session} (h : x.Steady w) : x.Own w := by
  cases x with
  | rebind c p => exact absurd h id
  | _ => trivial

namespace Session

structure Sane (w : Session) : Prop where
  attended : w.Attended
  tallied : w.scope.Tallied

theorem Sane.leads_own {α : Type} {p q : Run α} {w w' : Session} (h : w.Sane) (hp : p.Nested)
    (hl : p.Leads Action.Own w q w') : w'.Sane := by
  apply (hp w).invariant hl h
  intro x v r v' hv hd ho hx
  exact ⟨hv.attended.next hd hx, hv.tallied.next ho hx⟩

theorem Sane.leads {α : Type} {p q : Run α} {w w' : Session} (h : w.Sane) (hp : p.Nested)
    (hl : p.Leads Action.Steady w q w') : w'.Sane :=
  h.leads_own hp (hl.mono fun _ _ => Action.own_of_steady)

theorem Attended.idle {w : Session} (h : w.Attended) (hs : w.stack = []) (c : ClassId) :
    w.scope.isLoading c = false := by
  by_contra hl
  have hm := (h.loading c).mp (by simpa using hl)
  rw [hs] at hm
  cases hm

theorem Attended.settled_of_touched {w : Session} (h : w.Attended) (hs : w.stack = []) {c : ClassId}
    (hc : w.scope.Registered c) (hu : w.scope.isUntouched c = false) :
    ∃ st, w.scope.settled? c = some st := by
  rw [← Option.isSome_iff_exists, Option.isSome_iff_ne_none]
  intro hn
  have hu' := Scope.isUntouched_iff.mpr ⟨hc, hn, h.idle hs c⟩
  rw [hu] at hu'
  cases hu'

theorem Attended.waiting_idle {w : Session} (h : w.Attended) (hs : w.stack = []) (c : ClassId) :
    w.scope.waiting? c = none := by
  apply Option.eq_none_iff_forall_ne_some.mpr
  intro p hp
  have hl := h.idle hs c
  rw [h.waiting c p hp] at hl
  cases hl

end Session

theorem Run.settled_of_resolve {load : ClassId → Run (Except LoadError Declaration)} {c : ClassId} {u : Unit}
    (hload : ∀ c, (load c).Nested) (hw : w.Sane) (hs : w.stack = []) (hc : w.scope.Registered c)
    (h : (resolve load c).Ends Action.Own w u w') :
    w'.Sane ∧ w'.stack = [] ∧ ∃ st, w'.scope.settled? c = some st := by
  have hw' : w'.Sane := hw.leads_own (nested_resolve hload c) h
  obtain ⟨hstack, hu⟩ := (sound_resolve hload c w).ends h
  rw [hs] at hstack
  exact ⟨hw', hstack, hw'.attended.settled_of_touched hstack (h.evolves_any.registered hc) hu⟩

namespace Scope

variable {s s' : Scope} {c p : ClassId} {d : Declaration} {missing : Bool}

def Traced (s : Scope) : Prop := ∀ p x, x ∈ s.heirs p → (s.declaration x).superClass = some p

theorem registered_of_heir {x : ClassId} (h : x ∈ s.heirs p) : s.Registered p := by
  by_contra hp
  simp [heirs, unregistered_get? hp] at h

theorem Traced.quiet (h : s.Traced) (hq : s.Quiet s') : s'.Traced := by
  intro p x hx
  rw [hq.heirs] at hx
  rw [hq.declaration]
  exact h p x hx

theorem Traced.installed (h : s.Traced) (hi : s.Installed c d missing s') : s'.Traced := by
  intro p x hx
  have hp := (registered_congr hi.size).mp (registered_of_heir hx)
  obtain ⟨hs, rfl⟩ | hx := (hi.heirs p x hp).mp hx
  · exact hs
  · have hs := h p x hx
    by_cases hxc : x = c
    · rw [hxc, declaration_of_unsettled hi.unsettled] at hs
      cases hs
    · rw [hi.declaration x hxc, hs]

theorem Traced.rebound {q : ClassId} (h : s.Traced) (hr : s.Rebound c q s') : s'.Traced := by
  intro p x hx
  have hp := (registered_congr hr.size).mp (registered_of_heir hx)
  obtain ⟨rfl, rfl⟩ | ⟨hx, hkept⟩ := (hr.heirs p x hp).mp hx
  · rw [hr.declaration_self]
    rfl
  · have hs := h p x hx
    by_cases hxc : x = c
    · subst hxc
      exact absurd ⟨hs, rfl⟩ hkept
    · rw [hr.declaration x hxc, hs]

theorem Traced.next (h : s.Traced) (x : Action) : (x.next s).Traced := by
  cases x with
  | register name =>
    obtain ⟨names, hr⟩ := s.register_eq_append name
    change (s.register name).2.2.Traced
    rw [hr]
    exact h.quiet (s.quiet_append names)
  | attach c d =>
    cases ha : s.attach c d with
    | error e => simpa [Action.next, ha, Except.toOption] using h
    | ok s' =>
      have ht := h.installed (installed_of_eq_some (attach_eq_ok ha).2)
      simpa [Action.next, ha, Except.toOption] using ht
  | rebind c p =>
    change (s.rebind c p).Traced
    cases hs : s.settled? c with
    | some st => exact h.rebound (rebound_of_settled hs)
    | none => exact h.quiet (quiet_rebind hs p)
  | call c => exact h.quiet (s.quiet_mark c true)
  | finish c outcome =>
    have hm := h.quiet (s.quiet_mark c false)
    change (s.endLoad c outcome).2.Traced
    obtain ⟨d, missing, -, hi | ⟨he, -⟩⟩ := s.endLoad_cases c outcome
    · exact hm.installed hi
    · rw [he]
      exact hm
  | look | emit e | note m | giveUp => exact h

theorem traced_new : Scope.new.Traced := fun p x hx => (tallied_new.heirs p x (registered_of_heir hx)).mp hx

theorem traced_of_leads {α : Type} {p q : Run α} {may : Action → Session → Prop} {w w' : Session}
    (hw : w.scope.Traced) (h : p.Leads may w q w') : w'.scope.Traced := by
  induction h with
  | refl => exact hw
  | @step x _ _ _ _ _ _ _ hx _ ih =>
    apply ih
    rw [Action.scope_of_perform hx]
    exact hw.next x

end Scope

namespace Loader

variable {L : Loader}

theorem Continues.grows (h : L.Continues Action.Steady w w') : w.scope.Grows w'.scope := by
  obtain ⟨α, script, budget, rest, hl⟩ := h
  exact hl.evolves

theorem Continues.sane (h : L.Continues Action.Steady w w') (hw : w.Sane) : w'.Sane := by
  obtain ⟨α, script, budget, rest, hl⟩ := h
  exact hw.leads (L.nested_perform budget script) hl

theorem Reaches.tallied (h : L.Reaches Action.Own w) : w.scope.Tallied := by
  obtain ⟨α, script, budget, rest, hl⟩ := h
  exact Scope.tallied_new.leads hl

theorem Reaches.traced {may : Action → Session → Prop} (h : L.Reaches may w) : w.scope.Traced := by
  obtain ⟨α, script, budget, rest, hl⟩ := h
  exact Scope.traced_of_leads Scope.traced_new hl

theorem Reaches.sane (h : L.Reaches Action.Steady w) : w.Sane where
  attended := h.attended
  tallied := by
    obtain ⟨α, script, budget, rest, hl⟩ := h
    have ho : L.Reaches Action.Own w :=
      ⟨α, script, budget, rest, hl.mono fun _ _ hx => Action.own_of_steady hx⟩
    exact ho.tallied

/-- The derived set of a settled class, and the queue of a pending one, have exactly the settled
classes that extend it; nothing is left of a load once all loaders have come back. -/
theorem derived_sets_exact (h : L.Reaches Action.Own w) :
    (∀ c st, w.scope.settled? c = some st → st.derived.Pairwise (· < ·) ∧
      ∀ x, x ∈ st.derived ↔ ∃ stx, w.scope.settled? x = some stx ∧ stx.declaration.superClass = some c) ∧
    (∀ c queued waiting, w.scope.slot? c = some (.pending queued waiting) → queued.Nodup ∧
      ∀ x, x ∈ queued ↔ ∃ stx, w.scope.settled? x = some stx ∧ stx.declaration.superClass = some c) ∧
    (w.stack = [] → ∀ c, w.scope.isLoading c = false ∧ w.scope.waiting? c = none) := by
  have ht := h.tallied
  have ha := h.attended
  have hsuper : ∀ c x, (w.scope.declaration x).superClass = some c ↔
      ∃ stx, w.scope.settled? x = some stx ∧ stx.declaration.superClass = some c := by
    intro c x
    cases hx : w.scope.settled? x with
    | none => simp [Scope.declaration_of_unsettled hx, Declaration.missing]
    | some st => simp [Scope.declaration_of_settled hx]
  refine ⟨fun c st hc => ?_, fun c queued waiting hc => ?_, fun hw c => ?_⟩
  · obtain ⟨e, he, hs⟩ := Option.bind_eq_some_iff.mp hc
    have hs := Entry.settled?_eq_some.mp hs
    have hheirs : w.scope.heirs c = st.derived := by simp [Scope.heirs, he, Entry.heirs, hs]
    have ho := ht.orderly c e he
    rw [Entry.Orderly, hs] at ho
    refine ⟨ho, fun x => ?_⟩
    rw [← hsuper, ← ht.heirs c x (.of_get? he), hheirs]
  · obtain ⟨e, he, hs⟩ := Option.map_eq_some_iff.mp hc
    have hheirs : w.scope.heirs c = queued := by simp [Scope.heirs, he, Entry.heirs, hs]
    have ho := ht.orderly c e he
    rw [Entry.Orderly, hs] at ho
    refine ⟨ho, fun x => ?_⟩
    rw [← hsuper, ← ht.heirs c x (.of_get? he), hheirs]
  · exact ⟨ha.idle hw c, ha.waiting_idle hw c⟩

def circular : Loader := fun c _ => do
  let b ← Script.request (.register "B")
  let _ ← Script.request (.attach b { superClass := some c })
  Script.request (.rebind c b)
  return .ok {}

theorem derived_sets_exact_in_circle :
    ∃ w, circular.Reaches Action.Own w ∧ w.scope.slot? ⟨9⟩ = some (.pending [⟨10⟩] (some ⟨10⟩)) ∧
      ∀ x, x ∈ [⟨10⟩] ↔ ∃ st, w.scope.settled? x = some st ∧ st.declaration.superClass = some ⟨9⟩ := by
  let script : Script Unit := do Script.request (.resolve (← Script.request (.register "A")))
  have h : ((circular.perform 1 script).advance Action.Own 8 .new).map (fun m => m.2.scope.slot? ⟨9⟩) =
      some (some (.pending [⟨10⟩] (some ⟨10⟩))) := by decide +kernel
  obtain ⟨⟨rest, w⟩, ha, hs⟩ := Option.map_eq_some_iff.mp h
  have hw : circular.Reaches Action.Own w := ⟨Unit, script, 1, rest, Run.leads_iff_advance.mpr ⟨8, ha⟩⟩
  exact ⟨w, hw, hs, ((derived_sets_exact hw).2.1 _ _ _ hs).2⟩

end Loader

end ClassHierarchy
