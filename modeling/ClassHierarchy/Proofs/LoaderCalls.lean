import ClassHierarchy.Proofs.Run.Stack
import ClassHierarchy.Proofs.Scope.Primitives

namespace ClassHierarchy

variable {w w' : Session} {c : ClassId}

namespace Scope

theorem Evolves.isSome_settled {s s' : Scope} {R : ClassId → Prop} (h : s.Evolves R s')
    (hc : ∃ st, s.settled? c = some st) : ∃ st, s'.settled? c = some st := by
  obtain ⟨st, hst⟩ := hc
  obtain ⟨st', hst', -⟩ := h.settled hst
  exact ⟨st', hst'⟩

end Scope

namespace Session

structure Called (w : Session) : Prop where
  nodup : w.calls.Nodup
  of_stack : ∀ c ∈ w.stack, c ∈ w.calls
  cases : ∀ c ∈ w.calls, c ∈ w.stack ∨ ∃ st, w.scope.settled? c = some st
  not_primitive : ∀ c ∈ w.calls, c.isPrimitive = false
  primitive : ∀ c, c.isPrimitive = true → ∃ st, w.scope.settled? c = some st

theorem called_new : Session.new.Called where
  nodup := List.nodup_nil
  of_stack _ h := nomatch h
  cases _ h := nomatch h
  not_primitive _ h := nomatch h
  primitive c h := by
    obtain ⟨p, rfl⟩ := ClassId.isPrimitive_iff.mp h
    exact Scope.settled_new p

theorem Called.registered (h : w.Called) (ha : w.Attended) (hc : c ∈ w.calls) : w.scope.Registered c := by
  obtain hs | ⟨st, hst⟩ := h.cases c hc
  · exact ha.registered hs
  · exact .of_settled hst

theorem Called.not_mem_calls (h : w.Called) (ha : w.Attended) (hu : w.scope.isUntouched c = true) :
    c ∉ w.calls := by
  obtain ⟨-, hs, hl⟩ := Scope.isUntouched_iff.mp hu
  intro hc
  obtain hc | ⟨st, hst⟩ := h.cases c hc
  · rw [(ha.loading c).mpr hc] at hl
    cases hl
  · rw [hs] at hst
    cases hst

theorem Called.of_unchanged (h : w.Called) (hs : w'.stack = w.stack) (hc : w'.calls = w.calls)
    (he : w.scope.Evolves (fun _ => True) w'.scope) : w'.Called where
  nodup := hc ▸ h.nodup
  of_stack c hm := hc ▸ h.of_stack c (hs ▸ hm)
  cases c hm := by
    rw [hc] at hm
    rw [hs]
    exact (h.cases c hm).imp_right he.isSome_settled
  not_primitive c hm := h.not_primitive c (hc ▸ hm)
  primitive c hp := he.isSome_settled (h.primitive c hp)

theorem Called.call (h : w.Called) (ha : w.Attended) (hu : w.scope.isUntouched c = true)
    (hx : (Action.call c).perform w = some (r, w')) (he : w.scope.Evolves (fun _ => True) w'.scope) :
    w'.Called := by
  have hstack : w'.stack = c :: w.stack := Action.stack_of_perform hx
  have hcalls : w'.calls = w.calls ++ [c] := Action.calls_of_perform hx
  have hnew := h.not_mem_calls ha hu
  obtain ⟨-, hs, -⟩ := Scope.isUntouched_iff.mp hu
  constructor
  · rw [hcalls]
    exact List.Nodup.append h.nodup (List.nodup_singleton c) (by simpa using hnew)
  · intro x hm
    rw [hstack, List.mem_cons] at hm
    rw [hcalls, List.mem_append, List.mem_singleton]
    obtain rfl | hm := hm
    · exact .inr rfl
    · exact .inl (h.of_stack x hm)
  · intro x hm
    rw [hcalls, List.mem_append, List.mem_singleton] at hm
    rw [hstack, List.mem_cons]
    obtain hm | rfl := hm
    · exact (h.cases x hm).imp .inr he.isSome_settled
    · exact .inl (.inl rfl)
  · intro x hm
    rw [hcalls, List.mem_append, List.mem_singleton] at hm
    obtain hm | rfl := hm
    · exact h.not_primitive x hm
    · by_contra hp
      obtain ⟨st, hst⟩ := h.primitive x (by simpa using hp)
      rw [hs] at hst
      cases hst
  · intro x hp
    exact he.isSome_settled (h.primitive x hp)

theorem Called.finish {outcome : Except LoadError Declaration} (h : w.Called) (ha : w.Attended)
    (hd : w.stack.head? = some c) (hx : (Action.finish c outcome).perform w = some (r, w'))
    (he : w.scope.Evolves (fun _ => True) w'.scope) : w'.Called := by
  obtain ⟨rest, hrest⟩ : ∃ rest, w.stack = c :: rest := List.head?_eq_some_iff.mp hd
  have hstack : w'.stack = rest := by
    rw [Action.stack_of_perform hx, hrest]
    rfl
  have hcalls : w'.calls = w.calls := by
    rw [Action.calls_of_perform hx]
    exact List.append_nil _
  have hc : w.scope.Registered c := ha.registered (by simp [hrest])
  have hsettled : ∃ st, w'.scope.settled? c = some st := by
    rw [Action.scope_of_perform hx]
    exact Scope.settled_endLoad hc outcome
  constructor
  · rw [hcalls]
    exact h.nodup
  · intro x hm
    rw [hcalls]
    apply h.of_stack
    rw [hrest, ← hstack]
    exact List.mem_cons_of_mem c hm
  · intro x hm
    rw [hcalls] at hm
    rw [hstack]
    obtain hs | hs := h.cases x hm
    · rw [hrest, List.mem_cons] at hs
      obtain rfl | hs := hs
      · exact .inr hsettled
      · exact .inl hs
    · exact .inr (he.isSome_settled hs)
  · intro x hm
    exact h.not_primitive x (hcalls ▸ hm)
  · intro x hp
    exact he.isSome_settled (h.primitive x hp)

theorem Called.next {x : Action} {r : x.Reply} (h : w.Called) (ha : w.Attended) (hd : x.Due w)
    (hx : x.perform w = some (r, w')) : w'.Called := by
  have hstack := Action.stack_of_perform hx
  have hcalls := Action.calls_of_perform hx
  have he := Action.evolves_of_perform hx
  cases x with
  | call c => exact h.call ha hd hx he
  | finish c outcome => exact h.finish ha hd hx he
  | _ => exact h.of_unchanged hstack (by simpa [Action.calls] using hcalls) he

end Session

namespace Loader

variable {α : Type} {L : Loader} {budget : Nat} {script : Script α} {rest : Run α}

theorem Reaches.called {may : Action → Session → Prop} (h : L.Reaches may w) : w.Called := by
  obtain ⟨α, script, budget, rest, hl⟩ := h
  have hn := L.nested_perform budget script .new
  refine (hn.invariant hl (I := fun v => v.Attended ∧ v.Called)
    ⟨Session.attended_new, Session.called_new⟩ ?_).2
  intro x v r v' hv hd _ hx
  exact ⟨hv.1.next hd hx, hv.2.next hv.1 hd hx⟩

theorem settled_kept {p q : Run α} {st : Settled} (hst : w.scope.settled? c = some st)
    (h : p.Leads Run.anything w q w') :
    ∃ st', w'.scope.settled? c = some st' ∧ st'.missing = st.missing ∧
      st'.declaration.withSuperClass none = st.declaration.withSuperClass none := by
  obtain ⟨st', hst', hv⟩ := h.evolves_any.settled hst
  exact ⟨st', hst', hv.missing, hv.members⟩

theorem installed_of_attach {d : Declaration}
    (hx : (Action.attach c d).perform w = some (.ok (), w')) :
    w.scope.Installed c d false w'.scope := by
  simp only [Action.perform] at hx
  split at hx
  next s hs =>
    obtain rfl : _ = w' := congrArg Prod.snd (Option.some.inj hx)
    exact Scope.installed_of_eq_some (Scope.attach_eq_ok hs).2
  · simp at hx

theorem attached_kept {d : Declaration} {p q : Run α} {w₁ : Session}
    (hx : (Action.attach c d).perform w = some (.ok (), w₁)) (h : p.Leads Run.anything w₁ q w') :
    ∃ st, w'.scope.settled? c = some st ∧ st.missing = false ∧
      st.declaration.withSuperClass none = d.withSuperClass none ∧
      (p.Leads (Action.Rebinds (· ≠ c)) w₁ q w' →
        st.declaration = d.withSuperClass (w.scope.waiting? c <|> d.superClass)) := by
  obtain ⟨st, hst, hmissing, hdecl⟩ := (installed_of_attach hx).settled
  obtain ⟨st', hst', hm, hd⟩ := settled_kept hst h
  refine ⟨st', hst', hm.trans hmissing, ?_, ?_⟩
  · rw [hd, hdecl]
    rfl
  · intro hown
    obtain ⟨st'', hst'', hv⟩ := hown.evolves.settled hst
    obtain rfl : st' = st'' := Option.some.inj (hst'.symm.trans hst'')
    rw [hv.declaration fun hne => hne rfl, hdecl]

/-- At every moment of every run: no class has been loaded twice, no primitive has been loaded, the
loads under way are of different classes, and whoever has come back is settled. The loader is only
called for a class that is not settled and for which it has not been called. A settled class stays
settled and missing or not missing, with the same members; in particular a class keeps what is attached
to it, with the super class that waited for it, whether or not its loader is still running. -/
theorem loads_once (h : (L.perform budget script).Leads Run.anything .new rest w) :
    w.calls.Nodup ∧ w.stack.Nodup ∧ (∀ c ∈ w.calls, c.isPrimitive = false) ∧
    (∀ c ∈ w.stack, c ∈ w.calls) ∧
    (∀ c ∈ w.calls, c ∉ w.stack → ∃ st, w.scope.settled? c = some st) ∧
    (∀ c k, rest = .ask (.call c) k → w.scope.settled? c = none ∧ c ∉ w.calls) ∧
    (∀ c st q w', w.scope.settled? c = some st → rest.Leads Run.anything w q w' →
      ∃ st', w'.scope.settled? c = some st' ∧ st'.missing = st.missing ∧
        st'.declaration.withSuperClass none = st.declaration.withSuperClass none) ∧
    (∀ c d k w₁ q w', rest = .ask (.attach c d) k →
      (Action.attach c d).perform w = some (.ok (), w₁) →
      Run.Leads Run.anything (k (.ok ())) w₁ q w' →
      ∃ st, w'.scope.settled? c = some st ∧ st.missing = false ∧
        st.declaration.withSuperClass none = d.withSuperClass none ∧
        (Run.Leads (Action.Rebinds (· ≠ c)) (k (.ok ())) w₁ q w' →
          st.declaration = d.withSuperClass (w.scope.waiting? c <|> d.superClass))) := by
  have hreach : L.Reaches Run.anything w := ⟨α, script, budget, rest, h⟩
  have hcalled := hreach.called
  have hattended := hreach.attended
  refine ⟨hcalled.nodup, hattended.nodup, hcalled.not_primitive, hcalled.of_stack, ?_, ?_, ?_, ?_⟩
  · intro c hc hs
    exact (hcalled.cases c hc).resolve_left hs
  · rintro c k rfl
    have hu : w.scope.isUntouched c = true := ((L.nested_perform budget script .new).leads h).1
    exact ⟨(Scope.isUntouched_iff.mp hu).2.1, hcalled.not_mem_calls hattended hu⟩
  · intro c st q w' hst hl
    exact settled_kept hst hl
  · intro c d k w₁ q w' _ hx hl
    exact attached_kept hx hl

def stubborn : Loader := fun c name => do
  Script.request (.rebind c (← Script.request (.register "B")))
  let _ ← Script.request (.attach c {})
  return .error (.notFound name)

theorem loads_once_in_stubborn : ∃ rest w,
    (stubborn.perform 1 (do Script.request (.resolve (← Script.request (.register "A"))))).Leads
      Run.anything .new rest w ∧
    w.calls = [⟨9⟩] ∧ w.stack = [] ∧ w.calls.Nodup ∧ ∃ st, w.scope.settled? ⟨9⟩ = some st := by
  have h : ((stubborn.perform 1 (do Script.request (.resolve (← Script.request (.register "A"))))).advance
      Run.anything 9 .new).map (fun m => (m.2.calls, m.2.stack)) = some ([⟨9⟩], []) := by decide +kernel
  obtain ⟨⟨rest, w⟩, ha, hw⟩ := Option.map_eq_some_iff.mp h
  obtain ⟨hcalls, hstack⟩ := Prod.mk.inj hw
  have hl := Run.leads_iff_advance.mpr ⟨9, ha⟩
  obtain ⟨hnodup, -, -, -, hsettled, -⟩ := loads_once hl
  exact ⟨rest, w, hl, hcalls, hstack, hnodup, hsettled ⟨9⟩ (by simp [hcalls]) (by simp [hstack])⟩

end Loader

end ClassHierarchy
