import ClassHierarchy.Query
import ClassHierarchy.Proofs.Run.Stack

namespace ClassHierarchy.Loader

variable {α β : Type} {L : Loader} {n : Nat} {may : Action → Session → Prop} {w w' w'' : Session}
  {c : ClassId}

theorem perform_bind (q : Script α) (f : α → Script β) :
    L.perform n (q >>= f) = L.perform n q >>= fun a => L.perform n (f a) := Program.run_bind _ _ _

theorem perform_request (r : Request) : L.perform n (Script.request r) = Run.handle (L.call n) n r :=
  Program.bind_done _

theorem ends_perform_bind {q : Script α} {f : α → Script β} {a : α} {b : β}
    (h : (L.perform n q).Ends may w a w') (hf : (L.perform n (f a)).Ends may w' b w'') :
    (L.perform n (q >>= f)).Ends may w b w'' := by
  rw [perform_bind]
  exact h.bind hf

theorem ends_pure (a : α) : (L.perform n (pure a : Script α)).Ends may w a w := .refl _ _

theorem ends_map {q : Script α} {a : α} (h : (L.perform n q).Ends may w a w') (f : α → β) :
    (L.perform n (do return f (← q))).Ends may w (f a) w' := ends_perform_bind h (ends_pure (f a))

theorem ends_inspect : (L.perform n Script.inspect).Ends Action.Steady w w.scope w :=
  (Run.ends_look_bind_iff trivial).mpr (.refl _ _)

section Touched

variable (hu : w.scope.isUntouched c = false)
include hu

theorem ends_resolve : (L.perform n (Script.resolve c)).Ends Action.Steady w () w := by
  have hr : (Run.resolve (L.call n) c).Ends Action.Steady w () w :=
    (Run.ends_resolve_of_touched hu).mpr rfl
  exact hr.bind (.refl _ _)

theorem ends_declaration :
    (L.perform n (Query.declaration c)).Ends Action.Steady w (w.scope.declaration c) w :=
  ends_perform_bind (ends_resolve hu) (ends_map ends_inspect (·.declaration c))

theorem ends_isMissing : (L.perform n (Query.isMissing c)).Ends Action.Steady w (w.scope.isMissing c) w :=
  ends_perform_bind (ends_resolve hu) (ends_map ends_inspect (·.isMissing c))

theorem ends_derivedClasses :
    (L.perform n (Query.derivedClasses c)).Ends Action.Steady w (w.scope.derived c) w :=
  ends_perform_bind (ends_resolve hu) (ends_map ends_inspect (·.derived c))

theorem ends_unless_missing (hm : w.scope.isMissing c = true) (q : Script (Option α)) :
    (L.perform n (do if ← Query.isMissing c then return none else q)).Ends Action.Steady w none w := by
  apply ends_perform_bind (ends_isMissing hu)
  rw [hm]
  exact ends_pure none

theorem ends_ofDeclared (hm : w.scope.isMissing c = false) (read : Declaration → α) :
    (L.perform n (Query.ofDeclared c read)).Ends Action.Steady w (some (read (w.scope.declaration c))) w := by
  apply ends_perform_bind (ends_isMissing hu)
  rw [hm]
  exact ends_map (ends_declaration hu) fun d => some (read d)

theorem ends_rebind {p : ClassId} (hmay : ∀ x v, x.Steady v → may x v) (hp : may (.rebind c p) w) :
    ∃ u, (L.perform n (Script.request (.rebind c p))).Ends may w () u ∧ u.scope = w.scope.rebind c p := by
  obtain ⟨u, hu'⟩ : ∃ u, (Action.rebind c p).perform w = some ((), u) := ⟨_, rfl⟩
  have hresolve : (Run.resolve (L.call n) c).Ends may w () w :=
    ((Run.ends_resolve_of_touched hu).mpr rfl).mono hmay
  refine ⟨u, ?_, Action.scope_of_perform hu'⟩
  rw [perform_request]
  exact hresolve.bind (Run.ends_ask_iff.mpr ⟨hp, (), u, hu', .refl _ _⟩)

end Touched

end ClassHierarchy.Loader
