import ClassHierarchy.Proofs.Run.Effects
import ClassHierarchy.Proofs.Twins.Content

/-!
One run follows another. Where no class is rebound, a walk through the hierarchy only ever sees what
is final: a run that starts from a scope with the same content under other handles takes the same
turns, even though other classes may be left to load for it.
-/

namespace ClassHierarchy

open List Relator

namespace Run

variable {α α' β β' : Type} {T : Scope} {Linked : Session → Session → Prop} {w v : Session}

/-- Where `p` ends from `w`, in a scope that may still become `T`, `p'` ends from `v` with the like. -/
def Follows (T : Scope) (Linked : Session → Session → Prop) (p : Run α) (p' : Run α') (w v : Session)
    (B : Session → Session → α → α' → Prop) : Prop :=
  ∀ a w', p.Ends Action.Steady w a w' → w'.scope.Grows T →
    ∃ a' v', p'.Ends Action.Steady v a' v' ∧ v.scope.Grows v'.scope ∧ Linked w' v' ∧ B w' v' a a'

variable {A : Session → Session → α → α' → Prop} {B : Session → Session → β → β' → Prop}

theorem follows_done {a : α} {a' : α'} (hl : Linked w v) (h : A w v a a') :
    Follows T Linked (.done a) (.done a') w v A := by
  intro b w' he _
  obtain ⟨rfl, rfl⟩ := ends_done_iff.mp he
  exact ⟨a', v, .refl _ _, .refl _, hl, h⟩

theorem follows_exhausted {p' : Run α'} : Follows T Linked (exhausted : Run α) p' w v A := by
  intro b w' he _
  obtain ⟨-, r, -⟩ := ends_ask_iff.mp he
  cases r

theorem Follows.bind {p : Run α} {p' : Run α'} {f : α → Run β} {f' : α' → Run β'}
    (h : Follows T Linked p p' w v A)
    (hf : ∀ a a' w₁ v₁, w.scope.Grows w₁.scope → v.scope.Grows v₁.scope → Linked w₁ v₁ → A w₁ v₁ a a' →
      Follows T Linked (f a) (f' a') w₁ v₁ B) :
    Follows T Linked (p >>= f) (p' >>= f') w v B := by
  intro b w' he hT
  obtain ⟨a, w₁, hp, hfa⟩ := ends_bind_iff.mp he
  obtain ⟨a', v₁, hp', hv, hl, ha⟩ := h a w₁ hp (hfa.evolves.trans hT)
  obtain ⟨b', v', hf', hv', hl', hb⟩ := hf a a' w₁ v₁ hp.evolves hv hl ha b w' hfa hT
  exact ⟨b', v', hp'.bind hf', hv.trans hv', hl', hb⟩

theorem Follows.imp {A' : Session → Session → α → α' → Prop} {p : Run α} {p' : Run α'}
    (h : Follows T Linked p p' w v A) (hA : ∀ w' v' a a', Linked w' v' → A w' v' a a' → A' w' v' a a') :
    Follows T Linked p p' w v A' := by
  intro a w' he hT
  obtain ⟨a', v', hp', hv, hl, ha⟩ := h a w' he hT
  exact ⟨a', v', hp', hv, hl, hA w' v' a a' hl ha⟩

theorem follows_look {f : Scope → Run β} {f' : Scope → Run β'}
    (h : Follows T Linked (f w.scope) (f' v.scope) w v B) :
    Follows T Linked (act .look >>= f) (act .look >>= f') w v B := by
  intro b w' he hT
  obtain ⟨b', v', he', hrest⟩ := h b w' ((ends_look_bind_iff trivial).mp he) hT
  exact ⟨b', v', (ends_look_bind_iff trivial).mpr he', hrest⟩

end Run

def Session.Level (R : Session → Session → ClassId → ClassId → Prop) (w v : Session) (c c' : ClassId) : Prop :=
  w.scope.isMissing c = v.scope.isMissing c' ∧
    (w.scope.declaration c).Alike (R w v) (v.scope.declaration c')

structure Tracking (T : Scope) (Linked : Session → Session → Prop)
    (R : Session → Session → ClassId → ClassId → Prop)
    (load load' : ClassId → Run (Except LoadError Declaration)) : Prop where
  mono : ∀ {w v w' v' c c'}, w.scope.Grows w'.scope → v.scope.Grows v'.scope → R w v c c' → R w' v' c c'
  biUnique : ∀ {w v}, Linked w v → BiUnique (R w v)
  primitive : ∀ {w v c c'}, Linked w v → R w v c c' → ∀ p, c = .ofPrimitive p ↔ c' = .ofPrimitive p
  resolve : ∀ {w v c c'}, Linked w v → R w v c c' →
    Run.Follows T Linked (Run.resolve load c) (Run.resolve load' c') w v
      fun w' v' _ _ => w'.Level R v' c c'

namespace Tracking

open Run

variable {T : Scope} {Linked : Session → Session → Prop} {R : Session → Session → ClassId → ClassId → Prop}
  {load load' : ClassId → Run (Except LoadError Declaration)} {w v w' v' : Session}

theorem forall₂_mono (h : Tracking T Linked R load load') (hw : w.scope.Grows w'.scope)
    (hv : v.scope.Grows v'.scope) {cs cs' : List ClassId} (hc : Forall₂ (R w v) cs cs') :
    Forall₂ (R w' v') cs cs' := hc.imp fun _ _ => h.mono hw hv

theorem superChain (h : Tracking T Linked R load load') {n m : Nat} (hnm : n ≤ m) (hl : Linked w v)
    {seen seen' : List ClassId} (hs : Forall₂ (R w v) seen seen') {q q' : Option ClassId}
    (hq : Option.Rel (R w v) q q') :
    Follows T Linked (Run.superChain load n seen q) (Run.superChain load' m seen' q') w v
      fun w' v' => Forall₂ (R w' v') := by
  induction n generalizing m seen seen' q q' w v with
  | zero =>
    cases hq with
    | none =>
      unfold Run.superChain
      exact follows_done hl (rel_reverse hs)
    | some hc => exact follows_exhausted
  | succ n ih =>
    obtain ⟨m, rfl⟩ : ∃ k, m = k + 1 := ⟨m - 1, by omega⟩
    cases hq with
    | none => exact follows_done hl (rel_reverse hs)
    | @some c c' hc =>
      have hmem : c ∈ seen ↔ c' ∈ seen' := rel_mem (h.biUnique hl) hc hs
      unfold Run.superChain
      by_cases hcs : c ∈ seen
      · rw [if_pos hcs, if_pos (hmem.mp hcs)]
        exact follows_done hl (rel_reverse hs)
      · rw [if_neg hcs, if_neg (mt hmem.mpr hcs)]
        apply (h.resolve hl hc).bind
        intro _ _ w₁ v₁ hw hv hl₁ hlevel
        apply follows_look
        apply ih (by omega) hl₁
        · exact .cons (h.mono hw hv hc) (h.forall₂_mono hw hv hs)
        · exact hlevel.2.superClass

theorem interfaceClosure (h : Tracking T Linked R load load') {n m : Nat} (hnm : n ≤ m) (hl : Linked w v)
    {queue queue' seen seen' out out' : List ClassId} (hq : Forall₂ (R w v) queue queue')
    (hs : Forall₂ (R w v) seen seen') (ho : Forall₂ (R w v) out out') :
    Follows T Linked (Run.interfaceClosure load n queue seen out)
      (Run.interfaceClosure load' m queue' seen' out') w v fun w' v' => Forall₂ (R w' v') := by
  induction n generalizing m queue queue' seen seen' out out' w v with
  | zero =>
    cases hq with
    | nil =>
      unfold Run.interfaceClosure
      exact follows_done hl ho
    | cons hc hq => exact follows_exhausted
  | succ n ih =>
    obtain ⟨m, rfl⟩ : ∃ k, m = k + 1 := ⟨m - 1, by omega⟩
    cases hq with
    | nil => exact follows_done hl ho
    | cons hc hq =>
      apply (h.resolve hl hc).bind
      intro _ _ w₁ v₁ hw hv hl₁ hlevel
      apply follows_look
      have hs := h.forall₂_mono hw hv hs
      have hfresh := forall₂_unseen (h.biUnique hl₁) hs hlevel.2.interfaces
      exact ih (by omega) hl₁ (rel_append (h.forall₂_mono hw hv hq) hfresh) (rel_append hs hfresh)
        (rel_append (h.forall₂_mono hw hv ho) hfresh)

theorem climbs (h : Tracking T Linked R load load') {n m : Nat} (hnm : n ≤ m) (hl : Linked w v)
    {target target' : ClassId} (ht : R w v target target') {queue queue' seen seen' : List ClassId}
    (hq : Forall₂ (R w v) queue queue') (hs : Forall₂ (R w v) seen seen') :
    Follows T Linked (Run.climbs load target n queue seen) (Run.climbs load' target' m queue' seen') w v
      fun _ _ b b' => b = b' := by
  induction n generalizing m queue queue' seen seen' w v with
  | zero =>
    cases hq with
    | nil =>
      unfold Run.climbs
      exact follows_done hl rfl
    | cons hc hq => exact follows_exhausted
  | succ n ih =>
    obtain ⟨m, rfl⟩ : ∃ k, m = k + 1 := ⟨m - 1, by omega⟩
    cases hq with
    | nil => exact follows_done hl rfl
    | cons hc hq =>
      apply (h.resolve hl hc).bind
      intro _ _ w₁ v₁ hw hv hl₁ hlevel
      apply follows_look
      have ht := h.mono hw hv ht
      have hs := h.forall₂_mono hw hv hs
      have hparents := hlevel.2.parents
      have hmem : target ∈ (w₁.scope.declaration _).parents ↔ target' ∈ (v₁.scope.declaration _).parents :=
        rel_mem (h.biUnique hl₁) ht hparents
      have hfresh := forall₂_unseen (h.biUnique hl₁) hs hparents
      dsimp only
      split
      next hin =>
        rw [if_pos (hmem.mp hin)]
        exact follows_done hl₁ rfl
      next hin =>
        rw [if_neg (mt hmem.mpr hin)]
        exact ih (by omega) hl₁ ht (rel_append (h.forall₂_mono hw hv hq) hfresh) (rel_append hs hfresh)

end Tracking

end ClassHierarchy
