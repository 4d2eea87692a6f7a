import Mathlib.Tactic.Common
import ClassHierarchy.Session

/-!
The moments of a run: what a session is like after each of its actions, in the middle of a load or
of a walk as well as at the end.
-/

namespace ClassHierarchy

variable {α β : Type} {may may' : Action → Session → Prop}

namespace Run

/-- From `w`, `p` comes by `w'`, where `q` is left to do; on the way it only does what it `may`. -/
inductive Leads (may : Action → Session → Prop) : Run α → Session → Run α → Session → Prop
  | refl (p : Run α) (w : Session) : Leads may p w p w
  | step {x : Action} {k : x.Reply → Run α} {r : x.Reply} {q : Run α} {w w' w'' : Session} :
      may x w → x.perform w = some (r, w') → Leads may (k r) w' q w'' → Leads may (.ask x k) w q w''

def Ends (may : Action → Session → Prop) (p : Run α) (w : Session) (a : α) (w' : Session) : Prop :=
  p.Leads may w (.done a) w'

variable {p q s : Run α} {f : α → Run β} {a b : α} {w w' w'' v v' : Session}

theorem Leads.mono (h : p.Leads may w q w') (hm : ∀ x w, may x w → may' x w) : p.Leads may' w q w' := by
  induction h with
  | refl => exact .refl _ _
  | step ho hx _ ih => exact .step (hm _ _ ho) hx ih

theorem Leads.trans (h : p.Leads may w q w') (h' : q.Leads may w' s w'') : p.Leads may w s w'' := by
  induction h with
  | refl => exact h'
  | step hm hx _ ih => exact .step hm hx (ih h')

theorem Leads.turn {I : Session → Prop} (h : p.Leads may w q w') (hw : ¬ I w) (hw' : I w') :
    ∃ (x : Action) (k : x.Reply → Run α) (r : x.Reply) (v v' : Session), p.Leads may w (.ask x k) v ∧
      ¬ I v ∧ x.perform v = some (r, v') ∧ I v' ∧ (k r).Leads may v' q w' := by
  induction h with
  | refl => exact absurd hw' hw
  | @step x k r q w v w' hm hx hl ih =>
    by_cases hv : I v
    · exact ⟨x, k, r, w, v, .refl _ _, hw, hx, hv, hl⟩
    · obtain ⟨y, k', r', u, u', hlu, hrest⟩ := ih hv hw'
      exact ⟨y, k', r', u, u', .step hm hx hlu, hrest⟩

theorem ends_done_iff : Ends may (.done a) w b w' ↔ a = b ∧ w = w' := by
  constructor
  · intro h
    cases h
    exact ⟨rfl, rfl⟩
  · rintro ⟨rfl, rfl⟩
    exact .refl _ _

theorem ends_ask_iff {x : Action} {k : x.Reply → Run α} : Ends may (.ask x k) w a w'' ↔
    may x w ∧ ∃ r w', x.perform w = some (r, w') ∧ (k r).Ends may w' a w'' := by
  constructor
  · intro h
    cases h with
    | step hm hx hr => exact ⟨hm, _, _, hx, hr⟩
  · rintro ⟨hm, r, w', hx, hr⟩
    exact .step hm hx hr

theorem ends_bind_iff {b : β} : Ends may (p >>= f) w b w'' ↔
    ∃ a w', p.Ends may w a w' ∧ (f a).Ends may w' b w'' := by
  induction p generalizing w with
  | done a =>
    simp only [Program.done_bind, ends_done_iff]
    constructor
    · intro h
      exact ⟨a, w, ⟨rfl, rfl⟩, h⟩
    · rintro ⟨_, _, ⟨rfl, rfl⟩, h⟩
      exact h
  | ask x k ih =>
    simp only [Program.ask_bind, ends_ask_iff, ih]
    constructor
    · rintro ⟨hm, r, v, hx, a, w', hk, hf⟩
      exact ⟨a, w', ⟨hm, r, v, hx, hk⟩, hf⟩
    · rintro ⟨a, w', ⟨hm, r, v, hx, hk⟩, hf⟩
      exact ⟨hm, r, v, hx, a, w', hk, hf⟩

theorem Ends.bind {b : β} (h : p.Ends may w a w') (h' : (f a).Ends may w' b w'') :
    Ends may (p >>= f) w b w'' := ends_bind_iff.mpr ⟨a, w', h, h'⟩

theorem Ends.exec (h : p.Ends may w a w') : p.exec w = some (a, w') := by
  induction p generalizing w with
  | done b =>
    obtain ⟨rfl, rfl⟩ := ends_done_iff.mp h
    rfl
  | ask x k ih =>
    obtain ⟨-, r, v, hx, hk⟩ := ends_ask_iff.mp h
    have he := ih r hk
    simp only [Run.exec, Program.run_ask] at he ⊢
    change (x.perform w >>= fun y => (k y.1).run Action.perform y.2) = _
    rw [hx]
    exact he

def advance (may : Action → Session → Prop) [∀ x w, Decidable (may x w)] :
    Nat → Run α → Session → Option (Run α × Session)
  | 0, p, w => some (p, w)
  | _ + 1, .done _, _ => none
  | n + 1, .ask x k, w =>
    if may x w then (x.perform w).bind fun y => advance may n (k y.1) y.2 else none

theorem leads_iff_advance [∀ x w, Decidable (may x w)] :
    p.Leads may w q w' ↔ ∃ n, p.advance may n w = some (q, w') := by
  constructor
  · intro h
    induction h with
    | refl => exact ⟨0, rfl⟩
    | step hm hx _ ih =>
      obtain ⟨n, hn⟩ := ih
      exact ⟨n + 1, by simp [advance, hm, hx, hn]⟩
  · rintro ⟨n, h⟩
    induction n generalizing p w with
    | zero =>
      obtain ⟨rfl, rfl⟩ := Prod.mk.inj (Option.some.inj h)
      exact .refl _ _
    | succ n ih =>
      cases p with
      | done a => cases h
      | ask x k =>
        simp only [advance] at h
        split at h
        next hm =>
          obtain ⟨⟨r, v⟩, hx, hr⟩ := Option.bind_eq_some_iff.mp h
          exact .step hm hx (ih hr)
        · cases h

def result? : Run α → Option α
  | .done a => some a
  | .ask .. => none

theorem ends_of_advance [∀ x w, Decidable (may x w)] {n : Nat} (h : p.advance may n w = some (q, w'))
    (ha : q.result? = some a) : p.Ends may w a w' := by
  cases q with
  | done b =>
    obtain rfl : b = a := Option.some.inj ha
    exact leads_iff_advance.mpr ⟨n, h⟩
  | ask x k => cases ha

def anything : Action → Session → Prop := fun _ _ => True

instance (x : Action) (w : Session) : Decidable (anything x w) := .isTrue trivial

theorem exec_eq_some_iff : p.exec w = some (a, w') ↔ p.Ends anything w a w' := by
  refine ⟨fun h => ?_, Ends.exec⟩
  induction p generalizing w with
  | done b =>
    have hb : some (b, w) = some (a, w') := h
    obtain ⟨rfl, rfl⟩ := Prod.mk.inj (Option.some.inj hb)
    exact .refl _ _
  | ask x k ih =>
    have hb : (x.perform w >>= fun y => (k y.1).run Action.perform y.2) = some (a, w') := h
    obtain ⟨⟨r, v⟩, hx, hk⟩ := Option.bind_eq_some_iff.mp hb
    exact ends_ask_iff.mpr ⟨trivial, r, v, hx, ih r hk⟩

theorem Ends.unique (h : p.Ends may w a v) (h' : p.Ends may' w b v') : a = b ∧ v = v' := by
  have he : some (a, v) = some (b, v') := h.exec.symm.trans h'.exec
  exact Prod.mk.inj (Option.some.inj he)

/-- All that `p` does from `w` is `due` when it is done, and where `p` ends, `Q` holds. -/
def Sound (due : Action → Session → Prop) (Q : α → Session → Prop) : Run α → Session → Prop
  | .done a, w => Q a w
  | .ask x k, w => due x w ∧ ∀ r w', x.perform w = some (r, w') → Sound due Q (k r) w'

variable {due : Action → Session → Prop} {P Q : α → Session → Prop} {Q' : β → Session → Prop}

theorem Sound.bind (h : p.Sound due P w) (hf : ∀ a v, P a v → (f a).Sound due Q' v) :
    (p >>= f).Sound due Q' w := by
  induction p generalizing w with
  | done a => exact hf a w h
  | ask x k ih => exact ⟨h.1, fun r w' hx => ih r (h.2 r w' hx)⟩

theorem Sound.imp (h : p.Sound due P w) (hQ : ∀ a v, P a v → Q a v) : p.Sound due Q w := by
  induction p generalizing w with
  | done a => exact hQ a w h
  | ask x k ih => exact ⟨h.1, fun r w' hx => ih r (h.2 r w' hx)⟩

theorem Sound.leads (h : p.Sound due Q w) (hl : p.Leads may w q w') : q.Sound due Q w' := by
  induction hl with
  | refl => exact h
  | step _ hx _ ih => exact ih (h.2 _ _ hx)

theorem Sound.leads_due (h : p.Sound due Q w) (hl : p.Leads may w q w') : p.Leads due w q w' := by
  induction hl with
  | refl => exact .refl _ _
  | step _ hx _ ih => exact .step h.1 hx (ih (h.2 _ _ hx))

theorem Sound.ends (h : p.Sound due Q w) (he : p.Ends may w a w') : Q a w' := h.leads he

theorem sound_act {x : Action} {Q : x.Reply → Session → Prop} (hd : due x w)
    (hQ : ∀ r w', x.perform w = some (r, w') → Q r w') : (act x).Sound due Q w := ⟨hd, hQ⟩

theorem perform_look {r : Action.look.Reply} (h : Action.look.perform w = some (r, w')) :
    r = w.scope ∧ w' = w := by
  have h : some (w.scope, w) = some (r, w') := h
  obtain ⟨rfl, rfl⟩ := Prod.mk.inj (Option.some.inj h)
  exact ⟨rfl, rfl⟩

theorem ends_look_bind_iff {f : Scope → Run β} {b : β}
    (hm : may .look w) : Ends may (act .look >>= f) w b w' ↔ Ends may (f w.scope) w b w' := by
  change Ends may (.ask .look f) w b w' ↔ _
  rw [ends_ask_iff]
  constructor
  · rintro ⟨-, r, w₁, hx, h⟩
    obtain ⟨rfl, rfl⟩ := perform_look hx
    exact h
  · intro h
    exact ⟨hm, w.scope, w, rfl, h⟩

theorem Sound.look {f : Scope → Run β} (hd : due .look w) (hf : (f w.scope).Sound due Q' w) :
    (act .look >>= f).Sound due Q' w := by
  refine ⟨hd, fun r w' hx => ?_⟩
  obtain ⟨rfl, rfl⟩ := perform_look hx
  exact hf

theorem Sound.invariant (h : p.Sound due Q w) (hl : p.Leads may w q w') {I : Session → Prop} (hi : I w)
    (hI : ∀ x v r v', I v → due x v → may x v → x.perform v = some (r, v') → I v') : I w' := by
  induction hl with
  | refl => exact hi
  | step hm hx _ ih => exact ih (h.2 _ _ hx) (hI _ _ _ _ hi h.1 hm hx)

end Run

/-- From `w`, a caller of a scope that loads by `L` may come by `w'`. -/
def Loader.Continues (L : Loader) (may : Action → Session → Prop) (w w' : Session) : Prop :=
  ∃ (α : Type) (script : Script α) (budget : Nat) (rest : Run α),
    (L.perform budget script).Leads may w rest w'

def Loader.Reaches (L : Loader) (may : Action → Session → Prop) (w : Session) : Prop :=
  L.Continues may .new w

end ClassHierarchy
