import ClassHierarchy.Proofs.Registry
import ClassHierarchy.Proofs.Twins.Uniform

/-!
What becomes of a class that is left to its loader. Where the loader goes by names alone, such a class has
what the loader makes of its name, in the scope as it is now as well as when it was loaded.
-/

namespace ClassHierarchy

def Action.Spares (c : ClassId) : Action → Session → Prop
  | .attach a d, w => a = c → (w.scope.attach a d).toOption.isNone
  | .rebind a _, _ => a ≠ c
  | _, _ => True

instance {c : ClassId} : (x : Action) → (w : Session) → Decidable (x.Spares c w)
  | .attach a d, w => inferInstanceAs (Decidable (a = c → (w.scope.attach a d).toOption.isNone))
  | .rebind a _, _ => inferInstanceAs (Decidable (a ≠ c))
  | .look, _ | .register _, _ | .call _, _ | .finish .., _ | .emit _, _ | .note _, _ | .giveUp, _ =>
    .isTrue trivial

def Action.Fetched (L : Loader) : Action → Session → Prop
  | .finish c o, w => Script.replay w.scope (L c (w.scope.name c)) = some o
  | _, _ => True

namespace Run

variable {α β : Type} {L : Loader} {n : Nat} {c : ClassId}

def Fetches (L : Loader) (p : Run α) : Prop :=
  ∀ w : Session, w.scope.Named → p.Sound (Action.Fetched L) (fun _ v => v.scope.Named) w

theorem Fetches.bind {p : Run α} {f : α → Run β} (hp : Fetches L p) (hf : ∀ a, Fetches L (f a)) :
    Fetches L (p >>= f) :=
  fun w hw => (hp w hw).bind fun a v hv => hf a v hv

theorem fetches_act {x : Action} (hx : ∀ w, x.Fetched L w) : Fetches L (act x) := by
  intro w hw
  apply sound_act (hx w)
  intro r v hv
  rw [Action.scope_of_perform hv]
  exact hw.next x

theorem sound_harmless {q : Script α} (hq : Script.Uses Request.Harmless q)
    {load : ClassId → Run (Except LoadError Declaration)} (w : Session) :
    (q.run (handle load n)).Sound (Action.Fetched L)
      (fun a v => Ends Action.Steady (q.run (handle load n)) w a v) w := by
  induction q generalizing w with
  | done a => exact .refl _ _
  | ask r k ih =>
    obtain ⟨hr, hk⟩ := hq
    cases r with
    | register name =>
      refine ⟨trivial, fun c v hx => ?_⟩
      apply (ih c (hk c) v).imp
      intro a v' he
      exact .step trivial hx he
    | emit e =>
      refine ⟨trivial, fun u v hx => ?_⟩
      apply (ih u (hk u) v).imp
      intro a v' he
      exact .step trivial hx he
    | _ => exact absurd hr id

theorem sound_call (hL : L.ByName) {w : Session} (hw : w.scope.Named) (n : Nat) (c : ClassId) :
    (L.call n c).Sound (Action.Fetched L) (fun o v => v.scope.Named ∧
      w.scope.Evolves (fun _ => True) v.scope ∧
      Script.replay v.scope (L c (w.scope.name c)) = some o) w := by
  cases n with
  | zero => exact ⟨trivial, fun r => nomatch r⟩
  | succ n =>
    have hq := hL.harmless c (w.scope.name c)
    apply Sound.look trivial
    apply (sound_harmless hq w).imp
    intro o v he
    obtain ⟨hv, hwide, hreplay⟩ := hq.effect hw he
    exact ⟨hv, hwide.quiet.evolves _, hreplay⟩

theorem fetches_resolve (hL : L.ByName) (n : Nat) (c : ClassId) : Fetches L (resolve (L.call n) c) := by
  intro w hw
  apply Sound.look trivial
  split
  next hu =>
    obtain ⟨hc, -, -⟩ := Scope.isUntouched_iff.mp hu
    refine ⟨trivial, fun _ w₁ hcall => ?_⟩
    have hscope : w₁.scope = w.scope.mark c true := Action.scope_of_perform hcall
    have hw₁ : w₁.scope.Named := by
      rw [hscope]
      exact hw.next (.call c)
    have hc₁ : w₁.scope.Registered c := by
      rw [hscope]
      exact (Scope.registered_congr (by simp)).mpr hc
    apply (sound_call hL hw₁ n c).bind
    rintro o v ⟨hv, hev, hreplay⟩
    refine ⟨?_, fun _ v' hfin => ?_⟩
    · change Script.replay v.scope (L c (v.scope.name c)) = some o
      rw [hev.name hc₁]
      exact hreplay
    · change v'.scope.Named
      rw [Action.scope_of_perform hfin]
      exact hv.next (.finish c o)
  next => exact hw

theorem carries_fetches (hL : L.ByName) (n : Nat) :
    Carries (fun {α} => Fetches (α := α) L) (fun _ => True) (L.call n) where
  done _ _ hw := hw
  bind := .bind
  exhausted _ _ := ⟨trivial, fun r => nomatch r⟩
  look := fetches_act fun _ => trivial
  resolve := fetches_resolve hL n
  register _ _ := fetches_act fun _ => trivial
  attach _ _ _ := fetches_act fun _ => trivial
  rebind c _ _ := (fetches_resolve hL n c).bind fun _ => fetches_act fun _ => trivial
  emit _ _ := fetches_act fun _ => trivial
  note _ _ := fetches_act fun _ => trivial

end Run

namespace Session

variable {L : Loader} {w w' : Session} {c : ClassId} {x : Action} {r : x.Reply}

/-- If `c` is settled, then by what the loader makes of its name. -/
structure Left (L : Loader) (c : ClassId) (w : Session) : Prop where
  named : w.scope.Named
  grown : Scope.new.Evolves (fun _ => True) w.scope
  waiting : w.scope.waiting? c = none
  settled : ∀ st, w.scope.settled? c = some st →
    ∃ o, Script.replay w.scope (L c (w.scope.name c)) = some o ∧ Scope.verdict o = (st.declaration, st.missing)

theorem left_new (hc : c.isPrimitive = false) : Session.new.Left L c where
  named := Scope.named_new
  grown := .refl _
  waiting := Session.attended_new.waiting_idle rfl c
  settled st hst := by
    rw [Scope.isPrimitive_of_settled_new hst] at hc
    cases hc

theorem waiting_spared (hw : w.scope.waiting? c = none) (hs : x.Spares c w)
    (hx : x.perform w = some (r, w')) : w'.scope.waiting? c = none := by
  rw [Action.scope_of_perform hx]
  cases x with
  | register name =>
    obtain ⟨names, hr⟩ := w.scope.register_eq_append name
    change (w.scope.register name).2.2.waiting? c = none
    rw [hr, Scope.waiting?_append]
    exact hw
  | attach a d =>
    cases ha : w.scope.attach a d with
    | error e => simpa [Action.next, ha, Except.toOption] using hw
    | ok s =>
      have hi := Scope.installed_of_eq_some (Scope.attach_eq_ok ha).2
      have hnext : Action.next (.attach a d) w.scope = s := by simp [Action.next, ha, Except.toOption]
      rw [hnext]
      by_cases hca : c = a
      · rw [hca, hi.waiting_self]
      · rw [hi.waiting c hca, hw]
  | rebind a p =>
    have hca : c ≠ a := fun h => hs h.symm
    change (w.scope.rebind a p).waiting? c = none
    cases hst : w.scope.settled? a with
    | some st => rw [(Scope.rebound_of_settled hst).waiting, hw]
    | none => rw [Scope.waiting?_rebind_of_unsettled hst, if_neg hca, hw]
  | call a =>
    change (w.scope.mark a true).waiting? c = none
    rw [Scope.waiting?_mark, hw]
  | finish a o =>
    change (w.scope.endLoad a o).2.waiting? c = none
    obtain ⟨d, missing, -, hi | ⟨he, -⟩⟩ := w.scope.endLoad_cases a o
    · by_cases hca : c = a
      · rw [hca, hi.waiting_self]
      · rw [hi.waiting c hca, Scope.waiting?_mark, hw]
    · rw [he, Scope.waiting?_mark, hw]
  | look | emit e | note m | giveUp => exact hw

-- Once it is settled, the declaration stays, and so does what the loader's script gives. The step that
-- settles it can only be the end of its load.
theorem Left.next (hL : L.ByName) (h : w.Left L c) (hf : x.Fetched L w) (hs : x.Spares c w)
    (hx : x.perform w = some (r, w')) : w'.Left L c := by
  have hscope := Action.scope_of_perform hx
  have hnamed : w'.scope.Named := by
    rw [hscope]
    exact h.named.next x
  have hev : w.scope.Evolves (· ≠ c) w'.scope := by
    rw [hscope]
    refine Action.evolves_next ?_ _
    rintro a p rfl
    exact hs
  have hgrown := h.grown.trans (hev.mono fun _ _ => trivial)
  refine ⟨hnamed, hgrown, waiting_spared h.waiting hs hx, fun st hst => ?_⟩
  cases hold : w.scope.settled? c with
  | some st₀ =>
    obtain ⟨st', hst', hv⟩ := hev.settled hold
    obtain rfl : st = st' := Option.some.inj (hst.symm.trans hst')
    obtain ⟨o, ho, hverdict⟩ := h.settled st₀ hold
    refine ⟨o, ?_, ?_⟩
    · rw [hev.name (.of_settled hold)]
      exact Script.replay_evolves hev hnamed ho
    · rw [hverdict, hv.missing, hv.declaration fun hne => hne rfl]
  | none =>
    obtain ⟨d, rfl, ha⟩ | ⟨o, d, missing, rfl, hverdict, hi⟩ := Action.settles_cases hx hold hst
    · have hnone := hs rfl
      rw [ha] at hnone
      cases hnone
    · have hc : w.scope.Registered c := (Scope.registered_congr (by simp)).mp hi.registered
      have hprim : ∀ p, w.scope.Registered (.ofPrimitive p) := fun p => h.grown.registered (Scope.registered_new p)
      have hvet : (w.scope.mark c false).vet c o = o := by
        apply Scope.vet_eq_self
        intro d hd m hm
        exact (Scope.registered_congr (by simp)).mpr (registered_outcome hL hprim hc hf hd m hm)
      obtain ⟨st', hst', hmissing, hdecl⟩ := hi.settled
      obtain rfl : st = st' := Option.some.inj (hst.symm.trans hst')
      refine ⟨o, ?_, ?_⟩
      · rw [hev.name hc]
        exact Script.replay_evolves hev hnamed hf
      · rw [hvet] at hverdict
        rw [hverdict, hmissing, hdecl, Scope.waiting?_mark, h.waiting]
        rfl

end Session

namespace Loader

variable {α : Type} {L : Loader} {may : Action → Session → Prop} {w w' : Session} {c : ClassId}

theorem fetches_perform (hL : L.ByName) (n : Nat) (script : Script α) : Run.Fetches L (L.perform n script) :=
  (Run.carries_fetches hL n).script (Script.uses_true script) n

theorem left_of_leads {p q : Run α} (hL : L.ByName) (hp : Run.Fetches L p) (h : w.Left L c)
    (hl : p.Leads may w q w') (hm : ∀ x v, may x v → x.Spares c v) : w'.Left L c :=
  (hp w h.named).invariant hl h fun _ _ _ _ hv hf hx hperf => hv.next hL hf (hm _ _ hx) hperf

theorem Reaches.left (hL : L.ByName) (hr : L.Reaches may w) (hm : ∀ x v, may x v → x.Spares c v)
    (hc : c.isPrimitive = false) : w.Left L c := by
  obtain ⟨α, script, budget, rest, hl⟩ := hr
  exact left_of_leads hL (fetches_perform hL budget script) (Session.left_new hc) hl hm

theorem resolves (hL : L.ByName) (hw : w.Attended) (hc : w.scope.Registered c) (hout : c ∉ w.stack) (n : Nat) :
    ∃ w' st, (L.perform (n + 1) (Script.resolve c)).Ends Action.Steady w () w' ∧
      w'.scope.settled? c = some st := by
  unfold Script.resolve
  rw [perform_request]
  by_cases hu : w.scope.isUntouched c = true
  · obtain ⟨w₁, hcall⟩ : ∃ w₁, (Action.call c).perform w = some ((), w₁) := ⟨_, rfl⟩
    obtain ⟨o, w₂, hload⟩ : ∃ o w₂, Run.Ends Action.Steady
        ((L c (w₁.scope.name c)).run (Run.handle (L.call n) n)) w₁ o w₂ := (hL.harmless c _).ends w₁
    obtain ⟨w', hfin⟩ : ∃ w', (Action.finish c o).perform w₂ = some ((), w') := ⟨_, rfl⟩
    have hscope : w₁.scope = w.scope.mark c true := Action.scope_of_perform hcall
    have hc₂ : w₂.scope.Registered c := by
      apply hload.evolves.registered
      rw [hscope]
      exact (Scope.registered_congr (by simp)).mpr hc
    obtain ⟨st, hst⟩ := Scope.settled_endLoad hc₂ o
    refine ⟨w', st, (Run.ends_resolve_of_untouched hu).mpr ⟨w₁, o, w₂, hcall, ?_, hfin⟩, ?_⟩
    · exact (Run.ends_look_bind_iff trivial).mpr hload
    · rw [Action.scope_of_perform hfin]
      exact hst
  · have hu : w.scope.isUntouched c = false := by simpa using hu
    have hl : w.scope.isLoading c = false := by
      by_contra hl
      exact hout ((hw.loading c).mp (by simpa using hl))
    cases hst : w.scope.settled? c with
    | some st => exact ⟨w, st, (Run.ends_resolve_of_touched hu).mpr rfl, hst⟩
    | none =>
      rw [Scope.isUntouched_iff.mpr ⟨hc, hst, hl⟩] at hu
      cases hu

end Loader

end ClassHierarchy
