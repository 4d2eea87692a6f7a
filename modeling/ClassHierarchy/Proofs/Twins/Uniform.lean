import ClassHierarchy.Proofs.DerivedSets
import ClassHierarchy.Proofs.PlainSteps
import ClassHierarchy.Proofs.Twins.Replay

namespace ClassHierarchy

open List Relator

theorem Loader.ByName.harmless {L : Loader} (hL : L.ByName) (c : ClassId) (name : FullName) :
    Script.Uses Request.Harmless (L c name) := by
  have hR : Exchange fun x y : ClassId => x = y :=
    ⟨⟨fun _ _ _ h h' => h.trans h'.symm, fun _ _ _ h h' => h.symm.trans h'⟩, fun _ => rfl⟩
  exact (hL _ hR c c name rfl).harmless fun _ => rfl

structure Session.Uniform (L : Loader) (w : Session) : Prop where
  sane : w.Sane
  idle : w.stack = []
  named : w.scope.Named
  grown : Scope.new.Grows w.scope
  loaded : ∀ c st, w.scope.settled? c = some st → c.isPrimitive = false →
    ∃ o, Script.replay w.scope (L c (w.scope.name c)) = some o ∧ Scope.verdict o = (st.declaration, st.missing)

structure Session.Fetched (L : Loader) (w : Session) (c : ClassId) (o : Except LoadError Declaration)
    (w₂ : Session) : Prop where
  named : w₂.scope.Named
  grows : w.scope.Grows w₂.scope
  settled : ∀ x, w₂.scope.settled? x = w.scope.settled? x
  waiting : w₂.scope.waiting? c = none
  replay : Script.replay w₂.scope (L c (w.scope.name c)) = some o
  mentions : ∀ d, o = .ok d → ∀ m ∈ d.mentions, w₂.scope.Registered m

structure Session.Filled (L : Loader) (w : Session) (c : ClassId) (w₂ v : Session) : Prop where
  uniform : v.Uniform L
  settled : ∃ st, v.scope.settled? c = some st
  others : ∀ x st, v.scope.settled? x = some st → x = c ∨ ∃ st, w.scope.settled? x = some st
  knows : ∀ name, v.scope.Knows name ↔ w₂.scope.Knows name

namespace Session

variable {L : Loader} {w w₁ w₂ v : Session} {c : ClassId} {o : Except LoadError Declaration} {n : Nat}

theorem Uniform.registered_primitive (h : w.Uniform L) (p : Primitive) :
    w.scope.Registered (.ofPrimitive p) := h.grown.registered (Scope.registered_new p)

theorem exchange_same {s : Scope} (h : ∀ p, s.Registered (.ofPrimitive p)) :
    Exchange fun x y => x = y ∧ s.Registered x :=
  ⟨⟨fun _ _ _ h h' => h.1.trans h'.1.symm, fun _ _ _ h h' => h.1.symm.trans h'.1⟩, fun p => ⟨rfl, h p⟩⟩

theorem registered_outcome (hL : L.ByName) {s : Scope} (hp : ∀ p, s.Registered (.ofPrimitive p))
    (hc : s.Registered c) {name : FullName} (ho : Script.replay s (L c name) = some o) {d : Declaration}
    (hd : o = .ok d) : ∀ m ∈ d.mentions, s.Registered m := by
  have ha := hL _ (exchange_same hp) c c name ⟨rfl, hc⟩
  have hoo := ha.of_replay ho ho fun name x x' hx hx' => by
    obtain rfl := Option.some.inj (hx.symm.trans hx')
    exact ⟨rfl, (Scope.find?_eq_some hx).1⟩
  subst hd
  cases hoo with
  | ok hd =>
    intro m hm
    have hmm := hd.mentions
    rw [forall₂_same] at hmm
    exact (hmm m hm).2

theorem Uniform.fetched (hL : L.ByName) (h : w.Uniform L) (hu : w.scope.isUntouched c = true)
    (hcall : (Action.call c).perform w = some ((), w₁))
    (he : (L.call n c).Ends Action.Steady w₁ o w₂) : w.Fetched L c o w₂ := by
  obtain ⟨hc, -, -⟩ := Scope.isUntouched_iff.mp hu
  have hscope₁ : w₁.scope = w.scope.mark c true := Action.scope_of_perform hcall
  have hmark := w.scope.quiet_mark c true
  rw [← hscope₁] at hmark
  have hname₁ : w₁.scope.name c = w.scope.name c := (hmark.evolves fun _ => False).name hc
  have hnamed₁ : w₁.scope.Named := h.named.evolves (hmark.evolves fun _ => False) (by simp [hscope₁])
  cases n with
  | zero => exact absurd he (by rintro ⟨⟩; contradiction)
  | succ k =>
    have he : Run.Ends Action.Steady ((L c (w₁.scope.name c)).run (Run.handle (L.call k) k)) w₁ o w₂ :=
      (Run.ends_look_bind_iff trivial).mp he
    rw [hname₁] at he
    obtain ⟨hnamed, hwide, hreplay⟩ := (hL.harmless c _).effect hnamed₁ he
    have hgrows : w.scope.Grows w₂.scope := (hmark.evolves _).trans (hwide.quiet.evolves _)
    refine ⟨hnamed, hgrows, ?_, ?_, hreplay, ?_⟩
    · intro x
      rw [hwide.quiet.settled, hmark.settled]
    · rw [hwide.waiting, hscope₁, Scope.waiting?_mark, h.sane.attended.waiting_idle h.idle]
    · intro d hd
      have hprim := fun p => hgrows.registered (h.registered_primitive p)
      exact registered_outcome hL hprim (hgrows.registered hc) hreplay hd

theorem Fetched.installed (h : w.Fetched L c o w₂) (hu : w.scope.isUntouched c = true)
    (hfin : (Action.finish c o).perform w₂ = some ((), v)) : ∃ d missing,
      Scope.verdict o = (d, missing) ∧ (w₂.scope.mark c false).Installed c d missing v.scope := by
  obtain ⟨hc, hunset, -⟩ := Scope.isUntouched_iff.mp hu
  have hvet : (w₂.scope.mark c false).vet c o = o := by
    apply Scope.vet_eq_self
    intro d hd m hm
    exact (Scope.registered_congr (by simp)).mpr (h.mentions d hd m hm)
  have hscope : v.scope = (w₂.scope.endLoad c o).2 := Action.scope_of_perform hfin
  obtain ⟨d, missing, hv, hi | ⟨-, hn⟩⟩ := w₂.scope.endLoad_cases c o
  · rw [hvet] at hv
    exact ⟨d, missing, hv, hscope ▸ hi⟩
  · have hc₂ := h.grows.registered hc
    obtain ⟨st, hst⟩ := Scope.settled_of_install?_eq_none hn ((Scope.registered_congr (by simp)).mpr hc₂)
    rw [(w₂.scope.quiet_mark c false).settled, h.settled, hunset] at hst
    cases hst

theorem Uniform.filled (hL : L.ByName) (h : w.Uniform L) (hu : w.scope.isUntouched c = true)
    (hcall : (Action.call c).perform w = some ((), w₁))
    (he : (L.call n c).Ends Action.Steady w₁ o w₂)
    (hfin : (Action.finish c o).perform w₂ = some ((), v)) : w.Filled L c w₂ v := by
  have hresolve : (Run.resolve (L.call n) c).Ends Action.Steady w () v :=
    (Run.ends_resolve_of_untouched hu).mpr ⟨w₁, o, w₂, hcall, he, hfin⟩
  have hnested := Run.nested_resolve (L.nested_call n) c
  obtain ⟨hc, -, -⟩ := Scope.isUntouched_iff.mp hu
  have hf := h.fetched hL hu hcall he
  obtain ⟨d, missing, hverdict, hi⟩ := hf.installed hu hfin
  have ht := w₂.scope.quiet_mark c false
  have hgrows : w₂.scope.Grows v.scope := (ht.evolves _).trans (hi.evolves _)
  have hsize : v.scope.size = w₂.scope.size := by rw [hi.size, Scope.size_mark]
  have hnamed : v.scope.Named := hf.named.evolves hgrows hsize
  have hothers : ∀ x st, x ≠ c → v.scope.settled? x = some st →
      ∃ st₀, w.scope.settled? x = some st₀ ∧ st.missing = st₀.missing ∧ st.declaration = st₀.declaration := by
    intro x st hx hst
    obtain ⟨st₀, hst₀, heq⟩ := hi.others x st hx hst
    rw [ht.settled, hf.settled] at hst₀
    exact ⟨st₀, hst₀, heq⟩
  obtain ⟨st, hst, hmissing, hdecl⟩ := hi.settled
  refine ⟨⟨h.sane.leads hnested hresolve, ((hnested w).ends hresolve).trans h.idle, hnamed,
    h.grown.trans hresolve.evolves, ?_⟩, ⟨st, hst⟩, ?_, fun name => Scope.knows_of_evolves hgrows hsize⟩
  · intro x stx hstx hprim
    by_cases hx : x = c
    · subst hx
      obtain rfl : st = stx := Option.some.inj (hst.symm.trans hstx)
      refine ⟨o, ?_, ?_⟩
      · rw [hresolve.evolves.name hc]
        exact Script.replay_evolves hgrows hnamed hf.replay
      · rw [hverdict, hmissing, hdecl, Scope.waiting?_mark, hf.waiting]
        rfl
    · obtain ⟨st₀, hst₀, hm, hd⟩ := hothers x stx hx hstx
      obtain ⟨o', ho', hv'⟩ := h.loaded x st₀ hst₀ hprim
      refine ⟨o', ?_, by rw [hv', hm, hd]⟩
      rw [hresolve.evolves.name (.of_settled hst₀)]
      exact Script.replay_evolves hresolve.evolves hnamed ho'
  · intro x stx hstx
    by_cases hx : x = c
    · exact .inl hx
    · obtain ⟨st₀, hst₀, -⟩ := hothers x stx hx hstx
      exact .inr ⟨st₀, hst₀⟩

theorem Uniform.resolve (hL : L.ByName) (h : w.Uniform L) (hc : w.scope.Registered c) {a : Unit}
    (he : (Run.resolve (L.call n) c).Ends Action.Steady w a v) :
    v.Uniform L ∧ ∃ st, v.scope.settled? c = some st := by
  cases hu : w.scope.isUntouched c with
  | true =>
    obtain ⟨w₁, o, w₂, hcall, hload, hfin⟩ := (Run.ends_resolve_of_untouched hu).mp he
    have hf := h.filled hL hu hcall hload hfin
    exact ⟨hf.uniform, hf.settled⟩
  | false =>
    obtain rfl := (Run.ends_resolve_of_touched hu).mp he
    exact ⟨h, h.sane.attended.settled_of_touched h.idle hc hu⟩

theorem uniform_new : Session.new.Uniform L where
  sane := ⟨attended_new, Scope.tallied_new⟩
  idle := rfl
  named := Scope.named_new
  grown := .refl _
  loaded c st hst hp := by
    rw [Scope.isPrimitive_of_settled_new hst] at hp
    cases hp

theorem Uniform.widened (h : w.Uniform L) (hs : v.Sane) (hi : v.stack = []) (hn : v.scope.Named)
    (hwide : w.scope.Widened v.scope) : v.Uniform L := by
  have hev := hwide.quiet.evolves fun _ => False
  refine ⟨hs, hi, hn, h.grown.trans hev, ?_⟩
  intro c st hst hp
  rw [hwide.quiet.settled] at hst
  obtain ⟨o, ho, hverdict⟩ := h.loaded c st hst hp
  refine ⟨o, ?_, hverdict⟩
  rw [hev.name (.of_settled hst)]
  exact Script.replay_evolves hev hn ho

theorem Sane.next {x : Action} {r : x.Reply} (h : w.Sane) (hd : x.Due w) (ho : x.Own w)
    (hx : x.perform w = some (r, v)) : v.Sane := ⟨h.attended.next hd hx, h.tallied.next ho hx⟩

theorem Uniform.register {name : FullName} (h : w.Uniform L)
    (hx : (Action.register name).perform w = some (c, v)) :
    v.Uniform L ∧ v.scope.Registered c ∧ v.scope.name c = name := by
  have hscope : v.scope = (w.scope.register name).2.2 := Action.scope_of_perform hx
  have hstack : v.stack = w.stack := Action.stack_of_perform hx
  have hc : (w.scope.register name).1 = c := congrArg Prod.fst (Option.some.inj hx)
  obtain ⟨hnamed, hreg, hname, -⟩ := Scope.register_named h.named name
  rw [← hscope, hc] at hreg hname
  rw [← hscope] at hnamed
  have hwide := w.scope.widened_register name
  rw [← hscope] at hwide
  have hsane : v.Sane := h.sane.next (x := .register name) trivial trivial hx
  exact ⟨h.widened hsane (hstack.trans h.idle) hnamed hwide, hreg, hname⟩

theorem Uniform.emit {e : Event} (h : w.Uniform L) : (w.emit e).Uniform L := by
  have hx : (Action.emit e).perform w = some ((), w.emit e) := rfl
  have hstack : (w.emit e).stack = w.stack := Action.stack_of_perform hx
  have hsane : (w.emit e).Sane := h.sane.next (x := .emit e) trivial trivial hx
  exact h.widened hsane (hstack.trans h.idle) h.named (.refl _)

def Lasts (L : Loader) {α : Type} (p : Run α) : Prop :=
  ∀ w a v, Session.Uniform L w → p.Ends Action.Steady w a v → v.Uniform L

theorem carries_lasts (hL : L.ByName) (n : Nat) : Run.Carries (Lasts L) Request.Mild (L.call n) where
  done a w b v hw he := by
    obtain ⟨-, rfl⟩ := Run.ends_done_iff.mp he
    exact hw
  bind hp hf w b v hw he := by
    obtain ⟨a, w₁, h₁, h₂⟩ := Run.ends_bind_iff.mp he
    exact hf a w₁ b v (hp w a w₁ hw h₁) h₂
  exhausted w a v _ he := by
    obtain ⟨-, r, -⟩ := Run.ends_ask_iff.mp he
    cases r
  look w a v hw he := by
    obtain ⟨-, r, w₁, hx, he⟩ := Run.ends_ask_iff.mp he
    obtain ⟨-, rfl⟩ := Run.ends_done_iff.mp he
    obtain ⟨-, rfl⟩ := Run.perform_look hx
    exact hw
  resolve c w a v hw he := by
    cases hu : w.scope.isUntouched c with
    | true => exact (hw.resolve hL (Scope.isUntouched_iff.mp hu).1 he).1
    | false =>
      obtain rfl := (Run.ends_resolve_of_touched hu).mp he
      exact hw
  register name _ w a v hw he := by
    obtain ⟨-, c, w₁, hx, he⟩ := Run.ends_ask_iff.mp he
    obtain ⟨-, rfl⟩ := Run.ends_done_iff.mp he
    exact (hw.register hx).1
  attach _ _ h := absurd h id
  rebind _ _ h := absurd h id
  emit e _ w a v hw he := by
    obtain ⟨-, r, w₁, hx, he⟩ := Run.ends_ask_iff.mp he
    obtain ⟨-, rfl⟩ := Run.ends_done_iff.mp he
    obtain ⟨-, rfl⟩ := Prod.mk.inj (Option.some.inj hx)
    exact hw.emit
  note _ h := absurd h id

theorem Uniform.perform (hL : L.ByName) {α : Type} {script : Script α} (hs : Script.Uses Request.Mild script)
    {a : α} (hw : w.Uniform L) (he : (L.perform n script).Ends Action.Steady w a v) : v.Uniform L :=
  (carries_lasts hL n).script hs n w a v hw he

end Session

end ClassHierarchy
