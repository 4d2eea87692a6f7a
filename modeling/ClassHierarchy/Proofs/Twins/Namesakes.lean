import ClassHierarchy.Proofs.Twins.Queries
import ClassHierarchy.Proofs.Twins.Uniform

/-!
Counterparts by name. Of two scopes that the same loader by name has filled, the classes of one name are
level as soon as both are settled, so that queries in the one follow queries in the other.
-/

namespace ClassHierarchy

open List Relator

namespace Session

def Namesakes (w v : Session) (c c' : ClassId) : Prop :=
  w.scope.Registered c ∧ v.scope.Registered c' ∧ w.scope.name c = v.scope.name c'

variable {L : Loader} {w v w' v' : Session} {c c' : ClassId}

theorem Namesakes.mono (h : w.Namesakes v c c') (hw : w.scope.Grows w'.scope) (hv : v.scope.Grows v'.scope) :
    w'.Namesakes v' c c' :=
  ⟨hw.registered h.1, hv.registered h.2.1, ((hw.name h.1).trans h.2.2).trans (hv.name h.2.1).symm⟩

theorem namesakes_biUnique (hw : w.scope.Named) (hv : v.scope.Named) : BiUnique (w.Namesakes v) :=
  ⟨fun _ _ _ h h' => hw.unique _ _ h.1 h'.1 (h.2.2.trans h'.2.2.symm),
    fun _ _ _ h h' => hv.unique _ _ h.2.1 h'.2.1 (h.2.2.symm.trans h'.2.2)⟩

theorem namesakes_exchange (hw : w.scope.Named) (hv : v.scope.Named) (hgw : Scope.new.Grows w.scope)
    (hgv : Scope.new.Grows v.scope) : Exchange (w.Namesakes v) where
  biUnique := namesakes_biUnique hw hv
  primitive p := ⟨hgw.registered (Scope.registered_new p), hgv.registered (Scope.registered_new p),
    (hgw.name (Scope.registered_new p)).trans (hgv.name (Scope.registered_new p)).symm⟩

theorem Uniform.exchange (hw : w.Uniform L) (hv : v.Uniform L) : Exchange (w.Namesakes v) :=
  namesakes_exchange hw.named hv.named hw.grown hv.grown

theorem Exchange.ofPrimitive_iff {R : ClassId → ClassId → Prop} (hR : Exchange R) (h : R c c') (p : Primitive) :
    c = .ofPrimitive p ↔ c' = .ofPrimitive p := rel_eq hR.biUnique h (hR.primitive p)

theorem namesakes_of_find? {name : FullName} (hc : w.scope.find? name = some c)
    (hc' : v.scope.find? name = some c') : w.Namesakes v c c' := by
  obtain ⟨hr, hn⟩ := Scope.find?_eq_some hc
  obtain ⟨hr', hn'⟩ := Scope.find?_eq_some hc'
  exact ⟨hr, hr', hn.trans hn'.symm⟩

theorem verdict_alike {R : ClassId → ClassId → Prop} {o o' : Except LoadError Declaration}
    (h : Outcome.Alike R o o') :
    (Scope.verdict o).1.Alike R (Scope.verdict o').1 ∧ (Scope.verdict o).2 = (Scope.verdict o').2 := by
  cases h with
  | error e => exact ⟨Declaration.alike_missing, rfl⟩
  | ok hd => exact ⟨hd, rfl⟩

theorem declaration_of_primitive (h : Scope.new.Grows w.scope) (p : Primitive) :
    w.scope.declaration (.ofPrimitive p) = Scope.new.declaration (.ofPrimitive p) ∧
      w.scope.isMissing (.ofPrimitive p) = Scope.new.isMissing (.ofPrimitive p) := by
  obtain ⟨st, hst⟩ := Scope.settled_new p
  obtain ⟨st', hst', hv⟩ := h.settled hst
  rw [Scope.declaration_of_settled hst, Scope.declaration_of_settled hst', hv.declaration id]
  simp [Scope.isMissing, hst, hst', hv.missing]

theorem Uniform.level (hL : L.ByName) (hw : w.Uniform L) (hv : v.Uniform L) (hc : w.Namesakes v c c')
    (hs : ∃ st, w.scope.settled? c = some st) (hs' : ∃ st, v.scope.settled? c' = some st) :
    w.Level Namesakes v c c' := by
  have hR := hw.exchange hv
  by_cases hp : c.isPrimitive = true
  · obtain ⟨p, rfl⟩ := ClassId.isPrimitive_iff.mp hp
    obtain rfl := (Exchange.ofPrimitive_iff hR hc p).mp rfl
    obtain ⟨hd, hm⟩ := declaration_of_primitive hw.grown p
    obtain ⟨hd', hm'⟩ := declaration_of_primitive hv.grown p
    refine ⟨hm.trans hm'.symm, ?_⟩
    rw [hd, hd']
    apply Declaration.alike_self
    intro m hm
    rw [Scope.mentions_new] at hm
    cases hm
  · have hp' : c'.isPrimitive ≠ true := by
      intro h
      obtain ⟨p, rfl⟩ := ClassId.isPrimitive_iff.mp h
      obtain rfl := (Exchange.ofPrimitive_iff hR hc p).mpr rfl
      exact hp h
    obtain ⟨st, hst⟩ := hs
    obtain ⟨st', hst'⟩ := hs'
    obtain ⟨o, ho, hverdict⟩ := hw.loaded c st hst (by simpa using hp)
    obtain ⟨o', ho', hverdict'⟩ := hv.loaded c' st' hst' (by simpa using hp')
    rw [← hc.2.2] at ho'
    have halike := (hL _ hR c c' _ hc).of_replay ho ho' fun _ _ _ => namesakes_of_find?
    obtain ⟨hd, hm⟩ := verdict_alike halike
    rw [hverdict, hverdict'] at hd hm
    refine ⟨?_, ?_⟩
    · simpa [Scope.isMissing, hst, hst'] using hm
    · rw [Scope.declaration_of_settled hst, Scope.declaration_of_settled hst']
      exact hd

end Session

structure Scope.Within (s t : Scope) : Prop where
  knows : ∀ name, s.Knows name → t.Knows name
  settled : ∀ c c', s.Registered c → t.Registered c' → s.name c = t.name c' →
    (∃ st, s.settled? c = some st) → ∃ st, t.settled? c' = some st

def Session.Linked (L : Loader) (t w v : Session) : Prop :=
  w.Uniform L ∧ v.Uniform L ∧ v.scope.Within t.scope

namespace Session

variable {L : Loader} {t w v w' v' v₁ v₂ : Session} {c c' : ClassId} {n : Nat}

theorem Uniform.not_primitive (hv : v.Uniform L) (hu : v.scope.isUntouched c = true) :
    c.isPrimitive ≠ true := by
  intro hp
  obtain ⟨p, rfl⟩ := ClassId.isPrimitive_iff.mp hp
  obtain ⟨st, hst⟩ := Scope.settled_new p
  obtain ⟨st', hst', -⟩ := hv.grown.settled hst
  rw [Scope.isUntouched_of_settled hst'] at hu
  cases hu

theorem Uniform.knows (hL : L.ByName) (ht : t.Uniform L) (hv : v.Uniform L)
    (hb : ∀ name, v.scope.Knows name → t.scope.Knows name) (hc : t.Namesakes v c c')
    (hs : ∃ st, t.scope.settled? c = some st) (hu : v.scope.isUntouched c' = true)
    (hcall : (Action.call c').perform v = some ((), v₁)) {o : Except LoadError Declaration}
    (he : Run.Ends Action.Steady ((L c' (v.scope.name c')).run (Run.handle (L.call n) n)) v₁ o v₂)
    (hf : v.Fetched L c' o v₂) : ∀ name, v₂.scope.Knows name → t.scope.Knows name := by
  have hmark := v.scope.quiet_mark c' true
  have hscope₁ : v₁.scope = v.scope.mark c' true := Action.scope_of_perform hcall
  rw [← hscope₁] at hmark
  have hev₁ := hmark.evolves fun _ => False
  have hsize₁ : v₁.scope.size = v.scope.size := by simp [hscope₁]
  have hprim : c.isPrimitive = false := by
    by_contra hp
    obtain ⟨p, rfl⟩ := ClassId.isPrimitive_iff.mp (by simpa using hp)
    obtain rfl := (Exchange.ofPrimitive_iff (ht.exchange hv) hc p).mp rfl
    exact hv.not_primitive hu (ClassId.isPrimitive_iff.mpr ⟨p, rfl⟩)
  obtain ⟨st, hst⟩ := hs
  obtain ⟨o', ho', -⟩ := ht.loaded c st hst hprim
  have hR := namesakes_exchange ht.named hf.named ht.grown (hv.grown.trans hf.grows)
  have hc₂ : t.Namesakes v₂ c c' := hc.mono (.refl _) hf.grows
  rw [← hc.2.2] at he
  apply (hL _ hR c c' _ hc₂).knows ht.named ho' (hv.named.evolves hev₁ hsize₁) _ he
  · intro x x' hx hx' hn
    exact ⟨hx, hx', hn⟩
  · intro name hn
    exact hb name ((Scope.knows_of_evolves hev₁ hsize₁).mp hn)

theorem Uniform.load (hL : L.ByName) (ht : t.Uniform L) (hv : v.Uniform L) (hb : v.scope.Within t.scope)
    (hc : t.Namesakes v c c') (hs : ∃ st, t.scope.settled? c = some st)
    (hu : v.scope.isUntouched c' = true) :
    ∃ v', (Run.resolve (L.call (n + 1)) c').Ends Action.Steady v () v' ∧ v'.Uniform L ∧
      v'.scope.Within t.scope ∧ ∃ st, v'.scope.settled? c' = some st := by
  obtain ⟨v₁, hcall⟩ : ∃ v₁, (Action.call c').perform v = some ((), v₁) := ⟨_, rfl⟩
  have hscope₁ : v₁.scope = v.scope.mark c' true := Action.scope_of_perform hcall
  have hname₁ : v₁.scope.name c' = v.scope.name c' := by
    rw [hscope₁]
    exact ((v.scope.quiet_mark c' true).evolves fun _ => False).name hc.2.1
  obtain ⟨o, v₂, hscript⟩ : ∃ o v₂, Run.Ends Action.Steady
      ((L c' (v.scope.name c')).run (Run.handle (L.call n) n)) v₁ o v₂ :=
    (hL.harmless c' (v.scope.name c')).ends v₁
  have hload : (L.call (n + 1) c').Ends Action.Steady v₁ o v₂ :=
    (Run.ends_look_bind_iff trivial).mpr (hname₁ ▸ hscript)
  obtain ⟨v', hfin⟩ : ∃ v', (Action.finish c' o).perform v₂ = some ((), v') := ⟨_, rfl⟩
  have hf := hv.filled hL hu hcall hload hfin
  have hresolve : (Run.resolve (L.call (n + 1)) c').Ends Action.Steady v () v' :=
    (Run.ends_resolve_of_untouched hu).mpr ⟨v₁, o, v₂, hcall, hload, hfin⟩
  refine ⟨v', hresolve, hf.uniform, ⟨?_, ?_⟩, hf.settled⟩
  · intro name hn
    have hfetched := hv.fetched hL hu hcall hload
    exact ht.knows hL hv hb.knows hc hs hu hcall hscript hfetched name ((hf.knows name).mp hn)
  · rintro x x' hx hx' hn ⟨st, hst⟩
    obtain rfl | ⟨st₀, hst₀⟩ := hf.others x st hst
    · rw [hresolve.evolves.name hc.2.1, ← hc.2.2] at hn
      rw [← ht.named.unique c x' hc.1 hx' hn]
      exact hs
    · have hxv : v.scope.Registered x := .of_settled hst₀
      exact hb.settled x x' hxv hx' ((hresolve.evolves.name hxv).symm.trans hn) ⟨st₀, hst₀⟩

theorem tracking_namesakes (hL : L.ByName) (ht : t.Uniform L) (n m : Nat) :
    Tracking t.scope (Linked L t) Namesakes (L.call n) (L.call (m + 1)) where
  mono hw hv h := h.mono hw hv
  biUnique hl := namesakes_biUnique hl.1.named hl.2.1.named
  primitive hl h p := Exchange.ofPrimitive_iff (hl.1.exchange hl.2.1) h p
  resolve := by
    rintro w v c c' ⟨hw, hv, hb⟩ hc a w' he hT
    obtain ⟨hw', hs⟩ := hw.resolve hL hc.1 he
    have hct : t.Namesakes v c c' := (hc.mono he.evolves (.refl _)).mono hT (.refl _)
    have hst : ∃ st, t.scope.settled? c = some st := by
      obtain ⟨st, hst⟩ := hs
      obtain ⟨st', hst', -⟩ := hT.settled hst
      exact ⟨st', hst'⟩
    cases hu : v.scope.isUntouched c' with
    | true =>
      obtain ⟨v', he', hv', hb', hs'⟩ := ht.load (n := m) hL hv hb hct hst hu
      exact ⟨(), v', he', he'.evolves, ⟨hw', hv', hb'⟩,
        hw'.level hL hv' (hc.mono he.evolves he'.evolves) hs hs'⟩
    | false =>
      have hs' := hv.sane.attended.settled_of_touched hv.idle hc.2.1 hu
      exact ⟨(), v, (Run.ends_resolve_of_touched hu).mpr rfl, .refl _, ⟨hw', hv, hb⟩,
        hw'.level hL hv (hc.mono he.evolves (.refl _)) hs hs'⟩

end Session

end ClassHierarchy
