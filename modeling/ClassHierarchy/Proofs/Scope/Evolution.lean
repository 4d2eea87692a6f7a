import ClassHierarchy.Proofs.Scope.Entries

namespace ClassHierarchy

structure Settled.Evolves (own all : Prop) (st st' : Settled) : Prop where
  missing : st'.missing = st.missing
  members : st'.declaration.withSuperClass none = st.declaration.withSuperClass none
  declaration : own → st'.declaration = st.declaration
  derived : all → st.derived ⊆ st'.derived

structure Entry.Evolves (own all : Prop) (e e' : Entry) : Prop where
  name : e'.name = e.name
  settled : ∀ st, e.settled? = some st → ∃ st', e'.settled? = some st' ∧ st.Evolves own all st'

/-- Only classes of `R` may have got another super class. -/
def Scope.Evolves (R : ClassId → Prop) (s s' : Scope) : Prop :=
  ∀ c e, s.get? c = some e →
    ∃ e', s'.get? c = some e' ∧ e.Evolves (¬ R c) (∀ x, ¬ R x) e'

variable {own all : Prop} {R : ClassId → Prop}

theorem Settled.Evolves.refl (st : Settled) : st.Evolves own all st :=
  ⟨rfl, rfl, fun _ => rfl, fun _ => List.Subset.refl _⟩

theorem Settled.Evolves.trans {st₁ st₂ st₃ : Settled} (h₁ : st₁.Evolves own all st₂)
    (h₂ : st₂.Evolves own all st₃) : st₁.Evolves own all st₃ where
  missing := h₂.missing.trans h₁.missing
  members := h₂.members.trans h₁.members
  declaration h := (h₂.declaration h).trans (h₁.declaration h)
  derived h := List.Subset.trans (h₁.derived h) (h₂.derived h)

namespace Entry

theorem Evolves.refl (e : Entry) : e.Evolves own all e :=
  ⟨rfl, fun st h => ⟨st, h, .refl st⟩⟩

theorem Evolves.trans {e₁ e₂ e₃ : Entry} (h₁ : e₁.Evolves own all e₂) (h₂ : e₂.Evolves own all e₃) :
    e₁.Evolves own all e₃ := by
  refine ⟨h₂.name.trans h₁.name, fun st h => ?_⟩
  obtain ⟨st₂, hs₂, he₂⟩ := h₁.settled st h
  obtain ⟨st₃, hs₃, he₃⟩ := h₂.settled st₂ hs₂
  exact ⟨st₃, hs₃, he₂.trans he₃⟩

theorem evolves_enter (c : ClassId) (e : Entry) : e.Evolves own all (e.enter c) := by
  refine ⟨name_enter c e, fun st h => ?_⟩
  have hs := settled?_enter c e
  rw [h, Option.map_some] at hs
  exact ⟨_, hs, rfl, rfl, fun _ => rfl, fun _ x hx => SortedList.mem_insert.mpr (.inr hx)⟩

theorem evolves_strike (c : ClassId) (e : Entry) (hall : ¬ all) : e.Evolves own all (e.strike c) := by
  refine ⟨name_strike c e, fun st h => ?_⟩
  have hs := settled?_strike c e
  rw [h, Option.map_some] at hs
  exact ⟨_, hs, rfl, rfl, fun _ => rfl, fun ha => absurd ha hall⟩

theorem evolves_rebase (p : ClassId) (e : Entry) (hown : ¬ own) : e.Evolves own all (e.rebase p) := by
  refine ⟨name_rebase p e, fun st h => ?_⟩
  have hs := settled?_rebase p e
  rw [h, Option.map_some] at hs
  exact ⟨_, hs, rfl, rfl, fun ho => absurd ho hown, fun _ => List.Subset.refl _⟩

theorem evolves_settle (st : Settled) {e : Entry} (h : e.settled? = none) :
    e.Evolves own all (e.settle st) :=
  ⟨rfl, fun st' h' => by rw [h] at h'; cases h'⟩

end Entry

namespace Scope

variable {s s' s₁ s₂ s₃ : Scope} {c x : ClassId}

theorem Evolves.refl (s : Scope) : s.Evolves R s := fun _ e he => ⟨e, he, .refl e⟩

theorem Evolves.trans (h₁ : s₁.Evolves R s₂) (h₂ : s₂.Evolves R s₃) :
    s₁.Evolves R s₃ := by
  intro c e he
  obtain ⟨e₂, he₂, hv₂⟩ := h₁ c e he
  obtain ⟨e₃, he₃, hv₃⟩ := h₂ c e₂ he₂
  exact ⟨e₃, he₃, hv₂.trans hv₃⟩

theorem Evolves.mono {R' : ClassId → Prop} (h : s.Evolves R s')
    (hr : ∀ c, R c → R' c) : s.Evolves R' s' := by
  intro c e he
  obtain ⟨e', he', hn, hv⟩ := h c e he
  refine ⟨e', he', hn, fun st hst => ?_⟩
  obtain ⟨st', hst', hm, hd, ho, ha⟩ := hv st hst
  exact ⟨st', hst', hm, hd, fun h => ho (fun hc => h (hr c hc)), fun h => ha fun x hx => h x (hr x hx)⟩

theorem Evolves.registered (h : s.Evolves R s') (hc : s.Registered c) : s'.Registered c := by
  obtain ⟨e, he⟩ := registered_iff.mp hc
  obtain ⟨e', he', -⟩ := h c e he
  exact .of_get? he'

theorem Evolves.settled (h : s.Evolves R s') {st : Settled} (hc : s.settled? c = some st) :
    ∃ st', s'.settled? c = some st' ∧ st.Evolves (¬ R c) (∀ x, ¬ R x) st' := by
  obtain ⟨e, he, hs⟩ := Option.bind_eq_some_iff.mp hc
  obtain ⟨e', he', hv⟩ := h c e he
  obtain ⟨st', hs', hst⟩ := hv.settled st hs
  exact ⟨st', Option.bind_eq_some_iff.mpr ⟨e', he', hs'⟩, hst⟩

theorem Evolves.name (h : s.Evolves R s') (hc : s.Registered c) : s'.name c = s.name c := by
  obtain ⟨e, he⟩ := registered_iff.mp hc
  obtain ⟨e', he', hv⟩ := h c e he
  simp [Scope.name, he, he', hv.name]

theorem Evolves.update {f : Entry → Entry}
    (h : ∀ e, s.get? c = some e → e.Evolves (¬ R c) (∀ x, ¬ R x) (f e)) :
    s.Evolves R (s.update c f) := by
  intro x e he
  rw [get?_update]
  split
  next hc => subst hc; exact ⟨f e, by rw [he]; rfl, h e he⟩
  next => exact ⟨e, he, .refl e⟩

theorem evolves_link (s : Scope) (q : Option ClassId) (c : ClassId) : s.Evolves R (s.link q c) := by
  cases q with
  | none => exact .refl s
  | some p => exact .update fun e _ => e.evolves_enter c

theorem evolves_unlink (s : Scope) (q : Option ClassId) (hc : R c) :
    s.Evolves R (s.unlink q c) := by
  cases q with
  | none => exact .refl s
  | some p => exact .update fun e _ => e.evolves_strike c fun h => h c hc

theorem evolves_append (s : Scope) (names : List FullName) : s.Evolves R (s.append names) := by
  intro c e he
  have hc : c.index < s.size := Registered.of_get? he
  exact ⟨e, by rw [get?_append, if_pos hc, he], .refl e⟩

end Scope

end ClassHierarchy
