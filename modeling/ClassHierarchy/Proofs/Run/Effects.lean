import ClassHierarchy.Proofs.Run.Moments
import ClassHierarchy.Proofs.Scope.Operations

namespace ClassHierarchy

namespace Action

def next : Action → Scope → Scope
  | .register name, s => (s.register name).2.2
  | .attach c d, s => ((s.attach c d).toOption).getD s
  | .rebind c p, s => s.rebind c p
  | .call c, s => s.beginLoad c
  | .finish c outcome, s => (s.endLoad c outcome).2
  | _, s => s

def adds : Action → Scope → List Occurrence
  | .register name, s => (s.register name).2.1.toList.map .event
  | .rebind c _, s => if s.isMissing c then [.event (.missingRebound (s.name c))] else []
  | .call c, s => [.called c (s.name c)]
  | .finish c outcome, s => .returned c :: (s.endLoad c outcome).1.map .event
  | .emit e, _ => [.event e]
  | .note r, _ => [.remark r]
  | _, _ => []

variable {x : Action} {r : x.Reply} {w w' : Session} {R : ClassId → Prop}

theorem trace_foldl_emit (es : List Event) (w : Session) :
    (es.foldl Session.emit w).trace.toList = w.trace.toList ++ es.map .event := by
  induction es generalizing w with
  | nil => simp
  | cons e es ih => simp [ih, Session.emit, Session.record]

theorem perform_eq (h : x.perform w = some (r, w')) : w'.scope = x.next w.scope ∧
    w'.trace.toList = w.trace.toList ++ x.adds w.scope := by
  cases x with
  | look | emit e | note m =>
    obtain ⟨rfl, rfl⟩ := Prod.mk.inj (Option.some.inj h)
    simp [next, adds, Session.emit, Session.record]
  | register name =>
    rcases hs : w.scope.register name with ⟨c, event, s⟩
    simp only [perform, hs, Option.some.injEq, Prod.mk.injEq] at h
    obtain ⟨-, rfl⟩ := h
    cases event <;> simp [next, adds, hs, Session.emit, Session.record]
  | attach c d =>
    simp only [perform] at h
    split at h
    all_goals
      next hs =>
        obtain ⟨rfl, rfl⟩ := Prod.mk.inj (Option.some.inj h)
        simp [next, adds, hs, Except.toOption]
  | rebind c p =>
    obtain ⟨rfl, rfl⟩ := Prod.mk.inj (Option.some.inj h)
    cases hm : w.scope.isMissing c <;> simp [next, adds, hm, Session.emit, Session.record]
  | call c =>
    obtain ⟨rfl, rfl⟩ := Prod.mk.inj (Option.some.inj h)
    simp [next, adds, Session.record]
  | finish c outcome =>
    rcases hs : w.scope.endLoad c outcome with ⟨events, s⟩
    simp only [perform, hs, Option.some.injEq, Prod.mk.injEq] at h
    obtain ⟨-, rfl⟩ := h
    simp [next, adds, hs, trace_foldl_emit, Session.record]
  | giveUp => simp [perform] at h

theorem scope_of_perform (h : x.perform w = some (r, w')) : w'.scope = x.next w.scope :=
  (perform_eq h).1

theorem evolves_next (hR : ∀ c p, x = .rebind c p → R c) (s : Scope) : s.Evolves R (x.next s) := by
  cases x with
  | register name =>
    obtain ⟨names, hr⟩ := s.register_eq_append name
    change s.Evolves R (s.register name).2.2
    rw [hr]
    exact s.evolves_append names
  | attach c d =>
    cases ha : s.attach c d with
    | error e => simpa [next, ha, Except.toOption] using Scope.Evolves.refl s
    | ok s' =>
      have hi := Scope.installed_of_eq_some (Scope.attach_eq_ok ha).2
      simpa [next, ha, Except.toOption] using hi.evolves R
  | rebind c p =>
    change s.Evolves R (s.rebind c p)
    cases hs : s.settled? c with
    | none => exact (Scope.quiet_rebind hs p).evolves R
    | some st =>
      apply (Scope.rebound_of_settled hs).evolves.mono
      rintro x rfl
      exact hR x p rfl
  | call c => exact (s.quiet_mark c true).evolves R
  | finish c outcome =>
    have hm := (s.quiet_mark c false).evolves R
    change s.Evolves R (s.endLoad c outcome).2
    obtain ⟨d, missing, -, hi | ⟨he, -⟩⟩ := s.endLoad_cases c outcome
    · exact hm.trans (hi.evolves R)
    · rw [he]
      exact hm
  | look | emit e | note m | giveUp => exact .refl s

theorem evolves_of_perform (h : x.perform w = some (r, w')) : w.scope.Evolves (fun _ => True) w'.scope := by
  rw [scope_of_perform h]
  exact evolves_next (fun _ _ _ => trivial) _

theorem size_next {x : Action} {s : Scope} (hx : ∀ name, x ≠ .register name) : (x.next s).size = s.size := by
  cases x with
  | register name => exact absurd rfl (hx name)
  | attach c d =>
    cases ha : s.attach c d with
    | error e => simp [next, ha, Except.toOption]
    | ok s' =>
      simpa [next, ha, Except.toOption] using (Scope.installed_of_eq_some (Scope.attach_eq_ok ha).2).size
  | rebind c p =>
    change (s.rebind c p).size = s.size
    unfold Scope.rebind
    split <;> simp
  | call c => exact Scope.size_mark true
  | finish c outcome =>
    change (s.endLoad c outcome).2.size = s.size
    obtain ⟨d, missing, -, hi | ⟨he, -⟩⟩ := s.endLoad_cases c outcome
    · rw [hi.size, Scope.size_mark]
    · rw [he, Scope.size_mark]
  | look | emit e | note m | giveUp => rfl

theorem settles_cases {c : ClassId} {st : Settled} (h : x.perform w = some (r, w'))
    (hc : w.scope.settled? c = none) (hst : w'.scope.settled? c = some st) :
    (∃ d, x = .attach c d ∧ w.scope.attach c d = .ok w'.scope) ∨
      ∃ outcome d missing, x = .finish c outcome ∧
        Scope.verdict ((w.scope.mark c false).vet c outcome) = (d, missing) ∧
        (w.scope.mark c false).Installed c d missing w'.scope := by
  have hne : w'.scope.settled? c ≠ none := by simp [hst]
  rw [scope_of_perform h] at hst hne ⊢
  cases x with
  | register name =>
    obtain ⟨names, hr⟩ := w.scope.register_eq_append name
    change (w.scope.register name).2.2.settled? c ≠ none at hne
    rw [hr, (w.scope.quiet_append names).settled] at hne
    exact absurd hc hne
  | attach b d =>
    cases ha : w.scope.attach b d with
    | error e => exact absurd hc (by simpa [next, ha, Except.toOption] using hne)
    | ok s =>
      have hs : Action.next (.attach b d) w.scope = s := by simp [next, ha, Except.toOption]
      rw [hs] at hst ⊢
      by_cases hb : c = b
      · subst hb
        exact .inl ⟨d, rfl, ha⟩
      · obtain ⟨st₀, hst₀, -⟩ :=
          (Scope.installed_of_eq_some (Scope.attach_eq_ok ha).2).others c st hb hst
        rw [hc] at hst₀
        cases hst₀
  | rebind b p => exact absurd (Scope.unsettled_rebind hc b p) hne
  | call b =>
    change (w.scope.mark b true).settled? c ≠ none at hne
    rw [(w.scope.quiet_mark b true).settled] at hne
    exact absurd hc hne
  | finish b outcome =>
    have hm := (w.scope.quiet_mark b false).settled c
    change (w.scope.endLoad b outcome).2.settled? c = some st at hst
    obtain ⟨d, missing, hv, hi | ⟨he, -⟩⟩ := w.scope.endLoad_cases b outcome
    · by_cases hb : c = b
      · subst hb
        exact .inr ⟨outcome, d, missing, rfl, hv, hi⟩
      · obtain ⟨st₀, hst₀, -⟩ := hi.others c st hb hst
        rw [hm, hc] at hst₀
        cases hst₀
    · rw [he, hm, hc] at hst
      cases hst
  | look | emit e | note m | giveUp => exact absurd hc hne

end Action

def Action.Rebinds (R : ClassId → Prop) : Action → Session → Prop
  | .rebind c _, _ => R c
  | _, _ => True

instance {R : ClassId → Prop} [DecidablePred R] : (x : Action) → (w : Session) → Decidable (x.Rebinds R w)
  | .rebind c _, _ => inferInstanceAs (Decidable (R c))
  | .look, _ | .register _, _ | .attach .., _ | .call _, _ | .finish .., _ | .emit _, _ | .note _, _
  | .giveUp, _ => .isTrue trivial

abbrev Action.Steady : Action → Session → Prop := Action.Rebinds fun _ => False

abbrev Scope.Grows (s t : Scope) : Prop := s.Evolves (fun _ => False) t

theorem Run.Leads.evolves {α : Type} {p q : Run α} {w w' : Session} {R : ClassId → Prop}
    (h : p.Leads (Action.Rebinds R) w q w') : w.scope.Evolves R w'.scope := by
  induction h with
  | refl => exact .refl _
  | step hm hx _ ih =>
    rw [Action.scope_of_perform hx] at ih
    refine Scope.Evolves.trans (Action.evolves_next ?_ _) ih
    rintro c p rfl
    exact hm

theorem Action.rebinds_true (x : Action) (w : Session) : x.Rebinds (fun _ => True) w := by
  cases x <;> trivial

theorem Run.Leads.evolves_any {α : Type} {p q : Run α} {w w' : Session} {may : Action → Session → Prop}
    (h : p.Leads may w q w') : w.scope.Evolves (fun _ => True) w'.scope :=
  (h.mono fun x v _ => x.rebinds_true v).evolves

namespace Run

theorem mem_unseen {seen xs : List ClassId} {x : ClassId} : x ∈ unseen seen xs ↔ x ∈ xs ∧ x ∉ seen := by
  simp [unseen, List.mem_eraseDups]

variable {α : Type} {may : Action → Session → Prop} {w v : Session}

theorem ends_register_bind_iff {name : FullName} {f : ClassId → Run α} {a : α}
    (hm : may (.register name) w) : Ends may (act (.register name) >>= f) w a v ↔
      ∃ w₁ : Session, w₁.scope = (w.scope.register name).2.2 ∧
        (Action.register name).perform w = some ((w.scope.register name).1, w₁) ∧
        Ends may (f (w.scope.register name).1) w₁ a v := by
  change Ends may (.ask (.register name) f) w a v ↔ _
  rw [ends_ask_iff]
  constructor
  · rintro ⟨-, r, w₁, hx, he⟩
    obtain rfl : (w.scope.register name).1 = r := congrArg Prod.fst (Option.some.inj hx)
    exact ⟨w₁, Action.scope_of_perform hx, hx, he⟩
  · rintro ⟨w₁, -, hx, he⟩
    exact ⟨hm, _, w₁, hx, he⟩

theorem ends_emit_bind_iff {e : Event} {f : Unit → Run α} {a : α} (hm : may (.emit e) w) :
    Ends may (act (.emit e) >>= f) w a v ↔ Ends may (f ()) (w.emit e) a v := by
  change Ends may (.ask (.emit e) f) w a v ↔ _
  rw [ends_ask_iff]
  constructor
  · rintro ⟨-, r, w₁, hx, he⟩
    obtain ⟨rfl, rfl⟩ := Prod.mk.inj (Option.some.inj hx)
    exact he
  · intro he
    exact ⟨hm, (), w.emit e, rfl, he⟩

section

variable {load : ClassId → Run (Except LoadError Declaration)} {c : ClassId} {a : Unit}

theorem ends_resolve_of_touched (hu : w.scope.isUntouched c = false) :
    Ends Action.Steady (resolve load c) w a v ↔ v = w := by
  unfold resolve
  rw [ends_look_bind_iff trivial, if_neg (by simp [hu])]
  exact ends_done_iff.trans ⟨fun h => h.2.symm, fun h => ⟨rfl, h.symm⟩⟩

theorem ends_resolve_of_untouched (hu : w.scope.isUntouched c = true) :
    Ends Action.Steady (resolve load c) w a v ↔ ∃ w₁ o w₂, (Action.call c).perform w = some ((), w₁) ∧
      Ends Action.Steady (load c) w₁ o w₂ ∧ (Action.finish c o).perform w₂ = some ((), v) := by
  unfold resolve
  rw [ends_look_bind_iff trivial, if_pos hu]
  change Ends Action.Steady (.ask (.call c) fun _ => load c >>= fun o => .ask (.finish c o) .done) w a v ↔ _
  rw [ends_ask_iff]
  constructor
  · rintro ⟨-, ⟨⟩, w₁, hcall, he⟩
    obtain ⟨o, w₂, hload, he⟩ := ends_bind_iff.mp he
    obtain ⟨-, ⟨⟩, v', hfin, he⟩ := ends_ask_iff.mp he
    obtain ⟨-, rfl⟩ := ends_done_iff.mp he
    exact ⟨w₁, o, w₂, hcall, hload, hfin⟩
  · rintro ⟨w₁, o, w₂, hcall, hload, hfin⟩
    exact ⟨trivial, (), w₁, hcall, hload.bind (ends_ask_iff.mpr ⟨trivial, (), v, hfin, .refl _ _⟩)⟩

end

end Run

end ClassHierarchy
