import ClassHierarchy.Proofs.Attachment
import ClassHierarchy.Proofs.DeferredRebinding

namespace ClassHierarchy

inductive Change where
  | declare (d : Declaration)
  | extend (superClass : ClassId)

namespace Change

def action (c : ClassId) : Change → Action
  | declare d => .attach c d
  | extend p => .rebind c p

def script (c : ClassId) : Change → Script (Except AttachError Unit)
  | declare d => Script.request (.attach c d)
  | extend p => do
    Script.request (.rebind c p)
    return .ok ()

def Suits (s : Scope) (c : ClassId) : Change → Prop
  | declare _ => s.Registered c ∧ s.settled? c = none
  | extend p => (∃ st, s.settled? c = some st) ∧ s.Registered p

def reply (s : Scope) (c : ClassId) : Change → Except AttachError Unit
  | declare d => (s.foreign? d).elim (.ok ()) fun m => .error (.foreignClass (s.name c) m)
  | extend _ => .ok ()

variable {s : Scope} {a b : ClassId} {x y : Change}

theorem size_next (x : Change) (s : Scope) (a : ClassId) : ((x.action a).next s).size = s.size := by
  apply Action.size_next
  cases x <;> exact nofun

theorem evolves_next (x : Change) (s : Scope) (a : ClassId) :
    s.Evolves (fun _ => True) ((x.action a).next s) := Action.evolves_next (fun _ _ _ => trivial) s

theorem names_next (x : Change) (s : Scope) (a : ClassId) : ((x.action a).next s).names = s.names :=
  (x.evolves_next s a).names_eq (x.size_next s a)

theorem unsettled_next (hab : a ≠ b) (hb : s.settled? b = none) :
    ((x.action a).next s).settled? b = none := by
  cases x with
  | declare d =>
    change ((s.attach a d).toOption.getD s).settled? b = none
    cases hattach : s.attach a d with
    | error e => exact hb
    | ok s' =>
      apply Option.eq_none_iff_forall_ne_some.mpr
      intro st hst
      obtain ⟨st₀, hst₀, -⟩ := (Scope.installed_of_eq_some (Scope.attach_eq_ok hattach).2).others b st hab.symm hst
      exact absurd (hb.symm.trans hst₀) nofun
  | extend p => exact Scope.unsettled_rebind hb a p

theorem Suits.next (hy : y.Suits s b) (hab : a ≠ b) : y.Suits ((x.action a).next s) b := by
  have hreg : ∀ {c}, s.Registered c → ((x.action a).next s).Registered c := (x.evolves_next s a).registered
  cases y with
  | declare d => exact ⟨hreg hy.1, unsettled_next hab hy.2⟩
  | extend p =>
    obtain ⟨⟨st, hst⟩, hp⟩ := hy
    obtain ⟨st', hst', -⟩ := (x.evolves_next s a).settled hst
    exact ⟨⟨st', hst'⟩, hreg hp⟩

theorem reply_next (x y : Change) (s : Scope) (a b : ClassId) : y.reply ((x.action a).next s) b = y.reply s b := by
  cases y with
  | declare d => simp only [reply, Scope.foreign?_congr (x.size_next s a), Scope.name_eq, x.names_next s a]
  | extend p => rfl

theorem plain_update (hab : a ≠ b) (f : Entry → Entry) :
    (x.action a).plain (s.update b f) = ((x.action a).plain s).update b f := by
  have hcomm (g : Entry → Entry) : (s.update b f).update a g = (s.update a g).update b f :=
    Scope.update_update_comm fun h => absurd h hab
  cases x with
  | declare d =>
    simp only [action, Action.plain, Scope.foreign?_congr (s.size_update b f)]
    split
    · exact hcomm _
    · rfl
  | extend p => exact hcomm _

theorem plain_comm (hab : a ≠ b) :
    (y.action b).plain ((x.action a).plain s) = (x.action a).plain ((y.action b).plain s) := by
  cases y with
  | declare d =>
    have hforeign : ((x.action a).plain s).foreign? d = s.foreign? d := by
      apply Scope.foreign?_congr
      cases x with
      | declare d' =>
        simp only [action, Action.plain]
        split
        · exact s.size_update a _
        · rfl
      | extend p => exact s.size_update a _
    change (if ((x.action a).plain s).foreign? d = none then _ else _) = (x.action a).plain (if _ then _ else _)
    rw [hforeign]
    split
    · exact (plain_update hab _).symm
    · rfl
  | extend p => exact (plain_update hab _).symm

end Change

namespace Scope

/-- What holds after the settled class `a` has been given the super class `b`: `a` is an heir of `b` alone,
and all else that is known of any class is as before. -/
structure Moved (s : Scope) (a b : ClassId) (t : Scope) : Prop where
  names : t.names = s.names
  loading : ∀ x, t.isLoading x = s.isLoading x
  settled : ∀ x st, s.settled? x = some st → ∃ derived,
    t.settled? x = some { st with
      declaration := if x = a then st.declaration.withSuperClass (some b) else st.declaration, derived } ∧
    derived.Pairwise (· < ·) ∧ ∀ y, y ∈ derived ↔ if y = a then x = b else y ∈ st.derived
  pending : ∀ x queued rebound, s.slot? x = some (.pending queued rebound) → ∃ queued',
    t.slot? x = some (.pending queued' rebound) ∧
    queued'.Nodup ∧ ∀ y, y ∈ queued' ↔ if y = a then x = b else y ∈ queued

variable {s : Scope} {a b c : ClassId}

theorem unsettled_of_slot? {queued : List ClassId} {rebound : Option ClassId}
    (h : s.slot? c = some (.pending queued rebound)) :
    s.settled? c = none ∧ s.heirs c = queued ∧ s.waiting? c = rebound := by
  obtain ⟨e, he, hs⟩ := Option.map_eq_some_iff.mp h
  simp [settled?, heirs, waiting?, he, Entry.settled?, Entry.heirs, Entry.waiting?, hs]

theorem Tallied.moved {st : Settled} (ht : s.Tallied) (ha : s.settled? a = some st) (hb : s.Registered b) :
    s.Moved a b (s.rebind a b) := by
  have hr := rebound_of_settled (p := b) ha
  have ht' := ht.rebound hr hb
  have hheirs : ∀ x, s.Registered x → ∀ y, y ∈ (s.rebind a b).heirs x ↔ if y = a then x = b else y ∈ s.heirs x := by
    intro x hx y
    rw [hr.heirs x y hx]
    by_cases hy : y = a
    -- An heir of `x` extends `x`, so that `a` was none unless it has been struck.
    · subst hy
      have hold := ht.heirs x y hx
      simp only [hold, and_true, if_true]
      tauto
    · simp [hy]
  constructor
  case names => exact hr.evolves.names_eq hr.size
  case loading => exact hr.loading
  case settled =>
    intro x stx hx
    obtain ⟨stx', hx', hev⟩ := hr.evolves.settled hx
    refine ⟨stx'.derived, ?_, ht'.orderly.pairwise_derived hx', fun y => ?_⟩
    · have hdecl : stx'.declaration = if x = a then stx.declaration.withSuperClass (some b) else stx.declaration := by
        rw [← declaration_of_settled hx', ← declaration_of_settled hx]
        split
        next hxa => rw [hxa, hr.declaration_self]
        next hxa => exact hr.declaration x hxa
      rw [hx', ← hdecl, ← hev.missing]
    · rw [← heirs_of_settled hx', ← heirs_of_settled hx]
      exact hheirs x (.of_settled hx) y
  case pending =>
    intro x queued rebound hx
    obtain ⟨hn, rfl, rfl⟩ := unsettled_of_slot? hx
    have hreg : s.Registered x := by
      obtain ⟨e, he, -⟩ := Option.map_eq_some_iff.mp hx
      exact .of_get? he
    refine ⟨(s.rebind a b).heirs x, ?_, ht'.orderly.nodup_heirs x, hheirs x hreg⟩
    rw [slot?_of_unsettled (hr.evolves.registered hreg) (unsettled_rebind hn a b), hr.waiting]

end Scope

structure Session.Alike (w v : Session) : Prop where
  now : w.scope.Coincides v.scope
  after : ∀ {α β : Type} {p : Run α} {q : Run β} {xs : List Action} {a : α} {b : β} {w' v' : Session},
    p.Performs Action.Own w xs a w' → q.Performs Action.Own v xs b v' → w'.scope.Coincides v'.scope

theorem Scope.Tallied.alike {w v : Session} (hw : w.scope.Tallied) (hv : v.scope.Tallied)
    (h : w.scope.heirless = v.scope.heirless) : w.Alike v where
  now := hw.coincides hv h
  after hp hq := hp.coincides hq hw hv h

namespace Loader

variable {L : Loader} {w : Session} {a b c : ClassId}

theorem ends_rebind_of_settled (L : Loader) (n : Nat) {st : Settled} (ha : w.scope.settled? a = some st)
    (hb : w.scope.Registered b) : ∃ u,
      (L.perform n (Script.request (.rebind a b))).Ends Action.Own w () u ∧ u.scope = w.scope.rebind a b :=
  ends_rebind (Scope.isUntouched_of_settled ha) (fun _ _ => Action.own_of_steady) hb

theorem ends_change {x : Change} (L : Loader) (n : Nat) (hx : x.Suits w.scope a) : ∃ u,
    (L.perform n (x.script a)).Ends Action.Own w (x.reply w.scope a) u ∧
      u.scope = (x.action a).next w.scope := by
  cases x with
  | declare d =>
    obtain ⟨hreg, hn⟩ := hx
    have hends := ends_attach L n w a d
    rw [Scope.attach_of_unsettled hreg hn] at hends
    exact ⟨_, hends, rfl⟩
  | extend p =>
    obtain ⟨⟨st, hst⟩, hp⟩ := hx
    obtain ⟨u, hu, hscope⟩ := ends_rebind_of_settled L n hst hp
    exact ⟨u, ends_map hu fun _ => Except.ok (), hscope⟩

theorem changes_commute (h : L.Reaches Action.Own w) (n : Nat) :
    (∀ a b, (∃ st, w.scope.settled? a = some st) → w.scope.Registered b → ∃ u,
      (L.perform n (Script.request (.rebind a b))).Ends Action.Own w () u ∧ w.scope.Moved a b u.scope ∧
      (∃ v, (L.perform n (Script.request (.rebind a b))).Ends Action.Own u () v ∧ v.Alike u) ∧
      ∀ c, w.scope.Registered c → ∃ v v',
        (L.perform n (Script.request (.rebind a c))).Ends Action.Own u () v ∧
        (L.perform n (Script.request (.rebind a c))).Ends Action.Own w () v' ∧ v.Alike v') ∧
    ∀ a b, a ≠ b → ∀ x y : Change, x.Suits w.scope a → y.Suits w.scope b → ∃ r q u v u' v',
      (L.perform n (x.script a)).Ends Action.Own w r u ∧ (L.perform n (y.script b)).Ends Action.Own u q v ∧
      (L.perform n (y.script b)).Ends Action.Own w q u' ∧ (L.perform n (x.script a)).Ends Action.Own u' r v' ∧
      v.Alike v' := by
  have ht := h.tallied
  constructor
  · rintro a b ⟨st, ha⟩ hb
    obtain ⟨u, hu, hscope⟩ := ends_rebind_of_settled L n ha hb
    have hmoved := ht.moved ha hb
    obtain ⟨derived, ha', -⟩ := hmoved.settled a st ha
    rw [← hscope] at hmoved ha'
    -- Without heirs, the second super class is put where the first one has been put.
    have hlast : ∀ c, w.scope.Registered c → ∃ v v',
        (L.perform n (Script.request (.rebind a c))).Ends Action.Own u () v ∧
        (L.perform n (Script.request (.rebind a c))).Ends Action.Own w () v' ∧ v.Alike v' := by
      intro c hc
      obtain ⟨v, hv, hvscope⟩ := ends_rebind_of_settled L n ha' (hu.evolves_any.registered hc)
      obtain ⟨v', hv', hvscope'⟩ := ends_rebind_of_settled L n ha hc
      refine ⟨v, v', hv, hv', ((ht.leads hu).leads hv).alike (ht.leads hv') ?_⟩
      rw [hvscope, hvscope', hscope, Scope.heirless_rebind, Scope.heirless_rebind, Scope.heirless_rebind]
      exact w.scope.heirless.rebased_update a (some b) c
    obtain ⟨v, v', hv, hv', halike⟩ := hlast b hb
    obtain ⟨-, rfl⟩ := hv'.unique hu
    exact ⟨v', hu, hmoved, ⟨v, hv, halike⟩, hlast⟩
  · intro a b hab x y hx hy
    obtain ⟨u, hu, hscope⟩ := ends_change L n hx
    obtain ⟨u', hu', hscope'⟩ := ends_change L n hy
    have hy₁ := hy.next (x := x) hab
    have hx₁ := hx.next (x := y) hab.symm
    rw [← hscope] at hy₁
    rw [← hscope'] at hx₁
    obtain ⟨v, hv, hvscope⟩ := ends_change L n hy₁
    obtain ⟨v', hv', hvscope'⟩ := ends_change L n hx₁
    rw [hscope, Change.reply_next] at hv
    rw [hscope', Change.reply_next] at hv'
    refine ⟨_, _, u, v, u', v', hu, hv, hu', hv', ((ht.leads hu).leads hv).alike ((ht.leads hu').leads hv') ?_⟩
    rw [hvscope, hvscope', hscope, hscope', Action.heirless_next, Action.heirless_next, Action.heirless_next,
      Action.heirless_next]
    exact Change.plain_comm hab

theorem changes_commute_of_mutual_heirs : ∃ w r q u v u' v' t, notFound.Reaches Action.Own w ∧
    w.scope.settled? ⟨9⟩ = some { declaration := {} } ∧ w.scope.slot? ⟨10⟩ = some (.pending [] none) ∧
    (notFound.perform 0 ((Change.extend ⟨10⟩).script ⟨9⟩)).Ends Action.Own w r u ∧
    (notFound.perform 0 ((Change.declare { superClass := some ⟨9⟩ }).script ⟨10⟩)).Ends Action.Own u q v ∧
    (notFound.perform 0 ((Change.declare { superClass := some ⟨9⟩ }).script ⟨10⟩)).Ends Action.Own w q u' ∧
    (notFound.perform 0 ((Change.extend ⟨10⟩).script ⟨9⟩)).Ends Action.Own u' r v' ∧ v.Alike v' ∧
    (notFound.perform 0 (Script.request (.rebind ⟨9⟩ ⟨9⟩))).Ends Action.Own w () t ∧
    w.scope.Moved ⟨9⟩ ⟨9⟩ t.scope := by
  let script : Script Unit := do
    let a ← Script.register "A"
    let _ ← Script.register "B"
    let _ ← Script.request (.attach a {})
  have h : ((notFound.perform 0 script).advance Action.Own 3 .new).map (fun m =>
      (m.2.scope.settled? ⟨9⟩, m.2.scope.slot? ⟨10⟩)) =
        some (some { declaration := {} }, some (.pending [] none)) := by decide +kernel
  obtain ⟨⟨rest, w⟩, ha, h⟩ := Option.map_eq_some_iff.mp h
  obtain ⟨hst, hslot⟩ := Prod.mk.inj h
  have hw : notFound.Reaches Action.Own w := ⟨_, script, 0, rest, Run.leads_iff_advance.mpr ⟨3, ha⟩⟩
  have hreg : w.scope.Registered ⟨10⟩ := by
    obtain ⟨e, he, -⟩ := Option.map_eq_some_iff.mp hslot
    exact .of_get? he
  obtain ⟨hmove, hcomm⟩ := changes_commute hw 0
  obtain ⟨t, ht, hmoved, -⟩ := hmove ⟨9⟩ ⟨9⟩ ⟨_, hst⟩ (.of_settled hst)
  obtain ⟨r, q, u, v, u', v', hu, hv, hu', hv', halike⟩ := hcomm ⟨9⟩ ⟨10⟩ (by decide)
    (.extend ⟨10⟩) (.declare { superClass := some ⟨9⟩ }) ⟨⟨_, hst⟩, hreg⟩
    ⟨hreg, (Scope.unsettled_of_slot? hslot).1⟩
  exact ⟨w, r, q, u, v, u', v', t, hw, hst, hslot, hu, hv, hu', hv', halike, ht, hmoved⟩

end Loader

end ClassHierarchy
