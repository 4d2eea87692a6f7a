import ClassHierarchy.Proofs.DerivedSets
import ClassHierarchy.Proofs.Run.Reading
import ClassHierarchy.Proofs.Twins.Queries

namespace ClassHierarchy

open List Relator

/-- The queries on `c` whose answers are final. -/
inductive Query.Final (s : Scope) (c : ClassId) : {α : Type} → Script α → Prop
  | isMissing : Final s c (Query.isMissing c)
  | isFramework : Final s c (Query.isFramework c)
  | isFinal : Final s c (Query.isFinal c)
  | isInterface : Final s c (Query.isInterface c)
  | isAbstract : Final s c (Query.isAbstract c)
  | superClass : Final s c (Query.superClass c)
  | interfaces : Final s c (Query.interfaces c)
  | fieldType (field : String) : Final s c (Query.fieldType c field)
  | staticFieldType (field : String) : Final s c (Query.staticFieldType c field)
  | fields : Final s c (Query.fields c)
  | staticFields : Final s c (Query.staticFields c)
  | allMethods : Final s c (Query.allMethods c)
  | findMethodHere (sig : Signature) : Final s c (Query.findMethodHere c sig)
  | findMethodsHere (method : String) : Final s c (Query.findMethodsHere c method)
  | findMethod (sig : Signature) : Final s c (Query.findMethod c sig)
  | findMethods (method : String) : Final s c (Query.findMethods c method)
  | isConvertibleTo (target : ClassId) (h : s.Registered target) : Final s c (Query.isConvertibleTo c target)

def Session.Rests (w₂ w v : Session) : Prop := w.Sane ∧ w.stack = [] ∧ v = w₂

def Session.Same (w _ : Session) (c c' : ClassId) : Prop := c = c' ∧ w.scope.Registered c

variable {L : Loader} {w v : Session}

theorem same_biUnique : BiUnique (w.Same v) :=
  ⟨fun _ _ _ h h' => h.1.trans h'.1.symm, fun _ _ _ h h' => h.1.symm.trans h'.1⟩

theorem tracking_same (L : Loader) (n m : Nat) (w₂ : Session) :
    Tracking w₂.scope w₂.Rests Session.Same (L.call n) (L.call m) where
  mono hw _ h := ⟨h.1, hw.registered h.2⟩
  biUnique _ := same_biUnique
  primitive _ h p := by rw [h.1]
  resolve := by
    rintro w v c _ ⟨hsane, hstack, rfl⟩ ⟨rfl, hc⟩ a w' he hT
    obtain ⟨hsane', hstack', st, hst⟩ := Run.settled_of_resolve (L.nested_call n) hsane hstack hc
      (he.mono fun _ _ => Action.own_of_steady)
    obtain ⟨st', hst', hv⟩ := hT.settled hst
    refine ⟨(), v, ?_, .refl _, ⟨hsane', hstack', rfl⟩, ?_, ?_⟩
    · apply (Run.ends_look_bind_iff trivial).mpr
      rw [if_neg (by simp [Scope.isUntouched_of_settled hst'])]
      exact .refl _ _
    · simp [Scope.isMissing, hst, hst', hv.missing]
    · rw [Scope.declaration_of_settled hst', hv.declaration id, ← Scope.declaration_of_settled hst]
      exact Declaration.alike_self fun b hb => ⟨rfl, hsane'.tallied.mentioned c b hb⟩

theorem eq_of_same {c c' : ClassId} (h : w.Same v c c') : c = c' := h.1

theorem agrees_same (w₂ : Session) (sig : Signature) : sig.Agrees w₂.Rests Session.Same w v sig := by
  intro w' v' _ _ _ a a' ha
  rw [ha.eq fun _ _ => eq_of_same]

theorem Query.Final.follows {α : Type} {c : ClassId} {q : Script α} {w₂ : Session} {n m : Nat}
    (hq : Query.Final w.scope c q) (hnm : n ≤ m) (hl : w₂.Rests w v) (hc : w.scope.Registered c) :
    Script.Follows w₂.scope w₂.Rests (L.call n) (L.call m) n m q q w v fun _ _ a a' => a = a' := by
  have h := tracking_same L n m w₂
  have hc : w.Same v c c := ⟨rfl, hc⟩
  have hmethod : ∀ {w' v' : Session} (a a'), Method.Alike (w'.Same v') a a' → a = a' :=
    fun _ _ ha => ha.eq fun _ _ => eq_of_same
  cases hq with
  | isMissing => exact h.query_isMissing hl hc
  | isFramework => exact h.query_isFramework hl hc
  | isFinal => exact h.query_hasFlag hl hc .finalBit
  | isInterface => exact h.query_hasFlag hl hc .interfaceBit
  | isAbstract => exact h.query_hasFlag hl hc .abstractBit
  | superClass => exact (h.query_superClass hl hc).imp fun _ _ _ _ _ => eq_of_optionRel fun _ _ => eq_of_same
  | interfaces => exact (h.query_interfaces hl hc).imp fun _ _ _ _ _ => eq_of_forall₂ fun _ _ => eq_of_same
  | fieldType field =>
    exact (h.query_fieldType hnm hl hc field).imp fun _ _ _ _ _ => eq_of_optionRel fun _ _ => eq_of_same
  | staticFieldType field =>
    exact (h.query_staticFieldType hnm hl hc field).imp fun _ _ _ _ _ => eq_of_optionRel fun _ _ => eq_of_same
  | fields =>
    exact (h.query_fields hl hc).imp fun _ _ _ _ _ => eq_of_optionRel fun _ _ hf => hf.eq fun _ _ => eq_of_same
  | staticFields =>
    exact (h.query_staticFields hl hc).imp fun _ _ _ _ _ =>
      eq_of_optionRel fun _ _ hf => hf.eq fun _ _ => eq_of_same
  | allMethods =>
    exact (h.query_allMethods hnm hl hc).imp fun _ _ _ _ _ => eq_of_optionRel fun _ _ => eq_of_forall₂ hmethod
  | findMethodHere sig =>
    exact (h.query_findMethodHere hl hc (agrees_same w₂ sig)).imp fun _ _ _ _ _ => eq_of_optionRel hmethod
  | findMethodsHere method =>
    exact (h.query_findMethodsHere hl hc method).imp fun _ _ _ _ _ =>
      eq_of_optionRel fun _ _ => eq_of_forall₂ hmethod
  | findMethod sig =>
    exact (h.query_findMethod hnm hl hc (agrees_same w₂ sig)).imp fun _ _ _ _ _ => eq_of_optionRel hmethod
  | findMethods method =>
    exact (h.query_findMethods hnm hl hc method).imp fun _ _ _ _ _ =>
      eq_of_optionRel fun _ _ => eq_of_forall₂ hmethod
  | isConvertibleTo target ht => exact h.query_isConvertibleTo hnm hl hc ⟨rfl, ht⟩

theorem Query.Final.mono {α : Type} {s t : Scope} {c : ClassId} {q : Script α} (h : Query.Final s c q)
    (hst : s.Grows t) : Query.Final t c q := by
  cases h with
  | isConvertibleTo target ht => exact .isConvertibleTo target (hst.registered ht)
  | _ => constructor

theorem Scope.derived_grows {s t : Scope} (h : s.Grows t) (c : ClassId) : s.derived c ⊆ t.derived c := by
  cases hs : s.settled? c with
  | none => simp [derived, hs]
  | some st =>
    obtain ⟨st', hst', hv⟩ := h.settled hs
    simpa [derived, hs, hst'] using hv.derived fun _ hx => hx

namespace Loader

variable {α : Type} {n m : Nat} {w w₁ w' : Session} {c : ClassId}

theorem derivedClasses_eq {xs : List ClassId}
    (h : (L.perform n (Query.derivedClasses c)).Ends Action.Steady w xs w') : xs = w'.scope.derived c := by
  unfold Query.derivedClasses at h
  rw [perform_bind] at h
  obtain ⟨_, w₁, -, hread⟩ := Run.ends_bind_iff.mp h
  have hread : Run.Ends Action.Steady (Run.act .look >>= fun s => .done (s.derived c)) w₁ xs w' := hread
  rw [Run.ends_look_bind_iff trivial, Run.ends_done_iff] at hread
  obtain ⟨rfl, rfl⟩ := hread
  rfl

/-- Put at `w`, `q` was answered by `a`, and since then all loaders have come back by `w'`. -/
def Answered (L : Loader) (n : Nat) (q : Script α) (w : Session) (a : α) (w' : Session) : Prop :=
  ∃ w₁, (L.perform n q).Ends Action.Steady w a w₁ ∧ L.Continues Action.Steady w₁ w' ∧ w'.stack = []

theorem repeated {q : Script α} {a : α} (hw : w.Sane) (hs : w.stack = []) (hc : w.scope.Registered c)
    (hq : Query.Final w.scope c q) (he : (L.perform n q).Ends Action.Steady w a w₁)
    (hg : w₁.scope.Grows w'.scope) (hnm : n ≤ m) : (L.perform m q).Ends Action.Steady w' a w' := by
  obtain ⟨b, v, hb, -, ⟨-, -, rfl⟩, rfl⟩ := hq.follows hnm ⟨hw, hs, rfl⟩ hc a w₁ he hg
  exact hb

theorem Answered.unique {q : Script α} {a b : α} {v : Session} (h : L.Answered n q w a w') (hw : w.Sane)
    (hs : w.stack = []) (hc : w.scope.Registered c) (hq : Query.Final w.scope c q)
    (hb : (L.perform m q).Ends Action.Steady w' b v) : b = a := by
  obtain ⟨w₁, he, hcont, hs'⟩ := h
  have hgrows : w.scope.Grows w'.scope := he.evolves.trans hcont.grows
  have hw' : w'.Sane := hcont.sane (hw.leads (L.nested_perform n q) he)
  -- Both answers are given once more after the second.
  have h₁ := repeated hw hs hc hq he (hcont.grows.trans hb.evolves) (Nat.le_max_left n m)
  have h₂ := repeated hw' hs' (hgrows.registered hc) (hq.mono hgrows) hb (.refl _) (Nat.le_max_right n m)
  exact (h₂.unique h₁).1

/-- Where no class is rebound, an answer given while no loader is running is given again whenever that
is so. Derived sets only gain members. -/
theorem answers_final (hr : L.Reaches Action.Steady w) (hs : w.stack = []) (hc : w.scope.Registered c) :
    (∀ {α : Type} {q : Script α} {n a w'}, Query.Final w.scope c q → L.Answered n q w a w' →
      (∀ m, n ≤ m → (L.perform m q).Ends Action.Steady w' a w') ∧
      ∀ m b v, (L.perform m q).Ends Action.Steady w' b v → b = a) ∧
    (∀ {n xs w'}, L.Answered n (Query.derivedClasses c) w xs w' →
      ∀ m ys v, (L.perform m (Query.derivedClasses c)).Ends Action.Steady w' ys v → xs ⊆ ys) ∧
    (∀ {n b w'}, L.Answered n (Query.isAlmostFinal c) w b w' →
      ∀ m b' v, (L.perform m (Query.isAlmostFinal c)).Ends Action.Steady w' b' v → b' = true → b = true) := by
  have hw := hr.sane
  have hderived : ∀ {n xs w'}, L.Answered n (Query.derivedClasses c) w xs w' →
      ∀ m ys v, (L.perform m (Query.derivedClasses c)).Ends Action.Steady w' ys v → xs ⊆ ys := by
    rintro n xs w' ⟨w₁, he, hcont, -⟩ m ys v hv
    rw [derivedClasses_eq he, derivedClasses_eq hv]
    exact Scope.derived_grows (hcont.grows.trans hv.evolves) c
  refine ⟨fun hq ha => ⟨fun m hnm => ?_, fun m b v hb => ha.unique hw hs hc hq hb⟩, hderived, ?_⟩
  · obtain ⟨w₁, he, hcont, -⟩ := ha
    exact repeated hw hs hc hq he hcont.grows hnm
  · rintro n b w' ⟨w₁, he, hcont, hs'⟩ m b' v hv hb'
    unfold Query.isAlmostFinal at he hv
    rw [perform_bind] at he hv
    obtain ⟨xs, w₂, hxs, hb⟩ := Run.ends_bind_iff.mp he
    obtain ⟨ys, v₂, hys, hb₂⟩ := Run.ends_bind_iff.mp hv
    obtain ⟨rfl, rfl⟩ := Run.ends_done_iff.mp hb
    obtain ⟨rfl, rfl⟩ := Run.ends_done_iff.mp hb₂
    have hsub := hderived ⟨w₂, hxs, hcont, hs'⟩ m ys v₂ hys
    rw [List.isEmpty_iff] at hb' ⊢
    rw [hb'] at hsub
    exact List.subset_nil.mp hsub

def presuming : Loader := fun c name => do
  let b ← Script.request (.register "B")
  let _ ← Script.request (.attach c { superClass := some b })
  return .error (.notFound name)

theorem answers_final_presumed : ∃ w w', presuming.Reaches Action.Steady w ∧
    presuming.Answered 1 (Query.superClass ⟨9⟩) w (some ⟨10⟩) w' ∧
    (presuming.perform 1 (Query.superClass ⟨9⟩)).Ends Action.Steady w' (some ⟨10⟩) w' := by
  let register (name : FullName) := presuming.perform 1 (Script.register name)
  let ask := presuming.perform 1 (Query.superClass ⟨9⟩)
  have h : (((register "A").advance Action.Steady 1 .new).bind fun m =>
      (ask.advance Action.Steady 7 m.2).bind fun m₁ =>
        ((register "C").advance Action.Steady 1 m₁.2).map fun m' =>
          (m.2.stack, m.2.scope.size, m₁.1.result?, m'.2.stack)) = some ([], 10, some (some ⟨10⟩), []) := by
    decide +kernel
  obtain ⟨⟨p, w⟩, hp, h⟩ := Option.bind_eq_some_iff.mp h
  obtain ⟨⟨q, w₁⟩, hq, h⟩ := Option.bind_eq_some_iff.mp h
  obtain ⟨⟨r, w'⟩, hr, h⟩ := Option.map_eq_some_iff.mp h
  simp only [Prod.mk.injEq] at h
  obtain ⟨hs, hsize, ha, hs'⟩ := h
  have hw : presuming.Reaches Action.Steady w :=
    ⟨_, Script.register "A", 1, p, Run.leads_iff_advance.mpr ⟨1, hp⟩⟩
  have hans : presuming.Answered 1 (Query.superClass ⟨9⟩) w (some ⟨10⟩) w' :=
    ⟨w₁, Run.ends_of_advance hq ha, ⟨_, Script.register "C", 1, r, Run.leads_iff_advance.mpr ⟨1, hr⟩⟩, hs'⟩
  have hc : w.scope.Registered ⟨9⟩ := by
    change 9 < w.scope.size
    omega
  exact ⟨w, w', hw, hans, ((answers_final hw hs hc).1 .superClass hans).1 1 (Nat.le_refl 1)⟩

end Loader

end ClassHierarchy
