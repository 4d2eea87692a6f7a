import Mathlib.Data.List.Perm.Subperm
import Mathlib.Logic.Relation
import ClassHierarchy.Proofs.DerivedSets
import ClassHierarchy.Proofs.Run.Reading

/-!
Subtyping is reachability. The search for a class above another goes through a hierarchy that grows while
it is searched; but what it has read of a class stays so, and it stops only when it has read all that can
be reached.
-/

namespace ClassHierarchy

open Relation

namespace Scope

def Parent (s : Scope) (a b : ClassId) : Prop := b ∈ (s.declaration a).parents

def Below (s : Scope) : ClassId → ClassId → Prop := ReflTransGen s.Parent

def Resolved (s : Scope) : Prop := ∀ c, s.Registered c → ∃ st, s.settled? c = some st

variable {s t : Scope} {a b c target x y : ClassId} {queue seen S : List ClassId} {R : ClassId → Prop}

theorem Parent.settled (h : s.Parent a b) : ∃ st, s.settled? a = some st := by
  cases hs : s.settled? a with
  | some st => exact ⟨st, rfl⟩
  | none =>
    rw [Parent, declaration_of_unsettled hs] at h
    cases h

theorem Evolves.declaration (he : s.Evolves R t) (ha : ¬ R a) {st : Settled} (hs : s.settled? a = some st) :
    t.declaration a = s.declaration a := by
  obtain ⟨st', hs', hst⟩ := he.settled hs
  rw [declaration_of_settled hs, declaration_of_settled hs', hst.declaration ha]

theorem Parent.evolves (h : s.Parent a b) (he : s.Evolves R t) (ha : ¬ R a) : t.Parent a b := by
  obtain ⟨st, hs⟩ := h.settled
  rw [Parent, he.declaration ha hs]
  exact h

theorem Below.grows (h : s.Below a b) (hg : s.Grows t) : t.Below a b :=
  Relation.ReflTransGen.mono (fun a b (hp : s.Parent a b) => hp.evolves hg id) _ _ h

theorem Below.evolves (h : s.Below a c) (he : s.Evolves (· = c) t) : t.Below a c := by
  induction h using ReflTransGen.head_induction_on with
  | refl => exact .refl
  | @head x y hp _ ih =>
    by_cases hx : x = c
    · exact hx ▸ .refl
    · exact .head (hp.evolves he hx) ih

theorem Tallied.parent (h : s.Tallied) (hp : s.Parent a b) : s.Registered b :=
  h.mentioned a b (parents_subset_mentions _ hp)

theorem Resolved.isUntouched (h : s.Resolved) (c : ClassId) : s.isUntouched c = false := by
  by_cases hc : s.Registered c
  · obtain ⟨st, hs⟩ := h c hc
    exact isUntouched_of_settled hs
  · exact isUntouched_of_unregistered hc

theorem resolved_iff : s.Resolved ↔ ∀ c ∈ s.ids, (s.settled? c).isSome = true := by
  simp only [Resolved, mem_ids, Option.isSome_iff_exists]

instance : Decidable s.Resolved := decidable_of_iff _ resolved_iff.symm

def Explored (s : Scope) (a : ClassId) : Prop := ∀ x, s.Below a x → s.isUntouched x = false

theorem Resolved.explored (h : s.Resolved) (a : ClassId) : s.Explored a := fun x _ => h.isUntouched x

theorem Below.registered (h : s.Below a b) (ht : s.Tallied) (ha : s.Registered a) : s.Registered b := by
  induction h with
  | refl => exact ha
  | tail _ hp _ => exact ht.parent hp

theorem Resolved.rebind (h : s.Resolved) (a b : ClassId) : (s.rebind a b).Resolved := by
  intro c hc
  obtain ⟨st, hs⟩ := h c ((registered_congr (Action.size_next (x := .rebind a b) nofun)).mp hc)
  have he : s.Evolves (fun _ => True) (s.rebind a b) :=
    Action.evolves_next (x := .rebind a b) (fun _ _ _ => trivial) s
  obtain ⟨st', hs', -⟩ := he.settled hs
  exact ⟨st', hs'⟩

theorem length_le_size (hn : seen.Nodup) (hr : ∀ x ∈ seen, s.Registered x) : seen.length ≤ s.size := by
  have hsub : seen ⊆ s.ids := fun x hx => mem_ids.mpr (hr x hx)
  simpa [ids] using (List.subperm_of_subset hn hsub).length_le

end Scope

namespace Run

theorem nodup_eraseDups (xs : List ClassId) : xs.eraseDups.Nodup := by
  cases xs with
  | nil => simp
  | cons x xs =>
    rw [List.eraseDups_cons, List.nodup_cons]
    exact ⟨by simp [List.mem_eraseDups], nodup_eraseDups _⟩
termination_by xs.length
decreasing_by exact Nat.lt_succ_of_le (List.length_filter_le _ _)

theorem nodup_append_unseen {seen : List ClassId} (h : seen.Nodup) (xs : List ClassId) :
    (seen ++ unseen seen xs).Nodup := by
  refine List.nodup_append.mpr ⟨h, nodup_eraseDups _, ?_⟩
  rintro x hx _ hy rfl
  exact (mem_unseen.mp hy).2 hx

end Run

namespace Scope

variable {s t : Scope} {a b c target x y : ClassId} {queue seen : List ClassId}

structure Searched (s : Scope) (target : ClassId) (queue seen : List ClassId) : Prop where
  registered : ∀ x ∈ seen, s.Registered x
  queued : queue ⊆ seen
  settled : ∀ x ∈ seen, x ∉ queue → ∃ st, s.settled? x = some st
  closed : ∀ x ∈ seen, x ∉ queue → ∀ y, s.Parent x y → y ∈ seen ∧ y ≠ target

theorem searched_start (ha : s.Registered a) : s.Searched target [a] [a] where
  registered x hx := by
    obtain rfl := List.mem_singleton.mp hx
    exact ha
  queued := List.Subset.refl _
  settled _ hx hq := absurd hx hq
  closed _ hx hq := absurd hx hq

theorem Searched.grows (h : s.Searched target queue seen) (hg : s.Grows t) : t.Searched target queue seen where
  registered x hx := hg.registered (h.registered x hx)
  queued := h.queued
  settled x hx hq := by
    obtain ⟨st, hs⟩ := h.settled x hx hq
    obtain ⟨st', hs', -⟩ := hg.settled hs
    exact ⟨st', hs'⟩
  closed x hx hq y hy := by
    obtain ⟨st, hs⟩ := h.settled x hx hq
    rw [Parent, hg.declaration id hs] at hy
    exact h.closed x hx hq y hy

theorem Searched.next (h : s.Searched target (c :: queue) seen) (ht : s.Tallied) {st : Settled}
    (hc : s.settled? c = some st) (hn : ¬ s.Parent c target) :
    s.Searched target (queue ++ Run.unseen seen (s.declaration c).parents)
      (seen ++ Run.unseen seen (s.declaration c).parents) where
  registered x hx := by
    rcases List.mem_append.mp hx with hx | hx
    · exact h.registered x hx
    · exact ht.parent (Run.mem_unseen.mp hx).1
  queued x hx := by
    rcases List.mem_append.mp hx with hx | hx
    · exact List.mem_append_left _ (h.queued (List.mem_cons_of_mem c hx))
    · exact List.mem_append_right _ hx
  settled x hx hq := by
    rw [List.mem_append, not_or] at hq
    have hx := (List.mem_append.mp hx).resolve_right hq.2
    by_cases hxc : x = c
    · exact ⟨st, hxc ▸ hc⟩
    · exact h.settled x hx (by simp [hxc, hq.1])
  closed x hx hq y hy := by
    rw [List.mem_append, not_or] at hq
    have hx := (List.mem_append.mp hx).resolve_right hq.2
    by_cases hxc : x = c
    · subst hxc
      refine ⟨?_, fun hyt => hn (hyt ▸ hy)⟩
      by_cases hys : y ∈ seen
      · exact List.mem_append_left _ hys
      · exact List.mem_append_right _ (Run.mem_unseen.mpr ⟨hy, hys⟩)
    · obtain ⟨hys, hyt⟩ := h.closed x hx (by simp [hxc, hq.1]) y hy
      exact ⟨List.mem_append_left _ hys, hyt⟩

theorem Searched.not_below (h : s.Searched target [] seen) (ha : a ∈ seen) (hne : a ≠ target) :
    ¬ s.Below a target := by
  have hall : ∀ x, s.Below a x → x ∈ seen ∧ x ≠ target := by
    intro x hx
    induction hx with
    | refl => exact ⟨ha, hne⟩
    | tail _ hp ih => exact h.closed _ ih.1 List.not_mem_nil _ hp
  exact fun hb => (hall target hb).2 rfl

end Scope

namespace Run

variable {load : ClassId → Run (Except LoadError Declaration)} {target : ClassId} {n : Nat}
  {queue seen : List ClassId} {w w' : Session} {r : Bool}

theorem climbs_spec (hload : ∀ c, (load c).Nested) (hw : w.Sane) (hs : w.stack = [])
    (hsearch : w.scope.Searched target queue seen)
    (h : (climbs load target n queue seen).Ends Action.Steady w r w') :
    r = true ∧ (∃ c ∈ queue, w'.scope.Below c target) ∨
      r = false ∧ ∃ S, seen ⊆ S ∧ w'.scope.Searched target [] S := by
  induction n generalizing queue seen w with
  | zero =>
    cases queue with
    | nil =>
      obtain ⟨rfl, rfl⟩ := ends_done_iff.mp h
      exact .inr ⟨rfl, seen, List.Subset.refl _, hsearch⟩
    | cons c queue =>
      obtain ⟨-, r, -⟩ := ends_ask_iff.mp h
      cases r
  | succ n ih =>
    cases queue with
    | nil =>
      obtain ⟨rfl, rfl⟩ := ends_done_iff.mp h
      exact .inr ⟨rfl, seen, List.Subset.refl _, hsearch⟩
    | cons c queue =>
      obtain ⟨_, w₁, hresolve, h⟩ := ends_bind_iff.mp h
      have h := (ends_look_bind_iff trivial).mp h
      have hgrows : w.scope.Grows w₁.scope := hresolve.evolves
      have hc : w.scope.Registered c := hsearch.registered c (hsearch.queued List.mem_cons_self)
      obtain ⟨hw₁, hs₁, st, hst⟩ :=
        settled_of_resolve hload hw hs hc (hresolve.mono fun _ _ => Action.own_of_steady)
      dsimp only at h
      split at h
      next hp =>
        obtain ⟨rfl, rfl⟩ := ends_done_iff.mp h
        exact .inl ⟨rfl, c, List.mem_cons_self, .single hp⟩
      next hp =>
        -- Resolving `c` may have added classes, but the parents read before are settled and stay.
        have hnext := (hsearch.grows hgrows).next hw₁.tallied hst hp
        obtain ⟨hr, x, hx, hb⟩ | ⟨hr, S, hS, hdone⟩ := ih hw₁ hs₁ hnext h
        · refine .inl ⟨hr, ?_⟩
          rcases List.mem_append.mp hx with hx | hx
          · exact ⟨x, List.mem_cons_of_mem c hx, hb⟩
          · have hcx : w₁.scope.Parent c x := (mem_unseen.mp hx).1
            exact ⟨c, List.mem_cons_self, .head (hcx.evolves h.evolves id) hb⟩
        · exact .inr ⟨hr, S, fun x hx => hS (List.mem_append_left _ hx), hdone⟩

theorem climbs_ends {a : ClassId} (he : w.scope.Explored a) (ht : w.scope.Tallied) (ha : w.scope.Registered a)
    (hseen : ∀ x ∈ seen, w.scope.Below a x) (hqueue : queue ⊆ seen) (hnodup : seen.Nodup)
    (hn : queue.length + w.scope.size ≤ n + seen.length) :
    ∃ r, (climbs load target n queue seen).Ends Action.Steady w r w := by
  induction n generalizing queue seen with
  | zero =>
    cases queue with
    | nil => exact ⟨false, .refl _ _⟩
    | cons c queue =>
      have hle := Scope.length_le_size hnodup fun x hx => (hseen x hx).registered ht ha
      simp only [List.length_cons] at hn
      omega
  | succ n ih =>
    cases queue with
    | nil => exact ⟨false, .refl _ _⟩
    | cons c queue =>
      let fresh := unseen seen (w.scope.declaration c).parents
      have hc : w.scope.Below a c := hseen c (hqueue List.mem_cons_self)
      have hresolve : (resolve load c).Ends Action.Steady w () w :=
        (ends_resolve_of_touched (he c hc)).mpr rfl
      by_cases hp : target ∈ (w.scope.declaration c).parents
      · refine ⟨true, hresolve.bind ((ends_look_bind_iff trivial).mpr ?_)⟩
        dsimp only
        rw [if_pos hp]
        exact .refl _ _
      · have hfresh : ∀ x ∈ seen ++ fresh, w.scope.Below a x := by
          intro x hx
          rcases List.mem_append.mp hx with hx | hx
          · exact hseen x hx
          · exact hc.tail (mem_unseen.mp hx).1
        have hsub : queue ++ fresh ⊆ seen ++ fresh :=
          List.append_subset.mpr ⟨List.subset_append_of_subset_left _ fun x hx => hqueue (List.mem_cons_of_mem c hx),
            List.subset_append_right _ _⟩
        -- One class leaves the queue for good; each that joins it is seen for the first time.
        have hlen : (queue ++ fresh).length + w.scope.size ≤ n + (seen ++ fresh).length := by
          simp only [List.length_cons, List.length_append] at hn ⊢
          omega
        obtain ⟨r, hends⟩ := ih hfresh hsub (nodup_append_unseen hnodup _) hlen
        refine ⟨r, hresolve.bind ((ends_look_bind_iff trivial).mpr ?_)⟩
        dsimp only
        rw [if_neg hp]
        exact hends

end Run

def Action.RebindsOnly (c p : ClassId) : Action → Session → Prop
  | .rebind a b, _ => a = c ∧ b = p
  | _, _ => True

instance {c p : ClassId} : (x : Action) → (w : Session) → Decidable (x.RebindsOnly c p w)
  | .rebind a b, _ => inferInstanceAs (Decidable (a = c ∧ b = p))
  | .look, _ | .register _, _ | .attach .., _ | .call _, _ | .finish .., _ | .emit _, _ | .note _, _
  | .giveUp, _ => .isTrue trivial

namespace Loader

/-- Asked whether `a` is convertible to `b`, the scope says `r`, and nothing is rebound meanwhile. -/
def Converts (L : Loader) (n : Nat) (a b : ClassId) (w : Session) (r : Bool) (w' : Session) : Prop :=
  (L.perform n (Query.isConvertibleTo a b)).Ends Action.Steady w r w'

def Rebases (L : Loader) (n : Nat) (a b : ClassId) (w w' : Session) : Prop :=
  (L.perform n (Script.request (.rebind a b))).Ends (Action.RebindsOnly a b) w () w'

variable {L : Loader} {n : Nat} {a b c x : ClassId} {w w' : Session} {r : Bool}

theorem convertible_iff (hw : w.Sane) (hs : w.stack = []) (ha : w.scope.Registered a)
    (hb : b.isPrimitive = false) (h : L.Converts n a b w r w') : r = true ↔ w'.scope.Below a b := by
  unfold Converts Query.isConvertibleTo at h
  rw [if_neg (by simp [hb])] at h
  split at h
  next hab =>
    obtain ⟨rfl, rfl⟩ := Run.ends_done_iff.mp h
    exact ⟨fun _ => hab ▸ .refl, fun _ => rfl⟩
  next hab =>
    rw [perform_request] at h
    obtain ⟨rfl, x, hx, hbelow⟩ | ⟨rfl, S, hS, hdone⟩ :=
      Run.climbs_spec (L.nested_call n) hw hs (Scope.searched_start ha) h
    · obtain rfl := List.mem_singleton.mp hx
      exact ⟨fun _ => hbelow, fun _ => rfl⟩
    · have hno := hdone.not_below (hS (List.mem_singleton_self a)) hab
      exact ⟨fun h => (Bool.false_ne_true h).elim, fun h => absurd h hno⟩

theorem converts_primitive (hb : b.isPrimitive = true) :
    L.Converts n a b w (b == .ofPrimitive .void || a.isPrimitive) w := by
  unfold Converts Query.isConvertibleTo
  rw [if_pos hb]
  exact ends_pure _

theorem converts_self (ha : a.isPrimitive = false) : L.Converts n a a w true w := by
  unfold Converts Query.isConvertibleTo
  rw [if_neg (by simp [ha]), if_pos rfl]
  exact ends_pure true

theorem converts_ends (he : w.scope.Explored a) (ht : w.scope.Tallied) (ha : w.scope.Registered a)
    (hn : w.scope.size ≤ n) : ∃ r, L.Converts n a b w r w := by
  unfold Converts Query.isConvertibleTo
  split
  · exact ⟨_, ends_pure _⟩
  · split
    · exact ⟨_, ends_pure _⟩
    · rw [perform_request]
      have hseen : ∀ x ∈ [a], w.scope.Below a x := by
        intro x hx
        obtain rfl := List.mem_singleton.mp hx
        exact .refl
      refine Run.climbs_ends he ht ha hseen (List.Subset.refl _) (List.nodup_singleton a) ?_
      simp only [List.length_singleton]
      omega

theorem converts_of_below (hw : w.Sane) (hs : w.stack = []) (he : w.scope.Explored a) (ha : w.scope.Registered a)
    (hb : b.isPrimitive = false) (hn : w.scope.size ≤ n) (h : w.scope.Below a b) :
    L.Converts n a b w true w := by
  obtain ⟨r, hends⟩ := converts_ends (L := L) (b := b) he hw.tallied ha hn
  rw [← (convertible_iff hw hs ha hb hends).mpr h]
  exact hends

section Rebasing

variable {α : Type} {p q : Run α}

theorem own_of_rebindsOnly (h : p.Leads (Action.RebindsOnly a b) w q w') (hb : w.scope.Registered b) :
    p.Leads Action.Own w q w' := by
  induction h with
  | refl => exact .refl _ _
  | @step x k r q w v w' hm hx hl ih =>
    have hstep : Run.Leads (Action.RebindsOnly a b) (.ask x k) w (k r) v := .step hm hx (.refl _ _)
    refine .step ?_ hx (ih (hstep.evolves_any.registered hb))
    cases x with
    | rebind c p =>
      obtain ⟨-, rfl⟩ := hm
      exact hb
    | _ => trivial

theorem rebinds_of_rebindsOnly {x : Action} (h : x.RebindsOnly a b w) : x.Rebinds (· = a) w := by
  cases x with
  | rebind c p => exact h.1
  | _ => trivial

theorem rebases_spec (hw : w.Sane) (hs : w.stack = []) (ha : w.scope.Registered a) (hb : w.scope.Registered b)
    (h : L.Rebases n a b w w') :
    w'.Sane ∧ w'.stack = [] ∧ w.scope.Evolves (· = a) w'.scope ∧ w'.scope.Parent a b := by
  have hown : (L.perform n (Script.request (.rebind a b))).Ends Action.Own w () w' := own_of_rebindsOnly h hb
  have hnested := L.nested_perform n (Script.request (.rebind a b))
  refine ⟨hw.leads_own hnested hown, ((hnested w).ends h).trans hs,
    (h.mono fun _ _ => rebinds_of_rebindsOnly).evolves, ?_⟩
  rw [perform_request] at hown
  obtain ⟨_, v, hresolve, hrebind⟩ := Run.ends_bind_iff.mp hown
  obtain ⟨-, -, st, hst⟩ := Run.settled_of_resolve (L.nested_call n) hw hs ha hresolve
  obtain ⟨-, _, v', hx, hdone⟩ := Run.ends_ask_iff.mp hrebind
  obtain ⟨-, rfl⟩ := Run.ends_done_iff.mp hdone
  have hscope : v'.scope = v.scope.rebind a b := Action.scope_of_perform hx
  have hreb := Scope.rebound_of_settled (p := b) hst
  rw [Scope.Parent, hscope, hreb.declaration_self]
  exact List.mem_cons_self

theorem rebases_ends (hr : w.scope.Resolved) :
    ∃ w', L.Rebases n a b w w' ∧ w'.scope = w.scope.rebind a b := by
  refine ends_rebind (hr.isUntouched a) (fun x v hx => ?_) ⟨rfl, rfl⟩
  cases x with
  | rebind c p => exact absurd hx id
  | _ => trivial

end Rebasing

theorem convertible_exactly (hr : L.Reaches Action.Own w) (hs : w.stack = []) :
    (∀ n a b r w', w.scope.Registered a → b.isPrimitive = false → L.Converts n a b w r w' →
      (r = true ↔ w'.scope.Below a b)) ∧
    (∀ n a b, b.isPrimitive = true →
      ∃ r, L.Converts n a b w r w ∧ (r = true ↔ b = .ofPrimitive .void ∨ a.isPrimitive = true)) ∧
    (∀ n a, a.isPrimitive = false → L.Converts n a a w true w) ∧
    (w.scope.Resolved → ∀ n, w.scope.size ≤ n →
      (∀ a b, w.scope.Registered a → ∃ r, L.Converts n a b w r w) ∧
      ∀ a b c, w.scope.Registered a → w.scope.Registered b → b.isPrimitive = false → c.isPrimitive = false →
        L.Converts n a b w true w → L.Converts n b c w true w → L.Converts n a c w true w) ∧
    ∀ a b x, w.scope.Registered a → w.scope.Registered b → w.scope.Registered x →
      a.isPrimitive = false → b.isPrimitive = false →
      (∀ n m l w₁ w₂ w₃ w₄ w₅ r, L.Converts n x a w true w₁ →
        L.Continues Action.Steady w₁ w₂ → w₂.stack = [] → L.Rebases m a b w₂ w₃ →
        L.Continues Action.Steady w₃ w₄ → w₄.stack = [] → L.Converts l x b w₄ r w₅ → r = true) ∧
      (w.scope.Resolved → ∀ n, w.scope.size ≤ n → ∃ w', L.Rebases n a b w w' ∧
        (L.Converts n x a w true w → L.Converts n x b w' true w')) := by
  have hw : w.Sane := ⟨hr.attended, hr.tallied⟩
  refine ⟨fun n a b r w' ha hb h => convertible_iff hw hs ha hb h, ?_, fun n a => converts_self, ?_, ?_⟩
  · intro n a b hb
    exact ⟨_, converts_primitive hb, by simp⟩
  · intro hres n hn
    refine ⟨fun a b ha => converts_ends (hres.explored a) hw.tallied ha hn, ?_⟩
    intro a b c ha hb hbp hcp hab hbc
    have hab := (convertible_iff hw hs ha hbp hab).mp rfl
    have hbc := (convertible_iff hw hs hb hcp hbc).mp rfl
    exact converts_of_below hw hs (hres.explored a) ha hcp hn (ReflTransGen.trans hab hbc)
  · intro a b x ha hb hx hap hbp
    constructor
    · intro n m l w₁ w₂ w₃ w₄ w₅ r hxa h₁₂ hs₂ h₂₃ h₃₄ hs₄ hxb
      have hgrows : w.scope.Grows w₂.scope := hxa.evolves.trans h₁₂.grows
      have hw₂ : w₂.Sane := h₁₂.sane (hw.leads (L.nested_perform n _) hxa)
      have hbelow : w₂.scope.Below x a := ((convertible_iff hw hs hx hap hxa).mp rfl).grows h₁₂.grows
      obtain ⟨hw₃, -, hev, hab⟩ := rebases_spec hw₂ hs₂ (hgrows.registered ha) (hgrows.registered hb) h₂₃
      have hbelow : w₃.scope.Below x b := (hbelow.evolves hev).tail hab
      have hx₄ : w₄.scope.Registered x := h₃₄.grows.registered (hev.registered (hgrows.registered hx))
      exact (convertible_iff (h₃₄.sane hw₃) hs₄ hx₄ hbp hxb).mpr (hbelow.grows (h₃₄.grows.trans hxb.evolves))
    · intro hres n hn
      obtain ⟨w', hreb, hscope⟩ := rebases_ends (L := L) (n := n) (a := a) (b := b) hres
      obtain ⟨hw', hs', hev, hab⟩ := rebases_spec hw hs ha hb hreb
      refine ⟨w', hreb, fun hxa => ?_⟩
      have hbelow : w'.scope.Below x b := (((convertible_iff hw hs hx hap hxa).mp rfl).evolves hev).tail hab
      refine converts_of_below hw' hs' ?_ (hev.registered hx) hbp ?_ hbelow
      · rw [hscope]
        exact (hres.rebind a b).explored x
      · rw [hscope]
        exact Nat.le_trans (Nat.le_of_eq (Action.size_next (x := .rebind a b) nofun)) hn

def knotted : Loader := fun c name => do
  let b ← Script.register "B"
  if name = "A" then return .ok { superClass := some c, interfaces := [b] }
  else return .error (.notFound name)

theorem convertible_exactly_in_knot : ∃ w w₁ w₃ w₅, knotted.Reaches Action.Own w ∧
    knotted.Converts 3 ⟨9⟩ ⟨10⟩ w true w₁ ∧ w₁.scope.Below ⟨9⟩ ⟨10⟩ ∧
    knotted.Rebases 3 ⟨10⟩ ⟨11⟩ w₁ w₃ ∧ knotted.Converts 3 ⟨9⟩ ⟨11⟩ w₃ true w₅ := by
  let script : Script Unit := do
    let _ ← Script.register "A"
    let _ ← Script.register "B"
    let _ ← Script.register "C"
  let ask (target : ClassId) := knotted.perform 3 (Query.isConvertibleTo ⟨9⟩ target)
  let rebase := knotted.perform 3 (Script.request (.rebind ⟨10⟩ ⟨11⟩))
  have h : (((knotted.perform 3 script).advance Action.Own 3 .new).bind fun m =>
      ((ask ⟨10⟩).advance Action.Steady 6 m.2).bind fun m₁ =>
        (rebase.advance (Action.RebindsOnly ⟨10⟩ ⟨11⟩) 6 m₁.2).bind fun m₃ =>
          ((ask ⟨11⟩).advance Action.Steady 4 m₃.2).map fun m₅ =>
            (m.2.scope.size, [m.2, m₁.2, m₃.2].map Session.stack, m₁.1.result?,
              m₃.1.result?.isSome, m₅.1.result?.isSome)) =
      some (12, [[], [], []], some true, true, true) := by decide +kernel
  obtain ⟨⟨p, w⟩, hp, h⟩ := Option.bind_eq_some_iff.mp h
  obtain ⟨⟨p₁, w₁⟩, hp₁, h⟩ := Option.bind_eq_some_iff.mp h
  obtain ⟨⟨p₃, w₃⟩, hp₃, h⟩ := Option.bind_eq_some_iff.mp h
  obtain ⟨⟨p₅, w₅⟩, hp₅, h⟩ := Option.map_eq_some_iff.mp h
  simp only [Prod.mk.injEq, List.map_cons, List.cons.injEq] at h
  obtain ⟨hsize, ⟨hs, hs₁, hs₃, -⟩, ha₁, ha₃, ha₅⟩ := h
  obtain ⟨_, ha₃⟩ := Option.isSome_iff_exists.mp ha₃
  obtain ⟨r, ha₅⟩ := Option.isSome_iff_exists.mp ha₅
  have hw : knotted.Reaches Action.Own w := ⟨_, script, 3, p, Run.leads_iff_advance.mpr ⟨3, hp⟩⟩
  have h₁ : knotted.Converts 3 ⟨9⟩ ⟨10⟩ w true w₁ := Run.ends_of_advance hp₁ ha₁
  have h₃ : knotted.Rebases 3 ⟨10⟩ ⟨11⟩ w₁ w₃ := Run.ends_of_advance hp₃ ha₃
  have h₅ : knotted.Converts 3 ⟨9⟩ ⟨11⟩ w₃ r w₅ := Run.ends_of_advance hp₅ ha₅
  have hreg : ∀ i < 12, w.scope.Registered ⟨i⟩ := fun i hi => lt_of_lt_of_eq hi hsize.symm
  have hstill : ∀ v, knotted.Continues Action.Steady v v :=
    fun v => ⟨Unit, .done (), 0, .done (), .refl _ _⟩
  obtain ⟨hiff, -, -, -, hrebased⟩ := convertible_exactly hw hs
  obtain ⟨hrebased, -⟩ := hrebased ⟨10⟩ ⟨11⟩ ⟨9⟩ (hreg 10 (by decide)) (hreg 11 (by decide))
    (hreg 9 (by decide)) rfl rfl
  obtain rfl : r = true := hrebased _ _ _ _ _ _ _ _ _ h₁ (hstill w₁) hs₁ h₃ (hstill w₃) hs₃ h₅
  exact ⟨w, w₁, w₃, w₅, hw, h₁, (hiff _ _ _ _ _ (hreg 9 (by decide)) rfl h₁).mp rfl, h₃, h₅⟩

end Loader

end ClassHierarchy
