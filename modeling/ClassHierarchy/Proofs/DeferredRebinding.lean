import ClassHierarchy.Proofs.Run.Performing
import ClassHierarchy.Proofs.Run.Reading
import ClassHierarchy.Proofs.Scope.Heirless

/-!
Deferred rebinding. A class that is given another super class while it is loaded comes out as if it had been
given it right afterwards, whatever becomes of the load.
-/

namespace ClassHierarchy

deriving instance DecidableEq for Action

namespace Action

def isLook : Action → Bool
  | .look => true
  | _ => false

def effects (xs : List Action) : List Action := xs.filter fun x => !x.isLook

def plainly (s : Scope) (xs : List Action) : Scope := xs.foldl (fun s x => x.plain s) s

theorem plainly_effects (s : Scope) (xs : List Action) : plainly s (effects xs) = plainly s xs := by
  induction xs generalizing s with
  | nil => rfl
  | cons x xs ih =>
    have hfold : plainly s (x :: xs) = plainly (x.plain s) xs := rfl
    cases hx : x.isLook with
    | true =>
      have hplain : x.plain s = s := by cases x <;> first | rfl | cases hx
      have hcons : effects (x :: xs) = effects xs := by simp [effects, hx]
      rw [hcons, ih, hfold, hplain]
    | false =>
      have hcons : effects (x :: xs) = x :: effects xs := by simp [effects, hx]
      rw [hcons, hfold]
      exact ih _

end Action

namespace Scope

def rebased (s : Scope) (c : ClassId) (p? : Option ClassId) : Scope := p?.elim s fun p => s.update c (.rebase p)

theorem rebased_update (s : Scope) (c : ClassId) (p? : Option ClassId) (p : ClassId) :
    (s.rebased c p?).update c (.rebase p) = s.rebased c (some p) := by
  cases p? with
  | none => rfl
  | some q =>
    apply ext_get?
    intro x
    simp only [rebased, Option.elim_some, get?_update]
    split <;> simp [Function.comp_def, Entry.rebase_rebase]

end Scope

namespace Action

variable {x : Action} {s : Scope} {c p : ClassId}

theorem plain_rebased (hx : x.rebound? c = none) (hc : s.Registered c) (p? : Option ClassId) :
    x.plain (s.rebased c p?) = (x.plain s).rebased c p? := by
  cases p? with
  | none => rfl
  | some p => exact plain_rebase hx hc

theorem plain_of_rebound? (hx : x.rebound? c = some p) (s : Scope) : x.plain s = s.update c (.rebase p) := by
  cases x with
  | rebind b q =>
    simp only [rebound?] at hx
    split at hx
    next hb =>
      subst hb
      cases hx
      rfl
    next => cases hx
  | _ => cases hx

theorem plainly_rebased (hc : s.Registered c) (p? : Option ClassId) (xs : List Action) :
    plainly (s.rebased c p?) xs =
      (plainly s (xs.filter fun x => (x.rebound? c).isNone)).rebased c
        ((xs.filterMap (·.rebound? c)).getLast?.or p?) := by
  induction xs generalizing s p? with
  | nil => simp [plainly]
  | cons x xs ih =>
    cases hx : x.rebound? c with
    | none =>
      have hstep := ih (x.registered_plain hc) p?
      rw [← plain_rebased hx hc] at hstep
      simpa [plainly, hx] using hstep
    | some p =>
      have hstep := ih hc (some p)
      rw [← Scope.rebased_update s c p?, ← plain_of_rebound? hx] at hstep
      cases hlast : (xs.filterMap (·.rebound? c)).getLast? <;>
        simpa [plainly, hx, List.getLast?_cons, hlast] using hstep

theorem registered_of_rebound? {w : Session} (hx : x.rebound? c = some p) (ho : x.Own w) :
    w.scope.Registered p := by
  cases x with
  | rebind b q =>
    simp only [rebound?] at hx
    split at hx
    · cases hx
      exact ho
    · cases hx
  | _ => cases hx

end Action

namespace Run

variable {α : Type} {may : Action → Session → Prop} {p : Run α} {w v : Session} {xs : List Action} {a : α}

theorem Performs.heirless (h : p.Performs may w xs a v) :
    v.scope.heirless = Action.plainly w.scope.heirless xs := by
  induction h with
  | done a w => rfl
  | ask _ hx _ ih => rw [ih, Action.scope_of_perform hx, Action.heirless_next]; rfl

theorem Performs.registered {c q : ClassId} (h : p.Performs Action.Own w xs a v)
    (hq : q ∈ xs.filterMap (·.rebound? c)) : v.scope.Registered q := by
  induction h with
  | done a w => cases hq
  | @ask x k r xs a w w' w'' hm hx hp ih =>
    cases hb : x.rebound? c with
    | none => exact ih (by simpa [hb] using hq)
    | some q' =>
      rw [List.filterMap_cons_some hb] at hq
      rcases List.mem_cons.mp hq with rfl | hq
      · have hw' := (Action.evolves_of_perform hx).registered (Action.registered_of_rebound? hb hm)
        exact hp.ends.evolves_any.registered hw'
      · exact ih hq

theorem Performs.coincides {β : Type} {q : Run β} {b : β} {w' v' : Session} (hp : p.Performs Action.Own w xs a v)
    (hq : q.Performs Action.Own w' xs b v') (hw : w.scope.Tallied) (hw' : w'.scope.Tallied)
    (h : w.scope.heirless = w'.scope.heirless) : v.scope.Coincides v'.scope := by
  apply (hw.leads hp.ends).coincides (hw'.leads hq.ends)
  rw [hp.heirless, hq.heirless, h]

end Run

namespace Loader

variable {L L' : Loader} {n m : Nat} {w v v' : Session} {xs ys : List Action} {c p : ClassId}

theorem deferred_rebinding (h : L.Reaches Action.Own w) (hc : w.scope.isUntouched c = true)
    (hxs : (Run.resolve (L.call n) c).Performs Action.Own w xs () v)
    (hys : (Run.resolve (L'.call m) c).Performs Action.Own w ys () v')
    (hout : Action.effects ys = Action.effects (xs.filter fun x => (x.rebound? c).isNone))
    (hlast : (xs.filterMap (·.rebound? c)).getLast? = some p) (k : Nat) :
    ∃ u, (L'.perform k (Script.request (.rebind c p))).Ends Action.Own v' () u ∧
      v.scope.Coincides u.scope ∧
      ∀ {α β : Type} {q : Run α} {r : Run β} {zs : List Action} {a : α} {b : β} {v₁ u₁ : Session},
        q.Performs Action.Own v zs a v₁ → r.Performs Action.Own u zs b u₁ → v₁.scope.Coincides u₁.scope := by
  have hcreg : w.scope.heirless.Registered c := by
    simpa [Scope.Registered] using (Scope.isUntouched_iff.mp hc).1
  have hsame : v.scope.heirless = (v'.scope.rebind c p).heirless := by
    have hmoved := Action.plainly_rebased hcreg none xs
    rw [hlast, ← Action.plainly_effects _ (xs.filter _), ← hout, Action.plainly_effects, ← hys.heirless] at hmoved
    rw [Scope.heirless_rebind, hxs.heirless]
    exact hmoved
  have hp : v'.scope.Registered p := by
    have hv := hxs.registered (List.mem_of_getLast? hlast)
    have hsize : v.scope.size = v'.scope.size := by
      rw [← Scope.size_heirless, hsame, Scope.heirless_rebind, Scope.size_update, Scope.size_heirless]
    exact (Scope.registered_congr hsize).mp hv
  have htouched : v'.scope.isUntouched c = false :=
    ((Run.sound_resolve (L'.nested_call m) c w).ends hys.ends).2
  obtain ⟨u, hu, huscope⟩ := ends_rebind (L := L') (n := k) htouched (fun _ _ => Action.own_of_steady) hp
  rw [← huscope] at hsame
  have hvtallied : v.scope.Tallied := h.tallied.leads hxs.ends
  have hutallied : u.scope.Tallied := (h.tallied.leads hys.ends).leads hu
  refine ⟨u, hu, hvtallied.coincides hutallied hsame, ?_⟩
  intro _ _ _ _ _ _ _ _ _ hq hr
  exact hq.coincides hr hvtallied hutallied hsame

def shifting (shifts : Bool) : Loader := fun c name => do
  if name = "A" then
    let p ← Script.register "P"
    let q ← Script.register "Q"
    if shifts then Script.request (.rebind c p)
    let _ ← Script.request (.attach c { superClass := some p })
    Script.request (.resolve q)
    return .ok { superClass := some ⟨99⟩ }
  else
    let a ← Script.register "A"
    if shifts then Script.request (.rebind a c)
    return .error (.notFound name)

theorem deferred_rebinding_in_nested_load : ∃ w v v' u, (shifting true).Reaches Action.Own w ∧
    (Run.resolve ((shifting true).call 3) ⟨9⟩).Ends Action.Own w () v ∧
    (v.scope.declaration ⟨9⟩).superClass = some ⟨11⟩ ∧
    (Run.resolve ((shifting false).call 3) ⟨9⟩).Ends Action.Own w () v' ∧
    (v'.scope.declaration ⟨9⟩).superClass = some ⟨10⟩ ∧
    ((shifting false).perform 0 (Script.request (.rebind ⟨9⟩ ⟨11⟩))).Ends Action.Own v' () u ∧
    v.scope.Coincides u.scope := by
  let script : Script ClassId := Script.register "A"
  let load (shifts : Bool) (w : Session) :=
    (Run.resolve ((shifting shifts).call 3) ⟨9⟩).record Action.Own 30 w
  have h : (((shifting true).perform 0 script).advance Action.Own 1 .new).bind (fun m =>
      (load true m.2).bind fun r => (load false m.2).map fun r' =>
        (m.2.scope.isUntouched ⟨9⟩, (r.2.2.scope.declaration ⟨9⟩).superClass,
          (r'.2.2.scope.declaration ⟨9⟩).superClass,
          decide (Action.effects r'.1 = Action.effects (r.1.filter fun x => (x.rebound? ⟨9⟩).isNone)),
          (r.1.filterMap (·.rebound? ⟨9⟩)).getLast?)) =
      some (true, some ⟨11⟩, some ⟨10⟩, true, some ⟨11⟩) := by decide +kernel
  obtain ⟨⟨rest, w⟩, hw, h⟩ := Option.bind_eq_some_iff.mp h
  obtain ⟨⟨xs, ⟨⟩, v⟩, hxs, h⟩ := Option.bind_eq_some_iff.mp h
  obtain ⟨⟨ys, ⟨⟩, v'⟩, hys, h⟩ := Option.map_eq_some_iff.mp h
  simp only [Prod.mk.injEq, decide_eq_true_eq] at h
  obtain ⟨hc, hv, hv', hout, hlast⟩ := h
  have hr : (shifting true).Reaches Action.Own w := ⟨_, script, 0, rest, Run.leads_iff_advance.mpr ⟨1, hw⟩⟩
  have hxs := Run.performs_of_record hxs
  have hys := Run.performs_of_record hys
  obtain ⟨u, hu, hsame, -⟩ := deferred_rebinding hr hc hxs hys hout hlast 0
  exact ⟨w, v, v', u, hr, hxs.ends, hv, hys.ends, hv', hu, hsame⟩

end Loader

end ClassHierarchy
