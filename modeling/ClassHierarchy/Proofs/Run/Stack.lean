import ClassHierarchy.Proofs.Run.Control
import ClassHierarchy.Proofs.Run.Effects
import ClassHierarchy.Proofs.Scope.Primitives

/-!
Loader calls are nested. The calls that have not returned form a stack, and the control flow of
every run only ends the topmost call, only calls for classes that nobody has touched, and only
rebinds classes that are settled or being loaded.
-/

namespace ClassHierarchy

namespace Occurrence

def track (stack : List ClassId) : Occurrence → List ClassId
  | called c _ => c :: stack
  | returned _ => stack.tail
  | _ => stack

def call? : Occurrence → Option ClassId
  | called c _ => some c
  | _ => none

end Occurrence

namespace Session

def stack (w : Session) : List ClassId := w.trace.toList.foldl Occurrence.track []

def calls (w : Session) : List ClassId := w.trace.toList.filterMap Occurrence.call?

end Session

namespace Action

def track (stack : List ClassId) : Action → List ClassId
  | .call c => c :: stack
  | .finish .. => stack.tail
  | _ => stack

def calls : Action → List ClassId
  | .call c => [c]
  | _ => []

/-- What the control flow sees to before it takes an action. -/
def Due : Action → Session → Prop
  | .call c, w => w.scope.isUntouched c = true
  | .finish c _, w => w.stack.head? = some c
  | .rebind c _, w => w.scope.isUntouched c = false
  | _, _ => True

variable {x : Action} {r : x.Reply} {w w' : Session}

theorem stack_map_event (es : List Event) (stack : List ClassId) :
    (es.map Occurrence.event).foldl Occurrence.track stack = stack := by
  induction es with
  | nil => rfl
  | cons e es ih => exact ih

theorem stack_of_perform (h : x.perform w = some (r, w')) : w'.stack = x.track w.stack := by
  unfold Session.stack
  rw [(perform_eq h).2, List.foldl_append]
  cases x with
  | register name => exact stack_map_event _ _
  | rebind c p =>
    simp only [adds]
    split <;> rfl
  | finish c outcome => exact stack_map_event _ _
  | _ => rfl

theorem calls_of_perform (h : x.perform w = some (r, w')) : w'.calls = w.calls ++ x.calls := by
  unfold Session.calls
  rw [(perform_eq h).2, List.filterMap_append]
  cases x with
  | register name => simp [adds, calls, Occurrence.call?]
  | rebind c p =>
    simp only [adds]
    split <;> simp [calls, Occurrence.call?]
  | _ => simp [adds, calls, Occurrence.call?]

end Action

namespace Scope

variable {s s' : Scope} {c d x : ClassId}

theorem isUntouched_of_settled {st : Settled} (h : s.settled? c = some st) : s.isUntouched c = false := by
  obtain ⟨e, he, hs⟩ := Option.bind_eq_some_iff.mp h
  simp [isUntouched, Entry.isUntouched, he, hs]

theorem isUntouched_of_unregistered (h : ¬ s.Registered c) : s.isUntouched c = false := by
  simp [isUntouched, unregistered_get? h]

theorem isUntouched_iff : s.isUntouched c = true ↔
    s.Registered c ∧ s.settled? c = none ∧ s.isLoading c = false := by
  constructor
  · intro h
    obtain ⟨e, he, hu⟩ := (Option.any_eq_true _ _).mp h
    have hu : e.loading = false ∧ e.settled? = none := by simpa [Entry.isUntouched] using hu
    exact ⟨.of_get? he, by simp [settled?, he, hu.2], by simp [isLoading, he, hu.1]⟩
  · rintro ⟨hc, hs, hl⟩
    obtain ⟨e, he⟩ := registered_iff.mp hc
    have hs : e.settled? = none := by simpa [settled?, he] using hs
    have hl : e.loading = false := by simpa [isLoading, he] using hl
    simp [isUntouched, Entry.isUntouched, he, hs, hl]

theorem settled_endLoad (hc : s.Registered c) (outcome : Except LoadError Declaration) :
    ∃ st, (s.endLoad c outcome).2.settled? c = some st := by
  obtain ⟨d, missing, -, hi | ⟨he, hn⟩⟩ := s.endLoad_cases c outcome
  · obtain ⟨st, hs, -⟩ := hi.settled
    exact ⟨st, hs⟩
  · rw [he]
    exact settled_of_install?_eq_none hn ((registered_congr (by simp)).mpr hc)

theorem isUntouched_endLoad (s : Scope) (c : ClassId) (outcome : Except LoadError Declaration) :
    (s.endLoad c outcome).2.isUntouched c = false := by
  by_cases hc : s.Registered c
  · obtain ⟨st, hs⟩ := settled_endLoad hc outcome
    exact isUntouched_of_settled hs
  · apply isUntouched_of_unregistered
    intro hr
    obtain ⟨d, missing, -, hi | ⟨he, -⟩⟩ := s.endLoad_cases c outcome
    · exact hc ((registered_congr (by simp)).mp hi.registered)
    · rw [he] at hr
      exact hc ((registered_congr (by simp)).mp hr)

end Scope

namespace Run

variable {α β : Type} {load : ClassId → Run (Except LoadError Declaration)}

def Nested (p : Run α) : Prop := ∀ w, p.Sound Action.Due (fun _ w' => w'.stack = w.stack) w

theorem nested_done (a : α) : Nested (.done a : Run α) := fun _ => rfl

theorem Nested.bind {p : Run α} {f : α → Run β} (hp : p.Nested) (hf : ∀ a, (f a).Nested) :
    (p >>= f).Nested := by
  intro w
  apply (hp w).bind
  intro a v hv
  apply (hf a v).imp
  intro b v' hv'
  rw [hv', hv]

theorem nested_act {x : Action} (hdue : ∀ w, x.Due w) (ht : ∀ stack, x.track stack = stack) :
    Nested (act x) := by
  intro w
  apply sound_act (hdue w)
  intro r w' hx
  rw [Action.stack_of_perform hx, ht]

theorem nested_exhausted : Nested (exhausted : Run α) :=
  fun _ => ⟨trivial, fun r => nomatch r⟩

-- Once the call of `c` is on the stack, loading leaves the stack alone, so that the loader comes
-- back to find `c` on top.
theorem sound_resolve (hload : ∀ c, (load c).Nested) (c : ClassId) (w : Session) :
    (resolve load c).Sound Action.Due
      (fun _ w' => w'.stack = w.stack ∧ w'.scope.isUntouched c = false) w := by
  apply Sound.look trivial
  by_cases hu : w.scope.isUntouched c = true
  · rw [if_pos hu]
    refine ⟨hu, fun _ w₂ hcall => ?_⟩
    have h₂ : w₂.stack = c :: w.stack := Action.stack_of_perform hcall
    apply (hload c w₂).bind
    intro outcome w₃ h₃
    refine ⟨by simp [Action.Due, h₃, h₂], fun _ w₄ hfin => ?_⟩
    have h₄ : w₄.stack = w₃.stack.tail := Action.stack_of_perform hfin
    refine ⟨by rw [h₄, h₃, h₂, List.tail_cons], ?_⟩
    rw [Action.scope_of_perform hfin]
    exact w₃.scope.isUntouched_endLoad c outcome
  · rw [if_neg hu]
    exact ⟨rfl, by simpa using hu⟩

theorem nested_resolve (hload : ∀ c, (load c).Nested) (c : ClassId) : (resolve load c).Nested :=
  fun w => (sound_resolve hload c w).imp fun _ _ h => h.1

theorem nested_rebind (hload : ∀ c, (load c).Nested) (c p : ClassId) : (rebind load c p).Nested := by
  intro w
  apply (sound_resolve hload c w).bind
  rintro - v ⟨hs, hu⟩
  apply sound_act hu
  intro r v' hx
  rw [Action.stack_of_perform hx]
  exact hs

theorem carries_nested (hload : ∀ c, (load c).Nested) : Carries Nested (fun _ => True) load where
  done := nested_done
  bind := .bind
  exhausted := nested_exhausted
  look := nested_act (fun _ => trivial) fun _ => rfl
  resolve := nested_resolve hload
  register _ _ := nested_act (fun _ => trivial) fun _ => rfl
  attach _ _ _ := nested_act (fun _ => trivial) fun _ => rfl
  rebind c p _ := nested_rebind hload c p
  emit _ _ := nested_act (fun _ => trivial) fun _ => rfl
  note _ _ := nested_act (fun _ => trivial) fun _ => rfl

theorem Leads.call_of_mem_stack {may : Action → Session → Prop} {p q : Run α} {w v : Session} {c : ClassId}
    (h : p.Leads may w q v) (hw : c ∉ w.stack) (hv : c ∈ v.stack) :
    ∃ (k : Unit → Run α) (u u' : Session), p.Leads may w (.ask (.call c) k) u ∧
      (Action.call c).perform u = some ((), u') ∧ (k ()).Leads may u' q v := by
  obtain ⟨x, k, r, u, u', hu, hout, hx, hin, hrest⟩ := h.turn (I := fun v => c ∈ v.stack) hw hv
  rw [Action.stack_of_perform hx] at hin
  cases x with
  | call b =>
    rcases List.mem_cons.mp hin with rfl | hin
    · exact ⟨k, u, u', hu, hx, hrest⟩
    · exact absurd hin hout
  | finish b outcome => exact absurd (List.mem_of_mem_tail hin) hout
  | _ => exact absurd hin hout

end Run

namespace Loader

theorem nested_call (L : Loader) (budget : Nat) (c : ClassId) : (L.call budget c).Nested := by
  induction budget generalizing c with
  | zero => exact Run.nested_exhausted
  | succ n ih =>
    have h := Run.carries_nested ih
    exact h.look.bind fun s => h.script (Script.uses_true _) n

theorem nested_perform {α : Type} (L : Loader) (budget : Nat) (script : Script α) :
    (L.perform budget script).Nested :=
  (Run.carries_nested (L.nested_call budget)).script (Script.uses_true script) budget

end Loader

/-- The flags of the scope tell which loader calls are under way, and a super class waits only for
one of these to come back. -/
structure Session.Attended (w : Session) : Prop where
  nodup : w.stack.Nodup
  loading : ∀ c, w.scope.isLoading c = true ↔ c ∈ w.stack
  waiting : ∀ c p, w.scope.waiting? c = some p → w.scope.isLoading c = true

namespace Session

variable {w w' : Session} {c : ClassId}

theorem attended_new : Session.new.Attended := by
  refine ⟨List.nodup_nil, fun c => ⟨fun h => ?_, fun h => nomatch h⟩, fun c p h => ?_⟩
  · obtain ⟨e, hc, hl⟩ := (Option.any_eq_true _ _).mp h
    obtain ⟨p, -, rfl⟩ := Scope.get?_new hc
    cases hl
  · obtain ⟨e, hc, hw⟩ := Option.bind_eq_some_iff.mp h
    obtain ⟨p, -, rfl⟩ := Scope.get?_new hc
    cases hw

theorem Attended.of_unchanged (h : w.Attended) (hs : w'.stack = w.stack)
    (hl : ∀ c, w'.scope.isLoading c = w.scope.isLoading c)
    (hw : ∀ c p, w'.scope.waiting? c = some p → w.scope.isLoading c = true) : w'.Attended where
  nodup := hs ▸ h.nodup
  loading c := by rw [hl, hs, h.loading]
  waiting c p hp := by rw [hl, hw c p hp]

theorem Attended.registered (h : w.Attended) (hc : c ∈ w.stack) : w.scope.Registered c := by
  have hl := (h.loading c).mpr hc
  obtain ⟨e, he, -⟩ := (Option.any_eq_true _ _).mp hl
  exact .of_get? he

theorem Attended.call (h : w.Attended) (hu : w.scope.isUntouched c = true)
    (hx : (Action.call c).perform w = some (r, w')) : w'.Attended := by
  obtain ⟨hc, hs, hl⟩ := Scope.isUntouched_iff.mp hu
  have hstack : w'.stack = c :: w.stack := Action.stack_of_perform hx
  have hscope : w'.scope = w.scope.mark c true := Action.scope_of_perform hx
  have hnew : c ∉ w.stack := fun hm => by
    rw [← h.loading, hl] at hm
    cases hm
  constructor
  · rw [hstack]
    exact List.nodup_cons.mpr ⟨hnew, h.nodup⟩
  · intro x
    rw [hscope, hstack, Scope.isLoading_mark _ hc, List.mem_cons, ← h.loading]
    by_cases hxc : x = c <;> simp [hxc]
  · intro x p hp
    rw [hscope, Scope.waiting?_mark] at hp
    rw [hscope, Scope.isLoading_mark _ hc]
    by_cases hxc : x = c
    · simp [hxc]
    · rw [if_neg hxc, h.waiting x p hp]

theorem Attended.finish {outcome : Except LoadError Declaration} (h : w.Attended)
    (hd : w.stack.head? = some c) (hx : (Action.finish c outcome).perform w = some (r, w')) :
    w'.Attended := by
  obtain ⟨rest, hrest⟩ : ∃ rest, w.stack = c :: rest := by
    cases hw : w.stack with
    | nil => simp [hw] at hd
    | cons x rest => exact ⟨rest, by simpa [hw] using hd⟩
  have hc : w.scope.Registered c := h.registered (by simp [hrest])
  have hstack : w'.stack = rest := by
    rw [Action.stack_of_perform hx, hrest]
    rfl
  have hscope : w'.scope = (w.scope.endLoad c outcome).2 := Action.scope_of_perform hx
  obtain ⟨hnew, hnodup⟩ := List.nodup_cons.mp (hrest ▸ h.nodup)
  -- Whether or not the outcome is installed, `c` no longer loads and nothing waits for it.
  have hl : ∀ x, w'.scope.isLoading x = (w.scope.mark c false).isLoading x ∧
      (w'.scope.waiting? x = if x = c then none else w.scope.waiting? x) := by
    intro x
    obtain ⟨d, missing, -, hi | ⟨he, hn⟩⟩ := w.scope.endLoad_cases c outcome
    · rw [hscope]
      refine ⟨hi.loading x, ?_⟩
      split
      next hxc => rw [hxc, hi.waiting_self]
      next hxc => rw [hi.waiting x hxc, Scope.waiting?_mark]
    · rw [hscope, he]
      refine ⟨rfl, ?_⟩
      split
      next hxc =>
        obtain ⟨st, hs⟩ := Scope.settled_of_install?_eq_none hn ((Scope.registered_congr (by simp)).mpr hc)
        rw [hxc, Scope.waiting?_of_settled hs]
      next => rw [Scope.waiting?_mark]
  constructor
  · rw [hstack]
    exact hnodup
  · intro x
    rw [(hl x).1, Scope.isLoading_mark _ hc, hstack]
    have hm := h.loading x
    rw [hrest, List.mem_cons] at hm
    by_cases hxc : x = c
    · simp [hxc, hnew]
    · simpa [hxc] using hm
  · intro x p hp
    rw [(hl x).2] at hp
    rw [(hl x).1, Scope.isLoading_mark _ hc]
    by_cases hxc : x = c
    · simp [hxc] at hp
    · rw [if_neg hxc] at hp ⊢
      exact h.waiting x p hp

theorem Attended.rebind {p : ClassId} (h : w.Attended) (hd : w.scope.isUntouched c = false)
    (hx : (Action.rebind c p).perform w = some (r, w')) : w'.Attended := by
  have hscope : w'.scope = w.scope.rebind c p := Action.scope_of_perform hx
  have hstack : w'.stack = w.stack := Action.stack_of_perform hx
  cases hs : w.scope.settled? c with
  | some st =>
    have hr := Scope.rebound_of_settled (p := p) hs
    refine h.of_unchanged hstack (fun x => hscope ▸ hr.loading x) fun x q hq => ?_
    rw [hscope, hr.waiting] at hq
    exact h.waiting x q hq
  | none =>
    refine h.of_unchanged hstack (fun x => ?_) fun x q hq => ?_
    · rw [hscope, Scope.isLoading_rebind_of_unsettled hs]
    · rw [hscope, Scope.waiting?_rebind_of_unsettled hs] at hq
      by_cases hxc : x = c
      · rw [if_pos hxc] at hq
        obtain ⟨e, he, -⟩ := Option.map_eq_some_iff.mp hq
        by_contra hl
        have hl : w.scope.isLoading c = false := by simpa [hxc] using hl
        have hu : w.scope.isUntouched c = true := Scope.isUntouched_iff.mpr ⟨.of_get? he, hs, hl⟩
        rw [hd] at hu
        cases hu
      · rw [if_neg hxc] at hq
        exact h.waiting x q hq

theorem Attended.next {x : Action} {r : x.Reply} (h : w.Attended) (hd : x.Due w)
    (hx : x.perform w = some (r, w')) : w'.Attended := by
  have hscope := Action.scope_of_perform hx
  have hstack := Action.stack_of_perform hx
  cases x with
  | call c => exact h.call hd hx
  | finish c outcome => exact h.finish hd hx
  | register name =>
    obtain ⟨names, hr⟩ := w.scope.register_eq_append name
    have hscope : w'.scope = w.scope.append names := hscope.trans hr
    refine h.of_unchanged hstack (fun c => ?_) fun c p hp => ?_
    · rw [hscope, Scope.isLoading_append]
    · rw [hscope, Scope.waiting?_append] at hp
      exact h.waiting c p hp
  | attach c d =>
    cases ha : w.scope.attach c d with
    | error e =>
      have hscope : w'.scope = w.scope := by simpa [Action.next, ha, Except.toOption] using hscope
      exact h.of_unchanged hstack (fun c => by rw [hscope]) fun c p hp => h.waiting c p (hscope ▸ hp)
    | ok s' =>
      have hscope : w'.scope = s' := by simpa [Action.next, ha, Except.toOption] using hscope
      have hi := Scope.installed_of_eq_some (Scope.attach_eq_ok ha).2
      refine h.of_unchanged hstack (fun x => hscope ▸ hi.loading x) fun x p hp => ?_
      rw [hscope] at hp
      by_cases hxc : x = c
      · rw [hxc, hi.waiting_self] at hp
        cases hp
      · rw [hi.waiting x hxc] at hp
        exact h.waiting x p hp
  | rebind c p => exact h.rebind hd hx
  | giveUp => cases r
  | look | emit e | note m =>
    have hscope : w'.scope = w.scope := hscope
    exact h.of_unchanged hstack (fun c => by rw [hscope]) fun c p hp => h.waiting c p (hscope ▸ hp)

end Session

theorem Loader.Reaches.attended {L : Loader} {may : Action → Session → Prop} {w : Session}
    (h : L.Reaches may w) : w.Attended := by
  obtain ⟨α, script, budget, rest, hl⟩ := h
  exact (L.nested_perform budget script .new).invariant hl Session.attended_new
    fun x v r v' hv hd _ hx => hv.next hd hx

end ClassHierarchy
