import ClassHierarchy.Proofs.Run.Queries
import ClassHierarchy.Proofs.Run.Stack
import ClassHierarchy.Proofs.Scope.Vocabulary

namespace ClassHierarchy

variable {α β : Type} {B : FullName → Prop}

namespace Request

def Speaks (B : FullName → Prop) : Request → Prop
  | .register name => B name
  | _ => True

def Hears (B : FullName → Prop) : (r : Request) → r.Reply → Prop
  | .inspect, s => s.Speaks B
  | _, _ => True

end Request

namespace Script

def Speaks (B : FullName → Prop) : Script α → Prop
  | .done _ => True
  | .ask r k => r.Speaks B ∧ ∀ x, r.Hears B x → Speaks B (k x)

variable {q : Script α}

theorem Speaks.bind {f : α → Script β} (h : q.Speaks B) (hf : ∀ a, (f a).Speaks B) : (q >>= f).Speaks B := by
  induction q with
  | done a => exact hf a
  | ask r k ih => exact ⟨h.1, fun x hx => ih x (h.2 x hx)⟩

theorem Speaks.map (h : q.Speaks B) (f : α → β) : Script.Speaks B (do return f (← q)) := h.bind fun _ => trivial

theorem speaks_request {r : Request} (h : r.Speaks B) : (request r).Speaks B := ⟨h, fun _ _ => trivial⟩

theorem speaks_register {name : FullName} (h : B name) : (register name).Speaks B := speaks_request h

theorem Uses.speaks (h : Uses Request.Reads q) : q.Speaks B := by
  induction q with
  | done a => trivial
  | ask r k ih =>
    refine ⟨?_, fun x _ => ih x (h.2 x)⟩
    have hr := h.1
    cases r <;> trivial

theorem speaks_name (hB : Vocabulary B) {c : ClassId} {f : FullName → Script β}
    (hf : ∀ name, B name → (f name).Speaks B) : (Query.name c >>= f).Speaks B :=
  ⟨trivial, fun _ hs => hf _ (hs.name hB c)⟩

end Script

namespace Query

open Script

theorem speaks_elementClass (hB : Vocabulary B) (c : ClassId) : (elementClass c).Speaks B := by
  apply speaks_name hB
  intro full hfull
  split
  · split
    · trivial
    next inner he => exact (speaks_register (hB.element hfull he)).map _
    · exact Speaks.bind (speaks_request trivial) fun _ => trivial
  · trivial

theorem speaks_outerClass (hB : Vocabulary B) (c : ClassId) : (outerClass c).Speaks B := by
  apply speaks_name hB
  intro full hfull
  split
  next outer ho => exact (speaks_register (hB.outer hfull ho)).map _
  · trivial

end Query

def Loader.Speaks (B : FullName → Prop) (L : Loader) : Prop := ∀ c name, B name → (L c name).Speaks B

def Session.Speaks (B : FullName → Prop) (w : Session) : Prop := w.scope.Named ∧ w.scope.Speaks B

theorem Session.Speaks.next {w w' : Session} {x : Action} {r : x.Reply} (hB : Vocabulary B) (hw : w.Speaks B)
    (hx : x.Speaks B w) (hp : x.perform w = some (r, w')) : w'.Speaks B := by
  unfold Session.Speaks
  rw [Action.scope_of_perform hp]
  exact ⟨hw.1.next x, hw.2.next hB hw.1 hx⟩

namespace Run

variable {load : ClassId → Run (Except LoadError Declaration)} {L : Loader} {n : Nat} {c : ClassId}

def Speaks (B : FullName → Prop) (p : Run α) : Prop :=
  ∀ w : Session, w.Speaks B → p.Sound (Action.Speaks B) (fun _ v => v.Speaks B) w

theorem Speaks.bind {p : Run α} {f : α → Run β} (hp : p.Speaks B) (hf : ∀ a, (f a).Speaks B) :
    (p >>= f).Speaks B :=
  fun w hw => (hp w hw).bind fun a v hv => hf a v hv

theorem speaks_act (hB : Vocabulary B) {x : Action} (hx : ∀ w, x.Speaks B w) : (act x).Speaks B :=
  fun w hw => sound_act (hx w) fun _ _ hp => hw.next hB (hx w) hp

theorem speaks_exhausted : (exhausted : Run α).Speaks B := fun _ _ => ⟨trivial, fun r => nomatch r⟩

theorem speaks_resolve (hB : Vocabulary B) (hload : ∀ c, (load c).Speaks B) (c : ClassId) :
    (resolve load c).Speaks B := by
  intro w hw
  apply Sound.look trivial
  split
  · have hcall : (act (.call c)).Speaks B := speaks_act hB fun _ => trivial
    refine (hcall.bind fun _ => (hload c).bind fun o => ?_) w hw
    exact speaks_act hB fun _ => trivial
  · exact hw

theorem carries_speaks (hB : Vocabulary B) (hload : ∀ c, (load c).Speaks B) :
    Carries (Speaks B) (Request.Speaks B) load where
  done _ _ hw := hw
  bind := .bind
  exhausted := speaks_exhausted
  look := speaks_act hB fun _ => trivial
  resolve := speaks_resolve hB hload
  register _ h := speaks_act hB fun _ => h
  attach _ _ _ := speaks_act hB fun _ => trivial
  rebind c _ _ := (speaks_resolve hB hload c).bind fun _ => speaks_act hB fun _ => trivial
  emit _ _ := speaks_act hB fun _ => trivial
  note _ _ := speaks_act hB fun _ => trivial

theorem speaks_script (hB : Vocabulary B) (hload : ∀ c, (load c).Speaks B) {q : Script α} (hq : q.Speaks B)
    (n : Nat) : (q.run (handle load n)).Speaks B := by
  induction q with
  | done a => exact fun w hw => hw
  | ask r k ih =>
    by_cases hr : r = .inspect
    · subst hr
      exact fun w hw => Sound.look trivial (ih _ (hq.2 _ hw.2) w hw)
    · apply ((carries_speaks hB hload).handle n r hq.1).bind
      intro x
      apply ih x (hq.2 x _)
      cases r <;> trivial

end Run

namespace Loader

variable {L : Loader} {may : Action → Session → Prop} {w w' : Session}

theorem speaks_call (hB : Vocabulary B) (hL : L.Speaks B) (n : Nat) (c : ClassId) : (L.call n c).Speaks B := by
  induction n generalizing c with
  | zero => exact Run.speaks_exhausted
  | succ n ih =>
    intro w hw
    apply Run.Sound.look trivial
    exact Run.speaks_script hB ih (hL c _ (hw.2.name hB c)) n w hw

theorem speaks_perform (hB : Vocabulary B) (hL : L.Speaks B) {script : Script α} (hs : script.Speaks B)
    (n : Nat) : (L.perform n script).Speaks B := Run.speaks_script hB (speaks_call hB hL n) hs n

theorem speaks_of_leads {p q : Run α} (hB : Vocabulary B) (hp : p.Speaks B) (hw : w.Speaks B)
    (h : p.Leads may w q w') : w'.Speaks B :=
  (hp w hw).invariant h hw fun _ _ _ _ hv hd _ hx => hv.next hB hd hx

end Loader

end ClassHierarchy
