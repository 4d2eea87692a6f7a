import ClassHierarchy.Proofs.Run.Moments

namespace ClassHierarchy

variable {α β : Type}

def Script.Uses (P : Request → Prop) : Script α → Prop
  | .done _ => True
  | .ask r k => P r ∧ ∀ x, Script.Uses P (k x)

namespace Script

variable {P Q : Request → Prop}

theorem Uses.bind {q : Script α} {f : α → Script β} (h : Script.Uses P q) (hf : ∀ a, Script.Uses P (f a)) :
    Script.Uses P (q >>= f) := by
  induction q with
  | done a => exact hf a
  | ask r k ih => exact ⟨h.1, fun x => ih x (h.2 x)⟩

theorem Uses.mono {q : Script α} (h : Script.Uses P q) (hPQ : ∀ r, P r → Q r) : Script.Uses Q q := by
  induction q with
  | done a => trivial
  | ask r k ih => exact ⟨hPQ r h.1, fun x => ih x (h.2 x)⟩

theorem uses_true (q : Script α) : Script.Uses (fun _ => True) q := by
  induction q with
  | done a => trivial
  | ask r k ih => exact ⟨trivial, ih⟩

end Script

namespace Run

variable {C : {α : Type} → Run α → Prop} {P : Request → Prop}
  {load : ClassId → Run (Except LoadError Declaration)}

structure Carries (C : {α : Type} → Run α → Prop) (P : Request → Prop)
    (load : ClassId → Run (Except LoadError Declaration)) : Prop where
  done : ∀ {α : Type} (a : α), C (.done a : Run α)
  bind : ∀ {α β : Type} {p : Run α} {f : α → Run β}, C p → (∀ a, C (f a)) → C (p >>= f)
  exhausted : ∀ {α : Type}, C (exhausted : Run α)
  look : C (act .look)
  resolve : ∀ c, C (resolve load c)
  register : ∀ name, P (.register name) → C (act (.register name))
  attach : ∀ c d, P (.attach c d) → C (act (.attach c d))
  rebind : ∀ c p, P (.rebind c p) → C (rebind load c p)
  emit : ∀ e, P (.emit e) → C (act (.emit e))
  note : ∀ r, P (.note r) → C (act (.note r))

namespace Carries

variable (h : Carries C P load)
include h

theorem superChain (n : Nat) (seen : List ClassId) (next? : Option ClassId) :
    C (superChain load n seen next?) := by
  induction n generalizing seen next? with
  | zero =>
    cases next? with
    | none => exact h.done _
    | some c => exact h.exhausted
  | succ n ih =>
    cases next? with
    | none => exact h.done _
    | some c =>
      unfold Run.superChain
      split
      · exact h.done _
      · apply h.bind (h.resolve c)
        intro _
        exact h.bind h.look fun s => ih _ _

theorem interfaceClosure (n : Nat) (queue seen out : List ClassId) :
    C (interfaceClosure load n queue seen out) := by
  induction n generalizing queue seen out with
  | zero =>
    cases queue with
    | nil => exact h.done _
    | cons c queue => exact h.exhausted
  | succ n ih =>
    cases queue with
    | nil => exact h.done _
    | cons c queue =>
      apply h.bind (h.resolve c)
      intro _
      exact h.bind h.look fun s => ih _ _ _

theorem climbs (target : ClassId) (n : Nat) (queue seen : List ClassId) :
    C (climbs load target n queue seen) := by
  induction n generalizing queue seen with
  | zero =>
    cases queue with
    | nil => exact h.done _
    | cons c queue => exact h.exhausted
  | succ n ih =>
    cases queue with
    | nil => exact h.done _
    | cons c queue =>
      apply h.bind (h.resolve c)
      intro _
      apply h.bind h.look
      intro s
      dsimp only
      split
      · exact h.done _
      · exact ih _ _

theorem handle (n : Nat) (r : Request) (hr : P r) : C (handle load n r) := by
  cases r with
  | register name => exact h.register name hr
  | inspect => exact h.look
  | resolve c => exact h.resolve c
  | superChain c => exact h.superChain _ _ _
  | interfaceClosure roots => exact h.interfaceClosure _ _ _ _
  | climbs c target => exact h.climbs _ _ _ _
  | attach c d => exact h.attach c d hr
  | rebind c p => exact h.rebind c p hr
  | emit e => exact h.emit e hr
  | note r => exact h.note r hr

theorem script {script : Script α} (hs : Script.Uses P script) (n : Nat) :
    C (script.run (Run.handle load n)) := by
  induction script with
  | done a => exact h.done a
  | ask r k ih => exact h.bind (h.handle n r hs.1) fun x => ih x (hs.2 x)

end Carries

end Run

end ClassHierarchy
