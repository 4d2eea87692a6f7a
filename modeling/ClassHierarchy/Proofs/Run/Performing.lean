import ClassHierarchy.Proofs.Run.Effects

namespace ClassHierarchy.Run

variable {α : Type} {may : Action → Session → Prop}

inductive Performs (may : Action → Session → Prop) : Run α → Session → List Action → α → Session → Prop
  | done (a : α) (w : Session) : Performs may (.done a) w [] a w
  | ask {x : Action} {k : x.Reply → Run α} {r : x.Reply} {xs : List Action} {a : α} {w w' w'' : Session} :
    may x w → x.perform w = some (r, w') → Performs may (k r) w' xs a w'' →
    Performs may (.ask x k) w (x :: xs) a w''

variable {p : Run α} {w v : Session} {xs : List Action} {a : α}

theorem Performs.ends (h : p.Performs may w xs a v) : p.Ends may w a v := by
  induction h with
  | done a w => exact .refl _ _
  | ask hm hx _ ih => exact .step hm hx ih

def record (may : Action → Session → Prop) [∀ x w, Decidable (may x w)] :
    Nat → Run α → Session → Option (List Action × α × Session)
  | _, .done a, w => some ([], a, w)
  | 0, .ask .., _ => none
  | n + 1, .ask x k, w =>
    if may x w then
      (x.perform w).bind fun y => (record may n (k y.1) y.2).map fun (xs, rest) => (x :: xs, rest)
    else none

theorem performs_of_record [∀ x w, Decidable (may x w)] {n : Nat} (h : p.record may n w = some (xs, a, v)) :
    p.Performs may w xs a v := by
  induction n generalizing p w xs with
  | zero =>
    cases p with
    | done b =>
      cases h
      exact .done _ _
    | ask x k => cases h
  | succ n ih =>
    cases p with
    | done b =>
      cases h
      exact .done _ _
    | ask x k =>
      simp only [record] at h
      split at h
      next hm =>
        obtain ⟨⟨r, w'⟩, hx, h⟩ := Option.bind_eq_some_iff.mp h
        obtain ⟨⟨ys, rest⟩, hr, heq⟩ := Option.map_eq_some_iff.mp h
        cases heq
        exact .ask hm hx (ih hr)
      next => cases h

end ClassHierarchy.Run
