import ClassHierarchy.Proofs.Run.Moments

namespace ClassHierarchy.Run

variable {α β : Type} {p p' : Nat → Run α} {w w' : Session} {P Q : α → Session → Prop} {Q' : β → Session → Prop}

def Converges (p : Nat → Run α) (w : Session) (Q : α → Session → Prop) : Prop :=
  ∃ a w', Q a w' ∧ ∃ N, ∀ n, N ≤ n → (p n).Ends anything w a w'

theorem Converges.imp (h : Converges p w P) (hQ : ∀ a v, P a v → Q a v) : Converges p w Q := by
  obtain ⟨a, w', ha, hN⟩ := h
  exact ⟨a, w', hQ a w' ha, hN⟩

theorem converges_done {a : α} (h : Q a w) : Converges (fun _ => .done a) w Q :=
  ⟨a, w, h, 0, fun _ _ => .refl _ _⟩

theorem Converges.bind {f : Nat → α → Run β} (h : Converges p w P)
    (hf : ∀ a v, P a v → Converges (fun n => f n a) v Q') : Converges (fun n => p n >>= f n) w Q' := by
  obtain ⟨a, v, ha, N, hN⟩ := h
  obtain ⟨b, w', hb, M, hM⟩ := hf a v ha
  refine ⟨b, w', hb, max N M, fun n hn => ?_⟩
  obtain ⟨hn, hm⟩ := Nat.max_le.mp hn
  exact (hN n hn).bind (hM n hm)

theorem converges_act {x : Action} {r : x.Reply} {Q : x.Reply → Session → Prop}
    (hx : x.perform w = some (r, w')) (h : Q r w') : Converges (fun _ => act x) w Q :=
  ⟨r, w', h, 0, fun _ _ => ends_ask_iff.mpr ⟨trivial, r, w', hx, .refl _ _⟩⟩

theorem Converges.look {f : Nat → Scope → Run β} (h : Converges (fun n => f n w.scope) w Q') :
    Converges (fun n => act .look >>= f n) w Q' := by
  obtain ⟨b, w', hb, N, hN⟩ := h
  exact ⟨b, w', hb, N, fun n hn => (ends_look_bind_iff trivial).mpr (hN n hn)⟩

theorem Converges.of_large (h : Converges p' w Q) (N : Nat) (heq : ∀ n, N ≤ n → p n = p' n) :
    Converges p w Q := by
  obtain ⟨a, w', ha, M, hM⟩ := h
  refine ⟨a, w', ha, max N M, fun n hn => ?_⟩
  obtain ⟨hn, hm⟩ := Nat.max_le.mp hn
  rw [heq n hn]
  exact hM n hm

theorem Converges.succ (h : Converges (fun n => p (n + 1)) w Q) : Converges p w Q := by
  obtain ⟨a, w', ha, N, hN⟩ := h
  refine ⟨a, w', ha, N + 1, fun n hn => ?_⟩
  cases n with
  | zero => exact absurd hn (Nat.not_succ_le_zero N)
  | succ n => exact hN n (Nat.le_of_succ_le_succ hn)

end ClassHierarchy.Run
