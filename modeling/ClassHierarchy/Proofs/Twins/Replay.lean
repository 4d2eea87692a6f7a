import ClassHierarchy.Proofs.Run.Stack
import ClassHierarchy.Proofs.Twins.ByName

namespace ClassHierarchy

open List Relator

def Request.Harmless : Request → Prop
  | .register _ => True
  | .emit _ => True
  | _ => False

namespace Scope

structure Widened (s s' : Scope) : Prop where
  quiet : s.Quiet s'
  loading : ∀ x, s'.isLoading x = s.isLoading x
  waiting : ∀ x, s'.waiting? x = s.waiting? x

variable {s s' s'' : Scope}

theorem Widened.refl (s : Scope) : s.Widened s := ⟨.refl s, fun _ => rfl, fun _ => rfl⟩

theorem Quiet.trans (h : s.Quiet s') (h' : s'.Quiet s'') : s.Quiet s'' where
  settled x := (h'.settled x).trans (h.settled x)
  heirs x := (h'.heirs x).trans (h.heirs x)
  orderly ho := h'.orderly (h.orderly ho)
  evolves R := (h.evolves R).trans (h'.evolves R)

theorem Widened.trans (h : s.Widened s') (h' : s'.Widened s'') : s.Widened s'' where
  quiet := h.quiet.trans h'.quiet
  loading x := (h'.loading x).trans (h.loading x)
  waiting x := (h'.waiting x).trans (h.waiting x)

theorem widened_register (s : Scope) (name : FullName) : s.Widened (s.register name).2.2 := by
  obtain ⟨names, hr⟩ := s.register_eq_append name
  rw [hr]
  exact ⟨s.quiet_append names, fun _ => isLoading_append names, fun _ => waiting?_append names⟩

end Scope

namespace Script

variable {α α' : Type} {R : ClassId → ClassId → Prop} {A : α → α' → Prop} {q : Script α} {q' : Script α'}
  {a : α} {a' : α'} {s t : Scope} {w v : Session}
  {load : ClassId → Run (Except LoadError Declaration)} {n : Nat}

def replay (s : Scope) : Script α → Option α
  | .done a => some a
  | .ask (.register name) k => (s.find? name).bind fun c => replay s (k c)
  | .ask (.emit _) k => replay s (k ())
  | .ask _ _ => none

theorem replay_bind {β : Type} (q : Script α) (f : α → Script β) :
    replay s (q >>= f) = (replay s q).bind fun a => replay s (f a) := by
  induction q with
  | done a => rfl
  | ask r k ih =>
    cases r with
    | register name =>
      simp only [Program.ask_bind, replay, ih]
      exact (Option.bind_assoc ..).symm
    | emit e => exact ih ()
    | _ => rfl

theorem replay_register (name : FullName) : replay s (register name) = s.find? name :=
  Option.bind_fun_some (s.find? name)

theorem replay_evolves {P : ClassId → Prop} (h : s.Evolves P t) (ht : t.Named)
    (ha : replay s q = some a) : replay t q = some a := by
  induction q with
  | done b => exact ha
  | ask r k ih =>
    cases r with
    | register name =>
      obtain ⟨c, hc, ha⟩ := Option.bind_eq_some_iff.mp ha
      obtain ⟨hr, hn⟩ := Scope.find?_eq_some hc
      have hc' : t.find? name = some c := ht.find?_iff.mpr ⟨h.registered hr, (h.name hr).trans hn⟩
      exact Option.bind_eq_some_iff.mpr ⟨c, hc', ih c ha⟩
    | emit e => exact ih () ha
    | _ => cases ha

theorem Alike.of_replay (h : Script.Alike R A q q') (hs : replay s q = some a) (ht : replay t q' = some a')
    (hR : ∀ name c c', s.find? name = some c → t.find? name = some c' → R c c') : A a a' := by
  induction h with
  | done ha =>
    obtain rfl := Option.some.inj hs
    obtain rfl := Option.some.inj ht
    exact ha
  | register _ ih =>
    obtain ⟨c, hc, hs⟩ := Option.bind_eq_some_iff.mp hs
    obtain ⟨c', hc', ht⟩ := Option.bind_eq_some_iff.mp ht
    exact ih c c' (hR _ c c' hc hc') hs ht
  | emit _ ih => exact ih hs ht

theorem Alike.harmless (h : Script.Alike R A q q') (hR : ∀ c, R c c) : Script.Uses Request.Harmless q := by
  induction h with
  | done _ => trivial
  | register _ ih => exact ⟨trivial, fun c => ih c c (hR c)⟩
  | emit _ ih => exact ⟨trivial, fun _ => ih⟩

theorem Uses.ends (h : Script.Uses Request.Harmless q) (w : Session) :
    ∃ a v, Run.Ends Action.Steady (q.run (Run.handle load n)) w a v := by
  induction q generalizing w with
  | done a => exact ⟨a, w, .refl _ _⟩
  | ask r k ih =>
    obtain ⟨hr, hk⟩ := h
    cases r with
    | register name =>
      obtain ⟨w₁, hx⟩ : ∃ w₁, (Action.register name).perform w = some ((w.scope.register name).1, w₁) :=
        ⟨_, rfl⟩
      obtain ⟨a, v, he⟩ := ih _ (hk _) w₁
      exact ⟨a, v, (Run.ends_register_bind_iff trivial).mpr ⟨w₁, Action.scope_of_perform hx, hx, he⟩⟩
    | emit e =>
      obtain ⟨a, v, he⟩ := ih () (hk ()) (w.emit e)
      exact ⟨a, v, (Run.ends_emit_bind_iff trivial).mpr he⟩
    | _ => exact absurd hr id

theorem Uses.effect (h : Script.Uses Request.Harmless q) (hw : w.scope.Named)
    (he : Run.Ends Action.Steady (q.run (Run.handle load n)) w a v) :
    v.scope.Named ∧ w.scope.Widened v.scope ∧ replay v.scope q = some a := by
  induction q generalizing w with
  | done b =>
    obtain ⟨rfl, rfl⟩ := Run.ends_done_iff.mp he
    exact ⟨hw, .refl _, rfl⟩
  | ask r k ih =>
    obtain ⟨hr, hk⟩ := h
    cases r with
    | register name =>
      obtain ⟨w₁, hscope, -, he⟩ := (Run.ends_register_bind_iff trivial).mp he
      obtain ⟨hnamed, hc, hn, -⟩ := Scope.register_named hw name
      have hwide := w.scope.widened_register name
      rw [← hscope] at hnamed hc hn hwide
      obtain ⟨hv, hwv, hreplay⟩ := ih _ (hk _) hnamed he
      have hev := hwv.quiet.evolves fun _ => False
      have hfind : v.scope.find? name = some (w.scope.register name).1 :=
        hv.find?_iff.mpr ⟨hev.registered hc, (hev.name hc).trans hn⟩
      exact ⟨hv, hwide.trans hwv, Option.bind_eq_some_iff.mpr ⟨_, hfind, hreplay⟩⟩
    | emit e => exact ih () (hk ()) (w := w.emit e) hw ((Run.ends_emit_bind_iff trivial).mp he)
    | _ => exact absurd hr id

theorem Alike.knows (h : Script.Alike R A q q') (ht : t.Named) (hq : replay t q = some a)
    (hw : w.scope.Named) (hb : ∀ name, w.scope.Knows name → t.Knows name)
    (he : Run.Ends Action.Steady (q'.run (Run.handle load n)) w a' v)
    (hR : ∀ c c', t.Registered c → v.scope.Registered c' → t.name c = v.scope.name c' → R c c') :
    ∀ name, v.scope.Knows name → t.Knows name := by
  induction h generalizing w with
  | done _ =>
    obtain ⟨-, rfl⟩ := Run.ends_done_iff.mp he
    exact hb
  | @register name k k' _ ih =>
    obtain ⟨w₁, hscope, -, he⟩ := (Run.ends_register_bind_iff trivial).mp he
    obtain ⟨hnamed, hc, hn, hknown⟩ := Scope.register_named hw name
    rw [← hscope] at hnamed hc hn hknown
    obtain ⟨c, hfind, hq⟩ := Option.bind_eq_some_iff.mp hq
    obtain ⟨hreg, hname⟩ := Scope.find?_eq_some hfind
    have hev := he.evolves
    apply ih c _ (hR c _ hreg (hev.registered hc) (hname.trans ((hev.name hc).trans hn).symm)) hq hnamed _ he
    intro x hx
    obtain hx | rfl | hx := hknown x hx
    · exact hb x hx
    · exact ⟨c, hreg, hname⟩
    · exact ht.closed name ⟨c, hreg, hname⟩ x hx
  | @emit e k k' _ ih => exact ih (w := w.emit e) hq hw hb ((Run.ends_emit_bind_iff trivial).mp he)

end Script

end ClassHierarchy
