import ClassHierarchy.Proofs.Checked.Queries
import ClassHierarchy.Proofs.Misuse

namespace ClassHierarchy

namespace Loader

open Run (anything)

variable {α : Type} {L : Loader} {n : Nat} {beyond : Array Entry} {w : Session} {q : Script α} {c : ClassId}

/-- With every index checked, `q` ends just as it does without, unless it is stopped because a client names
a class that the scope does not have. -/
def InRange (L : Loader) (blame : ClassId → Fault) (beyond : Array Entry) (n : Nat) (q : Script α)
    (w : Session) : Prop :=
  Checked.Concurs (fun _ _ => True) ((L.check blame beyond n q).exec w) ((L.perform n q).exec w)

theorem inRange_of_agrees {blame : ClassId → Fault} {Q : α → Session → Prop} (ht : w.scope.Tallied)
    (h : Checked.Agrees (L.check blame beyond n q) (L.perform n q) w Q) : L.InRange blame beyond n q w :=
  (h ht).imp fun _ _ _ => trivial

theorem inRange_of_operation (ht : w.scope.Tallied) (hc : w.scope.Registered c)
    (h : Query.Operation w.scope c q) : L.InRange .outOfRange beyond n q w :=
  inRange_of_agrees ht (Checked.safe_operation hc h)

theorem inRange_of_client (ht : w.scope.Tallied) (q : Script α) : L.InRange .foreign #[] n q w :=
  inRange_of_agrees ht (Checked.agrees_client (Checked.agrees_call L n) n q)

theorem heirs_registered (ht : w.scope.Tallied) {x : ClassId} (hc : w.scope.Registered c)
    (hx : x ∈ w.scope.heirs c) : w.scope.Registered x := by
  have hd := (ht.heirs c x hc).mp hx
  by_contra hr
  have hn : w.scope.settled? x = none := by simp [Scope.settled?, Scope.unregistered_get? hr]
  rw [Scope.declaration_of_unsettled hn] at hd
  cases hd

theorem ids_in_range (hr : L.Reaches Action.Own w) :
    ((∀ c st, w.scope.settled? c = some st →
        (∀ m ∈ st.declaration.mentions, w.scope.Registered m) ∧ ∀ x ∈ st.derived, w.scope.Registered x) ∧
      (∀ c queued waiting, w.scope.slot? c = some (.pending queued waiting) →
        w.scope.Registered c ∧ (∀ x ∈ queued, w.scope.Registered x) ∧
          ∀ p, waiting = some p → w.scope.Registered p) ∧
      ∀ c ∈ w.stack, w.scope.Registered c) ∧
    (∀ {α : Type} (script : Script α) n, L.InRange .foreign #[] n script w) ∧
    (∀ {α : Type} {q : Script α} c n beyond, w.scope.Registered c → Query.Operation w.scope c q →
      L.InRange .outOfRange beyond n q w) ∧
    (∀ c n, w.scope.Registered c → ∃ r v, (L.perform n (Query.elementClass c)).Ends anything w r v ∧
      ∀ m, r = .error m ↔ m = .notArray (w.scope.name c) ∧ (w.scope.name c).toList.head? ≠ some '[') ∧
    (∀ c n, w.scope.Registered c → ∃ r v, (L.perform n (Query.outerClass c)).Ends anything w r v ∧
      ∀ m, r = .error m ↔ m = .notInner (w.scope.name c) ∧ '$' ∉ (w.scope.name c).toList) ∧
    (∀ c n, ¬ w.scope.Registered c ↔
      (L.perform n ((Step.classById (.foreign c)).script L)).Ends anything w (.misuse (.unknownId c)) w) ∧
    ∀ x n m v, (L.perform n (Step.script L x)).Ends anything w (.misuse m) v → Refuses w.scope x m := by
  have ht := hr.tallied
  have ha := hr.attended
  have hn : w.scope.Named := by
    obtain ⟨α, script, budget, rest, hl⟩ := hr
    exact named_of_leads Scope.named_new hl
  refine ⟨⟨?_, ?_, fun c hc => ha.registered hc⟩, fun script n => inRange_of_client ht script,
    fun c n beyond hc h => inRange_of_operation ht hc h, ?_, ?_, ?_, fun x n m v h => refuses_of_misuse hn h⟩
  · intro c st hst
    obtain ⟨e, he, hs⟩ := Option.bind_eq_some_iff.mp hst
    have hheirs : w.scope.heirs c = st.derived := by
      simp [Scope.heirs, he, Entry.heirs, Entry.settled?_eq_some.mp hs]
    refine ⟨fun m hm => ht.mentioned c m ?_, fun x hx => heirs_registered ht (.of_get? he) (hheirs ▸ hx)⟩
    rwa [Scope.declaration_of_settled hst]
  · intro c queued waiting hslot
    obtain ⟨e, he, hs⟩ := Option.map_eq_some_iff.mp hslot
    have hheirs : w.scope.heirs c = queued := by simp [Scope.heirs, he, Entry.heirs, hs]
    have hwaiting : w.scope.waiting? c = waiting := by simp [Scope.waiting?, he, Entry.waiting?, hs]
    have hc : w.scope.Registered c := .of_get? he
    exact ⟨hc, fun x hx => heirs_registered ht hc (hheirs ▸ hx), fun p hp => ht.awaited c p (hwaiting.trans hp)⟩
  · intro c n hc
    obtain ⟨r, v, he, hiff⟩ := ends_elementClass_iff L n hn hc
    exact ⟨r, v, he.mono fun _ _ _ => trivial, hiff⟩
  · intro c n _
    obtain ⟨r, v, he, hiff⟩ := ends_outerClass_iff L n w c
    exact ⟨r, v, he.mono fun _ _ _ => trivial, hiff⟩
  · intro c n
    have he := ends_classById L n w c
    constructor
    · intro (hc : ¬ c.index < w.scope.size)
      rw [if_neg hc] at he
      exact he.mono fun _ _ _ => trivial
    · intro h (hc : c.index < w.scope.size)
      rw [if_pos hc] at he
      cases (h.unique he).1

def careless : Loader := fun _ _ => return .ok { superClass := some ⟨999⟩ }

theorem ids_in_range_of_careless : ∃ w v, careless.Reaches Action.Own w ∧
    w.scope.slot? ⟨10⟩ = some (.pending [⟨9⟩] none) ∧ w.scope.Registered ⟨9⟩ ∧
    (careless.check .outOfRange #[] 3 (Query.isConvertibleTo ⟨9⟩ ⟨11⟩)).exec w = some (.ok false, v) ∧
    (careless.perform 3 (Query.isConvertibleTo ⟨9⟩ ⟨11⟩)).exec w = some (false, v) := by
  let script : Script Unit := do
    let a ← Script.register "A"
    let b ← Script.register "B"
    let _ ← Script.request (.attach a { superClass := some ⟨999⟩ })
    let _ ← Script.request (.attach a { superClass := some b })
  let ask (w : Session) := (careless.check .outOfRange #[] 3 (Query.isConvertibleTo ⟨9⟩ ⟨11⟩)).exec w
  have h : ((careless.perform 3 script).advance Action.Own 4 .new).map (fun m =>
      (m.2.scope.slot? ⟨10⟩, m.2.scope.size, (ask m.2).bind (·.1.toOption))) =
      some (some (.pending [⟨9⟩] none), 11, some false) := by decide +kernel
  obtain ⟨⟨rest, w⟩, ha, hw⟩ := Option.map_eq_some_iff.mp h
  simp only [Prod.mk.injEq] at hw
  obtain ⟨hslot, hsize, hask⟩ := hw
  obtain ⟨⟨r, v⟩, hask, hr⟩ := Option.bind_eq_some_iff.mp hask
  obtain rfl : r = .ok false := by
    cases r with
    | error f => cases hr
    | ok b => exact congrArg Except.ok (Option.some.inj hr)
  have hreach : careless.Reaches Action.Own w := ⟨_, script, 3, rest, Run.leads_iff_advance.mpr ⟨4, ha⟩⟩
  have hc : w.scope.Registered ⟨9⟩ := by
    change 9 < w.scope.size
    omega
  have hin := (ids_in_range hreach).2.2.1 ⟨9⟩ 3 #[] hc (.isConvertibleTo ⟨11⟩)
  unfold InRange at hin
  rw [show (careless.check .outOfRange #[] 3 (Query.isConvertibleTo ⟨9⟩ ⟨11⟩)).exec w = _ from hask] at hin
  exact ⟨w, v, hreach, hslot, hc, hask, hin.1⟩

end Loader

end ClassHierarchy
