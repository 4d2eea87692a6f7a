import ClassHierarchy.Proofs.Twins.Steps

namespace ClassHierarchy

open List Relator

structure Scope.Renamed (R : ClassId → ClassId → Prop) (s t : Scope) : Prop where
  biUnique : BiUnique R
  left : ∀ c, s.Registered c ↔ ∃ c', R c c'
  right : ∀ c', t.Registered c' ↔ ∃ c, R c c'
  name : ∀ c c', R c c' → s.name c = t.name c'
  loading : ∀ c c', R c c' → s.isLoading c = t.isLoading c'
  waiting : ∀ c c', R c c' → Option.Rel R (s.waiting? c) (t.waiting? c')
  settled : ∀ c c', R c c' →
    Option.Rel (fun st st' => st.missing = st'.missing ∧ st.declaration.Alike R st'.declaration)
      (s.settled? c) (t.settled? c')
  heirs : ∀ c c' x x', R c c' → R x x' → (x ∈ s.heirs c ↔ x' ∈ t.heirs c')

namespace Scope

variable {s t : Scope} {c c' : ClassId}

theorem within_of_grows (h : s.Grows t) (ht : t.Named) : s.Within t where
  knows _ hn := h.knows hn
  settled c c' hc hc' hn := by
    rintro ⟨st, hst⟩
    obtain rfl := ht.unique c c' (h.registered hc) hc' ((h.name hc).trans hn)
    obtain ⟨st', hst', -⟩ := h.settled hst
    exact ⟨st', hst'⟩

end Scope

namespace Session

variable {L : Loader} {t v w : Session} {c c' x x' : ClassId}

theorem exists_namesake (h : w.scope.Within v.scope) (hc : w.scope.Registered c) :
    ∃ c', w.Namesakes v c c' := by
  obtain ⟨c', hc', hn⟩ := h.knows _ ⟨c, hc, rfl⟩
  exact ⟨c', hc, hc', hn.symm⟩

section Both

variable (hL : L.ByName) (hw : w.Uniform L) (hv : v.Uniform L) (hwv : w.scope.Within v.scope)
  (hvw : v.scope.Within w.scope)
include hL hw hv hwv hvw

theorem Uniform.settled_alike (hc : w.Namesakes v c c') :
    Option.Rel (fun st st' => st.missing = st'.missing ∧ st.declaration.Alike (w.Namesakes v) st'.declaration)
      (w.scope.settled? c) (v.scope.settled? c') := by
  have hlevel := hw.level hL hv hc
  cases hs : w.scope.settled? c with
  | none =>
    cases hs' : v.scope.settled? c' with
    | none => exact .none
    | some st' =>
      obtain ⟨st, hst⟩ := hvw.settled c' c hc.2.1 hc.1 hc.2.2.symm ⟨st', hs'⟩
      rw [hs] at hst
      cases hst
  | some st =>
    obtain ⟨st', hs'⟩ := hwv.settled c c' hc.1 hc.2.1 hc.2.2 ⟨st, hs⟩
    obtain ⟨hm, hd⟩ := hlevel ⟨st, hs⟩ ⟨st', hs'⟩
    rw [hs']
    refine .some ⟨?_, ?_⟩
    · simpa [Scope.isMissing, hs, hs'] using hm
    · rwa [Scope.declaration_of_settled hs, Scope.declaration_of_settled hs'] at hd

theorem Uniform.superClass_alike (hx : w.Namesakes v x x') :
    Option.Rel (w.Namesakes v) (w.scope.declaration x).superClass (v.scope.declaration x').superClass := by
  have hs := hw.settled_alike hL hv hwv hvw hx
  unfold Scope.declaration
  generalize w.scope.settled? x = a at hs ⊢
  generalize v.scope.settled? x' = a' at hs ⊢
  cases hs with
  | none => exact .none
  | some h => exact h.2.superClass

theorem Uniform.heirs_alike (hc : w.Namesakes v c c') (hx : w.Namesakes v x x') :
    x ∈ w.scope.heirs c ↔ x' ∈ v.scope.heirs c' := by
  rw [hw.sane.tallied.heirs c x hc.1, hv.sane.tallied.heirs c' x' hc.2.1]
  have hsuper := hw.superClass_alike hL hv hwv hvw hx
  have hR := namesakes_biUnique hw.named hv.named
  generalize (w.scope.declaration x).superClass = p at hsuper ⊢
  generalize (v.scope.declaration x').superClass = p' at hsuper ⊢
  cases hsuper with
  | none => simp
  | some hp =>
    rw [Option.some.injEq, Option.some.injEq]
    exact rel_eq hR hp hc

theorem Uniform.renamed : Scope.Renamed (w.Namesakes v) w.scope v.scope where
  biUnique := namesakes_biUnique hw.named hv.named
  left c := ⟨fun hc => exists_namesake hwv hc, fun ⟨_, hc⟩ => hc.1⟩
  right c' := by
    refine ⟨fun hc' => ?_, fun ⟨_, hc⟩ => hc.2.1⟩
    obtain ⟨c, hc', hc, hn⟩ := exists_namesake hvw hc'
    exact ⟨c, hc, hc', hn.symm⟩
  name _ _ hc := hc.2.2
  loading c c' _ := by rw [hw.sane.attended.idle hw.idle, hv.sane.attended.idle hv.idle]
  waiting c c' _ := by
    rw [hw.sane.attended.waiting_idle hw.idle, hv.sane.attended.waiting_idle hv.idle]
    exact .none
  settled _ _ hc := hw.settled_alike hL hv hwv hvw hc
  heirs _ _ _ _ hc hx := hw.heirs_alike hL hv hwv hvw hc hx

end Both

variable {a b : Answer} {as bs : List Answer} {xs ys : List Step}

theorem steps_cons_eq_some {x : Step} : w.steps L (x :: xs) = some (as, v) ↔
    ∃ a as' w₁, w.step L x = some (a, w₁) ∧ w₁.steps L xs = some (as', v) ∧ as = a :: as' := by
  simp only [steps, Option.bind_eq_bind, Option.bind_eq_some_iff, Option.pure_def, Option.some.injEq,
    Prod.exists, Prod.mk.injEq]
  constructor
  · rintro ⟨a, w₁, ha, as', w', has, rfl, rfl⟩
    exact ⟨a, as', w₁, ha, has, rfl⟩
  · rintro ⟨a, as', w₁, ha, has, rfl⟩
    exact ⟨a, w₁, ha, as', v, has, rfl, rfl⟩

def Recalls (L : Loader) (t : Session) (x : Step) (a : Answer) : Prop :=
  ∃ u u', u.Uniform L ∧ (L.perform Scope.capacity (x.script L)).Ends Action.Steady u a u' ∧
    u'.scope.Grows t.scope

section Runs

variable (hL : L.ByName)
include hL

theorem ends_of_step {x : Step} (hx : x.Plain) (h : w.step L x = some (a, v)) :
    (L.perform Scope.capacity (x.script L)).Ends Action.Steady w a v := by
  have hmild : ∀ c name, Script.Uses Request.Mild (L c name) := by
    intro c name
    apply (hL.harmless c name).mono
    rintro (_ | _) h <;> trivial
  have hl := (Loader.keeps_perform hmild hx.mild w).leads_due (Run.exec_eq_some_iff.mp h)
  exact hl.steady

theorem repeated_step (ht : t.Uniform L) (hv : v.Uniform L) (hb : v.scope.Within t.scope) {x : Step}
    (hx : x.Plain) (h : Recalls L t x a) :
    ∃ b v', v.step L x = some (b, v') ∧ v'.Uniform L ∧ v'.scope.Within t.scope ∧ (x.OrderFree → b = a) := by
  obtain ⟨u, u', hu, he, hT⟩ := h
  have hl : Linked L t u v := ⟨hu, hv, hb⟩
  obtain ⟨n, hn⟩ : ∃ n, Scope.capacity = n + 1 := ⟨2 ^ 32 - 1, rfl⟩
  unfold step
  rw [hn] at he ⊢
  by_cases ho : x.OrderFree
  · obtain ⟨b, v', hb, -, hl', rfl⟩ := ho.mirrors hL ht hl a u' he hT
    exact ⟨a, v', hb.exec, hl'.2.1, hl'.2.2, fun _ => rfl⟩
  · obtain ⟨b, v', hb, -, hl', -⟩ := hx.mirrors hL ht hl a u' he hT
    exact ⟨b, v', hb.exec, hl'.2.1, hl'.2.2, fun h => absurd h ho⟩

theorem uniform_steps (hw : w.Uniform L) (hxs : ∀ x ∈ xs, x.Plain) (h : w.steps L xs = some (as, v)) :
    v.Uniform L ∧ w.scope.Grows v.scope ∧ (∀ x a, (x, a) ∈ xs.zip as → Recalls L v x a) ∧
    ∀ x ∈ xs, ∃ a, Recalls L v x a := by
  induction xs generalizing w as with
  | nil =>
    obtain ⟨rfl, rfl⟩ := Prod.mk.inj (Option.some.inj h)
    refine ⟨hw, .refl _, ?_, ?_⟩
    · simp
    · simp
  | cons x xs ih =>
    obtain ⟨hx, hxs⟩ := forall_mem_cons.mp hxs
    obtain ⟨a, as, w₁, hstep, hrest, rfl⟩ := steps_cons_eq_some.mp h
    have he := ends_of_step hL hx hstep
    obtain ⟨hv, hgrows, hanswers, hsome⟩ := ih (hw.perform hL hx.mild he) hxs hrest
    have hrecalls : Recalls L v x a := ⟨w, w₁, hw, he, hgrows⟩
    refine ⟨hv, he.evolves.trans hgrows, ?_, ?_⟩
    · intro y b hb
      rw [zip_cons_cons, mem_cons] at hb
      rcases hb with hb | hb
      · obtain ⟨rfl, rfl⟩ := Prod.mk.inj hb
        exact hrecalls
      · exact hanswers y b hb
    · intro y hy
      rcases mem_cons.mp hy with rfl | hy
      · exact ⟨a, hrecalls⟩
      · exact hsome y hy

theorem repeated_steps (ht : t.Uniform L) (hv : v.Uniform L) (hb : v.scope.Within t.scope)
    (hys : ∀ y ∈ ys, y.Plain ∧ ∃ a, Recalls L t y a) :
    ∃ bs v', v.steps L ys = some (bs, v') ∧ v'.Uniform L ∧ v'.scope.Within t.scope ∧
      ∀ y b a, y.OrderFree → (y, b) ∈ ys.zip bs → Recalls L t y a → b = a := by
  induction ys generalizing v with
  | nil => exact ⟨[], v, rfl, hv, hb, by simp⟩
  | cons x ys ih =>
    obtain ⟨⟨hx, a, ha⟩, hys⟩ := forall_mem_cons.mp hys
    obtain ⟨b, v₁, hstep, hv₁, hb₁, -⟩ := repeated_step hL ht hv hb hx ha
    obtain ⟨bs, v', hrest, hv', hb', hanswers⟩ := ih hv₁ hb₁ hys
    refine ⟨b :: bs, v', steps_cons_eq_some.mpr ⟨b, bs, v₁, hstep, hrest, rfl⟩, hv', hb', ?_⟩
    intro y d e hy hm he
    rw [zip_cons_cons, mem_cons] at hm
    rcases hm with hm | hm
    · obtain ⟨rfl, rfl⟩ := Prod.mk.inj hm
      -- The answer is the same whichever memory of `y` is repeated.
      obtain ⟨d', v₂, hstep', -, -, hd⟩ := repeated_step hL ht hv hb hx he
      obtain ⟨rfl, -⟩ := Prod.mk.inj (Option.some.inj (hstep.symm.trans hstep'))
      exact hd hy
    · exact hanswers y d e hy hm he

theorem reordered_steps (hp : xs.Perm ys) (hxs : ∀ x ∈ xs, x.Plain) (h : new.steps L xs = some (as, t)) :
    ∃ bs v, new.steps L ys = some (bs, v) ∧ v.scope.Within t.scope ∧
      ∀ x a b, x.OrderFree → (x, a) ∈ xs.zip as → (x, b) ∈ ys.zip bs → a = b := by
  obtain ⟨ht, hgrows, hanswers, hsome⟩ := uniform_steps hL uniform_new hxs h
  have hys : ∀ y ∈ ys, y.Plain ∧ ∃ a, Recalls L t y a := by
    intro y hy
    have hy := hp.mem_iff.mpr hy
    exact ⟨hxs y hy, hsome y hy⟩
  have hnew : new.scope.Within t.scope := Scope.within_of_grows hgrows ht.named
  obtain ⟨bs, v, hv, -, hb, hsame⟩ := repeated_steps hL ht uniform_new hnew hys
  exact ⟨bs, v, hv, hb, fun x a b hx ha hb => (hsame x b a hx hb (hanswers x a ha)).symm⟩

end Runs

/-- The runs of `xs` and `ys` have led to the same. -/
structure Concur (xs ys : List Step) (r r' : List Answer × Session) : Prop where
  answers : ∀ x a a', x.OrderFree → (x, a) ∈ xs.zip r.1 → (x, a') ∈ ys.zip r'.1 → a = a'
  renamed : Scope.Renamed (r.2.Namesakes r'.2) r.2.scope r'.2.scope

theorem concur_of_perm (hL : L.ByName) (hp : xs.Perm ys) (hxs : ∀ x ∈ xs, x.Plain) :
    Option.Rel (Concur xs ys) (new.steps L xs) (new.steps L ys) := by
  have hys : ∀ y ∈ ys, y.Plain := fun y hy => hxs y (hp.mem_iff.mpr hy)
  cases h : new.steps L xs with
  | none =>
    cases h' : new.steps L ys with
    | none => exact .none
    | some r' =>
      obtain ⟨as, w, hw, -⟩ := reordered_steps hL hp.symm hys h'
      rw [h] at hw
      cases hw
  | some r =>
    obtain ⟨bs, v, hv, hvw, hanswers⟩ := reordered_steps hL hp hxs h
    obtain ⟨as, w, hw, hwv, -⟩ := reordered_steps hL hp.symm hys hv
    obtain rfl : r = (as, w) := Option.some.inj (h.symm.trans hw)
    obtain ⟨huw, -⟩ := uniform_steps hL uniform_new hxs hw
    obtain ⟨huv, -⟩ := uniform_steps hL uniform_new hys hv
    rw [hv]
    exact .some ⟨hanswers, huw.renamed hL huv hwv hvw⟩

end Session

namespace Loader

open Session (Concur)

theorem resolution_order_immaterial :
    (∀ src : StubSources, src.loader.ByName) ∧ (∀ t : LoaderTable, t.isPlain = true → t.loader.ByName) ∧
    ∀ L : Loader, L.ByName → ∀ xs ys : List Step, xs.Perm ys → (∀ x ∈ xs, x.Plain) →
      Option.Rel (Concur xs ys) (Session.new.steps L xs) (Session.new.steps L ys) :=
  ⟨StubSources.byName, fun _ => LoaderTable.byName, fun _ hL _ _ => Session.concur_of_perm hL⟩

def circle : LoaderTable where
  rows := [("A", { outline := { superClass := some (.named "B") } }),
    ("B", { outline := { superClass := some (.named "A") } })]

theorem resolution_order_immaterial_in_circle :
    let xs : List Step := [.onClass (.named "A") .superClass, .onClass (.named "B") .derivedClasses,
      .register "[LC;"]
    ∃ r r', Session.new.steps circle.loader xs = some r ∧ Session.new.steps circle.loader xs.reverse = some r' ∧
      Concur xs xs.reverse r r' := by
  intro xs
  have hplain : ∀ x ∈ xs, x.Plain := by
    simp only [xs, forall_mem_cons]
    exact ⟨.orderFree (.onClass _ .superClass), .onClass _ .derivedClasses, .orderFree (.register _),
      fun x hx => nomatch hx⟩
  have hL : circle.loader.ByName := resolution_order_immaterial.2.1 circle (by decide +kernel)
  have h := resolution_order_immaterial.2.2 circle.loader hL xs xs.reverse (reverse_perm xs).symm hplain
  have hsome : (Session.new.steps circle.loader xs).isSome = true := by decide +kernel
  cases hr : Session.new.steps circle.loader xs with
  | none =>
    rw [hr] at hsome
    cases hsome
  | some r =>
    cases hr' : Session.new.steps circle.loader xs.reverse with
    | none =>
      rw [hr, hr'] at h
      cases h
    | some r' =>
      rw [hr, hr'] at h
      cases h with
      | some hc => exact ⟨r, r', rfl, rfl, hc⟩

end Loader

end ClassHierarchy
