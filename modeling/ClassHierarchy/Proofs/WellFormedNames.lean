import ClassHierarchy.Proofs.Run.Speaking
import ClassHierarchy.Proofs.Scope.WellFormed

namespace ClassHierarchy

variable {α β : Type}

namespace Run

def Stays (may : Action → Session → Prop) (I : Session → Prop) : Run α → Session → Prop
  | .done _, w => I w
  | .ask x k, w => I w ∧ (may x w → ∀ r w', x.perform w = some (r, w') → Stays may I (k r) w')

variable {may : Action → Session → Prop} {I : Session → Prop} {p q : Run α} {f : α → Run β} {w v : Session}

theorem Stays.bind (h : p.Stays may I w) (hf : ∀ a v, I v → (f a).Stays may I v) : (p >>= f).Stays may I w := by
  induction p generalizing w with
  | done a => exact hf a w h
  | ask x k ih => exact ⟨h.1, fun hm r w' hx => ih r (h.2 hm r w' hx)⟩

theorem Stays.leads (h : p.Stays may I w) (hl : p.Leads may w q v) : q.Stays may I v := by
  induction hl with
  | refl => exact h
  | step hm hx _ ih => exact ih (h.2 hm _ _ hx)

theorem Stays.now (h : p.Stays may I w) : I w := by
  cases p with
  | done a => exact h
  | ask x k => exact h.1

theorem stays_act {x : Action} (hw : I w) (hx : may x w → ∀ r v, x.perform w = some (r, v) → I v) :
    (act x).Stays may I w := ⟨hw, hx⟩

theorem stays_look {f : Scope → Run β} (hw : I w) (hf : (f w.scope).Stays may I w) :
    (act .look >>= f).Stays may I w := by
  refine ⟨hw, fun _ r w' hx => ?_⟩
  obtain ⟨rfl, rfl⟩ := perform_look hx
  exact hf

end Run

/-- Gives no malformed name, and does not itself complain of an unknown element. -/
def Request.WellSpoken : Request → Prop
  | .register name => name.WellFormed
  | .emit e => ¬ e.BlamesElement
  | _ => True

inductive Script.WellSpoken : Script α → Prop
  | done (a : α) : WellSpoken (.done a)
  | ask {r : Request} {k : r.Reply → Script α} : r.WellSpoken →
    (∀ x, r.Hears FullName.WellFormed x → WellSpoken (k x)) → WellSpoken (.ask r k)
  | outer (c : ClassId) {k : Except Misuse ClassId → Script α} : (∀ o, WellSpoken (k o)) →
    WellSpoken (Query.outerClass c >>= k)

def Loader.WellSpoken (L : Loader) : Prop := ∀ c name, FullName.WellFormed name → (L c name).WellSpoken

/-- Registers no malformed name that is the outer name of an array class. -/
def Action.Careful : Action → Session → Prop
  | .register outer, w => ∀ array ∈ w.scope.names, FullName.isArray array = true →
    FullName.outer? array = some outer → FullName.WellFormed outer
  | _, _ => True

instance : (x : Action) → (w : Session) → Decidable (x.Careful w)
  | .register outer, w => inferInstanceAs (Decidable (∀ array ∈ w.scope.names, FullName.isArray array = true →
    FullName.outer? array = some outer → FullName.WellFormed outer))
  | .look, _ | .attach .., _ | .rebind .., _ | .call _, _ | .finish .., _ | .emit _, _ | .note _, _
  | .giveUp, _ => .isTrue trivial

namespace Script

variable {q : Script α} {f : α → Script β}

theorem WellSpoken.bind (h : q.WellSpoken) (hf : ∀ a, (f a).WellSpoken) : (q >>= f).WellSpoken := by
  induction h with
  | done a => exact hf a
  | ask hr _ ih => exact .ask hr ih
  | outer c _ ih =>
    rw [bind_assoc]
    exact .outer c ih

theorem wellSpoken_request {r : Request} (h : r.WellSpoken) : (request r).WellSpoken := .ask h fun x _ => .done x

theorem Uses.wellSpoken (h : Uses Request.Reads q) : q.WellSpoken := by
  induction q with
  | done a => exact .done a
  | ask r k ih =>
    refine .ask ?_ fun x _ => ih x (h.2 x)
    have hr := h.1
    cases r <;> trivial

end Script

namespace Query

open Script

theorem wellSpoken_outerClass (c : ClassId) : (outerClass c).WellSpoken := by
  have h : (outerClass c >>= Program.done).WellSpoken := .outer c fun o => .done o
  rwa [show outerClass c >>= Program.done = outerClass c from Program.bind_done _] at h

theorem wellSpoken_elementClass (c : ClassId) : (elementClass c).WellSpoken := by
  refine .ask trivial fun s hs => ?_
  have hname : (s.name c).WellFormed := Scope.wellFormed_name hs c
  change (if (s.name c).isArray = true then _ else _ : Script (Except Misuse (Option ClassId))).WellSpoken
  split
  next ha =>
    have hsome := hname.element? ha
    cases he : (s.name c).element? with
    | none => simp [he] at hsome
    | some x =>
      cases x with
      | primitive p => exact .done _
      | named inner =>
        have hinner : inner.WellFormed :=
          hname.of_mem_elementChain (FullName.elementChain_of_named he ▸ List.mem_cons_self)
        exact (wellSpoken_request (r := .register inner) hinner).bind fun e => .done _
  next => exact .done _

theorem wellSpoken_of_operation {s : Scope} {c : ClassId} {q : Script α} (h : Operation s c q) :
    q.WellSpoken := by
  apply h.of_reads (P := Script.WellSpoken) Uses.wellSpoken
  case helement => exact wellSpoken_elementClass c
  case houter => exact wellSpoken_outerClass c
  case hattach => exact fun d => wellSpoken_request (r := .attach c d) trivial
  case hrebind => exact fun p => wellSpoken_request (r := .rebind c p) trivial

end Query

namespace Run

variable {load : ClassId → Run (Except LoadError Declaration)} {n : Nat}

def Heeds (p : Run α) : Prop := ∀ w : Session, w.WellNamed → p.Stays Action.Careful Session.WellNamed w

theorem Heeds.bind {p : Run α} {f : α → Run β} (hp : p.Heeds) (hf : ∀ a, (f a).Heeds) : (p >>= f).Heeds :=
  fun w hw => (hp w hw).bind fun a v hv => hf a v hv

theorem heeds_act {x : Action} (hx : x.WellNamed) : (act x).Heeds :=
  fun _ hw => stays_act hw fun _ _ _ hp => hw.perform hx hp

theorem heeds_exhausted : (exhausted : Run α).Heeds := fun _ hw => ⟨hw, fun _ r => nomatch r⟩

theorem heeds_resolve (hload : ∀ c, (load c).Heeds) (c : ClassId) : (resolve load c).Heeds := by
  have hcall : (act (.call c)).Heeds := heeds_act trivial
  refine fun w hw => stays_look hw ?_
  split
  · refine (hcall.bind fun _ => (hload c).bind fun o => ?_) w hw
    exact heeds_act trivial
  · exact hw

theorem carries_heeds (hload : ∀ c, (load c).Heeds) : Carries Heeds Request.WellSpoken load where
  done _ _ hw := hw
  bind := .bind
  exhausted := heeds_exhausted
  look := heeds_act trivial
  resolve := heeds_resolve hload
  register _ h := heeds_act h
  attach _ _ _ := heeds_act trivial
  rebind c _ _ := (heeds_resolve hload c).bind fun _ => heeds_act trivial
  emit _ h := heeds_act h
  note _ _ := heeds_act trivial

theorem stays_name {c : ClassId} {f : FullName → Script α} (hw : I w)
    (hf : ((f (w.scope.name c)).run (handle load n)).Stays may I w) :
    ((Query.name c >>= f).run (handle load n)).Stays may I w := stays_look hw hf

theorem heeds_outerClass (c : ClassId) : ((Query.outerClass c).run (handle load n)).Heeds := by
  intro w hw
  apply stays_name hw
  split
  next outer ho =>
    have hregister : (act (.register outer)).Stays Action.Careful Session.WellNamed w := by
      refine stays_act hw fun hcareful _ _ hp => hw.perform (x := .register outer) ?_ hp
      cases ha : (w.scope.name c).isArray with
      | false => exact FullName.wellFormed_of_outer? ha ho
      | true =>
        have hc : w.scope.Registered c := by
          by_contra hc
          simp [Scope.name, Scope.unregistered_get? hc, FullName.isArray] at ha
        exact hcareful _ (Scope.mem_names.mpr ⟨c, hc, rfl⟩) ha ho
    exact hregister.bind fun _ _ hv => hv
  next => exact hw

theorem heeds_script (hload : ∀ c, (load c).Heeds) {q : Script α} (hq : q.WellSpoken) (n : Nat) :
    (q.run (handle load n)).Heeds := by
  induction hq with
  | done a => exact fun w hw => hw
  | @ask r k hr _ ih =>
    by_cases hi : r = .inspect
    · subst hi
      exact fun w hw => stays_look hw (ih _ hw.names w hw)
    · refine ((carries_heeds hload).handle n r hr).bind fun x => ih x ?_
      cases r <;> trivial
  | outer c _ ih =>
    rw [Program.run_bind]
    exact (heeds_outerClass c).bind ih

end Run

namespace Loader

variable {L : Loader} {budget : Nat} {script : Script α} {rest : Run α} {w : Session}

theorem heeds_call (hL : L.WellSpoken) (n : Nat) (c : ClassId) : (L.call n c).Heeds := by
  induction n generalizing c with
  | zero => exact Run.heeds_exhausted
  | succ n ih =>
    refine fun w hw => Run.stays_look hw ?_
    exact Run.heeds_script ih (hL c _ (Scope.wellFormed_name hw.names c)) n w hw

theorem names_stay_well_formed (hL : L.WellSpoken) (hs : script.WellSpoken)
    (h : (L.perform budget script).Leads Action.Careful .new rest w) :
    (∀ name ∈ w.scope.names, FullName.WellFormed name) ∧
    (∀ e, .event e ∈ w.trace.toList → e.message ≠ "unknown array element type") ∧
    (∀ c outer, (w.scope.name c).isArray = false → (w.scope.name c).outer? = some outer →
      (Action.register outer).Careful w) ∧
    ∀ {β : Type} {q : Script β} s c, Query.Operation s c q → q.WellSpoken := by
  have hheeds := Run.heeds_script (heeds_call hL budget) hs budget .new Session.wellNamed_new
  have hw := (hheeds.leads h).now
  refine ⟨fun name hname => hw.names name (Scope.mem_names.mp hname), hw.trace, ?_, ?_⟩
  · exact fun c outer ha ho _ _ _ _ => FullName.wellFormed_of_outer? ha ho
  · exact fun s c hq => Query.wellSpoken_of_operation hq

def outerBelowArray (c : ClassId) : Script (Except Misuse ClassId) := do
  let _ ← Script.register "[La$b;"
  Query.outerClass c

theorem wellSpoken_outerBelowArray (c : ClassId) : (outerBelowArray c).WellSpoken := by
  have hname : FullName.WellFormed "[La$b;" := by decide +kernel
  exact (Script.wellSpoken_request (r := .register "[La$b;") hname).bind fun _ => Query.wellSpoken_outerClass c

theorem wellSpoken_notFound : notFound.WellSpoken := fun _ _ _ => .done _

theorem names_stay_well_formed_below_array : notFound.WellSpoken ∧ (outerBelowArray ⟨10⟩).WellSpoken ∧
    ∃ rest w, (notFound.perform 0 (outerBelowArray ⟨10⟩)).Leads Action.Careful .new rest w ∧
      w.scope.names = Primitive.all.map Primitive.keyword ++ ["[La$b;", "a$b", "a"] ∧
      ∀ name ∈ w.scope.names, FullName.WellFormed name := by
  have ha : ((notFound.perform 0 (outerBelowArray ⟨10⟩)).advance Action.Careful 3 .new).map
      (fun m => m.2.scope.names) =
      some (Primitive.all.map Primitive.keyword ++ ["[La$b;", "a$b", "a"]) := by decide +kernel
  obtain ⟨⟨rest, w⟩, hadvance, hw⟩ := Option.map_eq_some_iff.mp ha
  have hl := Run.leads_iff_advance.mpr ⟨3, hadvance⟩
  have hs := wellSpoken_outerBelowArray ⟨10⟩
  exact ⟨wellSpoken_notFound, hs, rest, w, hl, hw, (names_stay_well_formed wellSpoken_notFound hs hl).1⟩

theorem outer_of_nested_array_malformed : notFound.WellSpoken ∧ (outerBelowArray ⟨9⟩).WellSpoken ∧
    ∃ r w, (notFound.perform 0 (outerBelowArray ⟨9⟩)).Ends Run.anything .new r w ∧
      "[La" ∈ w.scope.names ∧ ¬ FullName.WellFormed "[La" ∧
      ∃ e, .event e ∈ w.trace.toList ∧ e.message = "unknown array element type" := by
  have hrun : ((notFound.perform 0 (outerBelowArray ⟨9⟩)).exec .new).map
      (fun m => (m.2.scope.names, m.2.trace.toList)) =
      some (Primitive.all.map Primitive.keyword ++ ["[La$b;", "a$b", "[La"],
        [.event (.malformedArrayRegistered "[La")]) := by decide +kernel
  obtain ⟨⟨r, w⟩, hexec, hw⟩ := Option.map_eq_some_iff.mp hrun
  obtain ⟨hnames, htrace⟩ := Prod.mk.inj hw
  refine ⟨wellSpoken_notFound, wellSpoken_outerBelowArray _, r, w, Run.exec_eq_some_iff.mp hexec, ?_,
    by decide +kernel, .malformedArrayRegistered "[La", ?_, rfl⟩
  · rw [hnames]
    decide
  · rw [htrace]
    exact List.mem_singleton.mpr rfl

end Loader

end ClassHierarchy
