import Mathlib.Data.List.Nodup
import ClassHierarchy.Proofs.Scope.Evolution

namespace ClassHierarchy

def Entry.Orderly (e : Entry) : Prop :=
  match e.slot with
  | .settled st => st.derived.Pairwise (· < ·)
  | .pending queued _ => queued.Nodup

namespace Scope

def Orderly (s : Scope) : Prop := ∀ c e, s.get? c = some e → e.Orderly

structure Installed (s : Scope) (c : ClassId) (d : Declaration) (missing : Bool) (s' : Scope) : Prop where
  registered : s.Registered c
  unsettled : s.settled? c = none
  size : s'.size = s.size
  settled : ∃ st, s'.settled? c = some st ∧ st.missing = missing ∧
    st.declaration = d.withSuperClass (s.waiting? c <|> d.superClass)
  declaration : ∀ x, x ≠ c → s'.declaration x = s.declaration x
  others : ∀ x st', x ≠ c → s'.settled? x = some st' →
    ∃ st, s.settled? x = some st ∧ st'.missing = st.missing ∧ st'.declaration = st.declaration
  waiting_self : s'.waiting? c = none
  waiting : ∀ x, x ≠ c → s'.waiting? x = s.waiting? x
  loading : ∀ x, s'.isLoading x = s.isLoading x
  heirs : ∀ x y, s.Registered x →
    (y ∈ s'.heirs x ↔ (s'.declaration c).superClass = some x ∧ y = c ∨ y ∈ s.heirs x)
  orderly : s.Orderly → (∀ x, c ∉ s.heirs x) → s'.Orderly
  evolves : ∀ R, s.Evolves R s'

structure Rebound (s : Scope) (c p : ClassId) (s' : Scope) : Prop where
  size : s'.size = s.size
  declaration_self : s'.declaration c = (s.declaration c).withSuperClass (some p)
  declaration : ∀ x, x ≠ c → s'.declaration x = s.declaration x
  waiting : ∀ x, s'.waiting? x = s.waiting? x
  loading : ∀ x, s'.isLoading x = s.isLoading x
  heirs : ∀ x y, s.Registered x → (y ∈ s'.heirs x ↔
    p = x ∧ y = c ∨ y ∈ s.heirs x ∧ ¬ ((s.declaration c).superClass = some x ∧ y = c))
  orderly : s.Orderly → (∀ x, c ∈ s.heirs x → (s.declaration c).superClass = some x) → s'.Orderly
  evolves : s.Evolves (· = c) s'

variable {s s' : Scope} {c p x y : ClassId} {d : Declaration} {missing : Bool} {st : Settled}

theorem declaration_of_settled (h : s.settled? c = some st) : s.declaration c = st.declaration := by
  simp [declaration, h]

theorem declaration_of_unsettled (h : s.settled? c = none) : s.declaration c = .missing := by
  simp [declaration, h]

theorem isMissing_iff : s.isMissing c = true ↔ ∃ st, s.settled? c = some st ∧ st.missing = true := by
  cases hs : s.settled? c <;> simp [isMissing, hs]

theorem unregistered_get? (h : ¬ s.Registered c) : s.get? c = none :=
  Option.eq_none_iff_forall_ne_some.mpr fun _ he => h (.of_get? he)

theorem orderly_link (h : s.Orderly) (q : Option ClassId) (hc : ∀ x, q = some x → c ∉ s.heirs x) :
    (s.link q c).Orderly := by
  intro x e he
  rw [get?_link] at he
  split at he
  next hq =>
    obtain ⟨e₀, he₀, rfl⟩ := Option.map_eq_some_iff.mp he
    have hx := hc x hq
    have ho := h x e₀ he₀
    simp only [heirs, he₀, Option.elim_some] at hx
    cases hs : e₀.slot with
    | settled st =>
      simp only [Entry.Orderly, Entry.enter, hs] at ho ⊢
      exact SortedList.pairwise_insert ho
    | pending queued rebound =>
      simp only [Entry.Orderly, Entry.enter, Entry.heirs, hs] at ho hx ⊢
      exact List.Nodup.append ho (List.nodup_singleton c) (by simpa using hx)
  next => exact h x e he

theorem orderly_unlink (h : s.Orderly) (q : Option ClassId) : (s.unlink q c).Orderly := by
  intro x e he
  rw [get?_unlink] at he
  split at he
  · obtain ⟨e₀, he₀, rfl⟩ := Option.map_eq_some_iff.mp he
    have ho := h x e₀ he₀
    cases hs : e₀.slot with
    | settled st =>
      simp only [Entry.Orderly, Entry.strike, hs] at ho ⊢
      exact ho.filter _
    | pending queued rebound =>
      simp only [Entry.Orderly, Entry.strike, hs] at ho ⊢
      exact ho.filter _
  · exact h x e he

theorem orderly_update (h : s.Orderly) {f : Entry → Entry}
    (hf : ∀ e, s.get? c = some e → e.Orderly → (f e).Orderly) : (s.update c f).Orderly := by
  intro x e he
  rw [get?_update] at he
  split at he
  next hx =>
    subst hx
    obtain ⟨e₀, he₀, rfl⟩ := Option.map_eq_some_iff.mp he
    exact hf e₀ he₀ (h c e₀ he₀)
  next => exact h x e he

theorem orderly_rebase {e : Entry} (h : e.Orderly) (p : ClassId) : (e.rebase p).Orderly := by
  cases hs : e.slot <;> simpa [Entry.Orderly, Entry.rebase, hs] using h

theorem mem_heirs_update {f : Entry → Entry}
    (hf : ∀ e, s.get? c = some e → ∀ y, y ∈ (f e).heirs ↔ y ∈ e.heirs) :
    y ∈ (s.update c f).heirs x ↔ y ∈ s.heirs x := by
  simp only [heirs, get?_update]
  split
  next hx =>
    subst hx
    cases he : s.get? c with
    | none => simp
    | some e => simpa using hf e he y
  next => rfl

theorem isLoading_update {f : Entry → Entry} (hf : ∀ e, (f e).loading = e.loading) :
    (s.update c f).isLoading x = s.isLoading x := by
  simp only [isLoading, get?_update]
  split <;> cases s.get? x <;> simp [hf]

theorem waiting?_update_of_ne {f : Entry → Entry} (h : x ≠ c) :
    (s.update c f).waiting? x = s.waiting? x := by
  simp [waiting?, get?_update, Ne.symm h]

theorem declaration_update_of_ne {f : Entry → Entry} (h : x ≠ c) :
    (s.update c f).declaration x = s.declaration x := by
  simp [declaration, settled?, get?_update, Ne.symm h]

theorem settled?_settle (hc : s.Registered c) : (s.update c (.settle st)).settled? c = some st := by
  obtain ⟨e, he⟩ := registered_iff.mp hc
  simp [settled?, get?_update, he]

theorem waiting?_of_settled (h : s.settled? c = some st) : s.waiting? c = none := by
  obtain ⟨e, he, hs⟩ := Option.bind_eq_some_iff.mp h
  simp [waiting?, he, Entry.waiting?, Entry.settled?_eq_some.mp hs]

theorem settled_of_link {q : Option ClassId} (h : (s.link q c).settled? x = some st) :
    ∃ st₀, s.settled? x = some st₀ ∧ st.missing = st₀.missing ∧ st.declaration = st₀.declaration := by
  obtain ⟨e, he, hs⟩ := Option.bind_eq_some_iff.mp h
  rw [get?_link] at he
  split at he
  · obtain ⟨e₀, he₀, rfl⟩ := Option.map_eq_some_iff.mp he
    rw [Entry.settled?_enter] at hs
    obtain ⟨st₀, hs₀, rfl⟩ := Option.map_eq_some_iff.mp hs
    exact ⟨st₀, Option.bind_eq_some_iff.mpr ⟨e₀, he₀, hs₀⟩, rfl, rfl⟩
  · exact ⟨st, Option.bind_eq_some_iff.mpr ⟨e, he, hs⟩, rfl, rfl⟩

theorem installed_of_eq_some (h : s.install? c d missing = some s') : s.Installed c d missing s' := by
  unfold install? at h
  split at h
  next queued rebound hp =>
    obtain ⟨e, he, hs⟩ : ∃ e, s.get? c = some e ∧ e.slot = .pending queued rebound := by
      simpa [slot?] using hp
    have hc : s.Registered c := .of_get? he
    have hu : e.settled? = none := by simp [Entry.settled?, hs]
    have hw : s.waiting? c = rebound := by simp [waiting?, he, Entry.waiting?, hs]
    let st := settle d queued rebound missing
    let t := s.update c (.settle st)
    have ht : t.settled? c = some st := settled?_settle hc
    obtain rfl : s' = t.link st.declaration.superClass c := (Option.some.inj h).symm
    have hheirs : ∀ x y, y ∈ t.heirs x ↔ y ∈ s.heirs x := by
      intro x y
      refine mem_heirs_update fun e' he' y => ?_
      obtain rfl : e = e' := Option.some.inj (he.symm.trans he')
      simp [Entry.heirs, Entry.settle, hs, st, settle, SortedList.mem_ofList]
    exact {
      registered := hc
      unsettled := by simp [settled?, he, hu]
      size := by rw [size_link, size_update]
      settled := by
        obtain ⟨st', hs', hst⟩ :=
          (evolves_link (R := fun _ => False) t st.declaration.superClass c).settled ht
        refine ⟨st', hs', hst.missing, (hst.declaration fun h => h).trans ?_⟩
        rw [hw]
        rfl
      declaration := fun x hx => by rw [declaration_link, declaration_update_of_ne hx]
      others := fun x st' hx h' => by
        obtain ⟨st, hs, hst⟩ := settled_of_link h'
        refine ⟨st, ?_, hst⟩
        simpa [t, settled?, get?_update, Ne.symm hx] using hs
      waiting_self := by rw [waiting?_link, waiting?_of_settled ht]
      waiting := fun x hx => by rw [waiting?_link, waiting?_update_of_ne hx]
      loading := fun x => by rw [isLoading_link]; exact isLoading_update fun _ => rfl
      heirs := fun x y hx => by
        have hx' : t.Registered x := by simpa [Registered, t] using hx
        rw [mem_heirs_link _ _ _ _ hx', hheirs, declaration_link, declaration_of_settled ht]
      orderly := fun ho hc => by
        refine orderly_link (orderly_update ho fun e' _ _ => ?_) _ fun x _ => ?_
        · exact SortedList.pairwise_ofList queued
        · exact fun hx => hc x ((hheirs x c).mp hx)
      evolves := fun R => by
        refine (Evolves.update fun e' he' => ?_).trans (evolves_link _ _ _)
        obtain rfl : e = e' := Option.some.inj (he.symm.trans he')
        exact Entry.evolves_settle st hu }
  next => simp at h

theorem settled_of_install?_eq_none (h : s.install? c d missing = none) (hc : s.Registered c) :
    ∃ st, s.settled? c = some st := by
  obtain ⟨e, he⟩ := registered_iff.mp hc
  unfold install? at h
  cases hs : e.slot with
  | pending queued rebound => simp [slot?, he, hs] at h
  | settled st => exact ⟨st, by simp [settled?, he, Entry.settled?, hs]⟩

theorem rebound_of_settled (h : s.settled? c = some st) : s.Rebound c p (s.rebind c p) := by
  have hd := declaration_of_settled h
  let t := s.unlink st.declaration.superClass c
  let u := t.update c (.rebase p)
  obtain ⟨st', ht, hst⟩ := (evolves_unlink (R := (· = c)) s st.declaration.superClass rfl).settled h
  have hu : u.settled? c = some { st' with declaration := st'.declaration.withSuperClass (some p) } := by
    obtain ⟨e, he, hs⟩ := Option.bind_eq_some_iff.mp ht
    have he : t.get? c = some e := he
    simp [u, settled?, get?_update, he, Entry.settled?_rebase, hs]
  have hr : s.rebind c p = u.link (some p) c := by simp [rebind, h, u, t]
  have hheirs : ∀ x y, y ∈ u.heirs x ↔ y ∈ t.heirs x :=
    fun x y => mem_heirs_update fun e _ y => by rw [Entry.heirs_rebase]
  rw [hr]
  exact {
    size := by simp [u, t]
    declaration_self := by
      rw [declaration_link, declaration_of_settled hu, ← s.declaration_unlink c c st.declaration.superClass,
        declaration_of_settled ht]
    declaration := fun x hx => by
      rw [declaration_link, declaration_update_of_ne hx, declaration_unlink]
    waiting := fun x => by
      rw [waiting?_link]
      by_cases hx : x = c
      · rw [hx, waiting?_of_settled hu, waiting?_of_settled h]
      · rw [waiting?_update_of_ne hx, waiting?_unlink]
    loading := fun x => by rw [isLoading_link, isLoading_update (Entry.loading_rebase p), isLoading_unlink]
    heirs := fun x y hx => by
      have hx' : u.Registered x := by simpa [Registered, u, t] using hx
      rw [mem_heirs_link _ _ _ _ hx', hheirs, mem_heirs_unlink, hd, Option.some_inj]
    orderly := fun ho hc => by
      refine orderly_link (orderly_update (orderly_unlink ho _) fun e _ he => orderly_rebase he p) _ ?_
      intro x _ hx
      obtain ⟨hx, hn⟩ := (mem_heirs_unlink _ _ _ _).mp ((hheirs x c).mp hx)
      exact hn ⟨hd ▸ hc x hx, rfl⟩
    evolves := by
      have ht : s.Evolves (· = c) t := evolves_unlink s _ rfl
      have hu : t.Evolves (· = c) u := .update fun e _ => Entry.evolves_rebase p e fun h => h rfl
      exact (ht.trans hu).trans (evolves_link _ _ _) }

theorem settled?_update {f : Entry → Entry} (hf : ∀ e, s.get? c = some e → (f e).settled? = e.settled?) :
    (s.update c f).settled? x = s.settled? x := by
  simp only [settled?, get?_update]
  split
  next hx =>
    subst hx
    cases he : s.get? c with
    | none => rfl
    | some e => exact hf e he
  next => rfl

structure Quiet (s s' : Scope) : Prop where
  settled : ∀ x, s'.settled? x = s.settled? x
  heirs : ∀ x, s'.heirs x = s.heirs x
  orderly : s.Orderly → s'.Orderly
  evolves : ∀ R, s.Evolves R s'

theorem Quiet.refl (s : Scope) : s.Quiet s := ⟨fun _ => rfl, fun _ => rfl, id, fun _ => .refl s⟩

theorem Quiet.declaration (h : s.Quiet s') (x : ClassId) : s'.declaration x = s.declaration x := by
  simp [Scope.declaration, h.settled]

theorem quiet_update {f : Entry → Entry} (hn : ∀ e, (f e).name = e.name)
    (hs : ∀ e, s.get? c = some e → (f e).settled? = e.settled?) (hh : ∀ e, (f e).heirs = e.heirs)
    (ho : ∀ e, e.Orderly → (f e).Orderly) : s.Quiet (s.update c f) where
  settled _ := settled?_update hs
  heirs x := by
    simp only [Scope.heirs, get?_update]
    split <;> cases s.get? x <;> simp [hh]
  orderly h := orderly_update h fun e _ he => ho e he
  evolves R := .update fun e he => ⟨hn e, fun st h => ⟨st, (hs e he).trans h, .refl st⟩⟩

theorem quiet_mark (s : Scope) (c : ClassId) (loading : Bool) : s.Quiet (s.mark c loading) :=
  quiet_update (fun _ => rfl) (fun _ _ => rfl) (fun _ => rfl) fun _ h => h

theorem registered_congr (h : s'.size = s.size) : s'.Registered x ↔ s.Registered x := by
  unfold Registered
  rw [h]

@[simp] theorem size_mark (loading : Bool) : (s.mark c loading).size = s.size := size_update s c _

theorem waiting?_mark (loading : Bool) : (s.mark c loading).waiting? x = s.waiting? x := by
  simp only [waiting?, mark, get?_update]
  split <;> cases s.get? x <;> simp [Entry.waiting?]

theorem isLoading_mark (loading : Bool) (hc : s.Registered c) :
    (s.mark c loading).isLoading x = if x = c then loading else s.isLoading x := by
  obtain ⟨e, he⟩ := registered_iff.mp hc
  by_cases hx : x = c
  · simp [isLoading, mark, get?_update, hx, he]
  · simp [isLoading, mark, get?_update, hx, Ne.symm hx]

theorem quiet_rebind (h : s.settled? c = none) (p : ClassId) : s.Quiet (s.rebind c p) := by
  have hr : s.rebind c p = s.update c (.rebase p) := by simp [rebind, h]
  rw [hr]
  refine quiet_update (Entry.name_rebase p) (fun e he => ?_) (Entry.heirs_rebase p) fun e ho =>
    orderly_rebase ho p
  have hn : e.settled? = none := by simpa [settled?, he] using h
  rw [Entry.settled?_rebase, hn, Option.map_none]

theorem isLoading_rebind_of_unsettled (h : s.settled? c = none) (p : ClassId) :
    (s.rebind c p).isLoading x = s.isLoading x := by
  simp only [rebind, h]
  exact isLoading_update (Entry.loading_rebase p)

theorem waiting?_rebind_of_unsettled (h : s.settled? c = none) (p : ClassId) :
    (s.rebind c p).waiting? x = if x = c then (s.get? c).map fun _ => p else s.waiting? x := by
  by_cases hx : x = c
  · subst hx
    cases he : s.get? x with
    | none => simp [rebind, h, waiting?, get?_update, he]
    | some e =>
      have hn : e.settled? = none := by simpa [settled?, he] using h
      simp [rebind, h, waiting?, get?_update, he, Entry.waiting?_rebase, hn]
  · simp only [rebind, h, if_neg hx]
    exact waiting?_update_of_ne hx

theorem unsettled_update {f : Entry → Entry} (hf : ∀ e, e.settled? = none → (f e).settled? = none)
    (h : s.settled? x = none) : (s.update c f).settled? x = none := by
  simp only [settled?, get?_update] at h ⊢
  split
  · cases he : s.get? x with
    | none => rfl
    | some e =>
      rw [he] at h
      exact hf e h
  · exact h

theorem unsettled_rebind (h : s.settled? x = none) (c p : ClassId) : (s.rebind c p).settled? x = none := by
  have hrebase : ∀ e : Entry, e.settled? = none → (e.rebase p).settled? = none := by
    intro e he
    rw [Entry.settled?_rebase, he, Option.map_none]
  unfold rebind
  split
  next st _ =>
    refine unsettled_update (fun e he => ?_) (unsettled_update hrebase ?_)
    · rw [Entry.settled?_enter, he, Option.map_none]
    cases st.declaration.superClass with
    | none => exact h
    | some q =>
      refine unsettled_update (fun e he => ?_) h
      rw [Entry.settled?_strike, he, Option.map_none]
  next => exact unsettled_update hrebase h

theorem get?_append_cases {names : List FullName} {e : Entry} (h : (s.append names).get? x = some e) :
    s.get? x = some e ∨ ¬ s.Registered x ∧ ∃ n ∈ names, e = { name := n } := by
  rw [get?_append] at h
  split at h
  · exact .inl h
  next hx =>
    obtain ⟨n, hn, rfl⟩ := Option.map_eq_some_iff.mp h
    exact .inr ⟨hx, n, List.mem_of_getElem? hn, rfl⟩

theorem observe_append {α : Type} (g : Option Entry → α) (names : List FullName)
    (hg : ∀ n, g (some { name := n }) = g none) : g ((s.append names).get? x) = g (s.get? x) := by
  rw [get?_append]
  split
  · rfl
  next hx =>
    rw [unregistered_get? hx]
    cases names[x.index - s.size]? with
    | none => rfl
    | some n => exact hg n

theorem quiet_append (s : Scope) (names : List FullName) : s.Quiet (s.append names) where
  settled _ := observe_append (·.bind Entry.settled?) names fun _ => rfl
  heirs _ := observe_append (·.elim [] Entry.heirs) names fun _ => rfl
  orderly h x e he := by
    obtain he | ⟨-, n, -, rfl⟩ := get?_append_cases he
    · exact h x e he
    · exact List.nodup_nil
  evolves _ := evolves_append s names

theorem waiting?_append (names : List FullName) : (s.append names).waiting? x = s.waiting? x :=
  observe_append (·.bind Entry.waiting?) names fun _ => rfl

theorem isLoading_append (names : List FullName) : (s.append names).isLoading x = s.isLoading x :=
  observe_append (fun e : Option Entry => e.any Entry.loading) names fun _ => rfl

theorem register_of_find? {name : FullName} (h : s.find? name = some c) :
    s.register name = (c, none, s) := by
  unfold register
  rw [h]

theorem register_of_find?_eq_none {name : FullName} (h : s.find? name = none) :
    ∃ event, s.register name = (⟨s.size⟩, event,
      s.append (name :: name.elementChain.takeWhile fun e => (s.find? e).isNone)) := by
  unfold register
  rw [h]
  exact ⟨_, rfl⟩

theorem register_eq_append (s : Scope) (name : FullName) :
    ∃ names, (s.register name).2.2 = s.append names := by
  cases hf : s.find? name with
  | some c => exact ⟨[], by simp [register_of_find? hf, append]⟩
  | none =>
    obtain ⟨event, hr⟩ := register_of_find?_eq_none hf
    exact ⟨_, by rw [hr]⟩

theorem foreign?_eq_none_iff : s.foreign? d = none ↔ ∀ m ∈ d.mentions, s.Registered m := by
  simp [foreign?, Registered]

theorem attach_eq_ok (h : s.attach c d = .ok s') :
    s.foreign? d = none ∧ s.install? c d false = some s' := by
  unfold attach at h
  split at h
  · cases h
  next hf =>
    split at h
    next hi =>
      cases h
      exact ⟨hf, hi⟩
    · cases h

theorem vet_eq_self {outcome : Except LoadError Declaration}
    (h : ∀ d, outcome = .ok d → ∀ m ∈ d.mentions, s.Registered m) : s.vet c outcome = outcome := by
  cases outcome with
  | error e => rfl
  | ok d =>
    have hf : s.foreign? d = none := foreign?_eq_none_iff.mpr (h d rfl)
    simp [vet, Except.bind, hf]

theorem vet_eq_ok {outcome : Except LoadError Declaration} (h : s.vet c outcome = .ok d) :
    outcome = .ok d ∧ s.foreign? d = none := by
  cases outcome with
  | error e => cases h
  | ok d' =>
    cases hf : s.foreign? d' with
    | some m => simp [vet, Except.bind, hf] at h
    | none =>
      obtain rfl : d' = d := by simpa [vet, Except.bind, hf] using h
      exact ⟨rfl, hf⟩

def Refuses (s : Scope) (outcome : Except LoadError Declaration) : Prop :=
  ∀ d, outcome = .ok d → ∃ m ∈ d.mentions, ¬ s.Registered m

theorem refuses_iff {outcome : Except LoadError Declaration} :
    s.Refuses outcome ↔ verdict (s.vet c outcome) = (.missing, true) := by
  constructor
  · intro h
    cases hv : s.vet c outcome with
    | error e => rfl
    | ok d =>
      obtain ⟨hd, hf⟩ := vet_eq_ok hv
      obtain ⟨m, hm, hn⟩ := h d hd
      exact absurd (foreign?_eq_none_iff.mp hf m hm) hn
  · rintro h d rfl
    by_contra hall
    have hv : s.vet c (.ok d) = .ok d := by
      apply vet_eq_self
      intro d' hd m hm
      cases hd
      by_contra hn
      exact hall ⟨m, hm, hn⟩
    rw [hv] at h
    cases h

theorem missing_of_verdict {outcome : Except LoadError Declaration} (h : verdict outcome = (d, true)) :
    d = .missing := by
  cases outcome with
  | ok d' => cases h
  | error e =>
    cases h
    rfl

theorem endLoad_cases (s : Scope) (c : ClassId) (outcome : Except LoadError Declaration) :
    ∃ d missing, verdict ((s.mark c false).vet c outcome) = (d, missing) ∧
      ((s.mark c false).Installed c d missing (s.endLoad c outcome).2 ∨
        (s.endLoad c outcome).2 = s.mark c false ∧ (s.mark c false).install? c d missing = none) := by
  rcases hv : verdict ((s.mark c false).vet c outcome) with ⟨d, missing⟩
  refine ⟨d, missing, rfl, ?_⟩
  unfold endLoad
  simp only [hv]
  cases hi : (s.mark c false).install? c d missing with
  | some s' => exact .inl (installed_of_eq_some hi)
  | none => exact .inr ⟨rfl, rfl⟩

theorem verdict_registered {outcome : Except LoadError Declaration}
    (h : verdict (s.vet c outcome) = (d, missing)) : ∀ m ∈ d.mentions, s.Registered m := by
  cases hv : s.vet c outcome with
  | ok d' =>
    obtain ⟨rfl, rfl⟩ := Prod.mk.inj ((congrArg verdict hv).symm.trans h)
    exact foreign?_eq_none_iff.mp (vet_eq_ok hv).2
  | error e =>
    obtain ⟨rfl, rfl⟩ := Prod.mk.inj ((congrArg verdict hv).symm.trans h)
    simp [Declaration.mentions, Declaration.missing]

theorem get?_install? (h : s.install? c d missing = some s') (hx : x ≠ c)
    (hp : (s'.declaration c).superClass ≠ some x) : s'.get? x = s.get? x := by
  have hi := installed_of_eq_some h
  unfold install? at h
  split at h
  next queued rebound _ =>
    obtain rfl := Option.some.inj h
    have hsettled : (s.update c (.settle (settle d queued rebound missing))).settled? c =
        some (settle d queued rebound missing) := settled?_settle hi.registered
    rw [declaration_link, declaration_of_settled hsettled] at hp
    rw [get?_link, if_neg hp, get?_update, if_neg (Ne.symm hx)]
  next => cases h

theorem get?_rebind (hx : x ≠ c) (hold : (s.declaration c).superClass ≠ some x)
    (hnew : ((s.rebind c p).declaration c).superClass ≠ some x) : (s.rebind c p).get? x = s.get? x := by
  cases hs : s.settled? c with
  | none => simp only [rebind, hs, get?_update, if_neg (Ne.symm hx)]
  | some st =>
    rw [(rebound_of_settled hs).declaration_self] at hnew
    rw [declaration_of_settled hs] at hold
    have hnew : some p ≠ some x := hnew
    simp only [rebind, hs]
    rw [get?_link, if_neg hnew, get?_update, if_neg (Ne.symm hx), get?_unlink, if_neg hold]

theorem get?_mark {loading : Bool} (hx : x ≠ c) : (s.mark c loading).get? x = s.get? x := by
  rw [mark, get?_update, if_neg (Ne.symm hx)]

end Scope

end ClassHierarchy
