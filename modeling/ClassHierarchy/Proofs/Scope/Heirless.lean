import ClassHierarchy.Proofs.DerivedSets
import ClassHierarchy.Proofs.Registry

/-!
Scopes without heirs. Which classes extend a class is told by what those classes declare, so that a scope can
do without keeping count. Without it an action changes the entry of its own class alone, and giving a class
another super class can be put off until after any other action.
-/

namespace ClassHierarchy

namespace Entry

def heirless (e : Entry) : Entry :=
  match e.slot with
  | .settled st => { e with slot := .settled { st with derived := [] } }
  | .pending _ rebound => { e with slot := .pending [] rebound }

def accept (d : Declaration) (missing : Bool) (e : Entry) : Entry :=
  match e.slot with
  | .settled _ => e
  | .pending _ rebound => { e with slot := .settled (Scope.settle d [] rebound missing) }

variable {e : Entry} {c p q : ClassId} {d : Declaration} {missing loading : Bool}

@[simp] theorem name_heirless : e.heirless.name = e.name := by
  unfold heirless
  split <;> rfl

theorem heirless_enter : (e.enter c).heirless = e.heirless := by
  cases hs : e.slot <;> simp [enter, heirless, hs]

theorem heirless_strike : (e.strike c).heirless = e.heirless := by
  cases hs : e.slot <;> simp [strike, heirless, hs]

theorem heirless_rebase : (e.rebase p).heirless = e.heirless.rebase p := by
  cases hs : e.slot <;> simp [rebase, heirless, hs]

theorem heirless_mark : ({ e with loading } : Entry).heirless = { e.heirless with loading } := by
  cases hs : e.slot <;> simp [heirless, hs]

theorem rebase_rebase : (e.rebase p).rebase q = e.rebase q := by
  cases hs : e.slot <;> simp [rebase, hs, Declaration.withSuperClass]

theorem rebase_mark : ({ e with loading } : Entry).rebase p = { e.rebase p with loading } := by
  cases hs : e.slot <;> simp [rebase, hs]

theorem accept_rebase : (e.rebase p).accept d missing = (e.accept d missing).rebase p := by
  cases hs : e.slot <;> simp [rebase, accept, hs, Scope.settle, Declaration.withSuperClass]

end Entry

namespace Scope

def heirless (s : Scope) : Scope := ⟨s.entries.map Entry.heirless⟩

variable {s t : Scope} {b c : ClassId} {f g : Entry → Entry}

theorem ext_get? (h : ∀ c, s.get? c = t.get? c) : s = t := by
  obtain ⟨es⟩ := s
  obtain ⟨es'⟩ := t
  have hes : es = es' := Array.ext_getElem? fun i => h ⟨i⟩
  rw [hes]

@[simp] theorem get?_heirless : s.heirless.get? c = (s.get? c).map Entry.heirless := by
  simp [heirless, get?]

@[simp] theorem size_heirless : s.heirless.size = s.size := by simp [heirless, size]

theorem names_congr (h : ∀ c, (s.get? c).map (·.name) = (t.get? c).map (·.name)) : s.names = t.names := by
  apply List.ext_getElem?
  intro i
  simpa [names, get?] using h ⟨i⟩

theorem find?_eq (s : Scope) (name : FullName) :
    s.find? name = (s.names.findIdx? (· == name)).map ClassId.mk := by
  obtain ⟨⟨es⟩⟩ := s
  simp [find?, names, List.findIdx?_map, Function.comp_def]

theorem name_eq (s : Scope) (c : ClassId) : s.name c = (s.names[c.index]?).getD "" := by
  cases he : s.get? c <;> simp_all [names, name, get?]

def newcomers (s : Scope) (name : FullName) : List FullName :=
  if (s.find? name).isSome then [] else name :: s.fresh name

theorem register_eq_newcomers (s : Scope) (name : FullName) :
    (s.register name).2.2 = s.append (s.newcomers name) := by
  cases hf : s.find? name with
  | some c => simp [register_of_find? hf, newcomers, hf, append]
  | none =>
    obtain ⟨event, hr⟩ := register_of_find?_eq_none hf
    simp [hr, newcomers, hf, fresh]

theorem newcomers_congr (h : s.names = t.names) (name : FullName) : s.newcomers name = t.newcomers name := by
  simp only [newcomers, fresh, find?_eq, h]

theorem foreign?_congr (h : s.size = t.size) (d : Declaration) : s.foreign? d = t.foreign? d := by
  simp only [foreign?, h]

theorem vet_congr (h : s.names = t.names) (c : ClassId) (outcome : Except LoadError Declaration) :
    s.vet c outcome = t.vet c outcome := by
  have hsize : s.size = t.size := by rw [← length_names, ← length_names, h]
  simp only [vet, foreign?_congr hsize, name_eq, h]

theorem names_heirless (s : Scope) : s.heirless.names = s.names :=
  names_congr fun c => by simp [Function.comp_def]

theorem names_update (hf : ∀ e, (f e).name = e.name) : (s.update c f).names = s.names := by
  apply names_congr
  intro x
  rw [get?_update]
  split <;> simp [hf, Function.comp_def]

theorem heirless_update (hf : ∀ e, (f e).heirless = g e.heirless) :
    (s.update c f).heirless = s.heirless.update c g := by
  apply ext_get?
  intro x
  simp only [get?_heirless, get?_update]
  split <;> simp [hf, Function.comp_def]

theorem heirless_link (s : Scope) (q : Option ClassId) (c : ClassId) : (s.link q c).heirless = s.heirless := by
  apply ext_get?
  intro x
  simp only [get?_heirless, get?_link]
  split <;> simp [Entry.heirless_enter, Function.comp_def]

theorem heirless_unlink (s : Scope) (q : Option ClassId) (c : ClassId) :
    (s.unlink q c).heirless = s.heirless := by
  apply ext_get?
  intro x
  simp only [get?_heirless, get?_unlink]
  split <;> simp [Entry.heirless_strike, Function.comp_def]

theorem heirless_append (s : Scope) (names : List FullName) :
    (s.append names).heirless = s.heirless.append names := by
  apply ext_get?
  intro x
  simp only [get?_heirless, get?_append, size_heirless]
  split <;> simp [Entry.heirless, Function.comp_def]

theorem heirless_mark (s : Scope) (c : ClassId) (loading : Bool) :
    (s.mark c loading).heirless = s.heirless.mark c loading := heirless_update fun _ => Entry.heirless_mark

theorem heirless_rebind (s : Scope) (c p : ClassId) :
    (s.rebind c p).heirless = s.heirless.update c (.rebase p) := by
  have hupdate (t : Scope) : (t.update c (.rebase p)).heirless = t.heirless.update c (.rebase p) :=
    heirless_update fun _ => Entry.heirless_rebase
  unfold rebind
  split
  · rw [heirless_link, hupdate, heirless_unlink]
  · exact hupdate s

theorem heirless_install? (s : Scope) (c : ClassId) (d : Declaration) (missing : Bool) :
    ((s.install? c d missing).getD s).heirless = s.heirless.update c (.accept d missing) := by
  unfold install?
  cases hs : s.slot? c with
  | none =>
    have he : s.get? c = none := Option.map_eq_none_iff.mp hs
    apply ext_get?
    intro x
    by_cases hx : c = x
    · simp [get?_update, ← hx, he]
    · simp [get?_update, hx]
  | some slot =>
    obtain ⟨e, he, hslot⟩ := Option.map_eq_some_iff.mp hs
    apply ext_get?
    intro x
    by_cases hx : c = x
    · cases slot with
      | settled st => simp [get?_update, ← hx, he, Entry.accept, Entry.heirless, hslot]
      | pending queued rebound =>
        simp [get?_update, heirless_link, ← hx, he, Entry.settle, Entry.accept, Entry.heirless, hslot, settle,
          SortedList.ofList]
    · cases slot <;> simp [get?_update, heirless_link, hx]

theorem attach_eq_install? (s : Scope) (c : ClassId) (d : Declaration) :
    (s.attach c d).toOption.getD s = if s.foreign? d = none then (s.install? c d false).getD s else s := by
  unfold attach
  cases s.foreign? d with
  | some m => rfl
  | none => cases s.install? c d false <;> rfl

theorem endLoad_eq_install? (s : Scope) (c : ClassId) (outcome : Except LoadError Declaration) :
    (s.endLoad c outcome).2 = ((s.mark c false).install? c (verdict ((s.mark c false).vet c outcome)).1
      (verdict ((s.mark c false).vet c outcome)).2).getD (s.mark c false) := by
  unfold endLoad
  dsimp only
  split
  next hi => rw [hi, Option.getD_some]
  next hi => rw [hi, Option.getD_none]

theorem update_update_comm (h : b = c → ∀ e, g (f e) = f (g e)) :
    (s.update c f).update b g = (s.update b g).update c f := by
  apply ext_get?
  intro x
  simp only [get?_update]
  by_cases hb : b = x <;> by_cases hc : c = x
  · simp [hb, hc, h (hb.trans hc.symm), Function.comp_def]
  all_goals simp [hb, hc]

theorem update_append (hc : s.Registered c) (names : List FullName) :
    (s.update c f).append names = (s.append names).update c f := by
  apply ext_get?
  intro x
  simp only [get?_update, get?_append, size_update]
  by_cases hx : c = x
  · subst hx
    have hlt : c.index < s.size := hc
    simp [hlt]
  · simp [hx]

/-- The same classes in the same places, of each of which the same is known. Only the queue of a class that
is not settled may be in another order. -/
structure Coincides (s t : Scope) : Prop where
  names : s.names = t.names
  settled : ∀ c, s.settled? c = t.settled? c
  waiting : ∀ c, s.waiting? c = t.waiting? c
  loading : ∀ c, s.isLoading c = t.isLoading c
  heirs : ∀ c, (s.heirs c).Perm (t.heirs c)

variable {x : ClassId} {st : Settled}

theorem waiting?_heirless (s : Scope) (c : ClassId) : s.heirless.waiting? c = s.waiting? c := by
  have hentry (e : Entry) : e.heirless.waiting? = e.waiting? := by
    cases hs : e.slot <;> simp [Entry.heirless, Entry.waiting?, hs]
  simp only [waiting?, get?_heirless]
  cases s.get? c <;> simp [hentry]

theorem isLoading_heirless (s : Scope) (c : ClassId) : s.heirless.isLoading c = s.isLoading c := by
  have hentry (e : Entry) : e.heirless.loading = e.loading := by
    cases hs : e.slot <;> simp [Entry.heirless, hs]
  simp only [isLoading, get?_heirless]
  cases s.get? c <;> simp [hentry]

theorem settled?_heirless (s : Scope) (c : ClassId) :
    s.heirless.settled? c = (s.settled? c).map fun st => { st with derived := [] } := by
  have hentry (e : Entry) : e.heirless.settled? = e.settled?.map fun st => { st with derived := [] } := by
    cases hs : e.slot <;> simp [Entry.heirless, Entry.settled?, hs]
  simp only [settled?, get?_heirless]
  cases s.get? c <;> simp [hentry]

theorem declaration_heirless (s : Scope) (c : ClassId) : s.heirless.declaration c = s.declaration c := by
  simp only [declaration, settled?_heirless]
  cases s.settled? c <;> rfl

theorem heirs_of_settled (h : s.settled? c = some st) : s.heirs c = st.derived := by
  obtain ⟨e, he, hs⟩ := Option.bind_eq_some_iff.mp h
  simp [heirs, he, Entry.heirs, Entry.settled?_eq_some.mp hs]

theorem Orderly.pairwise_derived (h : s.Orderly) (hc : s.settled? c = some st) :
    st.derived.Pairwise (· < ·) := by
  obtain ⟨e, he, hs⟩ := Option.bind_eq_some_iff.mp hc
  have ho := h c e he
  rwa [Entry.Orderly, Entry.settled?_eq_some.mp hs] at ho

theorem Orderly.nodup_heirs (h : s.Orderly) (c : ClassId) : (s.heirs c).Nodup := by
  cases he : s.get? c with
  | none => simp [heirs, he]
  | some e =>
    have ho := h c e he
    cases hs : e.slot with
    | settled st =>
      have hirrefl : ∀ a b : ClassId, a < b → a ≠ b := by
        rintro a _ hlt rfl
        exact Nat.lt_irrefl _ hlt
      simp only [Entry.Orderly, hs] at ho
      have hnodup : st.derived.Nodup := ho.imp fun {a b} => hirrefl a b
      simpa [heirs, he, Entry.heirs, hs] using hnodup
    | pending queued rebound =>
      simp only [Entry.Orderly, hs] at ho
      simpa [heirs, he, Entry.heirs, hs] using ho

theorem Tallied.mem_heirs_iff (hs : s.Tallied) (ht : t.Tallied) (h : s.heirless = t.heirless) :
    x ∈ s.heirs c ↔ x ∈ t.heirs c := by
  have hsize : s.size = t.size := by rw [← size_heirless, h, size_heirless]
  by_cases hc : s.Registered c
  · rw [hs.heirs c x hc, ht.heirs c x ((registered_congr hsize).mp hc), ← declaration_heirless s, h,
      declaration_heirless]
  · have hc' : ¬ t.Registered c := fun hc' => hc ((registered_congr hsize).mpr hc')
    simp [Scope.heirs, unregistered_get? hc, unregistered_get? hc']

theorem Tallied.coincides (hs : s.Tallied) (ht : t.Tallied) (h : s.heirless = t.heirless) :
    s.Coincides t := by
  have hheirs : ∀ c, (s.heirs c).Perm (t.heirs c) := fun c =>
    (List.perm_ext_iff_of_nodup (hs.orderly.nodup_heirs c) (ht.orderly.nodup_heirs c)).mpr fun x =>
      hs.mem_heirs_iff ht h
  constructor
  case names => rw [← names_heirless s, h, names_heirless]
  case waiting => intro c; rw [← waiting?_heirless s, h, waiting?_heirless]
  case loading => intro c; rw [← isLoading_heirless s, h, isLoading_heirless]
  case heirs => exact hheirs
  case settled =>
    intro c
    have hc := settled?_heirless s c
    rw [h, settled?_heirless] at hc
    cases hsc : s.settled? c with
    | none => simpa [hsc, eq_comm] using hc
    | some st =>
      rw [hsc] at hc
      obtain ⟨st', htc, heq⟩ := Option.map_eq_some_iff.mp hc
      have hderived : st.derived = st'.derived := by
        have hperm := hheirs c
        rw [heirs_of_settled hsc, heirs_of_settled htc] at hperm
        refine hperm.eq_of_pairwise ?_ (hs.orderly.pairwise_derived hsc) (ht.orderly.pairwise_derived htc)
        intro a b _ _ hab hba
        exact absurd hab (Nat.lt_asymm hba)
      obtain ⟨d, derived, missing⟩ := st
      obtain ⟨d', derived', missing'⟩ := st'
      simp_all

end Scope

namespace Action

def plain : Action → Scope → Scope
  | .register name, s => (s.register name).2.2
  | .attach c d, s => if s.foreign? d = none then s.update c (.accept d false) else s
  | .rebind c p, s => s.update c (.rebase p)
  | .call c, s => s.mark c true
  | .finish c outcome, s =>
    let verdict := Scope.verdict (s.vet c outcome)
    (s.mark c false).update c (.accept verdict.1 verdict.2)
  | _, s => s

theorem heirless_next (x : Action) (s : Scope) : (x.next s).heirless = x.plain s.heirless := by
  cases x with
  | register name =>
    change (s.register name).2.2.heirless = (s.heirless.register name).2.2
    rw [Scope.register_eq_newcomers, Scope.register_eq_newcomers, Scope.heirless_append,
      Scope.newcomers_congr s.names_heirless]
  | attach c d =>
    change ((s.attach c d).toOption.getD s).heirless =
      if s.heirless.foreign? d = none then s.heirless.update c (.accept d false) else s.heirless
    rw [Scope.attach_eq_install?, Scope.foreign?_congr s.size_heirless]
    split
    · exact s.heirless_install? c d false
    · rfl
  | rebind c p => exact s.heirless_rebind c p
  | call c => exact s.heirless_mark c true
  | finish c outcome =>
    have hmark : (s.mark c false).names = s.names := Scope.names_update fun _ => rfl
    have hnames := hmark.trans s.names_heirless.symm
    change (s.endLoad c outcome).2.heirless = (s.heirless.mark c false).update c (.accept _ _)
    rw [Scope.endLoad_eq_install?, Scope.heirless_install?, Scope.heirless_mark, Scope.vet_congr hnames]
  | look | emit e | note m | giveUp => rfl

def rebound? (c : ClassId) : Action → Option ClassId
  | .rebind b p => if b = c then some p else none
  | _ => none

variable {x : Action} {s : Scope} {c p : ClassId}

theorem registered_plain (x : Action) (hc : s.Registered c) : (x.plain s).Registered c := by
  cases x with
  | register name =>
    change (s.register name).2.2.Registered c
    rw [Scope.register_eq_newcomers]
    exact (s.evolves_append (R := fun _ => False) _).registered hc
  | attach b d =>
    simp only [plain]
    split
    · simpa [Scope.Registered] using hc
    · exact hc
  | rebind b p | call b | finish b outcome => simpa [plain, Scope.Registered] using hc
  | look | emit e | note m | giveUp => exact hc

theorem plain_rebase (hx : x.rebound? c = none) (hc : s.Registered c) :
    x.plain (s.update c (.rebase p)) = (x.plain s).update c (.rebase p) := by
  have hnames : (s.update c (.rebase p)).names = s.names := Scope.names_update (Entry.name_rebase p)
  have haccept (d : Declaration) (missing : Bool) (e : Entry) :
      (e.rebase p).accept d missing = (e.accept d missing).rebase p := Entry.accept_rebase
  cases x with
  | register name =>
    change ((s.update c (.rebase p)).register name).2.2 = (s.register name).2.2.update c (.rebase p)
    rw [Scope.register_eq_newcomers, Scope.register_eq_newcomers, Scope.newcomers_congr hnames,
      Scope.update_append hc]
  | attach b d =>
    have hupdate : ((s.update c (.rebase p)).update b (.accept d false)) =
        (s.update b (.accept d false)).update c (.rebase p) :=
      Scope.update_update_comm fun _ => haccept d false
    simp only [plain]
    rw [Scope.foreign?_congr (s.size_update c _)]
    split
    · exact hupdate
    · rfl
  | rebind b q =>
    have hb : b ≠ c := by
      rintro rfl
      simp [rebound?] at hx
    exact Scope.update_update_comm fun h => absurd h hb
  | call b => exact Scope.update_update_comm fun _ _ => Entry.rebase_mark.symm
  | finish b outcome =>
    have hmark : (s.update c (.rebase p)).mark b false = (s.mark b false).update c (.rebase p) :=
      Scope.update_update_comm fun _ _ => Entry.rebase_mark.symm
    simp only [plain]
    rw [Scope.vet_congr hnames, hmark]
    exact Scope.update_update_comm fun _ => haccept _ _
  | look | emit e | note m | giveUp => rfl

end Action

end ClassHierarchy
