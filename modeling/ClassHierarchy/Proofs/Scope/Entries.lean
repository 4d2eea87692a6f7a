import Mathlib.Tactic.Common
import ClassHierarchy.Proofs.SortedList
import ClassHierarchy.Scope.Basic

/-!
What the operations on a scope do to the entry of each class. A class is seen through its
declaration, its heirs and the super class that waits for it; which of these an operation changes
is settled here, so that no later proof opens an operation.
-/

namespace ClassHierarchy

namespace Entry

def heirs (e : Entry) : List ClassId :=
  match e.slot with
  | .settled st => st.derived
  | .pending queued _ => queued

def waiting? (e : Entry) : Option ClassId :=
  match e.slot with
  | .settled _ => none
  | .pending _ rebound => rebound

theorem settled?_eq_some {e : Entry} {st : Settled} : e.settled? = some st ↔ e.slot = .settled st := by
  cases hs : e.slot <;> simp [settled?, hs]

theorem settled?_enter (c : ClassId) (e : Entry) : (e.enter c).settled? =
    e.settled?.map fun st => { st with derived := SortedList.insert c st.derived } := by
  cases hs : e.slot <;> simp [settled?, enter, hs]

theorem settled?_strike (c : ClassId) (e : Entry) : (e.strike c).settled? =
    e.settled?.map fun st => { st with derived := st.derived.filter (· != c) } := by
  cases hs : e.slot <;> simp [settled?, strike, hs]

theorem settled?_rebase (p : ClassId) (e : Entry) : (e.rebase p).settled? =
    e.settled?.map fun st => { st with declaration := st.declaration.withSuperClass (some p) } := by
  cases hs : e.slot <;> simp [settled?, rebase, hs]

@[simp] theorem settled?_settle (st : Settled) (e : Entry) : (e.settle st).settled? = some st := rfl

@[simp] theorem name_enter (c : ClassId) (e : Entry) : (e.enter c).name = e.name := by
  unfold enter; split <;> rfl

@[simp] theorem name_strike (c : ClassId) (e : Entry) : (e.strike c).name = e.name := by
  unfold strike; split <;> rfl

@[simp] theorem name_rebase (p : ClassId) (e : Entry) : (e.rebase p).name = e.name := by
  unfold rebase; split <;> rfl

@[simp] theorem loading_enter (c : ClassId) (e : Entry) : (e.enter c).loading = e.loading := by
  unfold enter; split <;> rfl

@[simp] theorem loading_strike (c : ClassId) (e : Entry) : (e.strike c).loading = e.loading := by
  unfold strike; split <;> rfl

@[simp] theorem loading_rebase (p : ClassId) (e : Entry) : (e.rebase p).loading = e.loading := by
  unfold rebase; split <;> rfl

@[simp] theorem waiting?_enter (c : ClassId) (e : Entry) : (e.enter c).waiting? = e.waiting? := by
  cases hs : e.slot <;> simp [waiting?, enter, hs]

@[simp] theorem waiting?_strike (c : ClassId) (e : Entry) : (e.strike c).waiting? = e.waiting? := by
  cases hs : e.slot <;> simp [waiting?, strike, hs]

@[simp] theorem heirs_rebase (p : ClassId) (e : Entry) : (e.rebase p).heirs = e.heirs := by
  cases hs : e.slot <;> simp [heirs, rebase, hs]

theorem waiting?_rebase (p : ClassId) (e : Entry) :
    (e.rebase p).waiting? = if e.settled?.isSome then none else some p := by
  cases hs : e.slot <;> simp [waiting?, settled?, rebase, hs]

theorem mem_heirs_enter {x c : ClassId} {e : Entry} : x ∈ (e.enter c).heirs ↔ x = c ∨ x ∈ e.heirs := by
  cases hs : e.slot with
  | settled st => simp [heirs, enter, hs, SortedList.mem_insert]
  | pending queued rebound => simp [heirs, enter, hs, or_comm]

theorem mem_heirs_strike {x c : ClassId} {e : Entry} :
    x ∈ (e.strike c).heirs ↔ x ∈ e.heirs ∧ x ≠ c := by
  cases hs : e.slot <;> simp [heirs, strike, hs]

end Entry

namespace Scope

def Registered (s : Scope) (c : ClassId) : Prop := c.index < s.size

def heirs (s : Scope) (c : ClassId) : List ClassId := (s.get? c).elim [] Entry.heirs

def waiting? (s : Scope) (c : ClassId) : Option ClassId := (s.get? c).bind Entry.waiting?

def isLoading (s : Scope) (c : ClassId) : Bool := (s.get? c).any (·.loading)

variable (s : Scope) (c p x : ClassId)

theorem registered_iff {s : Scope} {c : ClassId} : s.Registered c ↔ ∃ e, s.get? c = some e := by
  rw [← Option.isSome_iff_exists]
  simp [Registered, size, get?]

theorem Registered.of_get? {s : Scope} {c : ClassId} {e : Entry} (h : s.get? c = some e) :
    s.Registered c := registered_iff.mpr ⟨e, h⟩

theorem Registered.of_settled {s : Scope} {c : ClassId} {st : Settled} (h : s.settled? c = some st) :
    s.Registered c := by
  obtain ⟨e, he, -⟩ := Option.bind_eq_some_iff.mp h
  exact .of_get? he

theorem mem_ids {s : Scope} {c : ClassId} : c ∈ s.ids ↔ s.Registered c := by
  constructor
  · intro h
    obtain ⟨i, hi, rfl⟩ := List.mem_map.mp h
    exact List.mem_range.mp hi
  · intro h
    exact List.mem_map.mpr ⟨c.index, List.mem_range.mpr h, rfl⟩

theorem get?_update (f : Entry → Entry) :
    (s.update c f).get? x = if c = x then (s.get? x).map f else s.get? x := by
  simp [update, get?, Array.getElem?_modify, ClassId.ext_iff]

@[simp] theorem size_update (f : Entry → Entry) : (s.update c f).size = s.size := by
  simp [size, update]

theorem get?_link (q : Option ClassId) : (s.link q c).get? x =
    if q = some x then (s.get? x).map (.enter c) else s.get? x := by
  cases q with
  | none => simp [link]
  | some p => simp [link, get?_update]

theorem get?_unlink (q : Option ClassId) : (s.unlink q c).get? x =
    if q = some x then (s.get? x).map (.strike c) else s.get? x := by
  cases q with
  | none => simp [unlink]
  | some p => simp [unlink, get?_update]

@[simp] theorem size_link (q : Option ClassId) : (s.link q c).size = s.size := by
  cases q <;> simp [link]

@[simp] theorem size_unlink (q : Option ClassId) : (s.unlink q c).size = s.size := by
  cases q <;> simp [unlink]

theorem get?_append (names : List FullName) : (s.append names).get? x =
    if x.index < s.size then s.get? x else names[x.index - s.size]?.map fun n => { name := n } := by
  simp only [append, get?, Array.getElem?_append, List.getElem?_toArray, List.getElem?_map]
  rfl

theorem size_append (names : List FullName) : (s.append names).size = s.size + names.length := by
  simp [append, size]

@[simp] theorem declaration_link (q : Option ClassId) : (s.link q c).declaration x = s.declaration x := by
  simp only [declaration, settled?, get?_link]
  split <;> cases s.get? x <;> simp [Entry.settled?_enter, Option.elim_map, Function.comp_def]

@[simp] theorem declaration_unlink (q : Option ClassId) : (s.unlink q c).declaration x = s.declaration x := by
  simp only [declaration, settled?, get?_unlink]
  split <;> cases s.get? x <;> simp [Entry.settled?_strike, Option.elim_map, Function.comp_def]

@[simp] theorem waiting?_link (q : Option ClassId) : (s.link q c).waiting? x = s.waiting? x := by
  simp only [waiting?, get?_link]
  split <;> cases s.get? x <;> simp

@[simp] theorem waiting?_unlink (q : Option ClassId) : (s.unlink q c).waiting? x = s.waiting? x := by
  simp only [waiting?, get?_unlink]
  split <;> cases s.get? x <;> simp

@[simp] theorem isLoading_link (q : Option ClassId) : (s.link q c).isLoading x = s.isLoading x := by
  simp only [isLoading, get?_link]
  split <;> cases s.get? x <;> simp

@[simp] theorem isLoading_unlink (q : Option ClassId) : (s.unlink q c).isLoading x = s.isLoading x := by
  simp only [isLoading, get?_unlink]
  split <;> cases s.get? x <;> simp

theorem mem_heirs_link {y : ClassId} (q : Option ClassId) (hx : s.Registered x) :
    y ∈ (s.link q c).heirs x ↔ q = some x ∧ y = c ∨ y ∈ s.heirs x := by
  obtain ⟨e, he⟩ := registered_iff.mp hx
  simp only [heirs, get?_link, he]
  split <;> simp_all [Entry.mem_heirs_enter]

theorem mem_heirs_unlink {y : ClassId} (q : Option ClassId) :
    y ∈ (s.unlink q c).heirs x ↔ y ∈ s.heirs x ∧ ¬ (q = some x ∧ y = c) := by
  simp only [heirs, get?_unlink]
  split <;> cases s.get? x <;> simp_all [Entry.mem_heirs_strike]

end Scope

end ClassHierarchy
