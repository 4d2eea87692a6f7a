import Mathlib.Data.List.TakeWhile
import ClassHierarchy.Proofs.Scope.Operations
import ClassHierarchy.Proofs.Scope.Primitives

namespace ClassHierarchy

namespace FullName

variable {name inner e : FullName}

theorem isArray_of_element? {x : ArrayElement} (h : name.element? = some x) : name.isArray = true := by
  unfold element? at h
  split at h
  next hn => simp [isArray, hn]
  next => cases h

theorem elementChain_of_named (h : name.element? = some (.named inner)) :
    name.elementChain = inner :: inner.elementChain := by
  rw [elementChain]
  split
  next h' =>
    rw [h] at h'
    cases h'
    rfl
  next h' => exact absurd h (h' inner)

theorem elementChain_of_not_named (h : ∀ inner, name.element? ≠ some (.named inner)) :
    name.elementChain = [] := by
  rw [elementChain]
  split
  next h' => exact absurd h' (h _)
  next => rfl

theorem elementChain_cases (name : FullName) : name.elementChain = [] ∨
    ∃ inner, inner.toList.length < name.toList.length ∧
      name.elementChain = inner :: inner.elementChain := by
  by_cases h : ∃ inner, name.element? = some (.named inner)
  · obtain ⟨inner, hi⟩ := h
    exact .inr ⟨inner, length_lt_of_element? hi, elementChain_of_named hi⟩
  · exact .inl (elementChain_of_not_named fun inner hi => h ⟨inner, hi⟩)

theorem elementChain_split (name : FullName) {before after : List FullName}
    (h : name.elementChain = before ++ e :: after) : after = e.elementChain := by
  induction hn : name.toList.length using Nat.strongRecOn generalizing name before with
  | ind n ih =>
    obtain hnil | ⟨inner, hlt, hchain⟩ := elementChain_cases name
    · rw [hnil] at h
      cases before <;> cases h
    · rw [hchain] at h
      cases before with
      | nil =>
        obtain ⟨rfl, rfl⟩ := List.cons.inj h
        rfl
      | cons b before =>
        obtain ⟨-, h⟩ := List.cons.inj h
        exact ih _ (hn ▸ hlt) inner h rfl

theorem elementChain_trans {x : FullName} (he : e ∈ name.elementChain) (hx : x ∈ e.elementChain) :
    x ∈ name.elementChain := by
  obtain ⟨before, after, hsplit⟩ := List.append_of_mem he
  rw [hsplit, List.mem_append, elementChain_split name hsplit]
  exact .inr (List.mem_cons_of_mem _ hx)

theorem length_lt_of_mem_elementChain (he : e ∈ name.elementChain) :
    e.toList.length < name.toList.length := by
  induction hn : name.toList.length using Nat.strongRecOn generalizing name with
  | ind n ih =>
    obtain hnil | ⟨inner, hlt, hchain⟩ := elementChain_cases name
    · rw [hnil] at he
      cases he
    · rw [hchain] at he
      rcases List.mem_cons.mp he with rfl | he
      · exact hn ▸ hlt
      · exact Nat.lt_trans (ih _ (hn ▸ hlt) he rfl) (hn ▸ hlt)

theorem nodup_elementChain (name : FullName) : (name :: name.elementChain).Nodup := by
  induction hn : name.toList.length using Nat.strongRecOn generalizing name with
  | ind n ih =>
    apply List.nodup_cons.mpr
    refine ⟨fun h => Nat.lt_irrefl _ (length_lt_of_mem_elementChain h), ?_⟩
    obtain hnil | ⟨inner, hlt, hchain⟩ := elementChain_cases name
    · rw [hnil]
      exact List.nodup_nil
    · rw [hchain]
      exact ih _ (hn ▸ hlt) inner rfl

end FullName

namespace Scope

def Knows (s : Scope) (name : FullName) : Prop := ∃ c, s.Registered c ∧ s.name c = name

structure Named (s : Scope) : Prop where
  unique : ∀ c c', s.Registered c → s.Registered c' → s.name c = s.name c' → c = c'
  closed : ∀ name, s.Knows name → ∀ e ∈ name.elementChain, s.Knows e

variable {s t : Scope} {c : ClassId} {name : FullName} {names : List FullName}

theorem find?_eq_some (h : s.find? name = some c) : s.Registered c ∧ s.name c = name := by
  obtain ⟨i, hi, rfl⟩ := Option.map_eq_some_iff.mp h
  obtain ⟨hlt, heq, -⟩ := Array.findIdx?_eq_some_iff_getElem.mp hi
  refine ⟨hlt, ?_⟩
  have he : s.get? ⟨i⟩ = some s.entries[i] := Array.getElem?_eq_getElem hlt
  simpa [Scope.name, he] using heq

theorem find?_eq_none (h : s.find? name = none) : ¬ s.Knows name := by
  rintro ⟨c, hc, hn⟩
  have hnone := Array.findIdx?_eq_none_iff.mp (Option.map_eq_none_iff.mp h)
  obtain ⟨e, he⟩ := registered_iff.mp hc
  have hne := hnone e (Array.mem_of_getElem? he)
  simp [Scope.name, he] at hn
  simp [hn] at hne

theorem Named.find?_iff (h : s.Named) : s.find? name = some c ↔ s.Registered c ∧ s.name c = name := by
  refine ⟨find?_eq_some, fun ⟨hc, hn⟩ => ?_⟩
  cases hf : s.find? name with
  | none => exact absurd ⟨c, hc, hn⟩ (find?_eq_none hf)
  | some d =>
    obtain ⟨hd, hdn⟩ := find?_eq_some hf
    rw [h.unique d c hd hc (hdn.trans hn.symm)]

theorem Evolves.knows {R : ClassId → Prop} (h : s.Evolves R t) (hn : s.Knows name) : t.Knows name := by
  obtain ⟨c, hc, rfl⟩ := hn
  exact ⟨c, h.registered hc, h.name hc⟩

theorem knows_of_evolves {R : ClassId → Prop} (h : s.Evolves R t) (hsize : t.size = s.size) :
    t.Knows name ↔ s.Knows name := by
  refine ⟨fun ⟨c, hc, hn⟩ => ?_, h.knows⟩
  have hc := (registered_congr hsize).mp hc
  exact ⟨c, hc, (h.name hc).symm.trans hn⟩

theorem Named.evolves {R : ClassId → Prop} (h : s.Named) (he : s.Evolves R t) (hsize : t.size = s.size) :
    t.Named where
  unique c c' hc hc' hn := by
    have hc := (registered_congr hsize).mp hc
    have hc' := (registered_congr hsize).mp hc'
    rw [he.name hc, he.name hc'] at hn
    exact h.unique c c' hc hc' hn
  closed n hn e hmem := he.knows (h.closed n ((knows_of_evolves he hsize).mp hn) e hmem)

theorem name_append_of_registered (hc : s.Registered c) (names : List FullName) :
    (s.append names).name c = s.name c :=
  (s.evolves_append (R := fun _ => False) names).name hc

theorem name_append_of_not (hc : ¬ s.Registered c) {n : FullName} (hn : names[c.index - s.size]? = some n) :
    (s.append names).name c = n := by
  have hlt : ¬ c.index < s.size := hc
  simp [Scope.name, get?_append, hlt, hn]

theorem getElem?_of_append (hc : (s.append names).Registered c) (hs : ¬ s.Registered c) :
    ∃ n, names[c.index - s.size]? = some n := by
  have hlt : c.index < s.size + names.length := by simpa [Registered, size_append] using hc
  have hge : s.size ≤ c.index := Nat.le_of_not_lt hs
  exact ⟨_, List.getElem?_eq_getElem (by omega)⟩

theorem knows_append {n : FullName} : (s.append names).Knows n ↔ s.Knows n ∨ n ∈ names := by
  constructor
  · rintro ⟨c, hc, rfl⟩
    by_cases hs : s.Registered c
    · exact .inl ⟨c, hs, (name_append_of_registered hs names).symm⟩
    · obtain ⟨n, hn⟩ := getElem?_of_append hc hs
      rw [name_append_of_not hs hn]
      exact .inr (List.mem_of_getElem? hn)
  · rintro (hn | hn)
    · exact (s.evolves_append (R := fun _ => False) names).knows hn
    · obtain ⟨i, hi⟩ := List.getElem?_of_mem hn
      have hlt : i < names.length := (List.getElem?_eq_some_iff.mp hi).1
      refine ⟨⟨s.size + i⟩, ?_, name_append_of_not (by simp [Registered]) (by simpa using hi)⟩
      change s.size + i < (s.append names).size
      rw [size_append]
      omega

theorem Named.append (h : s.Named) (hnodup : names.Nodup) (hnew : ∀ n ∈ names, ¬ s.Knows n)
    (hclosed : ∀ n ∈ names, ∀ e ∈ n.elementChain, (s.append names).Knows e) : (s.append names).Named where
  unique c c' hc hc' hn := by
    by_cases hs : s.Registered c
    · rw [name_append_of_registered hs] at hn
      by_cases hs' : s.Registered c'
      · rw [name_append_of_registered hs'] at hn
        exact h.unique c c' hs hs' hn
      · obtain ⟨n, hget⟩ := getElem?_of_append hc' hs'
        rw [name_append_of_not hs' hget] at hn
        exact absurd ⟨c, hs, hn⟩ (hnew n (List.mem_of_getElem? hget))
    · obtain ⟨n, hget⟩ := getElem?_of_append hc hs
      rw [name_append_of_not hs hget] at hn
      by_cases hs' : s.Registered c'
      · rw [name_append_of_registered hs'] at hn
        exact absurd ⟨c', hs', hn.symm⟩ (hnew n (List.mem_of_getElem? hget))
      · obtain ⟨n', hget'⟩ := getElem?_of_append hc' hs'
        rw [name_append_of_not hs' hget'] at hn
        subst hn
        have hlt := (List.getElem?_eq_some_iff.mp hget).1
        have heq := (List.getElem?_inj hlt hnodup).mp (hget.trans hget'.symm)
        have hge : s.size ≤ c.index := Nat.le_of_not_lt hs
        have hge' : s.size ≤ c'.index := Nat.le_of_not_lt hs'
        exact ClassId.ext (by omega)
  closed n hn e he := by
    obtain hn | hn := knows_append.mp hn
    · exact knows_append.mpr (.inl (h.closed n hn e he))
    · exact hclosed n hn e he

def fresh (s : Scope) (name : FullName) : List FullName :=
  name.elementChain.takeWhile fun e => (s.find? e).isNone

theorem mem_elementChain_of_fresh {e : FullName} (he : e ∈ s.fresh name) : e ∈ name.elementChain :=
  (List.takeWhile_prefix _).subset he

theorem not_knows_of_fresh {e : FullName} (he : e ∈ s.fresh name) : ¬ s.Knows e :=
  find?_eq_none (by simpa using List.mem_takeWhile_imp he)

-- What is left of the chain begins with a known name, so that all of it is known.
theorem Named.knows_of_dropWhile (h : s.Named) {e : FullName}
    (he : e ∈ name.elementChain.dropWhile fun e => (s.find? e).isNone) : s.Knows e := by
  let unknown := fun e => (s.find? e).isNone
  cases hd : name.elementChain.dropWhile unknown with
  | nil =>
    rw [hd] at he
    cases he
  | cons x rest =>
    have hsplit : name.elementChain = s.fresh name ++ x :: rest := by
      rw [← hd]
      exact List.takeWhile_append_dropWhile.symm
    have hne : name.elementChain.dropWhile unknown ≠ [] := by simp [hd]
    have hhead : unknown x = false := by
      have hnot := List.head_dropWhile_not unknown hne
      simpa [hd] using hnot
    simp only [unknown, Option.isNone_eq_false_iff, Option.isSome_iff_exists] at hhead
    obtain ⟨c, hfound⟩ := hhead
    have hx : s.Knows x := ⟨c, find?_eq_some hfound⟩
    rw [hd] at he
    rcases List.mem_cons.mp he with rfl | he
    · exact hx
    · rw [FullName.elementChain_split name hsplit] at he
      exact h.closed x hx e he

theorem Named.append_fresh (h : s.Named) (hf : s.find? name = none) :
    (s.append (name :: s.fresh name)).Named := by
  have hall : ∀ e ∈ name.elementChain, (s.append (name :: s.fresh name)).Knows e := by
    intro e he
    rw [← List.takeWhile_append_dropWhile (p := fun e => (s.find? e).isNone) (l := name.elementChain),
      List.mem_append] at he
    obtain he | he := he
    · exact knows_append.mpr (.inr (List.mem_cons_of_mem _ he))
    · exact knows_append.mpr (.inl (h.knows_of_dropWhile he))
  apply h.append
  · have hsublist : (name :: s.fresh name).Sublist (name :: name.elementChain) :=
      ((List.takeWhile_prefix _).sublist).cons_cons name
    exact (FullName.nodup_elementChain name).sublist hsublist
  · intro n hn
    rcases List.mem_cons.mp hn with rfl | hn
    · exact find?_eq_none hf
    · exact not_knows_of_fresh hn
  · intro n hn e he
    rcases List.mem_cons.mp hn with rfl | hn
    · exact hall e he
    · exact hall e (FullName.elementChain_trans (mem_elementChain_of_fresh hn) he)

theorem register_named (h : s.Named) (name : FullName) :
    (s.register name).2.2.Named ∧ (s.register name).2.2.Registered (s.register name).1 ∧
    (s.register name).2.2.name (s.register name).1 = name ∧
    ∀ n, (s.register name).2.2.Knows n → s.Knows n ∨ n = name ∨ n ∈ name.elementChain := by
  cases hf : s.find? name with
  | some c =>
    rw [register_of_find? hf]
    obtain ⟨hc, hn⟩ := find?_eq_some hf
    exact ⟨h, hc, hn, fun n hk => .inl hk⟩
  | none =>
    obtain ⟨event, hr⟩ := register_of_find?_eq_none hf
    rw [hr]
    refine ⟨h.append_fresh hf, ?_, ?_, ?_⟩
    · change s.size < (s.append (name :: s.fresh name)).size
      rw [size_append]
      simp
    · apply name_append_of_not (Nat.lt_irrefl _)
      change (name :: s.fresh name)[s.size - s.size]? = some name
      rw [Nat.sub_self, List.getElem?_cons_zero]
    · intro n hn
      obtain hn | hn := knows_append.mp hn
      · exact .inl hn
      · rcases List.mem_cons.mp hn with rfl | hn
        · exact .inr (.inl rfl)
        · exact .inr (.inr (mem_elementChain_of_fresh hn))

theorem named_new : Scope.new.Named := by
  have hkeyword : ∀ p ∈ Primitive.all, FullName.element? p.keyword = none := by decide
  have hall : ∀ p, p ∈ Primitive.all := fun p => List.mem_of_getElem? (Primitive.all_getElem?_position p)
  have hinj : ∀ p ∈ Primitive.all, ∀ q ∈ Primitive.all, p.keyword = q.keyword → p = q := by decide
  have hname : ∀ c, Scope.new.Registered c → ∃ p, c = .ofPrimitive p ∧ Scope.new.name c = p.keyword := by
    intro c hc
    obtain ⟨e, he⟩ := registered_iff.mp hc
    obtain ⟨p, rfl, rfl⟩ := get?_new he
    exact ⟨p, rfl, by simp [Scope.name, he, primitiveEntry]⟩
  constructor
  · intro c c' hc hc' hn
    obtain ⟨p, rfl, hp⟩ := hname c hc
    obtain ⟨q, rfl, hq⟩ := hname c' hc'
    rw [hinj p (hall p) q (hall q) (hp.symm.trans (hn.trans hq))]
  · rintro name ⟨c, hc, rfl⟩ e he
    obtain ⟨p, rfl, hp⟩ := hname c hc
    have hnone : (Scope.new.name (.ofPrimitive p)).elementChain = [] := by
      apply FullName.elementChain_of_not_named
      intro inner
      simp [hp, hkeyword p (hall p)]
    rw [hnone] at he
    cases he

end Scope

end ClassHierarchy
