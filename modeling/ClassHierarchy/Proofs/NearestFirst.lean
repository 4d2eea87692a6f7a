import ClassHierarchy.Loader.Table
import ClassHierarchy.Proofs.SupertypeOrder

namespace ClassHierarchy

open Relation

namespace Run

theorem pairwise_unseen (seen xs : List ClassId) :
    (unseen seen xs).Pairwise fun x y => xs.idxOf x < xs.idxOf y := by
  induction xs generalizing seen with
  | nil => exact .nil
  | cons a xs ih =>
    have htail : ∀ seen, a ∈ seen →
        (unseen seen xs).Pairwise fun x y => (a :: xs).idxOf x < (a :: xs).idxOf y := by
      intro seen ha
      -- As `a` is none of them, it moves the places of all by one.
      have hne : ∀ x ∈ unseen seen xs, a ≠ x := fun x hx hax => (mem_unseen.mp hx).2 (hax ▸ ha)
      apply (ih seen).imp_of_mem
      intro x y hx hy hxy
      rw [List.idxOf_cons_ne xs (hne x hx), List.idxOf_cons_ne xs (hne y hy)]
      exact Nat.succ_lt_succ hxy
    by_cases ha : a ∈ seen
    · rw [← List.singleton_append, unseen_append_of_subset (by simpa using ha)]
      exact htail seen ha
    · have hhead : unseen seen [a] = [a] := by simp [unseen, ha, List.eraseDups_cons]
      rw [← List.singleton_append, unseen_append, hhead]
      refine List.pairwise_cons.mpr ⟨fun x hx => ?_, htail _ (by simp)⟩
      have hax : a ≠ x := fun hax => (mem_unseen.mp hx).2 (by simp [hax])
      rw [List.singleton_append, List.idxOf_cons_self, List.idxOf_cons_ne xs hax]
      exact Nat.succ_pos _

end Run

namespace Scope

variable {s : Scope} {c x : ClassId} {chain cs rest roots : List ClassId} {i j k : Nat}

def ways (s : Scope) (roots : List ClassId) : Nat → List ClassId
  | 0 => roots
  | k + 1 => s.interfacesOf (s.ways roots k)

/-- It takes `k` steps along interface lists from `roots` to get to `x`, and no fewer will do. -/
def Distance (s : Scope) (roots : List ClassId) (k : Nat) (x : ClassId) : Prop :=
  x ∈ s.ways roots k ∧ ∀ j < k, x ∉ s.ways roots j

instance : Decidable (s.Distance roots k x) := inferInstanceAs (Decidable (_ ∧ _))

def tier (s : Scope) (roots cs : List ClassId) (k : Nat) : List ClassId :=
  cs.filter fun x => s.Distance roots k x

def NoFarther (s : Scope) (roots : List ClassId) (x y : ClassId) : Prop :=
  ∃ i j, s.Distance roots i x ∧ s.Distance roots j y ∧ i ≤ j

/-- The interface lists of `cs`, one after another, have `x` for the first time before they have `y`. -/
def NamedBefore (s : Scope) (cs : List ClassId) (x y : ClassId) : Prop :=
  (s.interfacesOf cs).idxOf x < (s.interfacesOf cs).idxOf y

theorem Distance.unique (hi : s.Distance roots i x) (hj : s.Distance roots j x) : i = j := by
  rcases Nat.lt_trichotomy i j with h | h | h
  · exact absurd hi.1 (hj.2 i h)
  · exact h
  · exact absurd hj.1 (hi.2 j h)

theorem mem_within_iff : x ∈ s.within roots k ↔ ∃ j ≤ k, x ∈ s.ways roots j := by
  induction k generalizing x with
  | zero => simp [within, ways]
  | succ k ih =>
    rw [mem_within_succ]
    constructor
    · rintro (hx | ⟨y, hy, hyx⟩)
      · obtain ⟨j, hj, hx⟩ := ih.mp hx
        exact ⟨j, Nat.le_succ_of_le hj, hx⟩
      · obtain ⟨j, hj, hy⟩ := ih.mp hy
        exact ⟨j + 1, Nat.succ_le_succ hj, mem_interfacesOf.mpr ⟨y, hy, hyx⟩⟩
    · rintro ⟨_ | j, hj, hx⟩
      · exact .inl (ih.mpr ⟨0, Nat.zero_le k, hx⟩)
      · obtain ⟨y, hy, hyx⟩ := mem_interfacesOf.mp hx
        exact .inr ⟨y, ih.mpr ⟨j, Nat.le_of_succ_le_succ hj, hy⟩, hyx⟩

theorem mem_level_iff : x ∈ s.level roots k ↔ s.Distance roots k x := by
  cases k with
  | zero => simp [level, Distance, ways]
  | succ k =>
    have hbefore : x ∉ s.within roots k ↔ ∀ j < k + 1, x ∉ s.ways roots j := by
      simp only [mem_within_iff, not_exists, not_and, Nat.lt_succ_iff]
    rw [level, Run.mem_unseen, Distance, ← hbefore]
    refine and_congr_left fun hx => ⟨fun hmem => ?_, fun hway => ?_⟩
    · obtain ⟨j, hj, hway⟩ := mem_within_iff.mp (s.interfacesOf_within_subset roots k hmem)
      obtain rfl | hlt := Nat.eq_or_lt_of_le hj
      · exact hway
      · exact absurd hway (hbefore.mp hx j hlt)
    · obtain ⟨y, hy, hyx⟩ := mem_interfacesOf.mp hway
      exact mem_interfacesOf.mpr ⟨y, mem_within_iff.mpr ⟨k, Nat.le_refl k, hy⟩, hyx⟩

theorem exists_distance (hx : x ∈ s.within roots k) : ∃ i ≤ k, s.Distance roots i x := by
  induction k with
  | zero => exact ⟨0, Nat.le_refl 0, mem_level_iff.mp hx⟩
  | succ k ih =>
    rw [within_succ] at hx
    obtain hx | hx := List.mem_append.mp hx
    · obtain ⟨i, hi, hd⟩ := ih hx
      exact ⟨i, Nat.le_succ_of_le hi, hd⟩
    · exact ⟨k + 1, Nat.le_refl _, mem_level_iff.mp hx⟩

theorem level_pairwise (s : Scope) (roots : List ClassId) (k : Nat) :
    (s.level roots k).Pairwise (s.NoFarther roots) :=
  List.pairwise_of_forall_mem_list fun _ hx _ hy => ⟨k, k, mem_level_iff.mp hx, mem_level_iff.mp hy, Nat.le_refl k⟩

theorem within_pairwise (s : Scope) (roots : List ClassId) (k : Nat) :
    (s.within roots k).Pairwise (s.NoFarther roots) := by
  induction k with
  | zero => exact s.level_pairwise roots 0
  | succ k ih =>
    refine List.pairwise_append.mpr ⟨ih, s.level_pairwise roots (k + 1), fun x hx y hy => ?_⟩
    obtain ⟨i, hi, hx⟩ := exists_distance hx
    exact ⟨i, k + 1, hx, mem_level_iff.mp hy, Nat.le_succ_of_le hi⟩

theorem tier_within (s : Scope) (roots : List ClassId) (k : Nat) :
    s.tier roots (s.within roots k) k = s.level roots k := by
  have hlevel : s.tier roots (s.level roots k) k = s.level roots k :=
    List.filter_eq_self.mpr fun x hx => decide_eq_true (mem_level_iff.mp hx)
  cases k with
  | zero => exact hlevel
  | succ k =>
    have hnearer : s.tier roots (s.within roots k) (k + 1) = [] := by
      refine List.filter_eq_nil_iff.mpr fun x hx hd => ?_
      obtain ⟨i, hi, hx⟩ := exists_distance hx
      have heq := hx.unique (of_decide_eq_true hd)
      omega
    rw [within_succ, tier, List.filter_append]
    exact (congrArg₂ (· ++ ·) hnearer hlevel).trans (List.nil_append _)

theorem exists_subset_within (h : ∀ x ∈ cs, ∃ k, x ∈ s.within roots k) : ∃ k, cs ⊆ s.within roots k := by
  induction cs with
  | nil => exact ⟨0, List.nil_subset _⟩
  | cons x cs ih =>
    obtain ⟨hx, hcs⟩ := List.forall_mem_cons.mp h
    obtain ⟨i, hi⟩ := hx
    obtain ⟨j, hj⟩ := ih hcs
    have hi' : s.within roots i <+: s.within roots (max i j) := within_prefix (Nat.le_max_left i j)
    have hj' : s.within roots j <+: s.within roots (max i j) := within_prefix (Nat.le_max_right i j)
    exact ⟨max i j, List.cons_subset.mpr ⟨hi'.subset hi, List.Subset.trans hj hj'.subset⟩⟩

theorem Enumerates.exists_eq_within (h : s.Enumerates c chain cs) : ∃ k, s.within chain k = cs := by
  obtain ⟨k, hk⟩ := exists_subset_within h.mem
  exact ⟨k, (h.spreads k).eq_of_length_le (List.subperm_of_subset h.nodup hk).length_le⟩

theorem Enumerates.pairwise (h : s.Enumerates c chain cs) : cs.Pairwise (s.NoFarther chain) := by
  obtain ⟨k, rfl⟩ := h.exists_eq_within
  exact s.within_pairwise chain k

theorem Enumerates.tier_eq (h : s.Enumerates c chain cs) (k : Nat) : s.tier chain cs k = s.level chain k := by
  obtain ⟨rest, rfl⟩ := h.spreads k
  have hfarther : s.tier chain rest k = [] := by
    refine List.filter_eq_nil_iff.mpr fun x hx hd => ?_
    have hwithin := s.level_subset_within chain k (mem_level_iff.mpr (of_decide_eq_true hd))
    exact List.disjoint_of_nodup_append h.nodup hwithin hx
  rw [tier, List.filter_append]
  exact (congrArg₂ (· ++ ·) (s.tier_within chain k) hfarther).trans (List.append_nil _)

theorem Enumerates.tier_pairwise (h : s.Enumerates c chain cs) (k : Nat) :
    (s.tier chain cs (k + 1)).Pairwise (s.NamedBefore (s.tier chain cs k)) := by
  rw [h.tier_eq, h.tier_eq, level_succ]
  exact Run.pairwise_unseen _ _

theorem Enumerates.mem_rest_iff (h : s.Enumerates c chain (chain ++ rest)) :
    x ∈ rest ↔ x ∉ chain ∧ ∃ y ∈ chain, TransGen s.Lists y x := by
  have hmem : x ∈ chain ++ rest ↔ ∃ y ∈ chain, ReflTransGen s.Lists y x := by
    simp only [h.mem_iff, InheritsFrom, h.climbs.mem_iff]
  constructor
  · intro hx
    have hchain : x ∉ chain := fun hxc => List.disjoint_of_nodup_append h.nodup hxc hx
    obtain ⟨y, hy, hyx⟩ := hmem.mp (List.mem_append_right chain hx)
    rcases reflTransGen_iff_eq_or_transGen.mp hyx with rfl | hyx
    · exact absurd hy hchain
    · exact ⟨hchain, y, hy, hyx⟩
  · rintro ⟨hchain, y, hy, hyx⟩
    have hx := hmem.mpr ⟨y, hy, hyx.to_reflTransGen⟩
    exact (List.mem_append.mp hx).resolve_left hchain

end Scope

namespace Loader

variable {L : Loader} {n : Nat} {c : ClassId} {w : Session}

theorem supertypes_nearest_first (h : L.Reaches Action.Own w) (hc : w.scope.Registered c)
    (he : w.scope.Charted c) (hn : w.scope.size < n) :
    ∃ chain rest, (L.perform n (Query.supertypes c)).Ends Action.Steady w (chain ++ rest) w ∧
      (chain ++ rest).Nodup ∧ w.scope.IsSuperChain c chain ∧
      (∀ x, x ∈ rest ↔ x ∉ chain ∧ ∃ y ∈ chain, TransGen w.scope.Lists y x) ∧
      (chain ++ rest).Pairwise (w.scope.NoFarther chain) ∧
      ∀ k, (w.scope.tier chain (chain ++ rest) (k + 1)).Pairwise
        (w.scope.NamedBefore (w.scope.tier chain (chain ++ rest) k)) := by
  obtain ⟨chain, cs, hcs, -, hends⟩ := supertypes_ends (L := L) he h.tallied hc hn
  obtain ⟨rest, rfl⟩ : chain <+: cs := hcs.spreads 0
  exact ⟨chain, rest, hends, hcs.nodup, hcs.climbs, fun _ => hcs.mem_rest_iff, hcs.pairwise, hcs.tier_pairwise⟩

def ring : LoaderTable where
  rows := [
    ("A", { outline := { superClass := some (.named "B"), interfaces := [.named "J", .named "I"] } }),
    ("B", { outline := { superClass := some (.named "A"), interfaces := [.named "I", .named "A"] } }),
    ("I", { outline := { interfaces := [.named "K", .named "J", .named "L"] } }),
    ("J", { outline := { interfaces := [.named "L", .named "I", .named "L"] } }),
    ("K", { outline := { interfaces := [.named "L", .named "M", .named "B"] } }),
    ("L", { outline := { interfaces := [.named "J", .named "L"] } }),
    ("M", {})]

theorem supertypes_nearest_first_in_ring : ∃ w chain rest, ring.loader.Reaches Action.Own w ∧
    w.scope.Registered ⟨10⟩ ∧ w.scope.Charted ⟨10⟩ ∧ w.scope.size < 17 ∧
    w.scope.Extends ⟨10⟩ ⟨11⟩ ∧ w.scope.Extends ⟨11⟩ ⟨10⟩ ∧ TransGen w.scope.Lists ⟨12⟩ ⟨12⟩ ∧
    (ring.loader.perform 17 (Query.supertypes ⟨10⟩)).Ends Action.Steady w (chain ++ rest) w ∧
    w.scope.IsSuperChain ⟨10⟩ chain ∧ chain = [⟨10⟩, ⟨11⟩] ∧ rest = [⟨12⟩, ⟨13⟩, ⟨14⟩, ⟨9⟩, ⟨15⟩] ∧
    (∃ y ∈ chain, TransGen w.scope.Lists y ⟨15⟩) ∧ w.scope.Distance chain 3 ⟨15⟩ ∧
    w.scope.tier chain (chain ++ rest) 1 = [⟨12⟩, ⟨13⟩] ∧ w.scope.tier chain (chain ++ rest) 2 = [⟨14⟩, ⟨9⟩] ∧
    w.scope.NamedBefore [⟨12⟩, ⟨13⟩] ⟨14⟩ ⟨9⟩ ∧ w.scope.NoFarther chain ⟨9⟩ ⟨15⟩ := by
  let script : Script (List ClassId) := do
    let _ ← Script.register "K"
    Query.supertypes (← Script.register "A")
  let found := ring.loader.perform 17 (Query.supertypes ⟨10⟩)
  let up : List ClassId := [⟨10⟩, ⟨11⟩]
  let along : List ClassId := [⟨12⟩, ⟨13⟩, ⟨14⟩, ⟨9⟩, ⟨15⟩]
  have h : ((ring.loader.perform 7 script).advance Action.Own 58 .new).bind (fun p =>
      (found.advance Action.Steady 18 p.2).map fun p₁ =>
        decide ((p.2.scope.Resolved ∧ p.2.scope.size = 16) ∧
          ((p.2.scope.declaration ⟨10⟩).superClass = some ⟨11⟩ ∧
            (p.2.scope.declaration ⟨11⟩).superClass = some ⟨10⟩ ∧
            (⟨13⟩ : ClassId) ∈ (p.2.scope.declaration ⟨12⟩).interfaces ∧
            (⟨12⟩ : ClassId) ∈ (p.2.scope.declaration ⟨13⟩).interfaces) ∧
          (p.2.scope.Distance up 3 ⟨15⟩ ∧ p.2.scope.tier up (up ++ along) 1 = [⟨12⟩, ⟨13⟩] ∧
            p.2.scope.tier up (up ++ along) 2 = [⟨14⟩, ⟨9⟩]) ∧
          p₁.1.result? = some (up ++ along))) = some true := by decide +kernel
  obtain ⟨⟨p, w⟩, hp, h⟩ := Option.bind_eq_some_iff.mp h
  obtain ⟨⟨p₁, w₁⟩, hp₁, h⟩ := Option.map_eq_some_iff.mp h
  obtain ⟨⟨hres, hsize⟩, ⟨hAB, hBA, hJI, hIJ⟩, ⟨hM, hfirst, hsecond⟩, h₁⟩ := of_decide_eq_true h
  have hw : ring.loader.Reaches Action.Own w := ⟨_, script, 7, p, Run.leads_iff_advance.mpr ⟨58, hp⟩⟩
  have hc : w.scope.Registered ⟨10⟩ := lt_of_lt_of_eq (by decide) hsize.symm
  have he : w.scope.Charted ⟨10⟩ := (hres.explored ⟨10⟩).charted
  have hn : w.scope.size < 17 := lt_of_eq_of_lt hsize (by decide)
  obtain ⟨chain, rest, hends, -, hclimbs, hmem, hfar, hnamed⟩ := supertypes_nearest_first hw hc he hn
  have heq : up ++ along = chain ++ rest := ((Run.ends_of_advance hp₁ h₁).unique hends).1
  have hup : w.scope.IsSuperChain ⟨10⟩ up := {
    starts := rfl
    linked := .cons_cons hAB (.singleton _)
    nodup := by decide
    closed := fun x hx q hq => by
      rcases List.mem_pair.mp hx with rfl | rfl
      · obtain rfl : ⟨11⟩ = q := Option.some.inj (hAB.symm.trans hq)
        decide
      · obtain rfl : ⟨10⟩ = q := Option.some.inj (hBA.symm.trans hq)
        decide }
  obtain rfl := hclimbs.unique hup
  obtain rfl := List.append_cancel_left heq
  have horder := hnamed 1
  rw [hfirst, hsecond] at horder
  have hlast : ([⟨9⟩, ⟨15⟩] : List ClassId).Sublist (up ++ along) := by decide
  exact ⟨w, up, along, hw, hc, he, hn, hAB, hBA, .tail (.single hJI) hIJ, hends, hclimbs, rfl, rfl,
    ((hmem ⟨15⟩).mp (by decide)).2, hM, hfirst, hsecond, List.rel_of_pairwise_cons horder (List.mem_singleton_self _),
    List.rel_of_pairwise_cons (hfar.sublist hlast) (List.mem_singleton_self _)⟩

end Loader

end ClassHierarchy
