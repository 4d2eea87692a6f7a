import Mathlib.Data.List.Chain
import ClassHierarchy.Proofs.Supertypes

namespace ClassHierarchy

open Relation

namespace Run

variable {seen xs ys : List ClassId}

theorem unseen_append (seen xs ys : List ClassId) :
    unseen seen (xs ++ ys) = unseen seen xs ++ unseen (seen ++ unseen seen xs) ys := by
  have hrest : (ys.filter (· ∉ seen)).removeAll (xs.filter (· ∉ seen)) =
      ys.filter (· ∉ seen ++ unseen seen xs) := by
    rw [List.removeAll, List.filter_filter]
    apply List.filter_congr
    intro y _
    rw [Bool.eq_iff_iff]
    simp [mem_unseen]
    tauto
  rw [unseen, List.filter_append, List.eraseDups_append, hrest]
  rfl

theorem unseen_append_of_subset (h : xs ⊆ seen) (ys : List ClassId) :
    unseen seen (xs ++ ys) = unseen seen ys := by
  have hnil : xs.filter (· ∉ seen) = [] := by simpa using fun x hx => h hx
  rw [unseen, List.filter_append, hnil, List.nil_append, unseen]

end Run

namespace Scope

variable {s : Scope} {c p x y : ClassId} {cs roots : List ClassId} {i j k : Nat}

def Extends (s : Scope) (a b : ClassId) : Prop := (s.declaration a).superClass = some b

def Lists (s : Scope) (a b : ClassId) : Prop := b ∈ (s.declaration a).interfaces

def InheritsFrom (s : Scope) (a b : ClassId) : Prop :=
  ∃ x, ReflTransGen s.Extends a x ∧ ReflTransGen s.Lists x b

/-- All that `a` inherits from is settled or being loaded. -/
def Charted (s : Scope) (a : ClassId) : Prop := ∀ x, s.InheritsFrom a x → s.isUntouched x = false

def interfacesOf (s : Scope) (cs : List ClassId) : List ClassId :=
  cs.flatMap fun c => (s.declaration c).interfaces

def within (s : Scope) (roots : List ClassId) : Nat → List ClassId
  | 0 => roots
  | k + 1 => s.within roots k ++ Run.unseen (s.within roots k) (s.interfacesOf (s.within roots k))

def level (s : Scope) (roots : List ClassId) : Nat → List ClassId
  | 0 => roots
  | k + 1 => Run.unseen (s.within roots k) (s.interfacesOf (s.within roots k))

theorem within_succ (s : Scope) (roots : List ClassId) (k : Nat) :
    s.within roots (k + 1) = s.within roots k ++ s.level roots (k + 1) := rfl

theorem mem_interfacesOf : x ∈ s.interfacesOf cs ↔ ∃ y ∈ cs, x ∈ (s.declaration y).interfaces := List.mem_flatMap

theorem interfacesOf_cons (s : Scope) (c : ClassId) (cs : List ClassId) :
    s.interfacesOf (c :: cs) = (s.declaration c).interfaces ++ s.interfacesOf cs := rfl

theorem interfacesOf_append (s : Scope) (xs ys : List ClassId) :
    s.interfacesOf (xs ++ ys) = s.interfacesOf xs ++ s.interfacesOf ys := List.flatMap_append

theorem mem_within_succ : x ∈ s.within roots (k + 1) ↔
    x ∈ s.within roots k ∨ ∃ y ∈ s.within roots k, x ∈ (s.declaration y).interfaces := by
  rw [within_succ, level, List.mem_append, Run.mem_unseen, mem_interfacesOf]
  tauto

theorem interfacesOf_within_subset (s : Scope) (roots : List ClassId) (k : Nat) :
    s.interfacesOf (s.within roots k) ⊆ s.within roots (k + 1) :=
  fun _ hx => mem_within_succ.mpr (.inr (mem_interfacesOf.mp hx))

theorem level_succ (s : Scope) (roots : List ClassId) (k : Nat) :
    s.level roots (k + 1) = Run.unseen (s.within roots k) (s.interfacesOf (s.level roots k)) := by
  cases k with
  | zero => rfl
  | succ k =>
    rw [level, within_succ, interfacesOf_append]
    exact Run.unseen_append_of_subset (s.interfacesOf_within_subset roots k) _

theorem within_prefix (h : i ≤ j) : s.within roots i <+: s.within roots j := by
  induction h with
  | refl => exact List.prefix_rfl
  | step _ ih => exact ih.trans (List.prefix_append _ _)

theorem level_subset_within (s : Scope) (roots : List ClassId) (k : Nat) : s.level roots k ⊆ s.within roots k := by
  cases k with
  | zero => exact List.Subset.refl _
  | succ k => exact List.subset_append_right _ _

theorem prefix_within (s : Scope) (roots : List ClassId) (k : Nat) : roots <+: s.within roots k :=
  within_prefix (Nat.zero_le k)

theorem nodup_within (h : roots.Nodup) (k : Nat) : (s.within roots k).Nodup := by
  induction k with
  | zero => exact h
  | succ k ih => exact Run.nodup_append_unseen ih _

theorem within_stable (h : s.within roots (k + 1) = s.within roots k) (j : Nat) :
    s.within roots (k + j) = s.within roots k := by
  induction j with
  | zero => rfl
  | succ j ih =>
    rw [← h, ← Nat.add_assoc, within, within, ih]

def MetBefore (s : Scope) (roots : List ClassId) (x y : ClassId) : Prop :=
  ∃ k, [x, y].Sublist (s.within roots k)

structure Climbing (s : Scope) (c : ClassId) (seen : List ClassId) (next? : Option ClassId) : Prop where
  starts : (next?.toList ++ seen).getLast? = some c
  linked : (next?.toList ++ seen).IsChain (flip s.Extends)
  nodup : seen.Nodup
  closed : ∀ x ∈ seen, ∀ p, s.Extends x p → p ∈ seen ∨ next? = some p

structure IsSuperChain (s : Scope) (c : ClassId) (chain : List ClassId) : Prop where
  starts : chain.head? = some c
  linked : chain.IsChain s.Extends
  nodup : chain.Nodup
  closed : ∀ x ∈ chain, ∀ p, s.Extends x p → p ∈ chain

variable {seen chain chain' : List ClassId} {next? : Option ClassId}

theorem climbing_start (s : Scope) (c : ClassId) : s.Climbing c [] (some c) where
  starts := rfl
  linked := .singleton c
  nodup := List.nodup_nil
  closed := nofun

theorem reflTransGen_of_isChain {r : ClassId → ClassId → Prop} (h : cs.IsChain r) (hc : cs.head? = some c)
    (hx : x ∈ cs) : ReflTransGen r c x := by
  obtain ⟨rest, rfl⟩ : ∃ rest, cs = c :: rest := by
    cases cs with
    | nil => cases hc
    | cons y rest =>
      obtain rfl : y = c := Option.some.inj hc
      exact ⟨rest, rfl⟩
  have hpairwise := List.isChain_iff_pairwise.mp (h.imp fun _ _ hr => TransGen.single hr)
  rcases List.mem_cons.mp hx with rfl | hx
  · exact .refl
  · exact ((List.pairwise_cons.mp hpairwise).1 x hx).to_reflTransGen

theorem below_of_ascends (h : ReflTransGen s.Extends c x) : s.Below c x :=
  ReflTransGen.mono (fun _ _ he => parent_of_superClass he) _ _ h

theorem InheritsFrom.below (h : s.InheritsFrom c x) : s.Below c x := by
  obtain ⟨y, hy, hx⟩ := h
  exact (below_of_ascends hy).trans (ReflTransGen.mono (fun _ _ hl => parent_of_interface hl) _ _ hx)

theorem InheritsFrom.refl (c : ClassId) : s.InheritsFrom c c := ⟨c, .refl, .refl⟩

theorem inheritsFrom_of_ascends (h : ReflTransGen s.Extends c x) : s.InheritsFrom c x := ⟨x, h, .refl⟩

theorem Explored.charted (h : s.Explored c) : s.Charted c := fun x hx => h x hx.below

theorem Climbing.next (h : s.Climbing c seen (some x)) (hx : x ∉ seen) :
    s.Climbing c (x :: seen) (s.declaration x).superClass where
  starts := by
    have hstarts : (x :: seen).getLast? = some c := h.starts
    rw [List.getLast?_append, hstarts]
    rfl
  linked := by
    have hlinked : (x :: seen).IsChain (flip s.Extends) := h.linked
    cases hp : (s.declaration x).superClass with
    | none => exact hlinked
    | some p => exact .cons_cons hp hlinked
  nodup := List.nodup_cons.mpr ⟨hx, h.nodup⟩
  closed y hy p hp := by
    rcases List.mem_cons.mp hy with rfl | hy
    · exact .inr hp
    · obtain hmem | hnext := h.closed y hy p hp
      · exact .inl (List.mem_cons_of_mem x hmem)
      · cases hnext
        exact .inl List.mem_cons_self

theorem Climbing.stop (h : s.Climbing c seen next?) (hn : ∀ x, next? = some x → x ∈ seen) :
    s.IsSuperChain c seen.reverse where
  starts := by
    have hstarts := h.starts
    rw [List.head?_reverse]
    cases next? with
    | none => exact hstarts
    | some x =>
      rwa [List.getLast?_append_of_ne_nil _ (List.ne_nil_of_mem (hn x rfl))] at hstarts
  linked := List.isChain_reverse.mpr h.linked.right_of_append
  nodup := List.nodup_reverse.mpr h.nodup
  closed y hy p hp := by
    rw [List.mem_reverse] at hy ⊢
    exact (h.closed y hy p hp).elim id (hn p)

theorem Climbing.ascends (h : s.Climbing c seen next?) (hx : x ∈ seen ∨ next? = some x) :
    ReflTransGen s.Extends c x := by
  apply reflTransGen_of_isChain (List.isChain_reverse.mpr h.linked) (by rw [List.head?_reverse, h.starts])
  simpa [or_comm] using hx

theorem IsSuperChain.mem_iff (h : s.IsSuperChain c chain) : x ∈ chain ↔ ReflTransGen s.Extends c x := by
  refine ⟨reflTransGen_of_isChain h.linked h.starts, fun hx => ?_⟩
  induction hx with
  | refl => exact List.mem_of_head? h.starts
  | tail _ hp ih => exact h.closed _ ih _ hp

theorem IsSuperChain.pairwise (h : s.IsSuperChain c chain) : chain.Pairwise (TransGen s.Extends) :=
  List.isChain_iff_pairwise.mp (h.linked.imp fun _ _ he => .single he)

theorem IsSuperChain.unique (h : s.IsSuperChain c chain) (h' : s.IsSuperChain c chain') : chain = chain' := by
  have hperm : chain.Perm chain' :=
    (List.perm_ext_iff_of_nodup h.nodup h'.nodup).mpr fun x => h.mem_iff.trans h'.mem_iff.symm
  refine List.ext_getElem hperm.length_eq fun i hi hi' => ?_
  induction i with
  | zero =>
    have hstarts := h.starts.trans h'.starts.symm
    simp only [List.head?_eq_getElem?, List.getElem?_eq_getElem hi, List.getElem?_eq_getElem hi'] at hstarts
    exact Option.some.inj hstarts
  | succ i ih =>
    have hnext := List.isChain_iff_getElem.mp h.linked i hi
    have hnext' := List.isChain_iff_getElem.mp h'.linked i hi'
    rw [ih (Nat.lt_of_succ_lt hi) (Nat.lt_of_succ_lt hi')] at hnext
    exact Option.some.inj (hnext.symm.trans hnext')

theorem exists_mem_within_iff : (∃ k, x ∈ s.within roots k) ↔ ∃ y ∈ roots, ReflTransGen s.Lists y x := by
  constructor
  · rintro ⟨k, hx⟩
    induction k generalizing x with
    | zero => exact ⟨x, hx, .refl⟩
    | succ k ih =>
      obtain hx | ⟨z, hz, hzx⟩ := mem_within_succ.mp hx
      · exact ih hx
      · obtain ⟨y, hy, hyz⟩ := ih hz
        exact ⟨y, hy, hyz.tail hzx⟩
  · rintro ⟨y, hy, hyx⟩
    induction hyx with
    | refl => exact ⟨0, hy⟩
    | tail _ hl ih =>
      obtain ⟨k, hk⟩ := ih
      exact ⟨k + 1, mem_within_succ.mpr (.inr ⟨_, hk, hl⟩)⟩

theorem IsSuperChain.inheritsFrom_iff (h : s.IsSuperChain c chain) :
    s.InheritsFrom c x ↔ ∃ k, x ∈ s.within chain k := by
  simp only [exists_mem_within_iff, h.mem_iff, InheritsFrom]

theorem IsSuperChain.below_of_within (h : s.IsSuperChain c chain) (hx : x ∈ s.within chain k) : s.Below c x :=
  (h.inheritsFrom_iff.mpr ⟨k, hx⟩).below

/-- All super types of `c` in order, with the classes of `chain` first. -/
structure Enumerates (s : Scope) (c : ClassId) (chain cs : List ClassId) : Prop where
  climbs : s.IsSuperChain c chain
  nodup : cs.Nodup
  mem : ∀ x ∈ cs, ∃ k, x ∈ s.within chain k
  spreads : ∀ k, s.within chain k <+: cs

theorem Enumerates.mem_iff (h : s.Enumerates c chain cs) : x ∈ cs ↔ s.InheritsFrom c x := by
  rw [h.climbs.inheritsFrom_iff]
  refine ⟨h.mem x, ?_⟩
  rintro ⟨k, hk⟩
  exact (h.spreads k).subset hk

theorem IsSuperChain.enumerates (h : s.IsSuperChain c chain)
    (hstable : s.within chain (k + 1) = s.within chain k) : s.Enumerates c chain (s.within chain k) where
  climbs := h
  nodup := nodup_within h.nodup k
  mem _ hx := ⟨k, hx⟩
  spreads j := by
    rw [← within_stable hstable j]
    exact within_prefix (Nat.le_add_left j k)

end Scope

namespace Run

variable {load : ClassId → Run (Except LoadError Declaration)} {c : ClassId} {n : Nat}
  {seen chain roots : List ClassId} {next? : Option ClassId} {w : Session}

variable (load) in
theorem superChain_ends (he : w.scope.Charted c) (ht : w.scope.Tallied) (hc : w.scope.Registered c)
    (hclimb : w.scope.Climbing c seen next?) (hn : w.scope.size < n + seen.length) :
    ∃ chain, w.scope.IsSuperChain c chain ∧ (superChain load n seen next?).Ends Action.Steady w chain w := by
  induction n generalizing seen next? with
  | zero =>
    have hle := Scope.length_le_size hclimb.nodup fun x hx =>
      (Scope.below_of_ascends (hclimb.ascends (.inl hx))).registered ht hc
    omega
  | succ n ih =>
    cases next? with
    | none => exact ⟨seen.reverse, hclimb.stop nofun, .refl _ _⟩
    | some x =>
      by_cases hx : x ∈ seen
      · refine ⟨seen.reverse, hclimb.stop (by rintro _ ⟨⟩; exact hx), ?_⟩
        unfold superChain
        rw [if_pos hx]
        exact .refl _ _
      · have hlen : w.scope.size < n + (x :: seen).length := by
          rw [List.length_cons]
          omega
        obtain ⟨chain, hchain, hends⟩ := ih (hclimb.next hx) hlen
        have hresolve : (resolve load x).Ends Action.Steady w () w :=
          (ends_resolve_of_touched (he x (Scope.inheritsFrom_of_ascends (hclimb.ascends (.inr rfl))))).mpr rfl
        refine ⟨chain, hchain, ?_⟩
        unfold superChain
        rw [if_neg hx]
        exact hresolve.bind ((ends_look_bind_iff trivial).mpr hends)

theorem interfaceClosure_through {row out cs : List ClassId} (queue : List ClassId)
    (hu : ∀ x ∈ row, w.scope.isUntouched x = false)
    (h : (interfaceClosure load n (queue ++ unseen seen (w.scope.interfacesOf row))
      (seen ++ unseen seen (w.scope.interfacesOf row)) (out ++ unseen seen (w.scope.interfacesOf row))).Ends
        Action.Steady w cs w) :
    (interfaceClosure load (n + row.length) (row ++ queue) seen out).Ends Action.Steady w cs w := by
  induction row generalizing queue seen out with
  | nil => simpa [Scope.interfacesOf, unseen] using h
  | cons x row ih =>
    obtain ⟨hx, hrow⟩ := List.forall_mem_cons.mp hu
    have hresolve : (resolve load x).Ends Action.Steady w () w := (ends_resolve_of_touched hx).mpr rfl
    refine hresolve.bind ((ends_look_bind_iff trivial).mpr ?_)
    change (interfaceClosure load (n + row.length) (row ++ queue ++ _) _ _).Ends _ _ _ _
    rw [List.append_assoc]
    apply ih _ hrow
    rw [Scope.interfacesOf_cons, unseen_append] at h
    simpa only [List.append_assoc] using h

variable (load) in
theorem interfaceClosure_ends {k : Nat} (hroots : roots.Nodup)
    (hreg : ∀ k, ∀ x ∈ w.scope.within roots k, w.scope.Registered x)
    (hu : ∀ k, ∀ x ∈ w.scope.within roots k, w.scope.isUntouched x = false)
    (hn : (w.scope.level roots k).length + w.scope.size ≤ n + (w.scope.within roots k).length) :
    ∃ j, w.scope.within roots (j + 1) = w.scope.within roots j ∧
      (interfaceClosure load n (w.scope.level roots k) (w.scope.within roots k)
        ((w.scope.within roots k).drop roots.length)).Ends Action.Steady w
          ((w.scope.within roots j).drop roots.length) w := by
  induction n using Nat.strongRecOn generalizing k with
  | ind n ih =>
    have hnext := w.scope.level_succ roots k
    have hgrown := w.scope.within_succ roots k
    by_cases hlevel : w.scope.level roots k = []
    · rw [hlevel] at hnext
      rw [hnext] at hgrown
      refine ⟨k, hgrown.trans (List.append_nil _), ?_⟩
      rw [hlevel]
      cases n <;> exact .refl _ _
    · have hpos := List.length_pos_iff.mpr hlevel
      have hle := Scope.length_le_size (Scope.nodup_within hroots (k + 1)) (hreg (k + 1))
      rw [hgrown, List.length_append] at hle
      obtain ⟨m, rfl⟩ := Nat.exists_eq_add_of_le' (show (w.scope.level roots k).length ≤ n by omega)
      obtain ⟨j, hstable, hends⟩ := ih m (by omega) (k := k + 1) (by rw [hgrown, List.length_append]; omega)
      rw [hgrown, List.drop_append_of_le_length (w.scope.prefix_within roots k).length_le, hnext] at hends
      have hthrough := interfaceClosure_through []
        (fun x hx => hu k x (w.scope.level_subset_within roots k hx)) hends
      rw [List.append_nil] at hthrough
      exact ⟨j, hstable, hthrough⟩

end Run

namespace Loader

variable {L : Loader} {n : Nat} {c : ClassId} {w : Session}

theorem supertypes_ends (he : w.scope.Charted c) (ht : w.scope.Tallied) (hc : w.scope.Registered c)
    (hn : w.scope.size < n) :
    ∃ chain cs, w.scope.Enumerates c chain cs ∧
      (L.perform n (Script.superChain c)).Ends Action.Steady w chain w ∧
      (L.perform n (Query.supertypes c)).Ends Action.Steady w cs w := by
  obtain ⟨chain, hchain, hup⟩ := Run.superChain_ends (L.call n) he ht hc (w.scope.climbing_start c)
    (n := n) (by simpa using hn)
  have hbelow : ∀ k, ∀ x ∈ w.scope.within chain k, w.scope.Below c x := fun _ _ => hchain.below_of_within
  obtain ⟨j, hstable, hspread⟩ := Run.interfaceClosure_ends (L.call n) (n := n) (k := 0) hchain.nodup
    (fun k x hx => (hbelow k x hx).registered ht hc) (fun k x hx => he x (hchain.inheritsFrom_iff.mpr ⟨k, hx⟩))
    (by change chain.length + w.scope.size ≤ n + chain.length; omega)
  have hup : (L.perform n (Script.superChain c)).Ends Action.Steady w chain w := by
    unfold Script.superChain
    rw [perform_request]
    exact hup
  refine ⟨chain, _, hchain.enumerates hstable, hup, ?_⟩
  obtain ⟨rest, hrest⟩ := w.scope.prefix_within chain j
  rw [← hrest, List.drop_left] at hspread
  change (Run.interfaceClosure (L.call n) n chain chain (chain.drop chain.length)).Ends _ _ _ _ at hspread
  rw [List.drop_length] at hspread
  have hclosure : (L.perform n (Script.interfaceClosure chain)).Ends Action.Steady w rest w := by
    unfold Script.interfaceClosure
    rw [perform_request]
    exact hspread
  rw [← hrest]
  exact ends_perform_bind hup (ends_map hclosure (chain ++ ·))

end Loader

end ClassHierarchy
