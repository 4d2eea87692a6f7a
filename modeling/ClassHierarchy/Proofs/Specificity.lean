import ClassHierarchy.Proofs.Lookups

/-!
Which of several declarations a method look-up prefers. Super classes are looked at from below, before all
interfaces; but interfaces are looked at in the order of their distance, and an interface may be as near as
one that it extends, or nearer. What is met before is preferred, be it more specific or not.
-/

namespace ClassHierarchy

open Relation

namespace Scope

variable {s : Scope} {c S T : ClassId} {chain : List ClassId}

def Acyclic (s : Scope) : Prop := ∀ x, ¬ TransGen s.Parent x x

theorem acyclic_of_rank (rank : ClassId → Nat)
    (h : ∀ x ∈ s.ids, ∀ y ∈ (s.declaration x).parents, rank x < rank y) : s.Acyclic := by
  have hstep : ∀ {x y}, s.Parent x y → rank x < rank y := by
    intro x y hp
    obtain ⟨st, hst⟩ := hp.settled
    exact h x (mem_ids.mpr (.of_settled hst)) y hp
  have hmono : ∀ x y, TransGen s.Parent x y → rank x < rank y := by
    intro x y hxy
    induction hxy with
    | single hp => exact hstep hp
    | tail _ hp ih => exact ih.trans (hstep hp)
  exact fun x hx => Nat.lt_irrefl _ (hmono x x hx)

theorem Enumerates.before_of_superClass {before after : List ClassId}
    (h : s.Enumerates c chain (before ++ T :: after)) (hacyclic : s.Acyclic) (hne : S ≠ T) (hbelow : s.Below S T)
    (hS : S ∈ chain) : S ∈ before := by
  obtain ⟨rest, hrest⟩ : chain <+: before ++ T :: after := h.spreads 0
  obtain ⟨mid, rfl, -⟩ | ⟨mid, rfl, hmid⟩ := List.append_eq_append_iff.mp hrest
  · exact List.mem_append_left _ hS
  · obtain hS | hS := List.mem_append.mp hS
    · exact hS
    obtain ⟨tail, rfl⟩ : ∃ tail, mid = T :: tail := by
      cases mid with
      | nil => cases hS
      | cons x tail => exact ⟨tail, by rw [(List.cons.inj hmid).1]⟩
    obtain ⟨-, hclimbs, -⟩ := List.pairwise_append.mp h.climbs.pairwise
    have hup := (List.pairwise_cons.mp hclimbs).1 S ((List.mem_cons.mp hS).resolve_left hne)
    have hTS : TransGen s.Parent T S := TransGen.mono (fun _ _ he => parent_of_superClass he) _ _ hup
    exact absurd (hTS.trans_left hbelow) (hacyclic T)

theorem Enumerates.before_of_metBefore {before after : List ClassId}
    (h : s.Enumerates c chain (before ++ T :: after)) (hne : S ≠ T) (hS : s.MetBefore chain S T) : S ∈ before := by
  obtain ⟨k, hk⟩ := hS
  obtain ⟨_ | ⟨x, xs⟩, ys, heq, hbefore, hafter⟩ :=
    List.sublist_append_iff.mp (hk.trans (h.spreads k).sublist)
  · obtain rfl : [S, T] = ys := heq
    obtain ⟨-, hnodup, -⟩ := List.nodup_append.mp h.nodup
    have hT := (hafter.of_cons_of_ne hne).subset (List.mem_cons_of_mem S List.mem_cons_self)
    exact absurd hT (List.nodup_cons.mp hnodup).1
  · obtain rfl : S = x := (List.cons.inj heq).1
    exact hbefore.subset List.mem_cons_self

end Scope

namespace Run

variable {load : ClassId → Run (Except LoadError Declaration)} {target a : ClassId} {n : Nat}
  {queue seen : List ClassId} {w w' : Session}

theorem below_of_climbs (he : w.scope.Explored a) (hqueue : ∀ x ∈ queue, w.scope.Below a x)
    (h : (climbs load target n queue seen).Ends Action.Steady w true w') : w.scope.Below a target := by
  induction n generalizing queue seen with
  | zero =>
    cases queue with
    | nil => cases (ends_done_iff.mp h).1
    | cons c queue =>
      obtain ⟨-, r, -⟩ := ends_ask_iff.mp h
      cases r
  | succ n ih =>
    cases queue with
    | nil => cases (ends_done_iff.mp h).1
    | cons c queue =>
      have hc := hqueue c List.mem_cons_self
      obtain ⟨_, w₁, hresolve, hrest⟩ := ends_bind_iff.mp h
      obtain rfl := (ends_resolve_of_touched (he c hc)).mp hresolve
      have hrest := (ends_look_bind_iff trivial).mp hrest
      dsimp only at hrest
      split at hrest
      next hp => exact hc.tail hp
      next =>
        refine ih (fun x hx => ?_) hrest
        rcases List.mem_append.mp hx with hx | hx
        · exact hqueue x (List.mem_cons_of_mem c hx)
        · exact hc.tail (mem_unseen.mp hx).1

end Run

namespace Loader

variable {L : Loader} {n : Nat} {c S T : ClassId} {chain : List ClassId} {w w' : Session} {m : Method}

theorem below_of_converts (he : w.scope.Explored S) (hT : T.isPrimitive = false)
    (h : L.Converts n S T w true w') : w.scope.Below S T := by
  unfold Converts Query.isConvertibleTo at h
  rw [if_neg (by simp [hT])] at h
  split at h
  next hST => exact hST ▸ .refl
  next =>
    rw [perform_request] at h
    refine Run.below_of_climbs he (fun x hx => ?_) h
    obtain rfl := List.mem_singleton.mp hx
    exact .refl

theorem Reaches.methods_of_primitive {may : Action → Session → Prop} (h : L.Reaches may w)
    (hT : T.isPrimitive = true) : (w.scope.declaration T).methods = [] := by
  obtain ⟨α, script, budget, rest, hl⟩ := h
  obtain ⟨p, rfl⟩ := ClassId.isPrimitive_iff.mp hT
  obtain ⟨st, hst⟩ := Scope.settled_new p
  have hevolves : Scope.new.Evolves (fun _ => True) w.scope := hl.evolves_any
  rw [hevolves.methods hst, Scope.declaration_new]

theorem lookups_end (he : w.scope.Explored c) (ht : w.scope.Tallied) (hc : w.scope.Registered c)
    (hm : w.scope.isMissing c = false) (hn : w.scope.size < n) : ∃ chain cs, w.scope.Enumerates c chain cs ∧
      (∀ name, (L.perform n (Query.findMethods c name)).Ends Action.Steady w
        (some (Query.addVisible [] (cs.flatMap fun x => (w.scope.declaration x).methodsNamed name))) w) ∧
      ∀ sig, (L.perform n (Query.findMethod c sig)).Ends Action.Steady w
        (cs.findSome? fun x => (w.scope.declaration x).findMethod? sig) w := by
  obtain ⟨chain, cs, h⟩ := exists_walks L he.charted ht hc hn
  exact ⟨chain, cs, h.enumerates, h.findMethods hm, h.findMethod hm⟩

/-- Of the super types of a class with the super classes `chain`, `T` has the method `m`, and no class that is
below `T` hides it, if that class is one of `chain` or is met before `T` on the way along interface lists. -/
def Prefers (L : Loader) (w : Session) (chain : List ClassId) (T : ClassId) (m : Method) : Prop :=
  m ∈ (w.scope.declaration T).methods ∧ (∃ k, T ∈ w.scope.within chain k) ∧
    ∀ S, S ≠ T → (∃ k w', L.Converts k S T w true w') → S ∈ chain ∨ w.scope.MetBefore chain S T →
      ∀ x ∈ (w.scope.declaration S).methods, x.hides m = false

theorem prefers_of_first {before after : List ClassId} (h : L.Reaches Action.Own w) (hres : w.scope.Resolved)
    (hacyclic : w.scope.Acyclic) (hcs : w.scope.Enumerates c chain (before ++ T :: after))
    (hT : m ∈ (w.scope.declaration T).methods)
    (hfirst : ∀ S ∈ before, ∀ x ∈ (w.scope.declaration S).methods, x.hides m = false) : L.Prefers w chain T m := by
  refine ⟨hT, hcs.mem T (List.mem_append_right _ List.mem_cons_self), ?_⟩
  rintro S hne ⟨k, w', hconverts⟩ hS
  have hprimitive : T.isPrimitive = false := by
    by_contra hp
    rw [h.methods_of_primitive (by simpa using hp)] at hT
    cases hT
  have hbelow := below_of_converts (hres.explored S) hprimitive hconverts
  exact hfirst S (hS.elim (hcs.before_of_superClass hacyclic hne hbelow) (hcs.before_of_metBefore hne))

theorem lookups_prefer_earlier (h : L.Reaches Action.Own w) (hres : w.scope.Resolved)
    (hacyclic : w.scope.Acyclic) (hc : w.scope.Registered c) (hm : w.scope.isMissing c = false)
    (hn : w.scope.size < n) :
    ∃ chain, w.scope.IsSuperChain c chain ∧
      (∀ name, ∃ ms, (L.perform n (Query.findMethods c name)).Ends Action.Steady w (some ms) w ∧
        ∀ m ∈ ms, m.name = name ∧ ∃ T, L.Prefers w chain T m) ∧
      ∀ sig : Signature, sig.returns = none →
        ∃ m?, (L.perform n (Query.findMethod c sig)).Ends Action.Steady w m? w ∧
          ∀ m, m? = some m → sig.accepts m = true ∧ ∃ T, L.Prefers w chain T m := by
  obtain ⟨chain, cs, hcs, hmethods, hmethod⟩ := lookups_end (L := L) (hres.explored c) h.tallied hc hm hn
  refine ⟨chain, hcs.climbs, fun name => ⟨_, hmethods name, fun m hfound => ?_⟩,
    fun sig hsig => ⟨_, hmethod sig, fun m hfound => ?_⟩⟩
  · obtain hnil | ⟨-, hfind⟩ := Query.mem_addVisible.mp hfound
    · cases hnil
    rw [List.find?_flatMap] at hfind
    obtain ⟨before, T, after, rfl, hT, hbefore⟩ := List.findSome?_eq_some_iff.mp hfind
    obtain ⟨hT, hname⟩ := List.mem_filter.mp (List.mem_of_find?_eq_some hT)
    have hname : m.name = name := by simpa using hname
    refine ⟨hname, T, prefers_of_first h hres hacyclic hcs hT fun S hS x hx => ?_⟩
    by_contra hhides
    have hhides : x.hides m = true := by simpa using hhides
    have hx : x ∈ (w.scope.declaration S).methodsNamed name :=
      List.mem_filter.mpr ⟨hx, by simpa [hname] using (Method.hides_iff.mp hhides).1⟩
    exact List.find?_eq_none.mp (hbefore S hS) x hx hhides
  · obtain ⟨before, T, after, rfl, hT, hbefore⟩ := List.findSome?_eq_some_iff.mp hfound
    have haccepts : sig.accepts m = true := List.find?_some hT
    refine ⟨haccepts, T, prefers_of_first h hres hacyclic hcs (List.mem_of_find?_eq_some hT) fun S hS x hx => ?_⟩
    have hnot := List.find?_eq_none.mp (hbefore S hS) x hx
    by_contra hhides
    obtain ⟨hname, hparams⟩ := Method.hides_iff.mp (by simpa using hhides)
    apply hnot
    simpa [Signature.accepts, hsig, hname, hparams] using haccepts

def diamond : LoaderTable where
  rows := [
    ("C", { outline := { interfaces := [.named "I", .named "J"] } }),
    ("I", { outline := { methods := [{ name := "m" }] } }),
    ("J", { outline := { interfaces := [.named "I"], methods := [{ name := "m" }] } })]

def diamondMethod (c : ClassId) : Method :=
  { owner := c, name := "m", params := [], returns := .ofPrimitive .void }

theorem diamond_loaded : ∃ w w₁ w₂ w₃, diamond.loader.Reaches Action.Own w ∧ w.scope.Resolved ∧ w.scope.Acyclic ∧
    w.scope.size = 12 ∧ w.scope.isMissing ⟨9⟩ = false ∧ (w.scope.declaration ⟨9⟩).interfaces = [⟨10⟩, ⟨11⟩] ∧
    (∀ c ∈ [⟨10⟩, ⟨11⟩], (w.scope.declaration c).methods = [diamondMethod c]) ∧
    (diamond.loader.perform 13 (Query.findMethods ⟨9⟩ "m")).Ends Action.Steady w (some [diamondMethod ⟨10⟩]) w₁ ∧
    (diamond.loader.perform 13 (Query.findMethod ⟨9⟩ { name := "m" })).Ends Action.Steady w
      (some (diamondMethod ⟨10⟩)) w₂ ∧
    diamond.loader.Converts 13 ⟨11⟩ ⟨10⟩ w true w₃ := by
  let script : Script (List ClassId) := do Query.supertypes (← Script.register "C")
  let find := diamond.loader.perform 13 (Query.findMethods ⟨9⟩ "m")
  let first := diamond.loader.perform 13 (Query.findMethod ⟨9⟩ { name := "m" })
  let convert := diamond.loader.perform 13 (Query.isConvertibleTo ⟨11⟩ ⟨10⟩)
  let rank (c : ClassId) : Nat := if c = ⟨10⟩ then 2 else if c = ⟨11⟩ then 1 else 0
  have h : ((diamond.loader.perform 4 script).advance Action.Own 23 .new).bind (fun p =>
      (find.advance Action.Steady 16 p.2).bind fun p₁ => (first.advance Action.Steady 14 p.2).bind fun p₂ =>
        (convert.advance Action.Steady 2 p.2).map fun p₃ =>
          decide ((p.2.scope.Resolved ∧
              (∀ x ∈ p.2.scope.ids, ∀ y ∈ (p.2.scope.declaration x).parents, rank x < rank y) ∧
              p.2.scope.size = 12 ∧ p.2.scope.isMissing ⟨9⟩ = false ∧
              (p.2.scope.declaration ⟨9⟩).interfaces = [⟨10⟩, ⟨11⟩] ∧
              ∀ c ∈ ([⟨10⟩, ⟨11⟩] : List ClassId), (p.2.scope.declaration c).methods = [diamondMethod c]) ∧
            p₁.1.result? = some (some [diamondMethod ⟨10⟩]) ∧ p₂.1.result? = some (some (diamondMethod ⟨10⟩)) ∧
            p₃.1.result? = some true)) = some true := by decide +kernel
  obtain ⟨⟨p, w⟩, hp, h⟩ := Option.bind_eq_some_iff.mp h
  obtain ⟨⟨p₁, w₁⟩, hp₁, h⟩ := Option.bind_eq_some_iff.mp h
  obtain ⟨⟨p₂, w₂⟩, hp₂, h⟩ := Option.bind_eq_some_iff.mp h
  obtain ⟨⟨p₃, w₃⟩, hp₃, h⟩ := Option.map_eq_some_iff.mp h
  obtain ⟨⟨hres, hrank, hsize, hm, hinterfaces, hmethods⟩, h₁, h₂, h₃⟩ := of_decide_eq_true h
  have hw : diamond.loader.Reaches Action.Own w := ⟨_, script, 4, p, Run.leads_iff_advance.mpr ⟨23, hp⟩⟩
  exact ⟨w, w₁, w₂, w₃, hw, hres, Scope.acyclic_of_rank rank hrank, hsize, hm, hinterfaces, hmethods,
    Run.ends_of_advance hp₁ h₁, Run.ends_of_advance hp₂ h₂, Run.ends_of_advance hp₃ h₃⟩

theorem lookups_prefer_earlier_in_diamond : ∃ w, diamond.loader.Reaches Action.Own w ∧ w.scope.Resolved ∧
    w.scope.Acyclic ∧
    (diamond.loader.perform 13 (Query.findMethods ⟨9⟩ "m")).Ends Action.Steady w (some [diamondMethod ⟨10⟩]) w ∧
    (diamond.loader.perform 13 (Query.findMethod ⟨9⟩ { name := "m" })).Ends Action.Steady w
      (some (diamondMethod ⟨10⟩)) w ∧
    ∃ chain T, w.scope.IsSuperChain ⟨9⟩ chain ∧ diamond.loader.Prefers w chain T (diamondMethod ⟨10⟩) := by
  obtain ⟨w, w₁, w₂, -, hw, hres, hacyclic, hsize, hm, -, -, hfind, hfirst, -⟩ := diamond_loaded
  have hc : w.scope.Registered ⟨9⟩ := lt_of_lt_of_eq (by decide) hsize.symm
  obtain ⟨chain, hchain, hmethods, hmethod⟩ :=
    lookups_prefer_earlier (n := 13) hw hres hacyclic hc hm (lt_of_eq_of_lt hsize (by decide))
  obtain ⟨ms, hms, hall⟩ := hmethods "m"
  obtain ⟨m?, hm?, -⟩ := hmethod { name := "m" } rfl
  obtain ⟨heq, rfl⟩ := hfind.unique hms
  obtain ⟨rfl, rfl⟩ := hfirst.unique hm?
  obtain rfl := Option.some.inj heq
  obtain ⟨T, hT⟩ := (hall _ (List.mem_singleton_self _)).2
  exact ⟨w₂, hw, hres, hacyclic, hms, hm?, chain, T, hchain, hT⟩

theorem less_specific_preferred : ∃ w w₁ w₂ w₃ m x, diamond.loader.Reaches Action.Own w ∧ w.scope.Resolved ∧
    w.scope.Acyclic ∧ w.scope.isMissing ⟨9⟩ = false ∧
    (diamond.loader.perform 13 (Query.findMethods ⟨9⟩ "m")).Ends Action.Steady w (some [m]) w₁ ∧
    (diamond.loader.perform 13 (Query.findMethod ⟨9⟩ { name := "m" })).Ends Action.Steady w (some m) w₂ ∧
    m ∈ (w.scope.declaration ⟨10⟩).methods ∧ m.owner = ⟨10⟩ ∧
    ⟨11⟩ ∈ (w.scope.declaration ⟨9⟩).interfaces ∧ diamond.loader.Converts 13 ⟨11⟩ ⟨10⟩ w true w₃ ∧
    x ∈ (w.scope.declaration ⟨11⟩).methods ∧ x.hides m = true := by
  obtain ⟨w, w₁, w₂, w₃, hw, hres, hacyclic, -, hm, hinterfaces, hmethods, hfind, hfirst, hconverts⟩ :=
    diamond_loaded
  have hI : diamondMethod ⟨10⟩ ∈ (w.scope.declaration ⟨10⟩).methods := by simp [hmethods ⟨10⟩]
  have hJ : diamondMethod ⟨11⟩ ∈ (w.scope.declaration ⟨11⟩).methods := by simp [hmethods ⟨11⟩]
  have hinterface : ⟨11⟩ ∈ (w.scope.declaration ⟨9⟩).interfaces := by simp [hinterfaces]
  exact ⟨w, w₁, w₂, w₃, _, _, hw, hres, hacyclic, hm, hfind, hfirst, hI, rfl, hinterface, hconverts, hJ, by decide⟩

end Loader

end ClassHierarchy
