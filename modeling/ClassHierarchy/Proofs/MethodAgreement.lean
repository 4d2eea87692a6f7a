import Mathlib.Data.List.Flatten
import ClassHierarchy.Loader.Table
import ClassHierarchy.Proofs.Lookups

namespace ClassHierarchy

theorem Signature.accepts_iff {sig : Signature} {m : Method} : sig.accepts m = true ↔
    m.name = sig.name ∧ m.params = sig.params ∧ ∀ r ∈ sig.returns, m.returns = r := by
  simp only [accepts, Bool.and_eq_true, beq_iff_eq, Option.all_eq_true, Option.mem_def, and_assoc,
    eq_comm (b := m.name), eq_comm (b := m.params), eq_comm (b := m.returns)]

namespace Query

variable {out ms : List Method} {p : Method → Bool}

theorem exists_addVisible_eq (out ms : List Method) : ∃ rest, addVisible out ms = out ++ rest ∧ rest.Sublist ms ∧
    ∀ m ∈ rest, ∀ x ∈ out, x.hides m = false := by
  induction ms generalizing out with
  | nil => exact ⟨[], (List.append_nil out).symm, .slnil, nofun⟩
  | cons x ms ih =>
    rw [addVisible_cons]
    split
    next =>
      obtain ⟨rest, heq, hsub, hall⟩ := ih out
      exact ⟨rest, heq, hsub.cons x, hall⟩
    next hx =>
      obtain ⟨rest, heq, hsub, hall⟩ := ih (out ++ [x])
      refine ⟨x :: rest, by rw [heq, List.append_assoc]; rfl, hsub.cons_cons x, ?_⟩
      rintro m (_ | ⟨_, hm⟩) y hy
      · by_contra hhides
        exact hx (List.any_eq_true.mpr ⟨y, hy, by simpa using hhides⟩)
      · exact hall m hm y (List.mem_append_left _ hy)

theorem addVisible_sublist (ms : List Method) : (addVisible [] ms).Sublist ms := by
  obtain ⟨rest, heq, hsub, -⟩ := exists_addVisible_eq [] ms
  exact heq ▸ hsub

theorem exists_addVisible_append_eq (xs ys : List Method) (p : Method → Bool) :
    ∃ rest, addVisible [] ((xs ++ ys).filter p) = addVisible [] (xs.filter p) ++ rest ∧
      ∀ m ∈ rest, m ∈ xs ++ ys ∧ m ∉ xs := by
  obtain ⟨rest, heq, hsub, hall⟩ := exists_addVisible_eq (addVisible [] (xs.filter p)) (ys.filter p)
  rw [List.filter_append, addVisible_append]
  refine ⟨rest, heq, fun m hm => ?_⟩
  obtain ⟨hys, hp⟩ := List.mem_filter.mp (hsub.subset hm)
  refine ⟨List.mem_append_right xs hys, fun hxs => ?_⟩
  -- Each method of `xs` is hidden by one that is visible, if only by itself.
  obtain ⟨x, hx, hhides⟩ := exists_hides_of_find? (List.mem_filter.mpr ⟨hxs, hp⟩)
  rw [hall m hm x hx] at hhides
  cases hhides

theorem filter_addVisible (hp : ∀ x y : Method, x.hides y = true → p x = p y) :
    (addVisible out ms).filter p = addVisible (out.filter p) (ms.filter p) := by
  induction ms generalizing out with
  | nil => rfl
  | cons x ms ih =>
    rw [addVisible_cons, ih, List.filter_cons]
    cases hx : p x with
    | true =>
      -- What hides `x` has its name and parameters, and so is among those that are taken.
      have hany : (out.filter p).any (·.hides x) = out.any (·.hides x) := by
        rw [List.any_filter]
        congr 1
        funext y
        cases hyx : y.hides x with
        | true => simp [hp y x hyx, hx]
        | false => simp
      simp only [if_true, addVisible_cons, hany]
      split
      · rfl
      · simp [List.filter_append, hx]
    | false =>
      split
      · simp
      · simp [List.filter_append, hx]

theorem addVisible_of_alike (h : ∀ x ∈ ms, ∀ y ∈ ms, x.hides y = true) : addVisible [] ms = ms.head?.toList := by
  cases ms with
  | nil => rfl
  | cons x ms =>
    obtain ⟨rest, heq, hsub, hall⟩ := exists_addVisible_eq [x] ms
    have hnil : rest = [] := List.eq_nil_iff_forall_not_mem.mpr fun m hm => by
      have hhidden := h x List.mem_cons_self m (List.mem_cons_of_mem x (hsub.subset hm))
      rw [hall m hm x (List.mem_singleton_self x)] at hhidden
      cases hhidden
    rw [hnil] at heq
    exact heq

theorem filter_name_addVisible (ms : List Method) (name : String) :
    (addVisible [] ms).filter (·.name == name) = addVisible [] (ms.filter (·.name == name)) :=
  filter_addVisible fun x y h => by rw [(Method.hides_iff.mp h).1]

theorem filter_params_addVisible (ms : List Method) (name : String) (params : List ClassId) :
    (addVisible [] (ms.filter (·.name == name))).filter (·.params == params) =
      (ms.find? (Signature.accepts { name, params })).toList := by
  have haccepts : (ms.filter (·.name == name)).filter (·.params == params) =
      ms.filter (Signature.accepts { name, params }) := by
    rw [List.filter_filter]
    apply List.filter_congr
    intro m _
    rw [Bool.eq_iff_iff, Signature.accepts_iff]
    simp [and_comm]
  have halike : ∀ x ∈ ms.filter (Signature.accepts { name, params }),
      ∀ y ∈ ms.filter (Signature.accepts { name, params }), x.hides y = true := by
    intro x hx y hy
    obtain ⟨hname, hparams, -⟩ := Signature.accepts_iff.mp (List.mem_filter.mp hx).2
    obtain ⟨hname', hparams', -⟩ := Signature.accepts_iff.mp (List.mem_filter.mp hy).2
    exact Method.hides_iff.mpr ⟨hname.trans hname'.symm, hparams.trans hparams'.symm⟩
  have hclosed : ∀ x y : Method, x.hides y = true → (x.params == params) = (y.params == params) :=
    fun x y h => by rw [(Method.hides_iff.mp h).2]
  rw [filter_addVisible hclosed, List.filter_nil, haccepts, addVisible_of_alike halike, List.head?_filter]

end Query

namespace Scope

variable {s : Scope} {c : ClassId} {chain : List ClassId} {name : String}

def methodsOf (s : Scope) (cs : List ClassId) : List Method := cs.flatMap fun x => (s.declaration x).methods

theorem methodsOf_append (s : Scope) (xs ys : List ClassId) :
    s.methodsOf (xs ++ ys) = s.methodsOf xs ++ s.methodsOf ys := List.flatMap_append

theorem flatMap_methodsNamed (s : Scope) (cs : List ClassId) (name : String) :
    (cs.flatMap fun x => (s.declaration x).methodsNamed name) = (s.methodsOf cs).filter (·.name == name) :=
  List.filter_flatMap.symm

theorem findSome?_findMethod? (s : Scope) (cs : List ClassId) (sig : Signature) :
    (cs.findSome? fun x => (s.declaration x).findMethod? sig) = (s.methodsOf cs).find? sig.accepts :=
  List.find?_flatMap.symm

theorem filter_inheritable (hinit : name ≠ constructorName) (hclinit : name ≠ staticInitializerName)
    (s : Scope) (c : ClassId) (cs : List ClassId) :
    (cs.flatMap fun x => Query.inheritable c x (s.declaration x)).filter (·.name == name) =
      (s.methodsOf cs).filter (·.name == name) := by
  simp only [methodsOf, Query.inheritable, List.filter_flatMap, List.filter_filter]
  congr
  funext x
  apply List.filter_congr
  intro m _
  by_cases hm : m.name = name
  · simp [hm, Method.isConstructor, Method.isStaticInitializer, hinit, hclinit]
  · simp [hm]

theorem IsSuperChain.filter_inheritable (h : s.IsSuperChain c chain) :
    (chain.flatMap fun x => Query.inheritable c x (s.declaration x)).filter
        (fun m => m.isConstructor || m.isStaticInitializer) =
      (s.declaration c).methods.filter fun m => m.isConstructor || m.isStaticInitializer := by
  obtain ⟨rest, rfl⟩ := List.head?_eq_some_iff.mp h.starts
  have hown : Query.inheritable c c (s.declaration c) = (s.declaration c).methods := by simp [Query.inheritable]
  have hrest : (rest.flatMap fun x => Query.inheritable c x (s.declaration x)).filter
      (fun m => m.isConstructor || m.isStaticInitializer) = [] := by
    rw [List.filter_eq_nil_iff]
    intro m hm
    obtain ⟨x, hx, hm⟩ := List.mem_flatMap.mp hm
    have hne : x ≠ c := fun heq => (List.nodup_cons.mp h.nodup).1 (heq ▸ hx)
    have hinherited := (List.mem_filter.mp hm).2
    simpa [hne] using hinherited
  rw [List.flatMap_cons, hown, List.filter_append, hrest, List.append_nil]

end Scope

namespace Loader

variable {L : Loader} {n : Nat} {c : ClassId} {w : Session}

theorem lookups_agree (h : L.Reaches Action.Own w) (hc : w.scope.Registered c) (he : w.scope.Charted c)
    (hm : w.scope.isMissing c = false) (hn : w.scope.size < n) :
    ∃ chain cs all, w.scope.Enumerates c chain cs ∧
      (L.perform n (Query.allMethods c)).Ends Action.Steady w (some all) w ∧
      all.Sublist (w.scope.methodsOf chain) ∧
      (all.filter fun m => m.isConstructor || m.isStaticInitializer).Sublist (w.scope.declaration c).methods ∧
      ∀ name, ∃ ms, (L.perform n (Query.findMethods c name)).Ends Action.Steady w (some ms) w ∧
        (∀ params, ∃ m?, (L.perform n (Query.findMethod c { name, params })).Ends Action.Steady w m? w ∧
          ms.filter (·.params == params) = m?.toList) ∧
        (∀ params returns, (L.perform n (Query.findMethod c { name, params, returns := some returns })).Ends
          Action.Steady w ((w.scope.methodsOf cs).find? fun m =>
            m.name == name && m.params == params && m.returns == returns) w) ∧
        (name ≠ constructorName → name ≠ staticInitializerName → ∃ rest,
          ms = all.filter (·.name == name) ++ rest ∧
            ∀ m ∈ rest, m ∈ w.scope.methodsOf cs ∧ m ∉ w.scope.methodsOf chain) := by
  obtain ⟨chain, cs, hwalks⟩ := exists_walks L he h.tallied hc hn
  have hcs := hwalks.enumerates
  have hall := Query.addVisible_sublist (chain.flatMap fun x => Query.inheritable c x (w.scope.declaration x))
  refine ⟨chain, cs, _, hcs, hwalks.allMethods hm, ?_, ?_, fun name => ?_⟩
  · exact hall.trans (.flatMap_right chain fun x _ => List.filter_sublist)
  · have hown := hall.filter fun m => m.isConstructor || m.isStaticInitializer
    rw [hcs.climbs.filter_inheritable] at hown
    exact hown.trans List.filter_sublist
  have hlist := hwalks.findMethods hm name
  rw [Scope.flatMap_methodsNamed] at hlist
  have hsearch := fun sig => w.scope.findSome?_findMethod? cs sig ▸ hwalks.findMethod hm sig
  refine ⟨_, hlist, fun params => ⟨_, hsearch { name, params }, ?_⟩, fun params returns => ?_, fun hinit hclinit => ?_⟩
  · exact Query.filter_params_addVisible _ name params
  · convert hsearch { name, params, returns := some returns } using 3 with m
    rw [Bool.eq_iff_iff, Signature.accepts_iff]
    simp [and_assoc]
  · obtain ⟨closure, rfl⟩ : chain <+: cs := hcs.spreads 0
    rw [Query.filter_name_addVisible, Scope.filter_inheritable hinit hclinit, Scope.methodsOf_append]
    exact Query.exists_addVisible_append_eq _ _ _

def overloads : LoaderTable where
  rows := [
    ("A", { outline := {
      superClass := some (.named "B")
      methods := [{ name := constructorName }, { name := "m" }, { name := "m", params := [.named "int"] }] } }),
    ("B", { outline := {
      superClass := some (.named "A")
      interfaces := [.named "I"]
      methods := [{ name := constructorName, params := [.named "int"] }, { name := "m", returns := .named "A" },
        { name := "m", params := [.named "A"] }] } }),
    ("I", { outline := { methods := [{ name := "m" }, { name := "m", params := [.named "B"] }] } })]

def overload (c : ClassId) (params : List ClassId) : Method :=
  { owner := c, name := "m", params, returns := .ofPrimitive .void }

theorem lookups_agree_on_overloads : ∃ w chain all rest, overloads.loader.Reaches Action.Own w ∧
    w.scope.Registered ⟨9⟩ ∧ w.scope.Charted ⟨9⟩ ∧ w.scope.isMissing ⟨9⟩ = false ∧ w.scope.size < 13 ∧
    w.scope.IsSuperChain ⟨9⟩ chain ∧
    (overloads.loader.perform 13 (Query.allMethods ⟨9⟩)).Ends Action.Steady w (some all) w ∧
    (overloads.loader.perform 13 (Query.findMethods ⟨9⟩ "m")).Ends Action.Steady w
      (some (all.filter (·.name == "m") ++ rest)) w ∧
    all.filter (·.name == "m") =
      [overload ⟨9⟩ [], overload ⟨9⟩ [.ofPrimitive (.base .int)], overload ⟨10⟩ [⟨9⟩]] ∧
    rest = [overload ⟨11⟩ [⟨10⟩]] ∧ overload ⟨11⟩ [⟨10⟩] ∉ w.scope.methodsOf chain := by
  let script : Script (List ClassId) := do Query.supertypes (← Script.register "A")
  let find := overloads.loader.perform 13 (Query.findMethods ⟨9⟩ "m")
  let own : List Method := [overload ⟨9⟩ [], overload ⟨9⟩ [.ofPrimitive (.base .int)], overload ⟨10⟩ [⟨9⟩]]
  let constructor : Method := { overload ⟨9⟩ [] with name := constructorName }
  have h : ((overloads.loader.perform 4 script).advance Action.Own 35 .new).bind (fun p =>
      ((overloads.loader.perform 13 (Query.allMethods ⟨9⟩)).advance Action.Steady 10 p.2).bind fun p₁ =>
        (find.advance Action.Steady 18 p.2).map fun p₂ =>
          decide ((p.2.scope.Resolved ∧ p.2.scope.size = 12 ∧ p.2.scope.isMissing ⟨9⟩ = false) ∧
            p₁.1.result? = some (some (constructor :: own)) ∧
            p₂.1.result? = some (some (own ++ [overload ⟨11⟩ [⟨10⟩]])))) = some true := by decide +kernel
  obtain ⟨⟨p, w⟩, hp, h⟩ := Option.bind_eq_some_iff.mp h
  obtain ⟨⟨p₁, w₁⟩, hp₁, h⟩ := Option.bind_eq_some_iff.mp h
  obtain ⟨⟨p₂, w₂⟩, hp₂, h⟩ := Option.map_eq_some_iff.mp h
  obtain ⟨⟨hres, hsize, hm⟩, h₁, h₂⟩ := of_decide_eq_true h
  have hw : overloads.loader.Reaches Action.Own w := ⟨_, script, 4, p, Run.leads_iff_advance.mpr ⟨35, hp⟩⟩
  have hc : w.scope.Registered ⟨9⟩ := lt_of_lt_of_eq (by decide) hsize.symm
  have he : w.scope.Charted ⟨9⟩ := (hres.explored ⟨9⟩).charted
  have hn : w.scope.size < 13 := lt_of_eq_of_lt hsize (by decide)
  obtain ⟨chain, cs, all, hcs, hall, -, -, hnamed⟩ := lookups_agree hw hc he hm hn
  obtain ⟨_, hlist, -, -, hleading⟩ := hnamed "m"
  obtain ⟨rest, rfl, hrest⟩ := hleading (by decide) (by decide)
  obtain rfl : constructor :: own = all := Option.some.inj ((Run.ends_of_advance hp₁ h₁).unique hall).1
  have heq := Option.some.inj ((Run.ends_of_advance hp₂ h₂).unique hlist).1
  obtain rfl : [overload ⟨11⟩ [⟨10⟩]] = rest := List.append_cancel_left heq
  exact ⟨w, chain, _, _, hw, hc, he, hm, hn, hcs.climbs, hall, hlist, rfl, rfl, (hrest _ (List.mem_singleton_self _)).2⟩

end Loader

end ClassHierarchy
