import ClassHierarchy.Proofs.SupertypeOrder
import ClassHierarchy.Proofs.VisibleMethods

namespace ClassHierarchy.Loader

variable {α : Type} {L : Loader} {n : Nat} {c : ClassId} {chain cs : List ClassId} {w : Session}

theorem ends_if_present {q : Script (Option α)} {a? : Option α} (hu : w.scope.isUntouched c = false)
    (hm : w.scope.isMissing c = false) (h : (L.perform n q).Ends Action.Steady w a? w) :
    (L.perform n (do if ← Query.isMissing c then return none else q)).Ends Action.Steady w a? w := by
  apply ends_perform_bind (ends_isMissing hu)
  rw [hm]
  exact h

structure Walks (L : Loader) (n : Nat) (w : Session) (c : ClassId) (chain cs : List ClassId) : Prop where
  enumerates : w.scope.Enumerates c chain cs
  touched : ∀ x ∈ cs, w.scope.isUntouched x = false
  superChain : (L.perform n (Script.superChain c)).Ends Action.Steady w chain w
  supertypes : (L.perform n (Query.supertypes c)).Ends Action.Steady w cs w

theorem exists_walks (L : Loader) (he : w.scope.Charted c) (ht : w.scope.Tallied) (hc : w.scope.Registered c)
    (hn : w.scope.size < n) : ∃ chain cs, L.Walks n w c chain cs := by
  obtain ⟨chain, cs, hcs, hup, hall⟩ := supertypes_ends (L := L) he ht hc hn
  exact ⟨chain, cs, hcs, fun x hx => he x (hcs.mem_iff.mp hx), hup, hall⟩

namespace Walks

variable (h : L.Walks n w c chain cs)
include h

theorem touched_self : w.scope.isUntouched c = false := h.touched c (h.enumerates.mem_iff.mpr (.refl c))

theorem touched_chain : ∀ x ∈ chain, w.scope.isUntouched x = false :=
  fun x hx => h.touched x ((h.enumerates.spreads 0).subset hx)

variable (hm : w.scope.isMissing c = false)
include hm

theorem fieldType (field : String) : (L.perform n (Query.fieldType c field)).Ends Action.Steady w
    (chain.findSome? fun x => (w.scope.declaration x).fields.find? field) w :=
  ends_if_present h.touched_self hm (ends_perform_bind h.superChain (ends_firstDeclared _ h.touched_chain))

theorem staticFieldType (field : String) : (L.perform n (Query.staticFieldType c field)).Ends Action.Steady w
    (cs.findSome? fun x => (w.scope.declaration x).staticFields.find? field) w :=
  ends_if_present h.touched_self hm (ends_perform_bind h.supertypes (ends_firstDeclared _ h.touched))

theorem findMethod (sig : Signature) : (L.perform n (Query.findMethod c sig)).Ends Action.Steady w
    (cs.findSome? fun x => (w.scope.declaration x).findMethod? sig) w :=
  ends_if_present h.touched_self hm (ends_perform_bind h.supertypes (ends_firstDeclared _ h.touched))

theorem findMethods (name : String) : (L.perform n (Query.findMethods c name)).Ends Action.Steady w
    (some (Query.addVisible [] (cs.flatMap fun x => (w.scope.declaration x).methodsNamed name))) w :=
  ends_if_present h.touched_self hm
    (ends_perform_bind h.supertypes (ends_map (visibleMethods_ends h.touched) some))

theorem allMethods : (L.perform n (Query.allMethods c)).Ends Action.Steady w
    (some (Query.addVisible [] (chain.flatMap fun x => Query.inheritable c x (w.scope.declaration x)))) w :=
  ends_if_present h.touched_self hm
    (ends_perform_bind h.superChain (ends_map (visibleMethods_ends h.touched_chain) some))

end Walks

end ClassHierarchy.Loader
