import ClassHierarchy.Proofs.Subtyping

namespace ClassHierarchy

namespace Scope

variable {s t : Scope} {a c p x : ClassId} {chain roots queue out closure : List ClassId} {next? : Option ClassId}

structure Climbed (s : Scope) (a : ClassId) (chain : List ClassId) (next? : Option ClassId) : Prop where
  start : a ∈ chain ∨ next? = some a
  below : ∀ x, x ∈ chain ∨ next? = some x → s.Below a x
  settled : ∀ x ∈ chain, ∃ st, s.settled? x = some st
  closed : ∀ x ∈ chain, ∀ p, (s.declaration x).superClass = some p → p ∈ chain ∨ next? = some p

structure Spread (s : Scope) (a : ClassId) (roots queue out : List ClassId) : Prop where
  queued : queue ⊆ roots ++ out
  below : ∀ x ∈ roots ++ out, s.Below a x
  listed : ∀ x ∈ out, ∃ y, x ∈ (s.declaration y).interfaces
  settled : ∀ x ∈ roots ++ out, x ∉ queue → ∃ st, s.settled? x = some st
  closed : ∀ x ∈ roots ++ out, x ∉ queue → ∀ i ∈ (s.declaration x).interfaces, i ∈ roots ++ out

theorem parent_of_superClass (h : (s.declaration x).superClass = some p) : s.Parent x p := by
  simp [Parent, Declaration.parents, h]

theorem parent_of_interface (h : p ∈ (s.declaration x).interfaces) : s.Parent x p := by
  simp [Parent, Declaration.parents, h]

theorem climbed_start (s : Scope) (a : ClassId) : s.Climbed a [] (some a) where
  start := .inr rfl
  below x hx := by
    obtain hx | hx := hx
    · cases hx
    · cases hx
      exact .refl
  settled := nofun
  closed := nofun

theorem Climbed.grows (h : s.Climbed a chain next?) (hg : s.Grows t) : t.Climbed a chain next? where
  start := h.start
  below x hx := (h.below x hx).grows hg
  settled x hx := by
    obtain ⟨st, hs⟩ := h.settled x hx
    obtain ⟨st', hs', -⟩ := hg.settled hs
    exact ⟨st', hs'⟩
  closed x hx p hp := by
    obtain ⟨st, hs⟩ := h.settled x hx
    rw [hg.declaration id hs] at hp
    exact h.closed x hx p hp

theorem Climbed.next (h : s.Climbed a chain (some c)) {st : Settled} (hc : s.settled? c = some st) :
    s.Climbed a (c :: chain) (s.declaration c).superClass where
  start := by
    obtain ha | ha := h.start
    · exact .inl (List.mem_cons_of_mem c ha)
    · cases ha
      exact .inl List.mem_cons_self
  below x hx := by
    have hbelow := h.below c (.inr rfl)
    obtain hx | hx := hx
    · rcases List.mem_cons.mp hx with rfl | hx
      · exact hbelow
      · exact h.below x (.inl hx)
    · exact hbelow.tail (parent_of_superClass hx)
  settled x hx := by
    rcases List.mem_cons.mp hx with rfl | hx
    · exact ⟨st, hc⟩
    · exact h.settled x hx
  closed x hx p hp := by
    rcases List.mem_cons.mp hx with rfl | hx
    · exact .inr hp
    · obtain hmem | hnext := h.closed x hx p hp
      · exact .inl (List.mem_cons_of_mem c hmem)
      · cases hnext
        exact .inl List.mem_cons_self

theorem Climbed.stop (h : s.Climbed a chain next?) (hn : ∀ c, next? = some c → c ∈ chain) :
    s.Climbed a chain.reverse none where
  start := .inl (List.mem_reverse.mpr (h.start.elim id (hn a)))
  below x hx := h.below x (.inl (List.mem_reverse.mp (hx.resolve_right nofun)))
  settled x hx := h.settled x (List.mem_reverse.mp hx)
  closed x hx p hp := .inl (List.mem_reverse.mpr ((h.closed x (List.mem_reverse.mp hx) p hp).elim id (hn p)))

theorem Climbed.spread (h : s.Climbed a chain none) : s.Spread a chain chain [] where
  queued := List.subset_append_left chain []
  below x hx := h.below x (.inl (by simpa using hx))
  listed := nofun
  settled x hx hq := absurd (by simpa using hx) hq
  closed x hx hq := absurd (by simpa using hx) hq

theorem Spread.grows (h : s.Spread a roots queue out) (hg : s.Grows t) : t.Spread a roots queue out where
  queued := h.queued
  below x hx := (h.below x hx).grows hg
  listed x hx := by
    obtain ⟨y, hy⟩ := h.listed x hx
    obtain ⟨st, hs⟩ := (parent_of_interface hy).settled
    exact ⟨y, hg.declaration id hs ▸ hy⟩
  settled x hx hq := by
    obtain ⟨st, hs⟩ := h.settled x hx hq
    obtain ⟨st', hs', -⟩ := hg.settled hs
    exact ⟨st', hs'⟩
  closed x hx hq i hi := by
    obtain ⟨st, hs⟩ := h.settled x hx hq
    rw [hg.declaration id hs] at hi
    exact h.closed x hx hq i hi

theorem Spread.next (h : s.Spread a roots (c :: queue) out) {st : Settled} (hc : s.settled? c = some st) :
    s.Spread a roots (queue ++ Run.unseen (roots ++ out) (s.declaration c).interfaces)
      (out ++ Run.unseen (roots ++ out) (s.declaration c).interfaces) where
  queued x hx := by
    rw [← List.append_assoc]
    rcases List.mem_append.mp hx with hx | hx
    · exact List.mem_append_left _ (h.queued (List.mem_cons_of_mem c hx))
    · exact List.mem_append_right _ hx
  below x hx := by
    rw [← List.append_assoc] at hx
    rcases List.mem_append.mp hx with hx | hx
    · exact h.below x hx
    · have hbelow := h.below c (h.queued List.mem_cons_self)
      exact hbelow.tail (parent_of_interface (Run.mem_unseen.mp hx).1)
  listed x hx := by
    rcases List.mem_append.mp hx with hx | hx
    · exact h.listed x hx
    · exact ⟨c, (Run.mem_unseen.mp hx).1⟩
  settled x hx hq := by
    rw [← List.append_assoc] at hx
    rw [List.mem_append, not_or] at hq
    have hx := (List.mem_append.mp hx).resolve_right hq.2
    by_cases hxc : x = c
    · exact ⟨st, hxc ▸ hc⟩
    · exact h.settled x hx (by simp [hxc, hq.1])
  closed x hx hq i hi := by
    rw [← List.append_assoc] at hx ⊢
    rw [List.mem_append, not_or] at hq
    have hx := (List.mem_append.mp hx).resolve_right hq.2
    by_cases hxc : x = c
    · subst hxc
      by_cases his : i ∈ roots ++ out
      · exact List.mem_append_left _ his
      · exact List.mem_append_right _ (Run.mem_unseen.mpr ⟨hi, his⟩)
    · exact List.mem_append_left _ (h.closed x hx (by simp [hxc, hq.1]) i hi)

structure Supertypes (s : Scope) (a : ClassId) (chain closure : List ClassId) : Prop where
  climbed : s.Climbed a chain none
  spread : s.Spread a chain [] closure

theorem Supertypes.grows (h : s.Supertypes a chain closure) (hg : s.Grows t) : t.Supertypes a chain closure :=
  ⟨h.climbed.grows hg, h.spread.grows hg⟩

theorem supertypes_alone {st : Settled} (ha : s.settled? a = some st) (hp : (s.declaration a).parents = []) :
    s.Supertypes a [a] [] := by
  obtain ⟨hsuper, hinterfaces⟩ := List.append_eq_nil_iff.mp hp
  have hclimbed := (s.climbed_start a).next ha
  rw [Option.toList_eq_nil_iff.mp hsuper] at hclimbed
  have hspread := hclimbed.spread.next ha
  rw [hinterfaces] at hspread
  exact ⟨hclimbed, hspread⟩

theorem Supertypes.settled (h : s.Supertypes a chain closure) (hx : x ∈ chain ++ closure) :
    ∃ st, s.settled? x = some st := h.spread.settled x hx List.not_mem_nil

theorem Supertypes.mem_iff (h : s.Supertypes a chain closure)
    (hroot : ∀ x ∈ closure, (s.declaration x).superClass = none) : x ∈ chain ++ closure ↔ s.Below a x := by
  refine ⟨h.spread.below x, fun hx => ?_⟩
  induction hx with
  | refl => exact List.mem_append_left _ (h.climbed.start.resolve_right nofun)
  | @tail y z _ hp ih =>
    rw [Parent, Declaration.parents, List.mem_append, Option.mem_toList] at hp
    obtain hsuper | hinterface := hp
    · obtain hy | hy := List.mem_append.mp ih
      · exact List.mem_append_left _ ((h.climbed.closed y hy z hsuper).resolve_right nofun)
      · rw [hroot y hy] at hsuper
        cases hsuper
    · exact h.spread.closed y ih List.not_mem_nil z hinterface

end Scope

namespace Run

variable {load : ClassId → Run (Except LoadError Declaration)} {a : ClassId} {n : Nat}
  {chain roots queue out cs : List ClassId} {next? : Option ClassId} {w w' : Session}

theorem superChain_spec (hload : ∀ c, (load c).Nested) (hw : w.Sane) (hs : w.stack = [])
    (ha : w.scope.Registered a) (hchain : w.scope.Climbed a chain next?)
    (h : (superChain load n chain next?).Ends Action.Steady w cs w') :
    w'.Sane ∧ w'.stack = [] ∧ w'.scope.Climbed a cs none := by
  induction n generalizing chain next? w with
  | zero =>
    cases next? with
    | none =>
      obtain ⟨rfl, rfl⟩ := ends_done_iff.mp h
      exact ⟨hw, hs, hchain.stop nofun⟩
    | some c =>
      obtain ⟨-, r, -⟩ := ends_ask_iff.mp h
      cases r
  | succ n ih =>
    cases next? with
    | none =>
      obtain ⟨rfl, rfl⟩ := ends_done_iff.mp h
      exact ⟨hw, hs, hchain.stop nofun⟩
    | some c =>
      unfold superChain at h
      split at h
      next hc =>
        obtain ⟨rfl, rfl⟩ := ends_done_iff.mp h
        refine ⟨hw, hs, hchain.stop ?_⟩
        rintro _ ⟨⟩
        exact hc
      next =>
        obtain ⟨_, w₁, hresolve, h⟩ := ends_bind_iff.mp h
        have h := (ends_look_bind_iff trivial).mp h
        have hgrows : w.scope.Grows w₁.scope := hresolve.evolves
        have hc := (hchain.below c (.inr rfl)).registered hw.tallied ha
        obtain ⟨hw₁, hs₁, st, hst⟩ :=
          settled_of_resolve hload hw hs hc (hresolve.mono fun _ _ => Action.own_of_steady)
        exact ih hw₁ hs₁ (hgrows.registered ha) ((hchain.grows hgrows).next hst) h

theorem interfaceClosure_spec (hload : ∀ c, (load c).Nested) (hw : w.Sane) (hs : w.stack = [])
    (ha : w.scope.Registered a) (hspread : w.scope.Spread a roots queue out)
    (h : (interfaceClosure load n queue (roots ++ out) out).Ends Action.Steady w cs w') :
    w'.Sane ∧ w'.stack = [] ∧ w'.scope.Spread a roots [] cs := by
  induction n generalizing queue out w with
  | zero =>
    cases queue with
    | nil =>
      obtain ⟨rfl, rfl⟩ := ends_done_iff.mp h
      exact ⟨hw, hs, hspread⟩
    | cons c queue =>
      obtain ⟨-, r, -⟩ := ends_ask_iff.mp h
      cases r
  | succ n ih =>
    cases queue with
    | nil =>
      obtain ⟨rfl, rfl⟩ := ends_done_iff.mp h
      exact ⟨hw, hs, hspread⟩
    | cons c queue =>
      obtain ⟨_, w₁, hresolve, h⟩ := ends_bind_iff.mp h
      have h := (ends_look_bind_iff trivial).mp h
      have hgrows : w.scope.Grows w₁.scope := hresolve.evolves
      have hc := (hspread.below c (hspread.queued List.mem_cons_self)).registered hw.tallied ha
      obtain ⟨hw₁, hs₁, st, hst⟩ :=
        settled_of_resolve hload hw hs hc (hresolve.mono fun _ _ => Action.own_of_steady)
      dsimp only at h
      rw [List.append_assoc] at h
      exact ih hw₁ hs₁ (hgrows.registered ha) ((hspread.grows hgrows).next hst) h

end Run

namespace Loader

variable {α : Type} {L : Loader} {n : Nat} {c : ClassId} {cs : List ClassId} {w w' : Session}

theorem supertypes_spec (hw : w.Sane) (hs : w.stack = []) (hc : w.scope.Registered c)
    (h : (L.perform n (Query.supertypes c)).Ends Action.Steady w cs w') : w'.Sane ∧ w'.stack = [] ∧
      ∃ chain closure, cs = chain ++ closure ∧ w'.scope.Supertypes c chain closure := by
  unfold Query.supertypes at h
  rw [perform_bind] at h
  obtain ⟨chain, w₁, hchain, h⟩ := Run.ends_bind_iff.mp h
  rw [perform_bind] at h
  obtain ⟨closure, w₂, hclosure, h⟩ := Run.ends_bind_iff.mp h
  obtain ⟨rfl, rfl⟩ := Run.ends_done_iff.mp h
  unfold Script.superChain at hchain
  unfold Script.interfaceClosure at hclosure
  rw [perform_request] at hchain hclosure
  obtain ⟨hw₁, hs₁, hclimbed⟩ := Run.superChain_spec (L.nested_call n) hw hs hc (w.scope.climbed_start c) hchain
  have hgrows : w₁.scope.Grows w₂.scope := hclosure.evolves
  have hc₁ : w₁.scope.Registered c := hchain.evolves.registered hc
  have hroots : (Run.interfaceClosure (L.call n) n chain (chain ++ []) []).Ends Action.Steady w₁ closure w₂ := by
    rw [List.append_nil]
    exact hclosure
  obtain ⟨hw₂, hs₂, hspread⟩ := Run.interfaceClosure_spec (L.nested_call n) hw₁ hs₁ hc₁ hclimbed.spread hroots
  exact ⟨hw₂, hs₂, chain, closure, rfl, hclimbed.grows hgrows, hspread⟩

theorem ends_firstDeclared (read : Declaration → Option α) (h : ∀ c ∈ cs, w.scope.isUntouched c = false) :
    (L.perform n (Query.firstDeclared read cs)).Ends Action.Steady w
      (cs.findSome? fun c => read (w.scope.declaration c)) w := by
  induction cs with
  | nil => exact ends_pure none
  | cons c cs ih =>
    obtain ⟨hc, hcs⟩ := List.forall_mem_cons.mp h
    unfold Query.firstDeclared
    apply ends_perform_bind (ends_declaration hc)
    rw [List.findSome?_cons]
    cases read (w.scope.declaration c) with
    | none => exact ih hcs
    | some a => exact ends_pure (some a)

theorem isMissing_spec {b : Bool} (hw : w.Sane) (hs : w.stack = []) (hc : w.scope.Registered c)
    (h : (L.perform n (Query.isMissing c)).Ends Action.Steady w b w') :
    w'.Sane ∧ w'.stack = [] ∧ (∃ st, w'.scope.settled? c = some st) ∧ b = w'.scope.isMissing c := by
  unfold Query.isMissing Script.resolve at h
  rw [perform_bind, perform_request] at h
  obtain ⟨_, w₁, hresolve, h⟩ := Run.ends_bind_iff.mp h
  have hread := (Run.ends_look_bind_iff trivial).mp h
  obtain ⟨rfl, rfl⟩ := Run.ends_done_iff.mp hread
  obtain ⟨hw₁, hs₁, hst⟩ :=
    Run.settled_of_resolve (L.nested_call n) hw hs hc (hresolve.mono fun _ _ => Action.own_of_steady)
  exact ⟨hw₁, hs₁, hst, rfl⟩

theorem ofDeclared_spec {read : Declaration → α} {a? : Option α} (hw : w.Sane) (hs : w.stack = [])
    (hc : w.scope.Registered c) (h : (L.perform n (Query.ofDeclared c read)).Ends Action.Steady w a? w') :
    ∃ st, w'.scope.settled? c = some st ∧
      a? = if w'.scope.isMissing c then none else some (read (w'.scope.declaration c)) := by
  unfold Query.ofDeclared at h
  rw [perform_bind] at h
  obtain ⟨missing, w₁, hmissing, h⟩ := Run.ends_bind_iff.mp h
  obtain ⟨-, -, ⟨st, hst⟩, rfl⟩ := isMissing_spec hw hs hc hmissing
  have hu := Scope.isUntouched_of_settled hst
  cases hm : w₁.scope.isMissing c with
  | true =>
    rw [hm] at h
    obtain ⟨rfl, rfl⟩ := Run.ends_done_iff.mp h
    exact ⟨st, hst, by simp [hm]⟩
  | false =>
    rw [hm] at h
    have hread := ends_map (ends_declaration (L := L) (n := n) hu) fun d => some (read d)
    obtain ⟨rfl, rfl⟩ := h.unique hread
    exact ⟨st, hst, by simp [hm]⟩

theorem search_spec (read : Declaration → Option α) {a? : Option α} (hw : w.Sane) (hs : w.stack = [])
    (hc : w.scope.Registered c)
    (h : (L.perform n (do
      if ← Query.isMissing c then return none
      Query.firstDeclared read (← Query.supertypes c))).Ends Action.Steady w a? w') :
    w'.Sane ∧ w'.stack = [] ∧ (w'.scope.isMissing c = true ∧ a? = none ∨
      ∃ chain closure, w'.scope.Supertypes c chain closure ∧
        a? = (chain ++ closure).findSome? fun x => read (w'.scope.declaration x)) := by
  rw [perform_bind] at h
  obtain ⟨missing, w₁, hmissing, h⟩ := Run.ends_bind_iff.mp h
  have hc₁ : w₁.scope.Registered c := hmissing.evolves.registered hc
  obtain ⟨hw₁, hs₁, -, rfl⟩ := isMissing_spec hw hs hc hmissing
  cases hm : w₁.scope.isMissing c with
  | true =>
    rw [hm] at h
    obtain ⟨rfl, rfl⟩ := Run.ends_done_iff.mp h
    exact ⟨hw₁, hs₁, .inl ⟨hm, rfl⟩⟩
  | false =>
    rw [hm] at h
    change (L.perform n (Query.supertypes c >>= fun cs => Query.firstDeclared read cs)).Ends _ _ _ _ at h
    rw [perform_bind] at h
    obtain ⟨cs, w₂, hsupertypes, h⟩ := Run.ends_bind_iff.mp h
    obtain ⟨hw₂, hs₂, chain, closure, rfl, hsuper⟩ := supertypes_spec hw₁ hs₁ hc₁ hsupertypes
    have hread := ends_firstDeclared (L := L) (n := n) read fun x hx => by
      obtain ⟨st, hst⟩ := hsuper.settled hx
      exact Scope.isUntouched_of_settled hst
    obtain ⟨rfl, rfl⟩ := h.unique hread
    exact ⟨hw₂, hs₂, .inr ⟨chain, closure, hsuper, rfl⟩⟩

end Loader

end ClassHierarchy
