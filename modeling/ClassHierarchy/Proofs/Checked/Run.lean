import ClassHierarchy.Proofs.DerivedSets

/-!
Runs in which every index is checked. Before an entry of a scope is read or changed, it is made sure that
there is one; a run that comes upon a class that the scope does not have stops with a fault.
-/

namespace ClassHierarchy

inductive Fault where
  | foreign (c : ClassId)
  | outOfRange (c : ClassId)
  deriving DecidableEq

namespace Action

def subject? : Action → Option ClassId
  | .attach c _ | .rebind c _ | .call c | .finish c _ => some c
  | _ => none

def opens (x : Action) (s : Scope) : List ClassId :=
  x.subject?.elim [] fun c =>
    c :: (s.declaration c).superClass.toList ++ ((x.next s).declaration c).superClass.toList

/-- An action leaves all entries alone but those that it opens. -/
theorem get?_next {x : Action} {s : Scope} {c : ClassId} (hc : s.Registered c) (ho : c ∉ x.opens s) :
    (x.next s).get? c = s.get? c := by
  have hopens : ∀ b, x.subject? = some b → c ≠ b ∧ (s.declaration b).superClass ≠ some c ∧
      ((x.next s).declaration b).superClass ≠ some c := by
    intro b hb
    simpa [opens, hb] using ho
  cases x with
  | register name =>
    obtain ⟨names, hr⟩ := s.register_eq_append name
    change (s.register name).2.2.get? c = _
    rw [hr, Scope.get?_append]
    exact if_pos hc
  | attach b d =>
    obtain ⟨hcb, -, hp⟩ := hopens b rfl
    cases ha : s.attach b d with
    | error e => simp [next, ha, Except.toOption]
    | ok s' =>
      simp only [next, ha, Except.toOption, Option.getD_some] at hp ⊢
      exact Scope.get?_install? (Scope.attach_eq_ok ha).2 hcb hp
  | rebind b p =>
    obtain ⟨hcb, hold, hnew⟩ := hopens b rfl
    exact Scope.get?_rebind hcb hold hnew
  | call b =>
    obtain ⟨hcb, -⟩ := hopens b rfl
    exact Scope.get?_mark hcb
  | finish b outcome =>
    obtain ⟨hcb, -, hp⟩ := hopens b rfl
    change ((s.endLoad b outcome).2.declaration b).superClass ≠ some c at hp
    change (s.endLoad b outcome).2.get? c = _
    unfold Scope.endLoad at hp ⊢
    cases hi : (s.mark b false).install? b (Scope.verdict ((s.mark b false).vet b outcome)).1
        (Scope.verdict ((s.mark b false).vet b outcome)).2 with
    | none =>
      simp only [hi]
      exact Scope.get?_mark hcb
    | some s' =>
      simp only [hi] at hp ⊢
      rw [Scope.get?_install? hi hcb hp, Scope.get?_mark hcb]
  | look | emit e | note m | giveUp => rfl

end Action

def Request.subjects : Request → List ClassId
  | .resolve c | .superChain c | .climbs c _ | .attach c _ => [c]
  | .interfaceClosure roots => roots
  | .rebind c p => [c, p]
  | _ => []

/-- The scope as one would see it who reads past its end and finds `beyond` there. -/
def Scope.padded (s : Scope) (beyond : Array Entry) : Scope := ⟨s.entries ++ beyond⟩

abbrev Checked := ExceptT Fault Run

namespace Checked

def guard (blame : ClassId → Fault) (cs : Scope → List ClassId) : Checked Unit := do
  let s ← ExceptT.lift (Run.act .look)
  match (cs s).find? (s.size ≤ ·.index) with
  | some c => throw (blame c)
  | none => return

def act (x : Action) : Checked x.Reply := do
  guard .outOfRange x.opens
  ExceptT.lift (Run.act x)

def about (c : ClassId) : Checked Scope := do
  guard .outOfRange fun _ => [c]
  ExceptT.lift (Run.act .look)

section

variable (load : ClassId → Checked (Except LoadError Declaration))

def resolve (c : ClassId) : Checked Unit := do
  if (← about c).isUntouched c then
    act (.call c)
    act (.finish c (← load c))

def rebind (c superClass : ClassId) : Checked Unit := do
  resolve load c
  act (.rebind c superClass)

def superChain : Nat → List ClassId → Option ClassId → Checked (List ClassId)
  | _, seen, none => return seen.reverse
  | 0, _, some _ => ExceptT.lift Run.exhausted
  | n + 1, seen, some c => do
    if c ∈ seen then return seen.reverse
    resolve load c
    superChain n (c :: seen) ((← about c).declaration c).superClass

def interfaceClosure : Nat → List ClassId → List ClassId → List ClassId → Checked (List ClassId)
  | _, [], _, out => return out
  | 0, _ :: _, _, _ => ExceptT.lift Run.exhausted
  | n + 1, c :: queue, seen, out => do
    resolve load c
    let fresh := Run.unseen seen ((← about c).declaration c).interfaces
    interfaceClosure n (queue ++ fresh) (seen ++ fresh) (out ++ fresh)

def climbs (target : ClassId) : Nat → List ClassId → List ClassId → Checked Bool
  | _, [], _ => return false
  | 0, _ :: _, _ => ExceptT.lift Run.exhausted
  | n + 1, c :: queue, seen => do
    resolve load c
    let parents := ((← about c).declaration c).parents
    if target ∈ parents then return true
    let fresh := Run.unseen seen parents
    climbs target n (queue ++ fresh) (seen ++ fresh)

def answer (beyond : Array Entry) (budget : Nat) : (r : Request) → Checked r.Reply
  | .register name => act (.register name)
  | .inspect => return (← ExceptT.lift (Run.act .look)).padded beyond
  | .resolve c => resolve load c
  | .superChain c => superChain load budget [] (some c)
  | .interfaceClosure roots => interfaceClosure load budget roots roots []
  | .climbs c target => climbs load target budget [c] [c]
  | .attach c d => act (.attach c d)
  | .rebind c p => rebind load c p
  | .emit e => act (.emit e)
  | .note r => act (.note r)

def handle (blame : ClassId → Fault) (beyond : Array Entry) (budget : Nat) (r : Request) : Checked r.Reply := do
  guard blame fun _ => r.subjects
  answer load beyond budget r

end

def call (L : Loader) : Nat → ClassId → Checked (Except LoadError Declaration)
  | 0, _ => ExceptT.lift Run.exhausted
  | n + 1, c => do (L c ((← about c).name c)).run (handle (call L n) .foreign #[] n)

end Checked

def Loader.check {α : Type} (L : Loader) (blame : ClassId → Fault) (beyond : Array Entry) (budget : Nat)
    (script : Script α) : Checked α :=
  script.run (Checked.handle (Checked.call L budget) blame beyond budget)

namespace Checked

variable {α β : Type}

def exec (p' : Checked α) (w : Session) : Option (Except Fault α × Session) := Run.exec p'.run w

def Concurs (Q : α → Session → Prop) : Option (Except Fault α × Session) → Option (α × Session) → Prop
  | none, y => y = none
  | some (.ok a, v), y => y = some (a, v) ∧ Q a v
  | some (.error f, v), _ => ∃ c, f = .foreign c ∧ ¬ v.scope.Registered c

/-- From a scope that mentions only its own classes, `p'` ends as `p` does, with `Q` and again with such a
scope. -/
def Agrees (p' : Checked α) (p : Run α) (w : Session) (Q : α → Session → Prop) : Prop :=
  w.scope.Tallied →
    Concurs (fun a v => v.scope.Tallied ∧ w.scope.Evolves (fun _ => True) v.scope ∧ Q a v) (p'.exec w) (p.exec w)

variable {p' : Checked α} {p : Run α} {f' : α → Checked β} {f : α → Run β} {w v : Session}
  {Q Q₁ : α → Session → Prop} {Q' : β → Session → Prop} {cs : Scope → List ClassId} {c : ClassId}

theorem exec_run_bind (p : Run α) (f : α → Run β) (w : Session) :
    (p >>= f).exec w = (p.exec w).bind fun x => (f x.1).exec x.2 := by
  unfold Run.exec
  rw [Program.run_bind]
  rfl

theorem exec_bind (p' : Checked α) (f' : α → Checked β) (w : Session) :
    exec (p' >>= f') w = (p'.exec w).bind fun x => match x.1 with
      | .ok a => (f' a).exec x.2
      | .error e => some (.error e, x.2) := by
  refine (exec_run_bind p'.run _ w).trans (congrArg _ (funext fun x => ?_))
  rcases x with ⟨e | a, v⟩ <;> rfl

theorem exec_lift (p : Run α) (w : Session) :
    exec (ExceptT.lift p) w = (p.exec w).map fun x => (.ok x.1, x.2) := by
  refine (exec_run_bind p _ w).trans ?_
  cases p.exec w <;> rfl

theorem Agrees.of_tallied (h : w.scope.Tallied → Agrees p' p w Q) : Agrees p' p w Q := fun ht => h ht ht

theorem Agrees.pure (a : α) (h : Q a w) : Agrees (Pure.pure a) (.done a) w Q :=
  fun ht => ⟨rfl, ht, .refl _, h⟩

theorem Concurs.imp {x : Option (Except Fault α × Session)} {y : Option (α × Session)} (h : Concurs Q x y)
    (hQ : ∀ a v, Q a v → Q₁ a v) : Concurs Q₁ x y := by
  rcases x with _ | ⟨e | a, v⟩
  · exact h
  · exact h
  · exact ⟨h.1, hQ a v h.2⟩

theorem Agrees.imp (h : Agrees p' p w Q) (hQ : ∀ a v, Q a v → Q₁ a v) : Agrees p' p w Q₁ :=
  fun ht => (h ht).imp fun a v hv => ⟨hv.1, hv.2.1, hQ a v hv.2.2⟩

theorem Agrees.bind (h : Agrees p' p w Q)
    (hf : ∀ a v, w.scope.Evolves (fun _ => True) v.scope → Q a v → Agrees (f' a) (f a) v Q') :
    Agrees (p' >>= f') (p >>= f) w Q' := by
  intro ht
  have h := h ht
  rw [exec_bind, exec_run_bind]
  rcases hx : p'.exec w with _ | ⟨e | a, v⟩ <;> rw [hx] at h
  · rw [show p.exec w = none from h]
    rfl
  · exact h
  · obtain ⟨hp, htv, hev, hq⟩ := h
    rw [hp]
    exact (hf a v hev hq htv).imp fun b u hu => ⟨hu.1, hev.trans hu.2.1, hu.2.2⟩

theorem exec_guard_bind (blame : ClassId → Fault) (cs : Scope → List ClassId) (f' : Unit → Checked α)
    (w : Session) :
    exec (guard blame cs >>= f') w = match (cs w.scope).find? (w.scope.size ≤ ·.index) with
      | some c => some (.error (blame c), w)
      | none => (f' ()).exec w := by
  unfold guard
  rw [bind_assoc, exec_bind, exec_lift]
  change exec ((match (cs w.scope).find? (w.scope.size ≤ ·.index) with
    | some c => throw (blame c) | none => Pure.pure ()) >>= f') w = _
  cases (cs w.scope).find? (w.scope.size ≤ ·.index) <;> rfl

theorem Agrees.guard {blame : ClassId → Fault} {f' : Unit → Checked α}
    (hb : blame = .foreign ∨ ∀ c ∈ cs w.scope, w.scope.Registered c)
    (hf : (∀ c ∈ cs w.scope, w.scope.Registered c) → Agrees (f' ()) p w Q) :
    Agrees (guard blame cs >>= f') p w Q := by
  intro ht
  rw [exec_guard_bind]
  cases hc : (cs w.scope).find? (w.scope.size ≤ ·.index) with
  | none =>
    refine hf (fun c hmem => ?_) ht
    simpa [Scope.Registered] using List.find?_eq_none.mp hc c hmem
  | some c =>
    have hn : ¬ w.scope.Registered c := by simpa [Scope.Registered] using List.find?_some hc
    rcases hb with rfl | hall
    · exact ⟨c, rfl, hn⟩
    · exact absurd (hall c (List.mem_of_find?_eq_some hc)) hn

theorem Agrees.look {f' : Scope → Checked α} {f : Scope → Run α} (h : Agrees (f' w.scope) (f w.scope) w Q) :
    Agrees (ExceptT.lift (Run.act .look) >>= f') (Run.act .look >>= f) w Q := by
  intro ht
  rw [exec_bind, exec_lift, exec_run_bind]
  exact h ht

theorem Agrees.about {f' : Scope → Checked α} {f : Scope → Run α} (hc : w.scope.Registered c)
    (h : Agrees (f' w.scope) (f w.scope) w Q) : Agrees (about c >>= f') (Run.act .look >>= f) w Q := by
  unfold Checked.about
  rw [bind_assoc]
  exact .guard (.inr (by simpa using hc)) fun _ => .look h

theorem Agrees.exhausted : Agrees (ExceptT.lift Run.exhausted : Checked α) Run.exhausted w Q := by
  intro _
  rw [exec_lift]
  rfl

theorem opens_registered {x : Action} (ht : w.scope.Tallied) (ho : x.Own w)
    (hs : ∀ c, x.subject? = some c → w.scope.Registered c) : ∀ c ∈ x.opens w.scope, w.scope.Registered c := by
  cases hx : x.subject? with
  | none => simp [Action.opens, hx]
  | some c =>
    obtain ⟨r, v, hv⟩ : ∃ r v, x.perform w = some (r, v) := by
      cases x with
      | attach b d => cases ha : w.scope.attach b d <;> exact ⟨_, _, by simp only [Action.perform, ha]; rfl⟩
      | rebind | call | finish => exact ⟨_, _, rfl⟩
      | _ => cases hx
    -- The super class after the action is mentioned in the scope after it, which is of the same size.
    have htv : (x.next w.scope).Tallied := Action.scope_of_perform hv ▸ ht.next ho hv
    have hsize : (x.next w.scope).size = w.scope.size := by
      apply Action.size_next
      rintro name rfl
      cases hx
    intro p hp
    simp only [Action.opens, hx, Option.elim_some, List.cons_append, List.mem_cons, List.mem_append,
      Option.mem_toList] at hp
    rcases hp with rfl | hp | hp
    · exact hs p hx
    · exact ht.mentioned c p (Scope.superClass_mem_mentions hp)
    · exact (Scope.registered_congr hsize).mp (htv.mentioned c p (Scope.superClass_mem_mentions hp))

theorem Agrees.act {x : Action} {Q : x.Reply → Session → Prop} (ho : x.Own w)
    (hs : ∀ c, x.subject? = some c → w.scope.Registered c)
    (hQ : ∀ r v, x.perform w = some (r, v) → Q r v) : Agrees (act x) (Run.act x) w Q := by
  intro ht
  refine Agrees.guard (.inr (opens_registered ht ho hs)) (fun _ _ => ?_) ht
  have hexec : (Run.act x).exec w = x.perform w := by
    unfold Run.act Run.exec
    simp
  rw [exec_lift, hexec]
  cases hx : x.perform w with
  | none => rfl
  | some y =>
    obtain ⟨r, v⟩ := y
    exact ⟨rfl, ht.next ho hx, Action.evolves_of_perform hx, hQ r v hx⟩

def Own (cs : List ClassId) (w : Session) : Prop := ∀ c ∈ cs, w.scope.Registered c

theorem Own.evolves {cs : List ClassId} {R : ClassId → Prop} (h : Own cs w) (he : w.scope.Evolves R v.scope) :
    Own cs v := fun c hc => he.registered (h c hc)

theorem own_nil : Own [] w := fun _ h => absurd h List.not_mem_nil

theorem own_cons {cs : List ClassId} : Own (c :: cs) w ↔ w.scope.Registered c ∧ Own cs w :=
  List.forall_mem_cons

theorem Own.append {cs ds : List ClassId} (hc : Own cs w) (hd : Own ds w) : Own (cs ++ ds) w :=
  List.forall_mem_append.mpr ⟨hc, hd⟩

theorem own_unseen (seen : List ClassId) {xs : List ClassId} (h : xs ⊆ (w.scope.declaration c).mentions)
    (ht : w.scope.Tallied) : Own (Run.unseen seen xs) w := by
  intro x hx
  exact ht.mentioned c x (h (Run.mem_unseen.mp hx).1)

section

variable {load' : ClassId → Checked (Except LoadError Declaration)}
  {load : ClassId → Run (Except LoadError Declaration)}
  (hload : ∀ c w, w.scope.Registered c → Agrees (load' c) (load c) w fun _ _ => True)
include hload

theorem agrees_resolve (hc : w.scope.Registered c) :
    Agrees (resolve load' c) (Run.resolve load c) w fun _ _ => True := by
  apply Agrees.about hc
  split
  · have hcall : Agrees (act (.call c)) (Run.act (.call c)) w fun _ _ => True :=
      .act trivial (by rintro _ ⟨⟩; exact hc) fun _ _ _ => trivial
    refine hcall.bind fun _ v hv _ => (hload c v (hv.registered hc)).bind fun o v' hv' _ => ?_
    exact .act trivial (by rintro _ ⟨⟩; exact hv'.registered (hv.registered hc)) fun _ _ _ => trivial
  · exact .pure _ trivial

theorem agrees_rebind {p : ClassId} (hc : w.scope.Registered c) (hp : w.scope.Registered p) :
    Agrees (rebind load' c p) (Run.rebind load c p) w fun _ _ => True := by
  refine (agrees_resolve hload hc).bind fun _ v hv _ => ?_
  exact .act (hv.registered hp) (by rintro _ ⟨⟩; exact hv.registered hc) fun _ _ _ => trivial

theorem agrees_superChain (n : Nat) {seen : List ClassId} {next? : Option ClassId} (hs : Own seen w)
    (hn : ∀ c, next? = some c → w.scope.Registered c) :
    Agrees (superChain load' n seen next?) (Run.superChain load n seen next?) w Own := by
  have hdone : Own seen.reverse w := fun c hc => hs c (List.mem_reverse.mp hc)
  induction n generalizing seen next? w with
  | zero =>
    cases next? with
    | none => exact .pure _ hdone
    | some c => exact .exhausted
  | succ n ih =>
    cases next? with
    | none => exact .pure _ hdone
    | some c =>
      have hc := hn c rfl
      unfold superChain Run.superChain
      split
      · exact .pure _ hdone
      · refine (agrees_resolve hload hc).bind fun _ v hv _ => .about (hv.registered hc) (.of_tallied fun ht => ?_)
        have hseen : Own (c :: seen) v := own_cons.mpr ⟨hv.registered hc, hs.evolves hv⟩
        refine ih hseen ?_ fun x hx => hseen x (List.mem_reverse.mp hx)
        exact fun p hp => ht.mentioned c p (Scope.superClass_mem_mentions hp)

theorem agrees_interfaceClosure (n : Nat) {queue seen out : List ClassId} (hq : Own queue w) (ho : Own out w) :
    Agrees (interfaceClosure load' n queue seen out) (Run.interfaceClosure load n queue seen out) w Own := by
  induction n generalizing queue seen out w with
  | zero =>
    cases queue with
    | nil => exact .pure _ ho
    | cons c queue => exact .exhausted
  | succ n ih =>
    cases queue with
    | nil => exact .pure _ ho
    | cons c queue =>
      obtain ⟨hc, hq⟩ := own_cons.mp hq
      refine (agrees_resolve hload hc).bind fun _ v hv _ => .about (hv.registered hc) (.of_tallied fun ht => ?_)
      have hfresh : Own (Run.unseen seen (v.scope.declaration c).interfaces) v :=
        own_unseen seen (Scope.interfaces_subset_mentions _) ht
      exact ih ((hq.evolves hv).append hfresh) ((ho.evolves hv).append hfresh)

theorem agrees_climbs (target : ClassId) (n : Nat) {queue seen : List ClassId} (hq : Own queue w) :
    Agrees (climbs load' target n queue seen) (Run.climbs load target n queue seen) w fun _ _ => True := by
  induction n generalizing queue seen w with
  | zero =>
    cases queue with
    | nil => exact .pure _ trivial
    | cons c queue => exact .exhausted
  | succ n ih =>
    cases queue with
    | nil => exact .pure _ trivial
    | cons c queue =>
      obtain ⟨hc, hq⟩ := own_cons.mp hq
      refine (agrees_resolve hload hc).bind fun _ v hv _ => .about (hv.registered hc) (.of_tallied fun ht => ?_)
      dsimp only
      split
      · exact .pure _ trivial
      · exact ih ((hq.evolves hv).append (own_unseen seen (Scope.parents_subset_mentions _) ht))

theorem agrees_answer (n : Nat) {r : Request} (hr : Own r.subjects w) :
    Agrees (answer load' #[] n r) (Run.handle load n r) w fun _ _ => True := by
  cases r with
  | register name => exact .act trivial nofun fun _ _ _ => trivial
  | inspect =>
    have hsame : w.scope.padded #[] = w.scope := by simp [Scope.padded]
    refine Agrees.look (f := .done) ?_
    rw [hsame]
    exact .pure _ trivial
  | resolve c => exact agrees_resolve hload (hr c (List.mem_singleton_self c))
  | superChain c =>
    refine (agrees_superChain hload n own_nil ?_).imp fun _ _ _ => trivial
    rintro _ ⟨⟩
    exact hr c (List.mem_singleton_self c)
  | interfaceClosure roots => exact (agrees_interfaceClosure hload n hr own_nil).imp fun _ _ _ => trivial
  | climbs c target => exact agrees_climbs hload target n hr
  | attach c d =>
    refine .act trivial ?_ fun _ _ _ => trivial
    rintro _ ⟨⟩
    exact hr c (List.mem_singleton_self c)
  | rebind c p => exact agrees_rebind hload (hr c (by simp [Request.subjects])) (hr p (by simp [Request.subjects]))
  | emit e => exact .act trivial nofun fun _ _ _ => trivial
  | note m => exact .act trivial nofun fun _ _ _ => trivial

theorem agrees_client (n : Nat) (script : Script α) :
    Agrees (script.run (handle load' .foreign #[] n)) (script.run (Run.handle load n)) w fun _ _ => True := by
  induction script generalizing w with
  | done a => exact .pure _ trivial
  | ask r k ih =>
    have hr : Agrees (handle load' .foreign #[] n r) (Run.handle load n r) w fun _ _ => True :=
      .guard (.inl rfl) fun hr => agrees_answer hload n hr
    exact hr.bind fun x v _ _ => ih x

end

theorem agrees_call (L : Loader) (n : Nat) (c : ClassId) (w : Session) (hc : w.scope.Registered c) :
    Agrees (call L n c) (L.call n c) w fun _ _ => True := by
  induction n generalizing c w with
  | zero => exact .exhausted
  | succ n ih => exact .about hc (agrees_client ih n _)

end Checked

end ClassHierarchy
