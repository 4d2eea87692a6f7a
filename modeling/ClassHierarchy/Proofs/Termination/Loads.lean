import ClassHierarchy.Proofs.LoaderCalls
import ClassHierarchy.Proofs.Run.Speaking
import ClassHierarchy.Proofs.Subtyping
import ClassHierarchy.Proofs.Termination.Converges

/-!
Loads come to an end. A loader is called once for each class, and where only finitely many names are ever
spoken there are only finitely many classes; a walk meets each of them once. So the number of classes that
the loader has not been called for bounds how deep loads nest, and the number of classes that a walk has not
met bounds how far it goes on.
-/

namespace ClassHierarchy

variable {α : Type} {B : FullName → Prop} {U : List FullName} {w v w' : Session} {c : ClassId} {k : Nat}

structure Session.Kept (B : FullName → Prop) (w : Session) : Prop where
  attended : w.Attended
  called : w.Called
  speaks : w.Speaks B

structure Session.Leaves (B : FullName → Prop) (w v : Session) : Prop where
  kept : v.Kept B
  stack : v.stack = w.stack
  calls : w.calls.length ≤ v.calls.length
  evolves : w.scope.Evolves (fun _ => True) v.scope

namespace Session

theorem Kept.next {x : Action} {r : x.Reply} (h : w.Kept B) (hB : Vocabulary B) (hd : x.Due w)
    (hs : x.Speaks B w) (hx : x.perform w = some (r, w')) : w'.Kept B where
  attended := h.attended.next hd hx
  called := h.called.next h.attended hd hx
  speaks := h.speaks.next hB hs hx

theorem Kept.refl (h : w.Kept B) : w.Leaves B w := ⟨h, rfl, Nat.le_refl _, .refl _⟩

theorem Leaves.trans (h : w.Leaves B v) (h' : v.Leaves B w') : w.Leaves B w' where
  kept := h'.kept
  stack := h'.stack.trans h.stack
  calls := Nat.le_trans h.calls h'.calls
  evolves := h.evolves.trans h'.evolves

theorem Kept.leaves {x : Action} {r : x.Reply} (h : w.Kept B) (hB : Vocabulary B) (hd : x.Due w)
    (hs : x.Speaks B w) (ht : x.track w.stack = w.stack) (hx : x.perform w = some (r, w')) : w.Leaves B w' where
  kept := h.next hB hd hs hx
  stack := (Action.stack_of_perform hx).trans ht
  calls := by
    rw [Action.calls_of_perform hx, List.length_append]
    exact Nat.le_add_right _ _
  evolves := Action.evolves_of_perform hx

theorem Kept.size_le (h : w.Kept B) (hU : ∀ name, B name → name ∈ U) : w.scope.size ≤ U.length := by
  have hsub : w.scope.names ⊆ U := fun name hn => hU name (h.speaks.2 name (Scope.mem_names.mp hn))
  rw [← Scope.length_names]
  exact (List.subperm_of_subset h.speaks.1.nodup_names hsub).length_le

theorem Kept.declaration_of_ge (h : w.Kept B) (hU : ∀ name, B name → name ∈ U) (hc : ¬ c.index < U.length) :
    w.scope.declaration c = .missing := by
  have hreg : ¬ w.scope.Registered c := fun hr => hc (Nat.lt_of_lt_of_le hr (h.size_le hU))
  simp [Scope.declaration, Scope.settled?, Scope.unregistered_get? hreg]

theorem Kept.calls_le (h : w.Kept B) (hU : ∀ name, B name → name ∈ U) : w.calls.length ≤ U.length :=
  Nat.le_trans (Scope.length_le_size h.called.nodup fun _ hc => h.called.registered h.attended hc) (h.size_le hU)

end Session

namespace Run

open Session

variable {load : Nat → ClassId → Run (Except LoadError Declaration)}

def Loads (B : FullName → Prop) (load : Nat → ClassId → Run (Except LoadError Declaration)) (k : Nat) : Prop :=
  ∀ w c, w.Kept B → k ≤ w.calls.length → w.scope.Registered c →
    Converges (fun n => load n c) w fun _ v => w.Leaves B v

theorem converges_neutral {x : Action} {r : x.Reply} (hw : w.Kept B) (hB : Vocabulary B) (hd : x.Due w)
    (hs : x.Speaks B w) (ht : x.track w.stack = w.stack) (hx : x.perform w = some (r, w')) :
    Converges (fun _ => act x) w fun _ v => w.Leaves B v :=
  converges_act hx (hw.leaves hB hd hs ht hx)

theorem converges_resolve (hB : Vocabulary B) (hload : Loads B load (k + 1)) (hw : w.Kept B)
    (hk : k ≤ w.calls.length) (c : ClassId) : Converges (fun n => resolve (load n) c) w
      fun _ v => w.Leaves B v ∧ v.scope.isUntouched c = false := by
  apply Converges.look
  by_cases hu : w.scope.isUntouched c = true
  · simp only [if_pos hu]
    obtain ⟨w₁, hcall⟩ : ∃ w₁, (Action.call c).perform w = some ((), w₁) := ⟨_, rfl⟩
    have hdue : (Action.call c).Due w := hu
    have hw₁ : w₁.Kept B := hw.next hB hdue trivial hcall
    have hcalls : w₁.calls = w.calls ++ [c] := Action.calls_of_perform hcall
    have hstack : w₁.stack = c :: w.stack := Action.stack_of_perform hcall
    have hc : w₁.scope.Registered c := (Action.evolves_of_perform hcall).registered (Scope.isUntouched_iff.mp hu).1
    apply (converges_act (Q := fun _ v => v = w₁) hcall rfl).bind
    rintro - _ rfl
    apply (hload _ c hw₁ (by simp [hcalls, hk]) hc).bind
    intro o w₂ hleaves
    obtain ⟨w₃, hfin⟩ : ∃ w₃, (Action.finish c o).perform w₂ = some ((), w₃) := ⟨_, rfl⟩
    have hdue : (Action.finish c o).Due w₂ := by simp [Action.Due, hleaves.stack, hstack]
    refine converges_act hfin ⟨⟨hleaves.kept.next hB hdue trivial hfin, ?_, ?_, ?_⟩, ?_⟩
    · rw [Action.stack_of_perform hfin, hleaves.stack, hstack]
      rfl
    · have hle := hleaves.calls
      rw [Action.calls_of_perform hfin, List.length_append]
      rw [hcalls, List.length_append] at hle
      omega
    · exact ((Action.evolves_of_perform hcall).trans hleaves.evolves).trans (Action.evolves_of_perform hfin)
    · rw [Action.scope_of_perform hfin]
      exact w₂.scope.isUntouched_endLoad c o
  · simp only [if_neg hu]
    exact converges_done ⟨hw.refl, by simpa using hu⟩

def room (K : Nat) (seen : List ClassId) : Nat := ((List.range K).filter fun i => ⟨i⟩ ∉ seen).length

theorem room_append {K : Nat} {seen new : List ClassId} (hn : new.Nodup) (hnew : ∀ c ∈ new, c ∉ seen) :
    room K (seen ++ new) + (new.filter fun c => c.index < K).length ≤ room K seen := by
  let old := (List.range K).filter fun i => ⟨i⟩ ∉ seen ++ new
  let late := (new.filter fun c => c.index < K).map ClassId.index
  have hinj : Function.Injective ClassId.index := fun _ _ h => ClassId.ext h
  have hlate : late.Nodup := (hn.filter _).map hinj
  have hdisjoint : ∀ i ∈ old, ∀ j ∈ late, i ≠ j := by
    rintro i hi j hj rfl
    obtain ⟨c, hc, rfl⟩ := List.mem_map.mp hj
    have hout := (List.mem_filter.mp hi).2
    simp [(List.mem_filter.mp hc).1] at hout
  have hnodup : (old ++ late).Nodup := List.nodup_append.mpr ⟨List.nodup_range.filter _, hlate, hdisjoint⟩
  have hsub : old ++ late ⊆ (List.range K).filter fun i => ⟨i⟩ ∉ seen := by
    intro i hi
    rw [List.mem_filter, decide_eq_true_eq, List.mem_range]
    obtain hi | hi := List.mem_append.mp hi
    · obtain ⟨hlt, hout⟩ := List.mem_filter.mp hi
      simp only [List.mem_append, not_or, decide_eq_true_eq] at hout
      exact ⟨List.mem_range.mp hlt, hout.1⟩
    · obtain ⟨c, hc, rfl⟩ := List.mem_map.mp hi
      obtain ⟨hc, hlt⟩ := List.mem_filter.mp hc
      exact ⟨of_decide_eq_true hlt, hnew c hc⟩
  have hle := (List.subperm_of_subset hnodup hsub).length_le
  rw [List.length_append, List.length_map] at hle
  exact hle

theorem room_cons {K : Nat} {seen : List ClassId} (hc : c.index < K) (hs : c ∉ seen) :
    room K (c :: seen) + 1 ≤ room K seen := by
  have h := room_append (K := K) (List.nodup_singleton c) (by simpa using hs)
  have heq : room K (seen ++ [c]) = room K (c :: seen) := by simp [room, and_comm]
  rw [heq] at h
  simpa [hc] using h

def pending (K : Nat) (queue seen : List ClassId) : Nat :=
  room K seen + (queue.filter fun c => c.index < K).length

theorem pending_cons {K : Nat} {queue seen : List ClassId} (hc : c.index < K) :
    pending K (c :: queue) seen = pending K queue seen + 1 := by
  simp [pending, hc, Nat.add_assoc]

theorem pending_unseen (K : Nat) (queue seen xs : List ClassId) :
    pending K (queue ++ unseen seen xs) (seen ++ unseen seen xs) ≤ pending K queue seen := by
  have h := room_append (K := K) (nodup_eraseDups (xs.filter (· ∉ seen))) fun c hc => (mem_unseen.mp hc).2
  unfold pending
  rw [List.filter_append, List.length_append]
  unfold unseen at h ⊢
  omega

theorem superChain_none (load : ClassId → Run (Except LoadError Declaration)) (n : Nat) (seen : List ClassId) :
    superChain load n seen none = .done seen.reverse := by
  cases n <;> rfl

theorem interfaceClosure_nil (load : ClassId → Run (Except LoadError Declaration)) (n : Nat)
    (seen out : List ClassId) : interfaceClosure load n [] seen out = .done out := by
  cases n <;> rfl

theorem climbs_nil (load : ClassId → Run (Except LoadError Declaration)) (target : ClassId) (n : Nat)
    (seen : List ClassId) : climbs load target n [] seen = .done false := by
  cases n <;> rfl

section Walks

variable (hB : Vocabulary B) (hU : ∀ name, B name → name ∈ U) (hload : Loads B load (k + 1))
include hB hU hload

theorem converges_superChain (m j : Nat) (hw : w.Kept B) (hk : k ≤ w.calls.length) {seen : List ClassId}
    (hm : room U.length seen < m) (next? : Option ClassId) :
    Converges (fun n => superChain (load n) (n - j) seen next?) w fun _ v => w.Leaves B v := by
  induction m generalizing j w seen next? with
  | zero => exact absurd hm (Nat.not_lt_zero _)
  | succ m ih =>
    cases next? with
    | none =>
      simp only [superChain_none]
      exact converges_done hw.refl
    | some c =>
      have hstep : ∀ n, j + 1 ≤ n → superChain (load n) (n - j) seen (some c) =
          superChain (load n) (n - (j + 1) + 1) seen (some c) := by
        intro n hn
        congr 1
        omega
      refine Converges.of_large ?_ (j + 1) hstep
      unfold superChain
      by_cases hc : c ∈ seen
      · simp only [if_pos hc]
        exact converges_done hw.refl
      · simp only [if_neg hc]
        apply (converges_resolve hB hload hw hk c).bind
        rintro - v ⟨hv, -⟩
        apply Converges.look
        by_cases hlt : c.index < U.length
        · have hroom : room U.length (c :: seen) < m := by
            have := room_cons hlt hc
            omega
          exact (ih (j + 1) hv.kept (Nat.le_trans hk hv.calls) hroom _).imp fun _ _ h => hv.trans h
        -- A class beyond all names declares nothing, so that the chain ends with it.
        · simp only [hv.kept.declaration_of_ge hU hlt, Declaration.missing, superChain_none]
          exact converges_done hv

-- Looking into a class that has a place below all names leaves one of these less to look into; looking into
-- any other class leaves a shorter queue.
theorem converges_interfaceClosure (m j : Nat) (hw : w.Kept B) (hk : k ≤ w.calls.length)
    {queue seen out : List ClassId} (hm : pending U.length queue seen < m) :
    Converges (fun n => interfaceClosure (load n) (n - j) queue seen out) w fun _ v => w.Leaves B v := by
  induction m generalizing j w queue seen out with
  | zero => exact absurd hm (Nat.not_lt_zero _)
  | succ m ihm =>
    induction queue generalizing j w with
    | nil =>
      simp only [interfaceClosure_nil]
      exact converges_done hw.refl
    | cons c queue ihq =>
      have hstep : ∀ n, j + 1 ≤ n → interfaceClosure (load n) (n - j) (c :: queue) seen out =
          interfaceClosure (load n) (n - (j + 1) + 1) (c :: queue) seen out := by
        intro n hn
        congr 1
        omega
      refine Converges.of_large ?_ (j + 1) hstep
      unfold interfaceClosure
      apply (converges_resolve hB hload hw hk c).bind
      rintro - v ⟨hv, -⟩
      apply Converges.look
      by_cases hlt : c.index < U.length
      · rw [pending_cons hlt] at hm
        have hle := pending_unseen U.length queue seen (v.scope.declaration c).interfaces
        have hless := Nat.lt_of_le_of_lt hle (Nat.lt_of_succ_lt_succ hm)
        exact (ihm (j + 1) hv.kept (Nat.le_trans hk hv.calls) hless).imp fun _ _ h => hv.trans h
      · have hnil : unseen seen [] = [] := rfl
        simp only [hv.kept.declaration_of_ge hU hlt, Declaration.missing, hnil, List.append_nil]
        apply (ihq (j + 1) hv.kept (Nat.le_trans hk hv.calls) _).imp fun _ _ h => hv.trans h
        simpa [pending, hlt] using hm

theorem converges_climbs (target : ClassId) (m j : Nat) (hw : w.Kept B) (hk : k ≤ w.calls.length)
    {queue seen : List ClassId} (hm : pending U.length queue seen < m) :
    Converges (fun n => climbs (load n) target (n - j) queue seen) w fun _ v => w.Leaves B v := by
  induction m generalizing j w queue seen with
  | zero => exact absurd hm (Nat.not_lt_zero _)
  | succ m ihm =>
    induction queue generalizing j w with
    | nil =>
      simp only [climbs_nil]
      exact converges_done hw.refl
    | cons c queue ihq =>
      have hstep : ∀ n, j + 1 ≤ n → climbs (load n) target (n - j) (c :: queue) seen =
          climbs (load n) target (n - (j + 1) + 1) (c :: queue) seen := by
        intro n hn
        congr 1
        omega
      refine Converges.of_large ?_ (j + 1) hstep
      unfold climbs
      apply (converges_resolve hB hload hw hk c).bind
      rintro - v ⟨hv, -⟩
      apply Converges.look
      by_cases hlt : c.index < U.length
      · rw [pending_cons hlt] at hm
        have hle := pending_unseen U.length queue seen (v.scope.declaration c).parents
        by_cases ht : target ∈ (v.scope.declaration c).parents
        · simp only [if_pos ht]
          exact converges_done hv
        · simp only [if_neg ht]
          have hless := Nat.lt_of_le_of_lt hle (Nat.lt_of_succ_lt_succ hm)
          exact (ihm (j + 1) hv.kept (Nat.le_trans hk hv.calls) hless).imp fun _ _ h => hv.trans h
      · have hnone : Declaration.missing.parents = [] := rfl
        have hnil : unseen seen [] = [] := rfl
        simp only [hv.kept.declaration_of_ge hU hlt, hnone, List.not_mem_nil, if_false, hnil, List.append_nil]
        apply (ihq (j + 1) hv.kept (Nat.le_trans hk hv.calls) _).imp fun _ _ h => hv.trans h
        simpa [pending, hlt] using hm

theorem converges_handle (hw : w.Kept B) (hk : k ≤ w.calls.length) {r : Request} (hr : r.Speaks B) :
    Converges (fun n => handle (load n) n r) w fun _ v => w.Leaves B v := by
  cases r with
  | register name =>
    obtain ⟨v, hx⟩ : ∃ v, (Action.register name).perform w = some ((w.scope.register name).1, v) := ⟨_, rfl⟩
    exact converges_neutral hw hB trivial hr rfl hx
  | inspect => exact converges_neutral hw hB (x := .look) trivial trivial rfl rfl
  | resolve c => exact (converges_resolve hB hload hw hk c).imp fun _ _ h => h.1
  | superChain c => exact converges_superChain hB hU hload _ 0 hw hk (Nat.lt_succ_self _) (some c)
  | interfaceClosure roots => exact converges_interfaceClosure hB hU hload _ 0 hw hk (Nat.lt_succ_self _)
  | climbs c target => exact converges_climbs hB hU hload target _ 0 hw hk (Nat.lt_succ_self _)
  | attach c d =>
    obtain ⟨o, v, hx⟩ : ∃ o v, (Action.attach c d).perform w = some (o, v) := by
      simp only [Action.perform]
      split <;> exact ⟨_, _, rfl⟩
    exact converges_neutral hw hB trivial trivial rfl hx
  | rebind c p =>
    apply (converges_resolve hB hload hw hk c).bind
    rintro - v ⟨hv, hu⟩
    obtain ⟨v', hx⟩ : ∃ v', (Action.rebind c p).perform v = some ((), v') := ⟨_, rfl⟩
    have hdue : (Action.rebind c p).Due v := hu
    exact (converges_neutral hv.kept hB hdue trivial rfl hx).imp fun _ _ h => hv.trans h
  | emit e => exact converges_neutral hw hB (x := .emit e) trivial trivial rfl rfl
  | note r => exact converges_neutral hw hB (x := .note r) trivial trivial rfl rfl

theorem converges_script {q : Script α} (hq : q.Speaks B) (hw : w.Kept B) (hk : k ≤ w.calls.length) :
    Converges (fun n => q.run (handle (load n) n)) w fun _ v => w.Leaves B v := by
  induction q generalizing w with
  | done a => exact converges_done hw.refl
  | ask r K ih =>
    obtain ⟨hr, hK⟩ := hq
    by_cases hi : r = .inspect
    · subst hi
      exact Converges.look (ih _ (hK _ hw.speaks.2) hw hk)
    · apply (converges_handle hB hU hload hw hk hr).bind
      intro x v hv
      have hx : r.Hears B x := by cases r <;> trivial
      exact (ih x (hK x hx) hv.kept (Nat.le_trans hk hv.calls)).imp fun _ _ h => hv.trans h

end Walks

end Run

namespace Loader

variable {L : Loader}

-- Down from as many calls as there are names: there it holds because no session has made more calls.
theorem loads (hB : Vocabulary B) (hU : ∀ name, B name → name ∈ U) (hL : L.Speaks B) (d : Nat)
    (hk : k + d = U.length + 1) : Run.Loads B L.call k := by
  induction d generalizing k with
  | zero =>
    intro w c hw hcalls
    have hle := hw.calls_le hU
    omega
  | succ d ih =>
    intro w c hw hcalls hc
    have hload : Run.Loads B L.call (k + 1) := ih (by omega)
    apply Run.Converges.succ
    apply Run.Converges.look
    exact Run.converges_script hB hU hload (hL c _ (hw.speaks.2.name hB c)) hw hcalls

theorem converges_perform (hB : Vocabulary B) (hU : ∀ name, B name → name ∈ U) (hL : L.Speaks B)
    (hw : w.Kept B) {q : Script α} (hq : q.Speaks B) :
    Run.Converges (fun n => L.perform n q) w fun _ v => w.Leaves B v :=
  Run.converges_script hB hU (loads hB hU hL U.length (Nat.add_comm 1 _)) hq hw (Nat.zero_le _)

end Loader

end ClassHierarchy
