import ClassHierarchy.Proofs.Scope.Vocabulary

namespace ClassHierarchy

namespace FullName

inductive WellFormed : FullName → Prop
  | plain {name : FullName} : name.isArray = false → WellFormed name
  | ofPrimitive {name : FullName} {p : Primitive} : name.element? = some (.primitive p) → WellFormed name
  | ofNamed {name inner : FullName} : name.element? = some (.named inner) → WellFormed inner → WellFormed name

variable {name e outer : FullName}

theorem wellFormed_iff :
    name.WellFormed ↔ ∀ e ∈ name :: name.elementChain, e.isArray = true → e.element?.isSome = true := by
  constructor
  · intro h
    induction h with
    | @plain name ha =>
      have hnil : name.elementChain = [] := elementChain_of_not_named fun inner he => by
        simp [isArray_of_element? he] at ha
      simp [hnil, ha]
    | @ofPrimitive name p he =>
      have hnil : name.elementChain = [] := elementChain_of_not_named fun inner hi => by simp [he] at hi
      simp [hnil, he]
    | @ofNamed name inner he _ ih =>
      rw [elementChain_of_named he]
      exact List.forall_mem_cons.mpr ⟨fun _ => by simp [he], ih⟩
  · intro h
    induction hn : name.toList.length using Nat.strongRecOn generalizing name with
    | ind n ih =>
      obtain ⟨hname, hchain⟩ := List.forall_mem_cons.mp h
      cases ha : name.isArray with
      | false => exact .plain ha
      | true =>
        obtain ⟨x, hx⟩ := Option.isSome_iff_exists.mp (hname ha)
        cases x with
        | primitive p => exact .ofPrimitive hx
        | named inner =>
          rw [elementChain_of_named hx] at hchain
          exact .ofNamed hx (ih _ (hn ▸ length_lt_of_element? hx) hchain rfl)

instance (name : FullName) : Decidable name.WellFormed := decidable_of_iff' _ wellFormed_iff

theorem WellFormed.element? (h : name.WellFormed) (ha : name.isArray = true) : name.element?.isSome = true :=
  wellFormed_iff.mp h name List.mem_cons_self ha

theorem WellFormed.of_mem_elementChain (h : name.WellFormed) (he : e ∈ name.elementChain) : e.WellFormed := by
  rw [wellFormed_iff] at h ⊢
  intro x hx
  apply h x
  rcases List.mem_cons.mp hx with rfl | hx
  · exact List.mem_cons_of_mem _ he
  · exact List.mem_cons_of_mem _ (elementChain_trans he hx)

theorem wellFormed_of_outer? (ha : name.isArray = false) (ho : name.outer? = some outer) : outer.WellFormed := by
  obtain ⟨⟨before, after⟩, hs, rfl⟩ := Option.map_eq_some_iff.mp ho
  have hname := (Text.eq_append_of_splitLast? hs).1
  -- A name that begins with `$` has the empty name for outer name.
  apply WellFormed.plain
  cases before with
  | nil => rfl
  | cons c cs => simpa [isArray, hname] using ha

end FullName

def Event.BlamesElement (e : Event) : Prop := e.message = "unknown array element type"

theorem Event.blamesElement_iff {e : Event} : e.BlamesElement ↔
    ∃ name, e = .malformedArrayRegistered name ∨ e = .malformedArrayQueried name := by
  cases e <;> simp [BlamesElement, message]

namespace Scope

variable {s : Scope} {c : ClassId} {name : FullName} {e : Event}

theorem event_of_register (h : name.WellFormed) : (s.register name).2.1 = none := by
  cases hf : s.find? name with
  | some c => rw [register_of_find? hf]
  | none =>
    obtain ⟨last, hlast, hevent⟩ : ∃ last ∈ name :: s.fresh name, (s.register name).2.1 =
        if last.isArray && last.element?.isNone then some (.malformedArrayRegistered last) else none := by
      unfold register
      rw [hf]
      exact ⟨_, List.getLast_mem _, rfl⟩
    have hwf : last.WellFormed := by
      rcases List.mem_cons.mp hlast with rfl | hm
      · exact h
      · exact h.of_mem_elementChain (mem_elementChain_of_fresh hm)
    rw [hevent, if_neg]
    cases ha : last.isArray with
    | false => simp
    | true => simpa [Option.isSome_iff_ne_none] using hwf.element? ha

theorem wellFormed_name (h : s.Speaks FullName.WellFormed) (c : ClassId) : (s.name c).WellFormed := by
  by_cases hc : s.Registered c
  · exact h _ ⟨c, hc, rfl⟩
  · rw [Scope.name, unregistered_get? hc]
    exact .plain rfl

theorem not_blamesElement_of_endLoad {outcome : Except LoadError Declaration}
    (he : e ∈ (s.endLoad c outcome).1) : ¬ e.BlamesElement := by
  have hcomplaints (o : Except LoadError Declaration) : ∀ e ∈ complaints o, ¬ e.BlamesElement := by
    cases o with
    | ok d => exact nofun
    | error e => cases e <;> simp [complaints, Event.ofLoadError, Event.blamesElement_iff]
  unfold endLoad at he
  dsimp only at he
  split at he
  · exact hcomplaints _ e he
  · rcases List.mem_append.mp he with he | he
    · exact hcomplaints _ e he
    · obtain rfl := List.mem_singleton.mp he
      simp [Event.blamesElement_iff]

end Scope

structure Session.WellNamed (w : Session) : Prop where
  named : w.scope.Named
  names : w.scope.Speaks FullName.WellFormed
  trace : ∀ e, .event e ∈ w.trace.toList → ¬ e.BlamesElement

def Action.WellNamed : Action → Prop
  | .register name => name.WellFormed
  | .emit e => ¬ e.BlamesElement
  | _ => True

namespace Session

variable {w w' : Session} {x : Action} {r : x.Reply}

theorem wellNamed_new : Session.new.WellNamed where
  named := Scope.named_new
  names name hname := by
    have hall : ∀ p ∈ Primitive.all, FullName.isArray p.keyword = false := by decide
    obtain ⟨p, hp, rfl⟩ := List.mem_map.mp (Scope.names_new ▸ Scope.mem_names.mpr hname)
    exact .plain (hall p hp)
  trace := nofun

theorem WellNamed.names_next (h : w.WellNamed) (hx : x.WellNamed) {name : FullName}
    (hname : (x.next w.scope).Knows name) : name.WellFormed := by
  by_cases hr : ∃ n, x = .register n
  · obtain ⟨n, rfl⟩ := hr
    obtain ⟨-, -, -, hknown⟩ := Scope.register_named h.named n
    obtain hold | rfl | he := hknown name hname
    · exact h.names name hold
    · exact hx
    · exact FullName.WellFormed.of_mem_elementChain hx he
  · have he : w.scope.Evolves (fun _ => True) (x.next w.scope) :=
      Action.evolves_next (fun _ _ _ => trivial) w.scope
    have hsize := Action.size_next (s := w.scope) fun n hn => hr ⟨n, hn⟩
    exact h.names name ((Scope.knows_of_evolves he hsize).mp hname)

theorem not_blamesElement_of_adds (hx : x.WellNamed) {s : Scope} {e : Event} (he : .event e ∈ x.adds s) :
    ¬ e.BlamesElement := by
  cases x with
  | register name =>
    rw [Action.adds, Scope.event_of_register hx] at he
    cases he
  | rebind c p =>
    obtain ⟨-, rfl⟩ : s.isMissing c = true ∧ e = .missingRebound (s.name c) := by
      simpa [Action.adds] using he
    simp [Event.blamesElement_iff]
  | finish c outcome =>
    have hended : e ∈ (s.endLoad c outcome).1 := by simpa [Action.adds] using he
    exact Scope.not_blamesElement_of_endLoad hended
  | emit e' =>
    obtain rfl := Occurrence.event.inj (List.mem_singleton.mp he)
    exact hx
  | look | attach c d | call c | note m | giveUp => simp [Action.adds] at he

theorem WellNamed.perform (h : w.WellNamed) (hx : x.WellNamed) (hp : x.perform w = some (r, w')) :
    w'.WellNamed := by
  obtain ⟨hscope, htrace⟩ := Action.perform_eq hp
  refine ⟨hscope ▸ h.named.next x, fun name hname => h.names_next hx (hscope ▸ hname), fun e he => ?_⟩
  rw [htrace] at he
  rcases List.mem_append.mp he with he | he
  · exact h.trace e he
  · exact not_blamesElement_of_adds hx he

end Session

end ClassHierarchy
