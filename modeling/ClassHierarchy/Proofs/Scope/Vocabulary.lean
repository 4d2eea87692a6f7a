import ClassHierarchy.Proofs.Registry

namespace ClassHierarchy

namespace FullName

variable {name piece : FullName}

theorem infix_of_decode? {cs : List Char} (h : ArrayElement.decode? cs = some (.named piece)) :
    piece.toList <:+: cs := by
  revert h
  fun_cases ArrayElement.decode? cs <;> simp
  case case2 =>
    rintro rfl
    simp
  case case3 rest hrest =>
    rintro rfl
    simpa using (List.dropLast_prefix rest).isInfix.trans (List.suffix_cons 'L' rest).isInfix

theorem infix_of_element? (h : name.element? = some (.named piece)) : piece.toList <:+: name.toList := by
  unfold element? at h
  split at h
  next rest hname =>
    rw [hname]
    exact (infix_of_decode? h).trans (List.suffix_cons '[' rest).isInfix
  next => cases h

theorem infix_of_outer? (h : name.outer? = some piece) : piece.toList <:+: name.toList := by
  obtain ⟨⟨before, after⟩, hs, rfl⟩ := Option.map_eq_some_iff.mp h
  rw [(Text.eq_append_of_splitLast? hs).1]
  simpa using (List.prefix_append before _).isInfix

end FullName

/-- A set of names with the primitives, the blank that stands for a class that is not there, and the element
and the outer name of each of its names. -/
structure Vocabulary (B : FullName → Prop) : Prop where
  blank : B ""
  primitive : ∀ p : Primitive, B p.keyword
  element : ∀ {name inner}, B name → FullName.element? name = some (.named inner) → B inner
  outer : ∀ {name outer}, B name → FullName.outer? name = some outer → B outer

variable {B : FullName → Prop}

theorem Vocabulary.of_infix (hp : ∀ p : Primitive, B p.keyword)
    (hB : ∀ {name piece : FullName}, B name → piece.toList <:+: name.toList → B piece) : Vocabulary B where
  blank := hB (hp .void) List.nil_infix
  primitive := hp
  element h he := hB h (FullName.infix_of_element? he)
  outer h ho := hB h (FullName.infix_of_outer? ho)

theorem Vocabulary.elementChain (hB : Vocabulary B) {name e : FullName} (h : B name)
    (he : e ∈ name.elementChain) : B e := by
  induction hn : name.toList.length using Nat.strongRecOn generalizing name with
  | ind n ih =>
    by_cases hnamed : ∃ inner, name.element? = some (.named inner)
    · obtain ⟨inner, hi⟩ := hnamed
      rw [FullName.elementChain_of_named hi] at he
      rcases List.mem_cons.mp he with rfl | he
      · exact hB.element h hi
      · exact ih _ (hn ▸ FullName.length_lt_of_element? hi) (hB.element h hi) he rfl
    · rw [FullName.elementChain_of_not_named fun inner hi => hnamed ⟨inner, hi⟩] at he
      cases he

def Scope.Speaks (B : FullName → Prop) (s : Scope) : Prop := ∀ name, s.Knows name → B name

def Action.Speaks (B : FullName → Prop) : Action → Session → Prop
  | .register name, _ => B name
  | _, _ => True

namespace Scope

variable {s : Scope}

theorem Speaks.name (h : s.Speaks B) (hB : Vocabulary B) (c : ClassId) : B (s.name c) := by
  by_cases hc : s.Registered c
  · exact h _ ⟨c, hc, rfl⟩
  · rw [Scope.name, unregistered_get? hc]
    exact hB.blank

theorem speaks_new (hB : Vocabulary B) : Scope.new.Speaks B := by
  intro name hname
  obtain ⟨p, -, rfl⟩ := List.mem_map.mp (names_new ▸ mem_names.mpr hname)
  exact hB.primitive p

theorem Speaks.next {x : Action} {w : Session} (hB : Vocabulary B) (hn : w.scope.Named)
    (h : w.scope.Speaks B) (hx : x.Speaks B w) : (x.next w.scope).Speaks B := by
  intro name hname
  by_cases hr : ∃ n, x = .register n
  · obtain ⟨n, rfl⟩ := hr
    obtain ⟨-, -, -, hknown⟩ := register_named hn n
    obtain hold | rfl | he := hknown name hname
    · exact h name hold
    · exact hx
    · exact hB.elementChain hx he
  · have he : w.scope.Evolves (fun _ => True) (x.next w.scope) :=
      Action.evolves_next (fun _ _ _ => trivial) w.scope
    have hsize := Action.size_next (s := w.scope) fun n hn => hr ⟨n, hn⟩
    exact h name ((knows_of_evolves he hsize).mp hname)

end Scope

end ClassHierarchy
