import ClassHierarchy.Proofs.Scope.Entries

namespace ClassHierarchy

theorem ClassId.isPrimitive_iff {c : ClassId} : c.isPrimitive = true ↔ ∃ p, c = .ofPrimitive p := by
  constructor
  · intro h
    have hlt : c.index < Primitive.all.length := by simpa [isPrimitive] using h
    have hpos : ∀ i (hi : i < Primitive.all.length), Primitive.all[i].position = i := by decide
    exact ⟨Primitive.all[c.index], ClassId.ext (hpos c.index hlt).symm⟩
  · rintro ⟨p, rfl⟩
    cases p with
    | void => rfl
    | base b => cases b <;> rfl

namespace Scope

theorem get?_new_ofPrimitive (p : Primitive) :
    Scope.new.get? (.ofPrimitive p) = some (primitiveEntry p) := by
  simp [get?, Scope.new, ClassId.ofPrimitive, Primitive.all_getElem?_position]

theorem get?_new {c : ClassId} {e : Entry} (h : Scope.new.get? c = some e) :
    ∃ p, c = .ofPrimitive p ∧ e = primitiveEntry p := by
  have hc : c.isPrimitive = true := by
    have hlt : Scope.new.Registered c := .of_get? h
    simpa [Registered, size, Scope.new, ClassId.isPrimitive] using hlt
  obtain ⟨p, rfl⟩ := ClassId.isPrimitive_iff.mp hc
  rw [get?_new_ofPrimitive] at h
  exact ⟨p, rfl, (Option.some.inj h).symm⟩

theorem registered_new (p : Primitive) : Scope.new.Registered (.ofPrimitive p) :=
  .of_get? (get?_new_ofPrimitive p)

theorem settled_new (p : Primitive) : ∃ st, Scope.new.settled? (.ofPrimitive p) = some st := by
  rw [settled?, get?_new_ofPrimitive]
  exact ⟨_, rfl⟩

theorem isPrimitive_of_settled_new {c : ClassId} {st : Settled} (h : Scope.new.settled? c = some st) :
    c.isPrimitive = true := by
  obtain ⟨e, he, -⟩ := Option.bind_eq_some_iff.mp h
  obtain ⟨p, rfl, -⟩ := get?_new he
  exact ClassId.isPrimitive_iff.mpr ⟨p, rfl⟩

theorem isMissing_new (p : Primitive) : Scope.new.isMissing (.ofPrimitive p) = false := by
  rw [isMissing, settled?, get?_new_ofPrimitive]
  rfl

theorem declaration_new (p : Primitive) : Scope.new.declaration (.ofPrimitive p) =
    { flags := .publicBit ||| .finalBit ||| .abstractBit, framework := true } := by
  rw [declaration, settled?, get?_new_ofPrimitive]
  rfl

theorem mentions_new (c : ClassId) : (Scope.new.declaration c).mentions = [] := by
  unfold declaration settled?
  cases he : Scope.new.get? c with
  | none => rfl
  | some e =>
    obtain ⟨p, -, rfl⟩ := get?_new he
    rfl

end Scope

end ClassHierarchy
