import ClassHierarchy.Proofs.Descriptor.Reading
import ClassHierarchy.Proofs.Registry

namespace ClassHierarchy

structure IsInternalName (name : List Char) : Prop where
  nonempty : name ≠ []
  undotted : '.' ∉ name
  unclosed : ';' ∉ name
  unbracketed : '[' ∉ name

def FieldType.Legal : FieldType → Prop
  | .base _ => True
  | .object internal => IsInternalName internal.toList
  | .array t => t.Legal

theorem slashed_dotted {cs : List Char} (h : '.' ∉ cs) :
    (dotted cs).map (fun c => if c = '.' then '/' else c) = cs := by
  rw [dotted, List.map_map]
  conv_rhs => rw [← List.map_id cs]
  apply List.map_congr_left
  intro c hc
  have hdot : c ≠ '.' := fun he => h (he ▸ hc)
  by_cases hslash : c = '/' <;> simp [hslash, hdot]

theorem dotted_inj {xs ys : List Char} (hx : '.' ∉ xs) (hy : '.' ∉ ys) (h : dotted xs = dotted ys) : xs = ys := by
  rw [← slashed_dotted hx, h, slashed_dotted hy]

theorem dotted_of_unslashed {cs : List Char} (h : '/' ∉ cs) : dotted cs = cs := by
  conv_rhs => rw [← List.map_id cs]
  apply List.map_congr_left
  intro c hc
  have hslash : c ≠ '/' := fun he => h (he ▸ hc)
  rw [if_neg hslash, id]

theorem bracket_not_mem_dotted {cs : List Char} (h : '[' ∉ cs) : '[' ∉ dotted cs := by
  intro hmem
  obtain ⟨c, hc, heq⟩ := List.mem_map.mp hmem
  split at heq
  · cases heq
  · exact h (heq ▸ hc)

namespace BaseType

theorem keyword_inj {b c : BaseType} (h : b.keyword = c.keyword) : b = c := by
  revert h
  cases b <;> cases c <;> decide

theorem code_inj {b c : BaseType} (h : b.code = c.code) : b = c := by
  have hb := ofCode?_code b
  rw [h, ofCode?_code] at hb
  exact (Option.some.inj hb).symm

end BaseType

namespace Primitive

theorem isInternalName_keyword (p : Primitive) : IsInternalName p.keyword.toList := by
  cases p with
  | void => constructor <;> decide
  | base b => cases b <;> constructor <;> decide

theorem slash_not_mem_keyword (p : Primitive) : '/' ∉ p.keyword.toList := by
  cases p with
  | void => decide
  | base b => cases b <;> decide

end Primitive

namespace FieldType

variable {t u : FieldType} {internal : String}

theorem component_inj (ht : t.Legal) (hu : u.Legal) (h : t.component = u.component) : t = u := by
  induction t generalizing u with
  | base b =>
    cases u with
    | base c => rw [BaseType.code_inj (List.cons.inj h).1]
    | object internal => simp [component] at h
    | array u => cases b <;> simp [component, BaseType.code] at h
  | object internal =>
    cases u with
    | base c => simp [component] at h
    | object internal' =>
      have hdotted : dotted internal.toList = dotted internal'.toList := by simpa [component] using h
      rw [String.toList_inj.mp (dotted_inj ht.undotted hu.undotted hdotted)]
    | array u => simp [component] at h
  | array t ih =>
    cases u with
    | base c => cases c <;> simp [component, BaseType.code] at h
    | object internal => simp [component] at h
    | array u => exact congrArg array (ih ht hu (List.cons.inj h).2)

theorem isArray_of_unbracketed {name : FullName} (h : '[' ∉ name.toList) : name.isArray = false := by
  by_contra harray
  have hhead : name.toList.head? = some '[' := by simpa [FullName.isArray] using harray
  exact h (List.mem_of_head? hhead)

theorem fullName_array_inj (ht : (array t).Legal) (hu : u.Legal) (h : (array t).fullName = u.fullName) :
    array t = u := by
  have harray : (array t).fullName.isArray = true := by simp [fullName, FullName.isArray]
  cases u with
  | base b =>
    have hname : '[' ∉ (base b).fullName.toList := (Primitive.base b).isInternalName_keyword.unbracketed
    rw [h, isArray_of_unbracketed hname] at harray
    cases harray
  | object internal =>
    have hname : '[' ∉ (object internal).fullName.toList := by
      simpa [fullName, FullName.ofInternal] using bracket_not_mem_dotted hu.unbracketed
    rw [h, isArray_of_unbracketed hname] at harray
    cases harray
  | array u =>
    have hcomponent : t.component = u.component := by simpa [fullName, String.ofList_inj] using h
    exact congrArg array (component_inj ht hu hcomponent)

theorem fullName_object_eq_keyword_iff (ht : (object internal).Legal) (p : Primitive) :
    (object internal).fullName = p.keyword ↔ internal = p.keyword := by
  have hkeyword : dotted p.keyword.toList = p.keyword.toList := dotted_of_unslashed p.slash_not_mem_keyword
  rw [fullName, FullName.ofInternal, ← String.toList_inj, ← String.toList_inj, String.toList_ofList]
  constructor
  · intro h
    rw [← hkeyword] at h
    exact dotted_inj ht.undotted p.isInternalName_keyword.undotted h
  · intro h
    rw [h, hkeyword]

theorem fullName_eq_iff (ht : t.Legal) (hu : u.Legal) : t.fullName = u.fullName ↔
    t = u ∨ (∃ b, t = .base b ∧ u = .object b.keyword) ∨ ∃ b, t = .object b.keyword ∧ u = .base b := by
  constructor
  · intro h
    cases t with
    | array t => exact .inl (fullName_array_inj ht hu h)
    | base b =>
      cases u with
      | array u => exact .inl (fullName_array_inj hu ht h.symm).symm
      | base c => exact .inl (by rw [BaseType.keyword_inj h])
      | object internal =>
        obtain rfl := (fullName_object_eq_keyword_iff hu (.base b)).mp h.symm
        exact .inr (.inl ⟨b, rfl, rfl⟩)
    | object internal =>
      cases u with
      | array u => exact .inl (fullName_array_inj hu ht h.symm).symm
      | base c =>
        obtain rfl := (fullName_object_eq_keyword_iff ht (.base c)).mp h
        exact .inr (.inr ⟨c, rfl, rfl⟩)
      | object internal' =>
        have hdotted : dotted internal.toList = dotted internal'.toList := by
          simpa [fullName, FullName.ofInternal, String.ofList_inj] using h
        exact .inl (by rw [String.toList_inj.mp (dotted_inj ht.undotted hu.undotted hdotted)])
  · rintro (rfl | ⟨b, rfl, rfl⟩ | ⟨b, rfl, rfl⟩)
    · rfl
    · exact ((fullName_object_eq_keyword_iff hu (.base b)).mpr rfl).symm
    · exact (fullName_object_eq_keyword_iff ht (.base b)).mpr rfl

theorem fullName_eq_void_iff (ht : t.Legal) :
    t.fullName = Primitive.void.keyword ↔ t = .object Primitive.void.keyword := by
  cases t with
  | base b => cases b <;> decide
  | object internal => simp [fullName_object_eq_keyword_iff ht]
  | array t =>
    have hvoid : (object Primitive.void.keyword).Legal := Primitive.void.isInternalName_keyword
    have hname := (fullName_object_eq_keyword_iff hvoid .void).mpr rfl
    -- An array would share its full name with the class that is named so.
    refine iff_of_false (fun h => ?_) nofun
    cases fullName_array_inj ht hvoid (h.trans hname.symm)

end FieldType

open Run (anything)

theorem Loader.register_ne (L : Loader) {w : Session} (hn : w.scope.Named) {name name' : FullName}
    (hne : name ≠ name') : ∃ c v, (∀ n, (L.perform n (Script.register name)).Ends anything w c v) ∧
      ∀ u, L.Continues anything v u → ∃ d u', (∀ n, (L.perform n (Script.register name')).Ends anything u d u') ∧
        c ≠ d := by
  obtain ⟨v, hreg, hv⟩ := Loader.ends_register L 0 w name
  obtain ⟨hvn, hc, hname, -⟩ := Scope.register_named hn name
  rw [← hv] at hvn hc hname
  refine ⟨_, v, fun _ => hreg.mono fun _ _ _ => trivial, ?_⟩
  rintro u ⟨_, _, _, _, hu⟩
  obtain ⟨u', hreg', hu'⟩ := Loader.ends_register L 0 u name'
  obtain ⟨-, -, hname', -⟩ := Scope.register_named (Loader.named_of_leads hvn hu) name'
  rw [← hu'] at hname'
  refine ⟨_, u', fun _ => hreg'.mono fun _ _ _ => trivial, fun heq => hne ?_⟩
  have hkept := (hu.evolves_any.trans hreg'.evolves_any).name hc
  rw [← hname, ← hname', ← heq, hkept]

theorem full_names_distinguish {t u : FieldType} (ht : t.Legal) (hu : u.Legal) :
    (t.fullName = u.fullName ↔
      t = u ∨ (∃ b, t = .base b ∧ u = .object b.keyword) ∨ ∃ b, t = .object b.keyword ∧ u = .base b) ∧
    (ReturnType.void.fullName = (ReturnType.value t).fullName ↔ t = .object "void") ∧
    ∀ text text', FieldType.ofDescriptor text = .ok t → FieldType.ofDescriptor text' = .ok u → text ≠ text' →
      0 < t.dimensions ∨ (∀ p : Primitive, t.fullName ≠ p.keyword) →
      ∀ (L : Loader) (w : Session), L.Reaches anything w →
        ∃ c v, (∀ n, (L.perform n (Script.register t.fullName)).Ends anything w c v) ∧
          ∀ v', L.Continues anything v v' →
            ∃ d v'', (∀ n, (L.perform n (Script.register u.fullName)).Ends anything v' d v'') ∧ c ≠ d := by
  refine ⟨FieldType.fullName_eq_iff ht hu, ?_, ?_⟩
  · rw [eq_comm]
    exact FieldType.fullName_eq_void_iff ht
  · rintro text text' hread hread' hne hkeyword L w ⟨_, _, _, _, hw⟩
    obtain ⟨-, htext⟩ := FieldType.ofDescriptor_eq_ok_iff.mp hread
    obtain ⟨-, htext'⟩ := FieldType.ofDescriptor_eq_ok_iff.mp hread'
    apply L.register_ne (Loader.named_of_leads Scope.named_new hw)
    intro hname
    obtain rfl | ⟨b, rfl, -⟩ | ⟨b, rfl, rfl⟩ := (FieldType.fullName_eq_iff ht hu).mp hname
    · exact hne (String.toList_inj.mp (htext.symm.trans htext'))
    · exact (hkeyword.resolve_left (Nat.lt_irrefl 0)) (.base b) rfl
    · exact (hkeyword.resolve_left (Nat.lt_irrefl 0)) (.base b) hname

theorem full_names_distinguish_arrays_of_int : ∃ t u,
    FieldType.ofDescriptor "[Lint;" = .ok t ∧ FieldType.ofDescriptor "[I" = .ok u ∧ t.Legal ∧ u.Legal ∧
    t.innermost.fullName = u.innermost.fullName ∧ t.fullName ≠ u.fullName ∧ 0 < t.dimensions ∧
    Loader.notFound.Reaches anything .new ∧
    ∃ c v, (∀ n, (Loader.notFound.perform n (Script.register t.fullName)).Ends anything .new c v) ∧
      ∀ v', Loader.notFound.Continues anything v v' →
        ∃ d v'', (∀ n, (Loader.notFound.perform n (Script.register u.fullName)).Ends anything v' d v'') ∧ c ≠ d := by
  have ht : FieldType.ofDescriptor "[Lint;" = .ok (.array (.object "int")) := by decide +kernel
  have hu : FieldType.ofDescriptor "[I" = .ok (.array (.base .int)) := by decide +kernel
  have hlegal : (FieldType.array (.object "int")).Legal := (Primitive.base .int).isInternalName_keyword
  have hw : Loader.notFound.Reaches anything .new := ⟨Unit, .done (), 0, .done (), .refl _ _⟩
  obtain ⟨hiff, -, hdiffer⟩ :=
    full_names_distinguish (t := .array (.object "int")) (u := .array (.base .int)) hlegal trivial
  refine ⟨_, _, ht, hu, hlegal, trivial, rfl, fun h => ?_, Nat.zero_lt_one, hw, ?_⟩
  · obtain h | ⟨b, h, -⟩ | ⟨b, h, -⟩ := hiff.mp h <;> cases h
  · exact hdiffer _ _ ht hu (by decide) (.inl Nat.zero_lt_one) _ _ hw

end ClassHierarchy
