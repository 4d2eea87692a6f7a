import ClassHierarchy.Proofs.Descriptor.Slicing

namespace ClassHierarchy

inductive IsFieldDescriptor : List Char → Prop
  | base {c : Char} : c ∈ ['B', 'C', 'D', 'F', 'I', 'J', 'S', 'Z'] → IsFieldDescriptor [c]
  | object {name : List Char} : name ≠ [] → ';' ∉ name → IsFieldDescriptor ('L' :: (name ++ [';']))
  | array {component : List Char} : IsFieldDescriptor component → IsFieldDescriptor ('[' :: component)

inductive IsMethodDescriptor : List Char → Prop
  | void {params : List (List Char)} : (∀ p ∈ params, IsFieldDescriptor p) →
    IsMethodDescriptor ('(' :: (params.flatten ++ [')', 'V']))
  | value {params : List (List Char)} {result : List Char} : (∀ p ∈ params, IsFieldDescriptor p) →
    IsFieldDescriptor result → IsMethodDescriptor ('(' :: (params.flatten ++ ')' :: result))

theorem FieldType.isFieldDescriptor_render {t : FieldType} (h : t.Spellable) : IsFieldDescriptor t.render := by
  induction t with
  | base b => exact .base (by cases b <;> decide)
  | object internal => exact .object h.1 h.2
  | array t ih => exact .array (ih h)

theorem IsFieldDescriptor.exists_render {cs : List Char} (h : IsFieldDescriptor cs) :
    ∃ t : FieldType, t.Spellable ∧ t.render = cs := by
  induction h with
  | @base c hc =>
    have hcode : ['B', 'C', 'D', 'F', 'I', 'J', 'S', 'Z'].all fun c => (BaseType.ofCode? c).isSome := by decide
    obtain ⟨b, hb⟩ := Option.isSome_iff_exists.mp (List.all_eq_true.mp hcode c hc)
    exact ⟨.base b, trivial, by rw [FieldType.render, BaseType.code_of_ofCode? hb]⟩
  | @object name hne hsemi =>
    exact ⟨.object (String.ofList name), by simpa [FieldType.Spellable] using ⟨hne, hsemi⟩, by simp [FieldType.render]⟩
  | array _ ih =>
    obtain ⟨t, ht, rfl⟩ := ih
    exact ⟨.array t, ht, rfl⟩

theorem isFieldDescriptor_iff {cs : List Char} :
    IsFieldDescriptor cs ↔ ∃ t : FieldType, t.Spellable ∧ t.render = cs := by
  refine ⟨IsFieldDescriptor.exists_render, ?_⟩
  rintro ⟨t, ht, rfl⟩
  exact t.isFieldDescriptor_render ht

theorem exists_params {ps : List (List Char)} (h : ∀ p ∈ ps, IsFieldDescriptor p) :
    ∃ ts : List FieldType, (∀ t ∈ ts, t.Spellable) ∧ ts.flatMap FieldType.render = ps.flatten := by
  induction ps with
  | nil => exact ⟨[], nofun, rfl⟩
  | cons p ps ih =>
    obtain ⟨hp, hps⟩ := List.forall_mem_cons.mp h
    obtain ⟨t, ht, rfl⟩ := hp.exists_render
    obtain ⟨ts, hts, hflat⟩ := ih hps
    exact ⟨t :: ts, List.forall_mem_cons.mpr ⟨ht, hts⟩, by simp [hflat]⟩

theorem isFieldDescriptor_params {ts : List FieldType} (h : ∀ t ∈ ts, t.Spellable) :
    ∀ p ∈ ts.map FieldType.render, IsFieldDescriptor p := by
  intro p hp
  obtain ⟨t, ht, rfl⟩ := List.mem_map.mp hp
  exact t.isFieldDescriptor_render (h t ht)

theorem MethodDescriptor.isMethodDescriptor_render {d : MethodDescriptor} (h : d.Spellable) :
    IsMethodDescriptor d.render := by
  have hparams := isFieldDescriptor_params h.params
  obtain ⟨ts, r⟩ := d
  rw [render, List.flatMap_def]
  cases r with
  | void => exact .void hparams
  | value t => exact .value hparams (t.isFieldDescriptor_render h.returns)

theorem isMethodDescriptor_iff {cs : List Char} :
    IsMethodDescriptor cs ↔ ∃ d : MethodDescriptor, d.Spellable ∧ d.render = cs := by
  constructor
  · intro h
    cases h with
    | void hps =>
      obtain ⟨ts, hts, hflat⟩ := exists_params hps
      exact ⟨⟨ts, .void⟩, ⟨hts, trivial⟩, by simp [MethodDescriptor.render, ReturnType.render, hflat]⟩
    | value hps hr =>
      obtain ⟨ts, hts, hflat⟩ := exists_params hps
      obtain ⟨t, ht, rfl⟩ := hr.exists_render
      exact ⟨⟨ts, .value t⟩, ⟨hts, ht⟩, by simp [MethodDescriptor.render, ReturnType.render, hflat]⟩
  · rintro ⟨d, hd, rfl⟩
    exact d.isMethodDescriptor_render hd

/-- `read` accepts the texts of the grammar `G` and no others, and of each it makes the tree that the text
is written from. -/
structure Decodes {α : Type} (read : String → Except InvalidDescriptor α) (G : List Char → Prop)
    (Spellable : α → Prop) (render : α → List Char) : Prop where
  accepts : ∀ text, (∃ a, read text = .ok a) ↔ G text.toList
  exact_tree : ∀ text a, read text = .ok a ↔ Spellable a ∧ render a = text.toList
  rereads : ∀ a, Spellable a → read (String.ofList (render a)) = .ok a
  unique : ∀ text text' a, read text = .ok a → read text' = .ok a → text = text'

theorem Decodes.of_render {α : Type} {read : String → Except InvalidDescriptor α} {G : List Char → Prop}
    {Spellable : α → Prop} {render : α → List Char} (hG : ∀ cs, G cs ↔ ∃ a, Spellable a ∧ render a = cs)
    (hread : ∀ text a, read text = .ok a ↔ Spellable a ∧ render a = text.toList) :
    Decodes read G Spellable render where
  accepts text := by simp only [hG, hread]
  exact_tree := hread
  rereads a ha := (hread _ a).mpr ⟨ha, String.toList_ofList.symm⟩
  unique text text' a h h' := by
    obtain ⟨-, htext⟩ := (hread text a).mp h
    obtain ⟨-, htext'⟩ := (hread text' a).mp h'
    exact String.toList_inj.mp (htext.symm.trans htext')

theorem descriptors_decode :
    Decodes FieldType.ofDescriptor IsFieldDescriptor FieldType.Spellable FieldType.render ∧
    Decodes MethodDescriptor.ofDescriptor IsMethodDescriptor MethodDescriptor.Spellable
      MethodDescriptor.render ∧
    ∀ cs, FieldType.readBytes cs = some (FieldType.read cs) := by
  refine ⟨?_, ?_, FieldType.readBytes_eq⟩
  · exact .of_render (fun cs => isFieldDescriptor_iff) fun text t => FieldType.ofDescriptor_eq_ok_iff
  · exact .of_render (fun cs => isMethodDescriptor_iff) fun text d => MethodDescriptor.ofDescriptor_eq_ok_iff

example : MethodDescriptor.ofDescriptor "([Lé[(;I)V" =
    .ok ⟨[.array (.object "é[("), .base .int], .void⟩ := by decide +kernel

end ClassHierarchy
