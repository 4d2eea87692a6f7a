import ClassHierarchy.Proofs.Descriptors

namespace ClassHierarchy

def OpensWithType (cs : List Char) : Prop := ∃ p rest, IsFieldDescriptor p ∧ cs = p ++ rest

def unbracketed (cs : List Char) : List Char := cs.dropWhile (· == '[')

/-- Of a text that is no field descriptor, what the refusal holds. -/
inductive FieldFault : List Char → List Char → Prop
  | overlong {p extra : List Char} : IsFieldDescriptor p → extra ≠ [] → FieldFault (p ++ extra) (p ++ extra)
  | untyped {cs : List Char} : ¬ OpensWithType cs → FieldFault cs (unbracketed cs)

def IsParams (cs : List Char) : Prop := ∃ ps : List (List Char), (∀ p ∈ ps, IsFieldDescriptor p) ∧ ps.flatten = cs

inductive IsReturnDescriptor : List Char → Prop
  | void : IsReturnDescriptor ['V']
  | value {cs : List Char} : IsFieldDescriptor cs → IsReturnDescriptor cs

inductive IsMisshapen : List Char → Prop
  | unopened {cs : List Char} : cs.head? ≠ some '(' → IsMisshapen cs
  | unclosed {params : List Char} : IsParams params → IsMisshapen ('(' :: params)
  | unreturning {params : List Char} : IsParams params → IsMisshapen ('(' :: (params ++ [')']))
  | overlong {params result extra : List Char} : IsParams params → IsReturnDescriptor result → extra ≠ [] →
    IsMisshapen ('(' :: (params ++ ')' :: (result ++ extra)))

inductive MethodFault : List Char → List Char → Prop
  | misshapen {cs : List Char} : IsMisshapen cs → MethodFault cs cs
  | untypedParam {params rest : List Char} : IsParams params → rest ≠ [] → rest.head? ≠ some ')' →
    ¬ OpensWithType rest → MethodFault ('(' :: (params ++ rest)) (unbracketed rest)
  | untypedReturn {params rest : List Char} : IsParams params → rest ≠ [] → rest.head? ≠ some 'V' →
    ¬ OpensWithType rest → MethodFault ('(' :: (params ++ ')' :: rest)) (unbracketed rest)

theorem unbracketed_suffix (cs : List Char) : unbracketed cs <:+ cs := List.dropWhile_suffix _

theorem FieldFault.suffix {cs part : List Char} (h : FieldFault cs part) : part <:+ cs := by
  cases h with
  | overlong => exact List.suffix_rfl
  | untyped => exact unbracketed_suffix cs

theorem MethodFault.suffix {cs part : List Char} (h : MethodFault cs part) : part <:+ cs := by
  cases h with
  | misshapen => exact List.suffix_rfl
  | @untypedParam params rest =>
    exact (unbracketed_suffix rest).trans (List.suffix_append ('(' :: params) rest)
  | @untypedReturn params rest =>
    have hrest : rest <:+ '(' :: (params ++ ')' :: rest) := ⟨'(' :: (params ++ [')']), by simp⟩
    exact (unbracketed_suffix rest).trans hrest

theorem isParams_iff {cs : List Char} :
    IsParams cs ↔ ∃ ts : List FieldType, (∀ t ∈ ts, t.Spellable) ∧ ts.flatMap FieldType.render = cs := by
  constructor
  · rintro ⟨ps, hps, rfl⟩
    exact exists_params hps
  · rintro ⟨ts, hts, rfl⟩
    exact ⟨ts.map FieldType.render, isFieldDescriptor_params hts, (List.flatMap_def ..).symm⟩

theorem isMethodDescriptor_of_params {params result : List Char} (hparams : IsParams params)
    (hresult : IsReturnDescriptor result) : IsMethodDescriptor ('(' :: (params ++ ')' :: result)) := by
  obtain ⟨ps, hps, rfl⟩ := hparams
  cases hresult with
  | void => exact .void hps
  | value h => exact .value hps h

namespace FieldType

variable {cs part rest : List Char}

theorem opensWithType_iff : OpensWithType cs ↔ ∃ t rest, read cs = .ok (t, rest) := by
  simp only [OpensWithType, isFieldDescriptor_iff, read_eq_ok_iff]
  constructor
  · rintro ⟨_, rest, ⟨t, ht, rfl⟩, rfl⟩
    exact ⟨t, rest, ht, rfl⟩
  · rintro ⟨t, rest, ht, rfl⟩
    exact ⟨_, rest, ⟨t, ht, rfl⟩, rfl⟩

theorem eq_unbracketed_of_read (h : read cs = .error part) : part = unbracketed cs := by
  fun_induction read cs with
  | case1 => exact (Except.error.inj h).symm
  | case2 rest ih =>
    cases hr : read rest with
    | ok p => simp [hr, Except.map] at h
    | error e =>
      obtain rfl : e = part := by simpa [hr, Except.map] using h
      rw [ih hr]
      rfl
  | case3 => cases h
  | case4 rest =>
    obtain rfl := Except.error.inj h
    rfl
  | case5 => cases h
  | case6 c rest hne =>
    obtain rfl := Except.error.inj h
    simp_all [unbracketed]

theorem read_eq_error_iff : read cs = .error part ↔ ¬ OpensWithType cs ∧ part = unbracketed cs := by
  rw [opensWithType_iff]
  cases hr : read cs with
  | ok p => exact iff_of_false nofun fun h => h.1 ⟨p.1, p.2, rfl⟩
  | error e =>
    obtain rfl := eq_unbracketed_of_read hr
    simp [eq_comm]

theorem ofDescriptor_eq_error_iff {text : String} {e : InvalidDescriptor} :
    ofDescriptor text = .error e ↔ FieldFault text.toList e.text.toList := by
  constructor
  · intro h
    unfold ofDescriptor at h
    split at h
    next => cases h
    next p hne hread =>
      obtain rfl := Except.error.inj h
      obtain ⟨t, rest⟩ := p
      obtain ⟨ht, htext⟩ := read_eq_ok_iff.mp hread
      have hrest : rest ≠ [] := by
        rintro rfl
        exact hne t rfl
      rw [htext]
      exact .overlong (isFieldDescriptor_render ht) hrest
    next part hread =>
      obtain rfl := Except.error.inj h
      obtain ⟨hopens, rfl⟩ := read_eq_error_iff.mp hread
      rw [String.toList_ofList]
      exact .untyped hopens
  · obtain ⟨part⟩ := e
    intro h
    generalize hcs : text.toList = cs at h
    generalize hpart : part.toList = cs' at h
    cases h with
    | @overlong p extra hp hextra =>
      obtain rfl : text = part := String.toList_inj.mp (hcs.trans hpart.symm)
      obtain ⟨t, ht, rfl⟩ := hp.exists_render
      have hread := read_render ht extra
      unfold ofDescriptor
      split <;> simp_all
    | untyped hopens =>
      have hread := read_eq_error_iff.mpr ⟨hopens, rfl⟩
      unfold ofDescriptor
      rw [hcs, hread, ← hpart]
      simp

end FieldType

namespace MethodDescriptor

open FieldType

variable {ts : List FieldType} {cs rest : List Char} {r : ParamsRefusal}

theorem readParams_append (h : ∀ t ∈ ts, t.Spellable) (rest : List Char) :
    readParams (ts.flatMap FieldType.render ++ rest) = (readParams rest).map fun (us, after) => (ts ++ us, after) := by
  induction ts with
  | nil => cases hr : readParams rest <;> simp [hr, Except.map]
  | cons t ts ih =>
    obtain ⟨ht, hts⟩ := List.forall_mem_cons.mp h
    have hhead := t.head_render_ne (.inl rfl)
    obtain ⟨c, cs, hcs⟩ := List.exists_cons_of_ne_nil t.render_ne_nil
    rw [List.flatMap_cons, List.append_assoc,
      readParams_of_read (read_render ht _) (by simpa [hcs] using hhead), ih hts]
    cases readParams rest <;> rfl

inductive Refuses : List Char → ParamsRefusal → Prop
  | unclosed : Refuses [] .unclosed
  | badType {cs : List Char} : cs ≠ [] → cs.head? ≠ some ')' → ¬ OpensWithType cs →
    Refuses cs (.badType (unbracketed cs))

theorem readParams_of_refuses (h : Refuses cs r) : readParams cs = .error r := by
  cases h with
  | unclosed => rw [readParams]
  | badType hne hhead hopens =>
    have hread := read_eq_error_iff.mpr ⟨hopens, rfl⟩
    rw [readParams]
    · split
      next part he =>
        obtain rfl := Except.error.inj (hread.symm.trans he)
        rfl
      next he => rw [hread] at he; cases he
    · exact hne
    · rintro rest rfl
      exact hhead rfl

theorem refuses_of_readParams (h : readParams cs = .error r) :
    ∃ (ts : List FieldType) (rest : List Char), (∀ t ∈ ts, t.Spellable) ∧
      cs = ts.flatMap FieldType.render ++ rest ∧ Refuses rest r := by
  fun_induction readParams cs with
  | case1 =>
    obtain rfl := Except.error.inj h
    exact ⟨[], [], List.forall_mem_nil _, rfl, .unclosed⟩
  | case2 => cases h
  | case3 cs hne hhead part hread =>
    obtain rfl := Except.error.inj h
    obtain ⟨hopens, rfl⟩ := read_eq_error_iff.mp hread
    refine ⟨[], cs, List.forall_mem_nil _, rfl, .badType hne (fun hc => ?_) hopens⟩
    obtain ⟨rest, rfl⟩ := List.head?_eq_some_iff.mp hc
    exact hhead rest rfl
  | case4 cs _ _ t after hread ih =>
    cases hr : readParams after with
    | ok p => simp [hr, Except.map] at h
    | error e =>
      obtain rfl : e = r := by simpa [hr, Except.map] using h
      obtain ⟨ht, rfl⟩ := render_of_read hread
      obtain ⟨ts, rest, hts, rfl, hrefuses⟩ := ih hr
      exact ⟨t :: ts, rest, List.forall_mem_cons.mpr ⟨ht, hts⟩, by simp, hrefuses⟩

theorem ofDescriptor_of_result {text : String} {inner : List Char} (htext : text.toList = '(' :: inner)
    (hread : readParams inner = .ok (ts, rest)) (hne : rest ≠ []) (hhead : rest.head? ≠ some 'V') :
    ofDescriptor text = match FieldType.read rest with
      | .ok (t, []) => .ok ⟨ts, .value t⟩
      | .ok _ => .error ⟨text⟩
      | .error part => .error ⟨String.ofList part⟩ := by
  unfold ofDescriptor
  rw [htext]
  simp only [hread]
  split
  case h_6 heq =>
    obtain ⟨rfl, rfl⟩ := Prod.mk.inj (Except.ok.inj heq)
    rcases FieldType.read rest with part | ⟨t, _ | ⟨c, after⟩⟩ <;> rfl
  all_goals simp_all

theorem ofDescriptor_of_misshapen {text : String} (h : IsMisshapen text.toList) :
    ofDescriptor text = .error ⟨text⟩ := by
  generalize hcs : text.toList = cs at h
  cases h with
  | unopened hopen =>
    unfold ofDescriptor
    split
    next inner hinner => simp [← hcs, hinner] at hopen
    next => rfl
  | unclosed hparams =>
    obtain ⟨ts, hts, rfl⟩ := isParams_iff.mp hparams
    have hread := readParams_append hts []
    rw [readParams_of_refuses .unclosed, List.append_nil] at hread
    simp [ofDescriptor, hcs, hread, Except.map]
  | unreturning hparams =>
    obtain ⟨ts, hts, rfl⟩ := isParams_iff.mp hparams
    simp [ofDescriptor, hcs, readParams_render hts]
  | @overlong params result extra hparams hresult hextra =>
    obtain ⟨ts, hts, rfl⟩ := isParams_iff.mp hparams
    obtain ⟨c, extra, rfl⟩ := List.exists_cons_of_ne_nil hextra
    cases hresult with
    | void => simp [ofDescriptor, hcs, readParams_render hts]
    | value hvalue =>
      obtain ⟨t, ht, rfl⟩ := hvalue.exists_render
      have hne : t.render ++ c :: extra ≠ [] := by simp
      have hhead : (t.render ++ c :: extra).head? ≠ some 'V' := by
        rw [List.head?_append, Option.or_of_isSome (by simp [t.render_ne_nil])]
        exact t.head_render_ne (.inr rfl)
      rw [ofDescriptor_of_result hcs (readParams_render hts _) hne hhead, read_render ht]

theorem ofDescriptor_of_fault {text part : String} (h : MethodFault text.toList part.toList) :
    ofDescriptor text = .error ⟨part⟩ := by
  generalize hcs : text.toList = cs at h
  generalize hpart : part.toList = cs' at h
  cases h with
  | misshapen hshape =>
    obtain rfl : text = part := String.toList_inj.mp (hcs.trans hpart.symm)
    exact ofDescriptor_of_misshapen (hcs ▸ hshape)
  | @untypedParam params rest hparams hne hhead hopens =>
    obtain ⟨ts, hts, rfl⟩ := isParams_iff.mp hparams
    have hread := readParams_append hts rest
    rw [readParams_of_refuses (.badType hne hhead hopens), ← hpart] at hread
    simp [ofDescriptor, hcs, hread, Except.map]
  | @untypedReturn params rest hparams hne hhead hopens =>
    obtain ⟨ts, hts, rfl⟩ := isParams_iff.mp hparams
    rw [ofDescriptor_of_result hcs (readParams_render hts rest) hne hhead,
      read_eq_error_iff.mpr ⟨hopens, rfl⟩, ← hpart]
    simp

theorem descriptor_or_fault (cs : List Char) : IsMethodDescriptor cs ∨ ∃ part, MethodFault cs part := by
  by_cases hopen : cs.head? = some '('
  swap
  · exact .inr ⟨cs, .misshapen (.unopened hopen)⟩
  obtain ⟨inner, rfl⟩ := List.head?_eq_some_iff.mp hopen
  cases hread : readParams inner with
  | error r =>
    obtain ⟨ts, rest, hts, rfl, hrefuses⟩ := refuses_of_readParams hread
    have hparams : IsParams (ts.flatMap FieldType.render) := isParams_iff.mpr ⟨ts, hts, rfl⟩
    cases hrefuses with
    | unclosed =>
      rw [List.append_nil]
      exact .inr ⟨_, .misshapen (.unclosed hparams)⟩
    | badType hne hhead hopens => exact .inr ⟨_, .untypedParam hparams hne hhead hopens⟩
  | ok p =>
    obtain ⟨ts, rest⟩ := p
    obtain ⟨hts, rfl⟩ := render_of_readParams hread
    have hparams : IsParams (ts.flatMap FieldType.render) := isParams_iff.mpr ⟨ts, hts, rfl⟩
    -- A return type stands behind the parameters, perhaps with more after it, or none begins there.
    by_cases hreturns : ∃ result extra, IsReturnDescriptor result ∧ rest = result ++ extra
    · obtain ⟨result, extra, hresult, rfl⟩ := hreturns
      cases extra with
      | nil =>
        rw [List.append_nil]
        exact .inl (isMethodDescriptor_of_params hparams hresult)
      | cons c extra => exact .inr ⟨_, .misshapen (.overlong hparams hresult (List.cons_ne_nil c extra))⟩
    · have hhead : rest.head? ≠ some 'V' := by
        intro hV
        obtain ⟨extra, rfl⟩ := List.head?_eq_some_iff.mp hV
        exact hreturns ⟨['V'], extra, .void, rfl⟩
      have hopens : ¬ OpensWithType rest := by
        rintro ⟨p, extra, hp, rfl⟩
        exact hreturns ⟨p, extra, .value hp, rfl⟩
      cases rest with
      | nil => exact .inr ⟨_, .misshapen (.unreturning hparams)⟩
      | cons c rest => exact .inr ⟨_, .untypedReturn hparams (List.cons_ne_nil c rest) hhead hopens⟩

theorem ofDescriptor_eq_error_iff {text : String} {e : InvalidDescriptor} :
    ofDescriptor text = .error e ↔ MethodFault text.toList e.text.toList := by
  refine ⟨fun h => ?_, ofDescriptor_of_fault⟩
  obtain hdescriptor | ⟨part, hfault⟩ := descriptor_or_fault text.toList
  · obtain ⟨d, hd⟩ := isMethodDescriptor_iff.mp hdescriptor
    rw [ofDescriptor_eq_ok_iff.mpr hd] at h
    cases h
  · have hpart : MethodFault text.toList (String.ofList part).toList := by rwa [String.toList_ofList]
    rw [ofDescriptor_of_fault hpart] at h
    obtain rfl := Except.error.inj h
    exact hpart

end MethodDescriptor

theorem refusals_point_at_faults (text : String) (e : InvalidDescriptor) :
    (FieldType.ofDescriptor text = .error e ↔ FieldFault text.toList e.text.toList) ∧
    (MethodDescriptor.ofDescriptor text = .error e ↔ MethodFault text.toList e.text.toList) ∧
    (FieldType.ofDescriptor text = .error e ∨ MethodDescriptor.ofDescriptor text = .error e →
      e.text.toList <:+ text.toList) := by
  refine ⟨FieldType.ofDescriptor_eq_error_iff, MethodDescriptor.ofDescriptor_eq_error_iff, ?_⟩
  rintro (h | h)
  · exact (FieldType.ofDescriptor_eq_error_iff.mp h).suffix
  · exact (MethodDescriptor.ofDescriptor_eq_error_iff.mp h).suffix

theorem refusals_point_at_faults_below_brackets :
    MethodDescriptor.ofDescriptor "(I[[é)V" = .error ⟨"é)V"⟩ ∧
    MethodFault "(I[[é)V".toList "é)V".toList ∧ "é)V".toList <:+ "(I[[é)V".toList := by
  have h : MethodDescriptor.ofDescriptor "(I[[é)V" = .error ⟨"é)V"⟩ := by decide +kernel
  obtain ⟨-, hfault, hsuffix⟩ := refusals_point_at_faults "(I[[é)V" ⟨"é)V"⟩
  exact ⟨h, hfault.mp h, hsuffix (.inr h)⟩

end ClassHierarchy
