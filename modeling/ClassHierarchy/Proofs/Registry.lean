import ClassHierarchy.Proofs.Run.Reading
import ClassHierarchy.Proofs.Scope.Names

namespace ClassHierarchy

namespace Scope

variable {s t : Scope} {c : ClassId} {name : FullName} {R : ClassId → Prop}

@[simp] theorem length_names : s.names.length = s.size := by simp [names, size]

theorem getElem?_names : s.names[c.index]? = some name ↔ s.Registered c ∧ s.name c = name := by
  have hget : s.names[c.index]? = (s.get? c).map (·.name) := by simp [names, get?]
  rw [hget, registered_iff]
  cases he : s.get? c with
  | none => simp
  | some e => simp [Scope.name, he]

theorem mem_names : name ∈ s.names ↔ s.Knows name := by
  constructor
  · intro h
    obtain ⟨i, hi⟩ := List.getElem?_of_mem h
    exact ⟨⟨i⟩, getElem?_names.mp hi⟩
  · rintro ⟨c, hc⟩
    exact List.mem_of_getElem? (getElem?_names.mpr hc)

theorem names_eq_map_ids (s : Scope) : s.names = s.ids.map s.name := by
  apply List.ext_getElem?
  intro i
  by_cases hi : i < s.size
  · have hn : s.names[(⟨i⟩ : ClassId).index]? = some (s.name ⟨i⟩) := getElem?_names.mpr ⟨hi, rfl⟩
    simpa [ids, hi] using hn
  · simp [ids, hi]

theorem names_append (s : Scope) (new : List FullName) : (s.append new).names = s.names ++ new := by
  simp [names, append, Function.comp_def]

theorem Evolves.names_prefix (h : s.Evolves R t) : s.names <+: t.names := by
  rw [List.prefix_iff_getElem?]
  intro i hi
  have hc : s.Registered ⟨i⟩ := by simpa [Registered] using hi
  have hs : s.names[(⟨i⟩ : ClassId).index]? = some (s.name ⟨i⟩) := getElem?_names.mpr ⟨hc, rfl⟩
  have ht : t.names[(⟨i⟩ : ClassId).index]? = some (s.name ⟨i⟩) :=
    getElem?_names.mpr ⟨h.registered hc, h.name hc⟩
  rw [ht, ← hs]
  exact List.getElem?_eq_getElem hi

theorem Evolves.names_eq (h : s.Evolves R t) (hsize : t.size = s.size) : t.names = s.names := by
  apply (h.names_prefix.eq_of_length _).symm
  rw [length_names, length_names, hsize]

theorem Named.nodup_names (h : s.Named) : s.names.Nodup := by
  rw [List.nodup_iff_getElem?_ne_getElem?]
  intro i j hij hj heq
  have hi : i < s.names.length := hij.trans hj
  obtain ⟨hci, hni⟩ := getElem?_names.mp (List.getElem?_eq_getElem hi : s.names[(⟨i⟩ : ClassId).index]? = _)
  rw [List.getElem?_eq_getElem hi] at heq
  obtain ⟨hcj, hnj⟩ := getElem?_names.mp (heq.symm : s.names[(⟨j⟩ : ClassId).index]? = _)
  obtain rfl : i = j := congrArg ClassId.index (h.unique ⟨i⟩ ⟨j⟩ hci hcj (hni.trans hnj.symm))
  exact Nat.lt_irrefl _ hij

theorem Named.element_known (h : s.Named) (hn : name ∈ s.names) {e : FullName}
    (he : name.element? = some (.named e)) : e ∈ s.names := by
  rw [mem_names] at hn ⊢
  apply h.closed name hn
  rw [FullName.elementChain_of_named he]
  exact List.mem_cons_self

theorem names_new : Scope.new.names = Primitive.all.map Primitive.keyword := by decide

theorem name_ofPrimitive (h : Scope.new.Evolves R s) (p : Primitive) :
    s.Registered (.ofPrimitive p) ∧ s.name (.ofPrimitive p) = p.keyword := by
  have hp := registered_new p
  refine ⟨h.registered hp, (h.name hp).trans ?_⟩
  simp [Scope.name, get?_new_ofPrimitive, primitiveEntry]

theorem Named.isPrimitive_iff (h : s.Named) (hnew : Scope.new.Evolves R s) (hc : s.Registered c) :
    c.isPrimitive = true ↔ ∃ p : Primitive, s.name c = p.keyword := by
  rw [ClassId.isPrimitive_iff]
  constructor
  · rintro ⟨p, rfl⟩
    exact ⟨p, (name_ofPrimitive hnew p).2⟩
  · rintro ⟨p, hp⟩
    obtain ⟨hpc, hpn⟩ := name_ofPrimitive hnew p
    exact ⟨p, h.unique c _ hc hpc (hp.trans hpn.symm)⟩

theorem Named.names_register (h : s.Named) (hf : s.find? name = none) : ∃ fresh known,
    name.elementChain = fresh ++ known ∧ (∀ e ∈ fresh, e ∉ s.names) ∧ (∀ e ∈ known, e ∈ s.names) ∧
    (s.register name).1 = ⟨s.size⟩ ∧ (s.register name).2.2.names = s.names ++ name :: fresh := by
  obtain ⟨event, hr⟩ := register_of_find?_eq_none hf
  refine ⟨s.fresh name, _, List.takeWhile_append_dropWhile.symm, fun e he => ?_, fun e he => ?_, ?_, ?_⟩
  · rw [mem_names]
    exact not_knows_of_fresh he
  · rw [mem_names]
    exact h.knows_of_dropWhile he
  · rw [hr]
  · rw [hr]
    exact s.names_append _

theorem Named.next (h : s.Named) (x : Action) : (x.next s).Named := by
  by_cases hx : ∃ name, x = .register name
  · obtain ⟨name, rfl⟩ := hx
    exact (register_named h name).1
  · have he : s.Evolves (fun _ => True) (x.next s) := Action.evolves_next (fun _ _ _ => trivial) s
    exact h.evolves he (Action.size_next fun name hn => hx ⟨name, hn⟩)

end Scope

namespace Loader

open Run (anything)

variable {α : Type} {L : Loader} {n budget : Nat} {script : Script α} {p q rest : Run α} {w w' : Session}
  {c : ClassId} {name : FullName}

theorem named_of_leads {may : Action → Session → Prop} (hn : w.scope.Named) (h : p.Leads may w q w') :
    w'.scope.Named := by
  induction h with
  | refl => exact hn
  | @step x _ _ _ _ _ _ _ hx _ ih =>
    apply ih
    rw [Action.scope_of_perform hx]
    exact hn.next x

theorem ends_register_of_find? (hf : w.scope.find? name = some c) :
    (L.perform n (Script.register name)).Ends Action.Steady w c w := by
  have hx : (Action.register name).perform w = some (c, w) := by
    simp [Action.perform, Scope.register_of_find? hf]
  exact Run.ends_ask_iff.mpr ⟨trivial, c, w, hx, .refl _ _⟩

theorem ends_register (L : Loader) (n : Nat) (w : Session) (name : FullName) :
    ∃ v, (L.perform n (Script.register name)).Ends Action.Steady w (w.scope.register name).1 v ∧
      v.scope = (w.scope.register name).2.2 := by
  obtain ⟨v, hx⟩ : ∃ v, (Action.register name).perform w = some ((w.scope.register name).1, v) := ⟨_, rfl⟩
  exact ⟨v, Run.ends_ask_iff.mpr ⟨trivial, _, v, hx, .refl _ _⟩, Action.scope_of_perform hx⟩

theorem ends_name : (L.perform n (Query.name c)).Ends Action.Steady w (w.scope.name c) w :=
  ends_map ends_inspect (·.name c)

theorem ends_elementClass (hn : w.scope.Named) (hc : w.scope.Registered c)
    (ha : (w.scope.name c).isArray = true) : ∃ e v,
      (L.perform n (Query.elementClass c)).Ends Action.Steady w (.ok e) v ∧ v.scope = w.scope ∧
      ∀ inner, (w.scope.name c).element? = some (.named inner) → e = w.scope.find? inner ∧ e.isSome := by
  unfold Query.elementClass
  cases he : (w.scope.name c).element? with
  | none =>
    refine ⟨none, w.emit (.malformedArrayQueried (w.scope.name c)), ends_perform_bind ends_name ?_, rfl, nofun⟩
    rw [if_pos ha, he]
    exact Run.ends_ask_iff.mpr ⟨trivial, (), _, rfl, .refl _ _⟩
  | some e =>
    cases e with
    | primitive p =>
      refine ⟨some (.ofPrimitive p), w, ends_perform_bind ends_name ?_, rfl, nofun⟩
      rw [if_pos ha, he]
      exact ends_pure _
    | named inner =>
      have hinner : inner ∈ w.scope.names :=
        hn.element_known (Scope.mem_names.mpr ⟨c, hc, rfl⟩) he
      obtain ⟨i, hi⟩ := Scope.mem_names.mp hinner
      have hf := hn.find?_iff.mpr hi
      refine ⟨some i, w, ends_perform_bind ends_name ?_, rfl, ?_⟩
      · rw [if_pos ha, he]
        exact ends_map (ends_register_of_find? hf) fun e => Except.ok (some e)
      · rintro _ ⟨⟩
        exact ⟨hf.symm, rfl⟩

theorem registry_closed (h : (L.perform budget script).Leads anything .new rest w) :
    (w.scope.names.Nodup ∧ w.scope.names = w.scope.ids.map w.scope.name ∧
      ∀ name c, w.scope.find? name = some c ↔ w.scope.Registered c ∧ w.scope.name c = name) ∧
    (Primitive.all.map Primitive.keyword <+: w.scope.names ∧
      ∀ c, w.scope.Registered c → (c.isPrimitive = true ↔ ∃ p : Primitive, w.scope.name c = p.keyword)) ∧
    (∀ q w', rest.Leads anything w q w' → w.scope.names <+: w'.scope.names) ∧
    (∀ name inner, name ∈ w.scope.names → name.element? = some (.named inner) → inner ∈ w.scope.names) ∧
    (∀ c n, w.scope.Registered c → (w.scope.name c).isArray = true → ∃ e v,
      (L.perform n (Query.elementClass c)).Ends anything w (.ok e) v ∧ v.scope = w.scope ∧
      ∀ inner, (w.scope.name c).element? = some (.named inner) → e = w.scope.find? inner ∧ e.isSome) ∧
    (∀ name c n, w.scope.find? name = some c →
      (L.perform n (Script.register name)).Ends anything w c w) ∧
    ∀ name n, w.scope.find? name = none → ∃ fresh known v,
      name.elementChain = fresh ++ known ∧ (∀ e ∈ fresh, e ∉ w.scope.names) ∧
      (∀ e ∈ known, e ∈ w.scope.names) ∧
      (L.perform n (Script.register name)).Ends anything w ⟨w.scope.size⟩ v ∧
      v.scope.names = w.scope.names ++ name :: fresh := by
  have hn : w.scope.Named := named_of_leads Scope.named_new h
  have hnew : Scope.new.Evolves (fun _ => True) w.scope := h.evolves_any
  refine ⟨⟨hn.nodup_names, w.scope.names_eq_map_ids, fun name c => hn.find?_iff⟩, ⟨?_, ?_⟩, ?_, ?_, ?_, ?_, ?_⟩
  · rw [← Scope.names_new]
    exact hnew.names_prefix
  · intro c hc
    exact hn.isPrimitive_iff hnew hc
  · intro q w' hl
    exact hl.evolves_any.names_prefix
  · intro name inner hname he
    exact hn.element_known hname he
  · intro c n hc ha
    obtain ⟨e, v, he, hrest⟩ := ends_elementClass (L := L) (n := n) hn hc ha
    exact ⟨e, v, he.mono fun _ _ _ => trivial, hrest⟩
  · intro name c n hf
    exact (ends_register_of_find? hf).mono fun _ _ _ => trivial
  · intro name n hf
    obtain ⟨fresh, known, hchain, hfresh, hknown, hid, hnames⟩ := hn.names_register hf
    obtain ⟨v, he, hv⟩ := ends_register L n w name
    refine ⟨fresh, known, v, hchain, hfresh, hknown, ?_, by rw [hv, hnames]⟩
    rw [← hid]
    exact he.mono fun _ _ _ => trivial

theorem registry_closed_over_arrays :
    ∃ rest w, (notFound.perform 0 (Script.register "[L[LA;;")).Leads anything .new rest w ∧
      w.scope.names = Primitive.all.map Primitive.keyword ++ ["[L[LA;;", "[LA;", "A"] ∧
      w.scope.find? "[[[LA;" = none ∧ ∃ fresh known v,
        FullName.elementChain "[[[LA;" = fresh ++ known ∧ (∀ e ∈ fresh, e ∉ w.scope.names) ∧
        (∀ e ∈ known, e ∈ w.scope.names) ∧
        (notFound.perform 0 (Script.register "[[[LA;")).Ends anything w ⟨12⟩ v ∧
        v.scope.names = w.scope.names ++ "[[[LA;" :: fresh := by
  have h : ((notFound.perform 0 (Script.register "[L[LA;;")).advance anything 1 .new).map
      (fun m => (m.2.scope.names, m.2.scope.size, m.2.scope.find? "[[[LA;")) =
      some (Primitive.all.map Primitive.keyword ++ ["[L[LA;;", "[LA;", "A"], 12, none) := by decide +kernel
  obtain ⟨⟨rest, w⟩, ha, hw⟩ := Option.map_eq_some_iff.mp h
  simp only [Prod.mk.injEq] at hw
  obtain ⟨hnames, hsize, hf⟩ := hw
  have hl := Run.leads_iff_advance.mpr ⟨1, ha⟩
  obtain ⟨-, -, -, -, -, -, hnew⟩ := registry_closed hl
  have hadded := hnew "[[[LA;" 0 hf
  rw [hsize] at hadded
  exact ⟨rest, w, hl, hnames, hf, hadded⟩

end Loader

end ClassHierarchy
