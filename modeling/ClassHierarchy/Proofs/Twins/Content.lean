import Mathlib.Data.List.Forall2
import ClassHierarchy.Query
import ClassHierarchy.Session

namespace ClassHierarchy

open List Relator

variable {R S : ClassId → ClassId → Prop}

structure Method.Alike (R : ClassId → ClassId → Prop) (m m' : Method) : Prop where
  owner : R m.owner m'.owner
  name : m.name = m'.name
  params : Forall₂ R m.params m'.params
  returns : R m.returns m'.returns
  flags : m.flags = m'.flags

def FieldTypes.Alike (R : ClassId → ClassId → Prop) (fs fs' : FieldTypes) : Prop :=
  Forall₂ (fun f f' => f.1 = f'.1 ∧ R f.2 f'.2) fs fs'

structure Declaration.Alike (R : ClassId → ClassId → Prop) (d d' : Declaration) : Prop where
  superClass : Option.Rel R d.superClass d'.superClass
  interfaces : Forall₂ R d.interfaces d'.interfaces
  fields : FieldTypes.Alike R d.fields d'.fields
  staticFields : FieldTypes.Alike R d.staticFields d'.staticFields
  methods : Forall₂ (Method.Alike R) d.methods d'.methods
  flags : d.flags = d'.flags
  framework : d.framework = d'.framework

structure Signature.Alike (R : ClassId → ClassId → Prop) (s s' : Signature) : Prop where
  name : s.name = s'.name
  params : Forall₂ R s.params s'.params
  returns : Option.Rel R s.returns s'.returns

theorem forall₂_of_refl {α : Type} {P : α → α → Prop} {xs : List α} (h : ∀ x ∈ xs, P x x) : Forall₂ P xs xs :=
  forall₂_same.mpr h

theorem optionRel_mono {α β : Type} {P Q : α → β → Prop} (h : ∀ a b, P a b → Q a b) {x : Option α}
    {y : Option β} (hxy : Option.Rel P x y) : Option.Rel Q x y := by
  cases hxy with
  | none => exact .none
  | some hab => exact .some (h _ _ hab)

theorem optionRel_eq {α : Type} {x y : Option α} (h : Option.Rel (· = ·) x y) : x = y := by
  cases h with
  | none => rfl
  | some hab => rw [hab]

theorem Method.Alike.mono {m m' : Method} (h : m.Alike R m') (hRS : ∀ c c', R c c' → S c c') :
    m.Alike S m' where
  owner := hRS _ _ h.owner
  name := h.name
  params := h.params.imp hRS
  returns := hRS _ _ h.returns
  flags := h.flags

theorem Signature.Alike.mono {s s' : Signature} (h : s.Alike R s') (hRS : ∀ c c', R c c' → S c c') :
    s.Alike S s' where
  name := h.name
  params := h.params.imp hRS
  returns := optionRel_mono hRS h.returns

section Equal

theorem eq_of_forall₂ {α : Type} {P : α → α → Prop} (h : ∀ a b, P a b → a = b) {xs ys : List α}
    (hxy : Forall₂ P xs ys) : xs = ys := by
  have he : Forall₂ (· = ·) xs ys := hxy.imp h
  rwa [forall₂_eq_eq_eq] at he

theorem eq_of_optionRel {α : Type} {P : α → α → Prop} (h : ∀ a b, P a b → a = b) {x y : Option α}
    (hxy : Option.Rel P x y) : x = y := optionRel_eq (optionRel_mono h hxy)

variable (hR : ∀ c c', R c c' → c = c')
include hR

theorem Method.Alike.eq {m m' : Method} (h : m.Alike R m') : m = m' := by
  cases m
  cases m'
  obtain ⟨ho, hn, hp, hr, hf⟩ := h
  simp only [Method.mk.injEq]
  exact ⟨hR _ _ ho, hn, eq_of_forall₂ hR hp, hR _ _ hr, hf⟩

theorem FieldTypes.Alike.eq {fs fs' : FieldTypes} (h : fs.Alike R fs') : fs = fs' :=
  eq_of_forall₂ (fun _ _ hf => Prod.ext hf.1 (hR _ _ hf.2)) h

end Equal

theorem Declaration.alike_self {d : Declaration} (h : ∀ c ∈ d.mentions, R c c) : d.Alike R d := by
  simp only [mentions, mem_append, mem_map, mem_flatMap, Option.mem_toList] at h
  have hmethod : ∀ m ∈ d.methods, ∀ c ∈ m.owner :: m.params ++ [m.returns], R c c :=
    fun m hm c hc => h c (.inr ⟨m, hm, mem_append.mp hc⟩)
  constructor
  · cases hs : d.superClass with
    | none => exact .none
    | some p => exact .some (h p (by simp [hs]))
  · exact forall₂_of_refl fun c hc => h c (by simp [hc])
  · exact forall₂_of_refl fun f hf => ⟨rfl, h f.2 (.inl (.inl (.inr ⟨f, hf, rfl⟩)))⟩
  · exact forall₂_of_refl fun f hf => ⟨rfl, h f.2 (.inl (.inr ⟨f, hf, rfl⟩))⟩
  · apply forall₂_of_refl
    intro m hm
    exact ⟨hmethod m hm _ (by simp), rfl, forall₂_of_refl fun c hc => hmethod m hm c (by simp [hc]),
      hmethod m hm _ (by simp), rfl⟩
  · rfl
  · rfl

theorem Declaration.alike_missing : Declaration.missing.Alike R .missing :=
  alike_self fun _ h => nomatch h

theorem optionRel_toList {α β : Type} {P : α → β → Prop} {x : Option α} {y : Option β}
    (h : Option.Rel P x y) : Forall₂ P x.toList y.toList := by
  cases h with
  | none => exact .nil
  | some hab => exact .cons hab .nil

theorem optionRel_all {α β : Type} {P : α → β → Prop} {x : Option α} {y : Option β} {f : α → Bool}
    {g : β → Bool} (h : Option.Rel P x y) (hfg : ∀ a b, P a b → f a = g b) : x.all f = y.all g := by
  cases h with
  | none => rfl
  | some hab => exact hfg _ _ hab

theorem Declaration.Alike.parents {d d' : Declaration} (h : d.Alike R d') :
    Forall₂ R d.parents d'.parents := rel_append (optionRel_toList h.superClass) h.interfaces

theorem Declaration.Alike.mentions {d d' : Declaration} (h : d.Alike R d') :
    Forall₂ R d.mentions d'.mentions := by
  apply rel_append
  · apply rel_append
    · apply rel_append h.parents
      exact rel_map (fun _ _ hf => hf.2) h.fields
    · exact rel_map (fun _ _ hf => hf.2) h.staticFields
  · apply rel_flatMap h.methods
    intro m m' hm
    exact rel_append (.cons hm.owner hm.params) (.cons hm.returns .nil)

theorem FieldTypes.Alike.find? {fs fs' : FieldTypes} (h : fs.Alike R fs') (name : String) :
    Option.Rel R (fs.find? name) (fs'.find? name) := by
  unfold FieldTypes.find?
  induction h with
  | nil => exact .none
  | @cons f f' rest rest' hf _ ih =>
    obtain ⟨n, c⟩ := f
    obtain ⟨n', c'⟩ := f'
    obtain ⟨hn, hc⟩ : n = n' ∧ R c c' := hf
    subst hn
    rw [lookup_cons, lookup_cons]
    split
    · exact .some hc
    · exact ih

theorem FieldTypes.Alike.insert {fs fs' : FieldTypes} (h : fs.Alike R fs') {c c' : ClassId} (hc : R c c')
    (name : String) : (fs.insert name c).Alike R (fs'.insert name c') := by
  induction h with
  | nil => exact .cons ⟨rfl, hc⟩ .nil
  | @cons f f' rest rest' hf hrest ih =>
    obtain ⟨n, b⟩ := f
    obtain ⟨n', b'⟩ := f'
    obtain ⟨hn, hb⟩ : n = n' ∧ R b b' := hf
    subst hn
    unfold FieldTypes.insert
    split
    · exact .cons ⟨rfl, hc⟩ hrest
    · exact .cons ⟨rfl, hb⟩ ih

theorem optionRel_find? {α β : Type} {P : α → β → Prop} {f : α → Bool} {g : β → Bool} {xs : List α}
    {ys : List β} (hfg : ∀ a b, P a b → f a = g b) (h : Forall₂ P xs ys) :
    Option.Rel P (xs.find? f) (ys.find? g) := by
  induction h with
  | nil => exact .none
  | cons hab _ ih =>
    rw [find?_cons, find?_cons, hfg _ _ hab]
    split
    · exact .some hab
    · exact ih

theorem Declaration.Alike.findMethod? {d d' : Declaration} (h : d.Alike R d') {s s' : Signature}
    (hs : ∀ m m', m.Alike R m' → s.accepts m = s'.accepts m') :
    Option.Rel (Method.Alike R) (d.findMethod? s) (d'.findMethod? s') := optionRel_find? hs h.methods

theorem Declaration.Alike.methodsNamed {d d' : Declaration} (h : d.Alike R d') (name : String) :
    Forall₂ (Method.Alike R) (d.methodsNamed name) (d'.methodsNamed name) := by
  apply rel_filter _ h.methods
  intro m m' hm
  simp [hm.name]

section Compared

variable (hR : BiUnique R)
include hR

theorem beq_eq_of_forall₂ {cs cs' ds ds' : List ClassId} (hc : Forall₂ R cs cs') (hd : Forall₂ R ds ds') :
    (cs == ds) = (cs' == ds') := by
  have h : cs = ds ↔ cs' = ds' := rel_eq hR.forall₂ hc hd
  simp [h]

theorem Method.Alike.hides {m m' n n' : Method} (hm : m.Alike R m') (hn : n.Alike R n') :
    m.hides n = m'.hides n' := by
  unfold Method.hides
  rw [hm.name, hn.name, beq_eq_of_forall₂ hR hm.params hn.params]

theorem Signature.Alike.accepts {s s' : Signature} {m m' : Method} (hs : s.Alike R s') (hm : m.Alike R m') :
    s.accepts m = s'.accepts m' := by
  unfold Signature.accepts
  rw [hs.name, hm.name, beq_eq_of_forall₂ hR hs.params hm.params]
  congr 1
  apply optionRel_all hs.returns
  intro c c' hc
  have h : c = m.returns ↔ c' = m'.returns := rel_eq hR hc hm.returns
  simp [h]

theorem forall₂_eraseDups {cs cs' : List ClassId} (h : Forall₂ R cs cs') :
    Forall₂ R cs.eraseDups cs'.eraseDups := by
  generalize hn : cs.length = n
  induction n using Nat.strongRecOn generalizing cs cs' with
  | ind n ih =>
    cases h with
    | nil => exact .nil
    | @cons c c' ds ds' hc hd =>
      rw [eraseDups_cons, eraseDups_cons]
      have hf : Forall₂ R (ds.filter fun b => !b == c) (ds'.filter fun b => !b == c') := by
        apply rel_filter _ hd
        intro b b' hb
        have he : b = c ↔ b' = c' := rel_eq hR hb hc
        simp [he]
      apply Forall₂.cons hc
      apply ih _ _ hf rfl
      have hl := length_filter_le (fun b => !b == c) ds
      rw [← hn, length_cons]
      omega

theorem forall₂_unseen {seen seen' cs cs' : List ClassId} (hs : Forall₂ R seen seen') (hc : Forall₂ R cs cs') :
    Forall₂ R (Run.unseen seen cs) (Run.unseen seen' cs') := by
  apply forall₂_eraseDups hR
  apply rel_filter _ hc
  intro b b' hb
  have hm : b ∈ seen ↔ b' ∈ seen' := rel_mem hR hb hs
  simp [hm]

theorem forall₂_addVisible {out out' ms ms' : List Method} (ho : Forall₂ (Method.Alike R) out out')
    (hm : Forall₂ (Method.Alike R) ms ms') :
    Forall₂ (Method.Alike R) (Query.addVisible out ms) (Query.addVisible out' ms') := by
  unfold Query.addVisible
  induction hm generalizing out out' with
  | nil => exact ho
  | @cons m m' ms ms' hm _ ih =>
    rw [foldl_cons, foldl_cons]
    apply ih
    have ha : (out.any fun n => n.hides m) = out'.any fun n => n.hides m' := by
      induction ho with
      | nil => rfl
      | cons hn _ ih => rw [any_cons, any_cons, hn.hides hR hm, ih]
    rw [ha]
    split
    · exact ho
    · exact rel_append ho (.cons hm .nil)

theorem forall₂_inheritable {c c' b b' : ClassId} (hc : R c c') (hb : R b b') {d d' : Declaration}
    (h : d.Alike R d') :
    Forall₂ (Method.Alike R) (Query.inheritable c b d) (Query.inheritable c' b' d') := by
  apply rel_filter _ h.methods
  intro m m' hm
  have he : b = c ↔ b' = c' := rel_eq hR hb hc
  simp [he, Method.isConstructor, Method.isStaticInitializer, hm.name]

end Compared

end ClassHierarchy
