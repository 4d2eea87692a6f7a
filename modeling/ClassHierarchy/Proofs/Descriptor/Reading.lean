import Mathlib.Data.List.TakeWhile
import Mathlib.Tactic.Common
import ClassHierarchy.Descriptor.Parser
import ClassHierarchy.Descriptor.Basic

namespace ClassHierarchy

def ReturnType.Spellable : ReturnType → Prop
  | .void => True
  | .value t => t.Spellable

structure MethodDescriptor.Spellable (d : MethodDescriptor) : Prop where
  params : ∀ t ∈ d.params, t.Spellable
  returns : d.returns.Spellable

namespace FieldType

variable {t : FieldType} {cs rest name : List Char}

theorem render_ne_nil (t : FieldType) : t.render ≠ [] := by
  cases t <;> simp [render]

theorem head_render_ne (t : FieldType) {c : Char} (hc : c = ')' ∨ c = 'V') : t.render.head? ≠ some c := by
  cases t with
  | base b => cases b <;> obtain rfl | rfl := hc <;> decide
  | object internal => obtain rfl | rfl := hc <;> simp [render]
  | array t => obtain rfl | rfl := hc <;> simp [render]

theorem takeWhile_name (h : ';' ∉ name) (rest : List Char) :
    (name ++ ';' :: rest).takeWhile (· != ';') = name := by
  have hall : ∀ c ∈ name, (c != ';') = true := by
    rintro c hc
    exact bne_iff_ne.mpr fun he => h (he ▸ hc)
  simp [List.takeWhile_append_of_pos hall]

theorem dropWhile_name (h : ';' ∉ name) (rest : List Char) :
    (name ++ ';' :: rest).dropWhile (· != ';') = ';' :: rest := by
  have hall : ∀ c ∈ name, (c != ';') = true := by
    rintro c hc
    exact bne_iff_ne.mpr fun he => h (he ▸ hc)
  simp [List.dropWhile_append_of_pos hall]

theorem not_mem_takeWhile (cs : List Char) : ';' ∉ cs.takeWhile (· != ';') := by
  intro h
  simpa using List.mem_takeWhile_imp h

theorem dropWhile_eq_cons {c : Char} (h : cs.dropWhile (· != ';') = c :: rest) : c = ';' := by
  have hne : cs.dropWhile (· != ';') ≠ [] := by simp [h]
  have hhead := List.head_dropWhile_not (· != ';') hne
  simpa [h] using hhead

theorem read_render (h : t.Spellable) (rest : List Char) : read (t.render ++ rest) = .ok (t, rest) := by
  induction t with
  | base b => cases b <;> rfl
  | object internal =>
    obtain ⟨hne, hsemi⟩ := h
    obtain ⟨c, name, hname⟩ := List.exists_cons_of_ne_nil hne
    have htext : (object internal).render ++ rest = 'L' :: (internal.toList ++ ';' :: rest) := by
      simp [render]
    rw [htext, read, takeWhile_name hsemi, dropWhile_name hsemi, hname]
    simp [← hname]
  | array t ih => simp [render, read, ih h, Except.map]

theorem render_of_read (h : read cs = .ok (t, rest)) : t.Spellable ∧ cs = t.render ++ rest := by
  fun_induction read cs generalizing t with
  | case1 => cases h
  | case2 cs ih =>
    cases hr : read cs with
    | error part => simp [hr, Except.map] at h
    | ok p =>
      obtain ⟨rfl, rfl⟩ := by simpa [hr, Except.map] using h
      obtain ⟨hs, hcs⟩ := ih hr
      exact ⟨hs, by simp [render, hcs]⟩
  | case3 cs c name semicolon after hdrop htake =>
    obtain ⟨rfl, rfl⟩ := Prod.mk.inj (Except.ok.inj h)
    obtain rfl := dropWhile_eq_cons hdrop
    have hsplit : cs = (c :: name) ++ ';' :: after := by
      rw [← htake, ← hdrop, List.takeWhile_append_dropWhile]
    refine ⟨⟨by simp, ?_⟩, by simp [render, hsplit]⟩
    rw [String.toList_ofList, ← htake]
    exact not_mem_takeWhile cs
  | case4 => cases h
  | case5 c cs _ _ b hb =>
    obtain ⟨rfl, rfl⟩ := Prod.mk.inj (Except.ok.inj h)
    exact ⟨trivial, by simp [render, BaseType.code_of_ofCode? hb]⟩
  | case6 => cases h

theorem read_eq_ok_iff : read cs = .ok (t, rest) ↔ t.Spellable ∧ cs = t.render ++ rest := by
  refine ⟨render_of_read, ?_⟩
  rintro ⟨hs, rfl⟩
  exact read_render hs rest

theorem ofDescriptor_eq_ok_iff {text : String} :
    ofDescriptor text = .ok t ↔ t.Spellable ∧ t.render = text.toList := by
  have hread : ofDescriptor text = .ok t ↔ read text.toList = .ok (t, []) := by
    unfold ofDescriptor
    split <;> simp_all
  rw [hread, read_eq_ok_iff, List.append_nil, eq_comm (a := text.toList)]

end FieldType

namespace MethodDescriptor

open FieldType

variable {t : FieldType} {ts : List FieldType} {cs after rest : List Char}

theorem readParams_of_read (hread : read cs = .ok (t, after)) (hc : cs.head? ≠ some ')') :
    readParams cs = (readParams after).map fun (ts, rest) => (t :: ts, rest) := by
  rw [readParams]
  · split
    next part he => rw [he] at hread; cases hread
    next t' after' he =>
      rw [he] at hread
      obtain ⟨rfl, rfl⟩ := Prod.mk.inj (Except.ok.inj hread)
      rfl
  · rintro rfl
    cases hread
  · rintro rest rfl
    exact hc rfl

theorem readParams_render (h : ∀ t ∈ ts, t.Spellable) (rest : List Char) :
    readParams (ts.flatMap FieldType.render ++ ')' :: rest) = .ok (ts, rest) := by
  induction ts with
  | nil => simp [readParams]
  | cons t ts ih =>
    obtain ⟨ht, hts⟩ := List.forall_mem_cons.mp h
    have hhead := t.head_render_ne (.inl rfl)
    obtain ⟨c, cs, hcs⟩ := List.exists_cons_of_ne_nil t.render_ne_nil
    have htext : (t :: ts).flatMap FieldType.render ++ ')' :: rest =
        t.render ++ (ts.flatMap FieldType.render ++ ')' :: rest) := by simp
    rw [htext, readParams_of_read (read_render ht _) (by simpa [hcs] using hhead), ih hts]
    rfl

theorem render_of_readParams (h : readParams cs = .ok (ts, rest)) :
    (∀ t ∈ ts, t.Spellable) ∧ cs = ts.flatMap FieldType.render ++ ')' :: rest := by
  fun_induction readParams cs generalizing ts with
  | case1 => cases h
  | case2 cs =>
    obtain ⟨rfl, rfl⟩ := Prod.mk.inj (Except.ok.inj h)
    exact ⟨nofun, rfl⟩
  | case3 => cases h
  | case4 cs _ _ t after hread ih =>
    cases hr : readParams after with
    | error e => simp [hr, Except.map] at h
    | ok p =>
      obtain ⟨rfl, rfl⟩ := by simpa [hr, Except.map] using h
      obtain ⟨ht, hcs⟩ := render_of_read hread
      obtain ⟨hts, hafter⟩ := ih hr
      exact ⟨List.forall_mem_cons.mpr ⟨ht, hts⟩, by simp [hcs, hafter]⟩

theorem ofDescriptor_of_render {text : String} {d : MethodDescriptor} (h : d.Spellable)
    (htext : text.toList = d.render) : ofDescriptor text = .ok d := by
  obtain ⟨ts, r⟩ := d
  have hparams := readParams_render h.params r.render
  unfold ofDescriptor
  rw [htext, render]
  simp only [hparams]
  cases r with
  | void => rfl
  | value t =>
    have hread := read_render h.returns []
    have hhead := t.head_render_ne (.inr rfl)
    have hne := t.render_ne_nil
    simp only [List.append_nil, ReturnType.render] at hread ⊢
    split <;> simp_all

theorem render_of_ofDescriptor {text : String} {d : MethodDescriptor} (h : ofDescriptor text = .ok d) :
    d.Spellable ∧ d.render = text.toList := by
  unfold ofDescriptor at h
  split at h
  next inner htext =>
    rw [htext]
    split at h
    case h_4 ts hread =>
      obtain rfl := Except.ok.inj h
      obtain ⟨hts, rfl⟩ := render_of_readParams hread
      exact ⟨⟨hts, trivial⟩, rfl⟩
    case h_6 ts rest hne hV hVs hread =>
      split at h
      case h_1 t ht =>
        obtain rfl := Except.ok.inj h
        obtain ⟨hts, rfl⟩ := render_of_readParams hread
        obtain ⟨hs, rfl⟩ := render_of_read ht
        exact ⟨⟨hts, hs⟩, by simp [render, ReturnType.render]⟩
      all_goals cases h
    all_goals cases h
  next => cases h

theorem ofDescriptor_eq_ok_iff {text : String} {d : MethodDescriptor} :
    ofDescriptor text = .ok d ↔ d.Spellable ∧ d.render = text.toList :=
  ⟨render_of_ofDescriptor, fun h => ofDescriptor_of_render h.1 h.2.symm⟩

end MethodDescriptor

end ClassHierarchy
