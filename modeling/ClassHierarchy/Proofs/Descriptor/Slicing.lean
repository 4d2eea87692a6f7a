import ClassHierarchy.Proofs.Descriptor.Reading
import ClassHierarchy.Text.Bytes

/-!
The reader of field types that goes by byte places: it finds `;` by the byte at which it stands and cuts
the name and the rest out of the text there. No place that it cuts at is inside a character or past the
end, and it reads what the reader of characters reads.
-/

namespace ClassHierarchy

namespace Text

def cut? (place : Nat) (cs : List Char) : Option (List Char × List Char) :=
  if place ≤ byteLength cs then (cutAtByte .start place cs).toOption else none

def slice? (first last : Nat) (cs : List Char) : Option (List Char) :=
  if first ≤ last then do
    let (before, _) ← cut? last cs
    let (_, piece) ← cut? first before
    return piece
  else none

def byteOf? (c : Char) : List Char → Option Nat
  | [] => none
  | x :: xs => if x = c then some 0 else (byteOf? c xs).map (x.utf8Size + ·)

variable {c : Char} {cs before after : List Char} {place : Nat}

theorem byteLength_append (as bs : List Char) : byteLength (as ++ bs) = byteLength as + byteLength bs := by
  induction as with
  | nil => simp [byteLength]
  | cons a as ih => simp only [List.cons_append, byteLength_cons, ih, Nat.add_assoc]

theorem cut?_byteLength (as bs : List Char) : cut? (byteLength as) (as ++ bs) = some (as, bs) := by
  rw [cut?, if_pos (by rw [byteLength_append]; omega), cutAtByte_byteLength]
  rfl

theorem cutFrom_of_cutFrom_cons {edge : Edge} {first : Nat} (hlt : first < place)
    (h : cutFrom edge place first (c :: cs) = .ok (before, after)) :
    ∃ before', cutFrom edge place (first + c.utf8Size) cs = .ok (before', after) := by
  rw [cutFrom, if_neg (Nat.not_le.mpr hlt)] at h
  split at h
  · cases h
  · cases hr : cutFrom edge place (first + c.utf8Size) cs with
    | error m =>
      rw [hr] at h
      cases h
    | ok p =>
      rw [hr] at h
      obtain ⟨-, rfl⟩ := Prod.mk.inj (Except.ok.inj h)
      exact ⟨p.1, rfl⟩

theorem length_le_of_cutFrom {edge : Edge} {first : Nat}
    (h : cutFrom edge place first cs = .ok (before, after)) : after.length ≤ cs.length := by
  induction cs generalizing first before with
  | nil =>
    obtain ⟨-, rfl⟩ := Prod.mk.inj (Except.ok.inj h)
    exact le_rfl
  | cons c cs ih =>
    by_cases hlt : first < place
    · obtain ⟨before', hr⟩ := cutFrom_of_cutFrom_cons hlt h
      exact (ih hr).trans (Nat.le_succ _)
    · rw [cutFrom, if_pos (Nat.not_lt.mp hlt)] at h
      obtain ⟨-, rfl⟩ := Prod.mk.inj (Except.ok.inj h)
      exact le_rfl

theorem length_lt_of_cut? (h : cut? (place + 1) cs = some (before, after)) : after.length < cs.length := by
  cases cs with
  | nil => simp [cut?, byteLength] at h
  | cons c cs =>
    unfold cut? cutAtByte at h
    split at h
    · cases hr : cutFrom .start (place + 1) 0 (c :: cs) with
      | error m =>
        rw [hr] at h
        cases h
      | ok p =>
        rw [hr] at h
        obtain rfl := Option.some.inj h
        obtain ⟨before', hr⟩ := cutFrom_of_cutFrom_cons (Nat.succ_pos place) hr
        exact Nat.lt_succ_of_le (length_le_of_cutFrom hr)
    · cases h

theorem slice?_byteLength (as bs cs : List Char) :
    slice? (byteLength as) (byteLength (as ++ bs)) (as ++ bs ++ cs) = some bs := by
  rw [slice?, if_pos (by rw [byteLength_append]; omega), cut?_byteLength]
  simp only [Option.bind_eq_bind, Option.bind_some, cut?_byteLength]
  rfl

theorem byteOf?_eq_none (h : c ∉ cs) : byteOf? c cs = none := by
  induction cs with
  | nil => rfl
  | cons x xs ih =>
    have hx := List.ne_of_not_mem_cons h
    rw [byteOf?, if_neg hx.symm, ih (List.not_mem_of_not_mem_cons h)]
    rfl

theorem byteOf?_append (h : c ∉ before) : byteOf? c (before ++ c :: after) = some (byteLength before) := by
  induction before with
  | nil => simp [byteOf?, byteLength]
  | cons x xs ih =>
    have hx := List.ne_of_not_mem_cons h
    rw [List.cons_append, byteOf?, if_neg hx.symm, ih (List.not_mem_of_not_mem_cons h)]
    rfl

end Text

namespace FieldType

open Text

def readBytes (cs : List Char) : Option (Except (List Char) (FieldType × List Char)) :=
  match cs with
  | [] => some (.error [])
  | first :: rest =>
    match BaseType.ofCode? first with
    | some b => do
      let (_, after) ← cut? 1 (first :: rest)
      return .ok (.base b, after)
    | none =>
      if first = 'L' then
        match byteOf? ';' (first :: rest) with
        | some last =>
          if 1 < last then do
            let name ← slice? 1 last (first :: rest)
            let (_, after) ← cut? (last + 1) (first :: rest)
            return .ok (.object (String.ofList name), after)
          else some (.error (first :: rest))
        | none => some (.error (first :: rest))
      else if first = '[' then
        match _h : cut? 1 (first :: rest) with
        | some (_, inner) => (readBytes inner).map (·.map fun (t, after) => (.array t, after))
        | none => none
      else some (.error (first :: rest))
termination_by cs.length
decreasing_by exact length_lt_of_cut? ‹_›

variable {name rest : List Char}

theorem readBytes_array (rest : List Char) : readBytes ('[' :: rest) =
    (readBytes rest).map (·.map fun (t, after) => (.array t, after)) := by
  have hcut : cut? 1 ('[' :: rest) = some (['['], rest) := cut?_byteLength ['['] rest
  have hcode : BaseType.ofCode? '[' = none := rfl
  rw [readBytes]
  simp only [hcode, Char.reduceEq, if_false, if_true]
  split
  next hc =>
    rw [hcut] at hc
    obtain ⟨rfl, rfl⟩ := Prod.mk.inj (Option.some.inj hc)
    rfl
  next hc =>
    rw [hcut] at hc
    cases hc

theorem readBytes_object (h : ';' ∉ name) (hne : name ≠ []) (after : List Char) :
    readBytes ('L' :: (name ++ ';' :: after)) = some (.ok (.object (String.ofList name), after)) := by
  have hcode : BaseType.ofCode? 'L' = none := rfl
  have hbefore : ';' ∉ 'L' :: name := by simp [h]
  have hlast : byteOf? ';' ('L' :: (name ++ ';' :: after)) = some (byteLength ('L' :: name)) :=
    byteOf?_append hbefore
  have hlt : 1 < byteLength ('L' :: name) := by
    obtain ⟨c, cs, rfl⟩ := List.exists_cons_of_ne_nil hne
    have hL : 'L'.utf8Size = 1 := rfl
    have hc := c.utf8Size_pos
    simp only [byteLength_cons, hL]
    omega
  have hpiece : slice? 1 (byteLength ('L' :: name)) ('L' :: (name ++ ';' :: after)) = some name :=
    slice?_byteLength ['L'] name (';' :: after)
  have hafter : cut? (byteLength ('L' :: name) + 1) ('L' :: (name ++ ';' :: after)) =
      some ('L' :: (name ++ [';']), after) := by
    have hcut := cut?_byteLength ('L' :: name ++ [';']) after
    rw [byteLength_append, List.append_assoc] at hcut
    exact hcut
  rw [readBytes]
  simp only [hcode, hlast, if_true, hlt, hpiece, hafter]
  rfl

theorem readBytes_unnamed (h : rest.takeWhile (· != ';') = [] ∨ rest.dropWhile (· != ';') = []) :
    readBytes ('L' :: rest) = some (.error ('L' :: rest)) := by
  have hcode : BaseType.ofCode? 'L' = none := rfl
  have hsplit := rest.takeWhile_append_dropWhile (p := (· != ';'))
  rw [readBytes]
  simp only [hcode, if_true]
  by_cases hs : rest.dropWhile (· != ';') = []
  · have hnone : byteOf? ';' ('L' :: rest) = none := by
      rw [hs, List.append_nil] at hsplit
      have hmem := not_mem_takeWhile rest
      rw [hsplit] at hmem
      exact byteOf?_eq_none (by simp [hmem])
    rw [hnone]
  · obtain ⟨c, after, hafter⟩ := List.exists_cons_of_ne_nil hs
    obtain rfl := dropWhile_eq_cons hafter
    have hone : byteOf? ';' ('L' :: rest) = some 1 := by
      rw [h.resolve_right hs, hafter, List.nil_append] at hsplit
      rw [← hsplit]
      rfl
    rw [hone]
    rfl

theorem readBytes_eq (cs : List Char) : readBytes cs = some (read cs) := by
  fun_induction read cs with
  | case1 => rw [readBytes]
  | case2 rest ih => rw [readBytes_array, ih, Option.map_some]
  | case3 rest c name semicolon after hdrop htake =>
    obtain rfl := dropWhile_eq_cons hdrop
    have hsplit : rest = (c :: name) ++ ';' :: after := by
      rw [← htake, ← hdrop, List.takeWhile_append_dropWhile]
    rw [hsplit]
    exact readBytes_object (htake ▸ not_mem_takeWhile rest) (by simp) after
  | case4 rest h =>
    apply readBytes_unnamed
    by_contra hne
    obtain ⟨htake, hdrop⟩ := not_or.mp hne
    obtain ⟨c, name, hname⟩ := List.exists_cons_of_ne_nil htake
    obtain ⟨semicolon, after, hafter⟩ := List.exists_cons_of_ne_nil hdrop
    exact h c name semicolon after hname hafter
  | case5 c cs hb hl b hc =>
    have hcut : cut? 1 (c :: cs) = some ([c], cs) := by
      obtain rfl := BaseType.code_of_ofCode? hc
      have hone : byteLength [b.code] = 1 := by cases b <;> rfl
      simpa [hone] using cut?_byteLength [b.code] cs
    rw [readBytes]
    simp only [hc, hcut]
    rfl
  | case6 c cs hb hl hc =>
    rw [readBytes]
    simp only [hc]
    rw [if_neg hl, if_neg hb]

end FieldType

end ClassHierarchy
