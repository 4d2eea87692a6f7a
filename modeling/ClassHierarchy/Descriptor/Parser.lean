import ClassHierarchy.Descriptor.Basic

namespace ClassHierarchy

namespace FieldType

def read : List Char → Except (List Char) (FieldType × List Char)
  | [] => .error []
  | '[' :: rest => (read rest).map fun (t, after) => (.array t, after)
  | 'L' :: rest =>
    match rest.takeWhile (· != ';'), rest.dropWhile (· != ';') with
    | c :: name, _ :: after => .ok (.object (String.ofList (c :: name)), after)
    | _, _ => .error ('L' :: rest)
  | c :: rest =>
    match BaseType.ofCode? c with
    | some b => .ok (.base b, rest)
    | none => .error (c :: rest)

theorem length_lt_of_read {cs after : List Char} {t : FieldType} (h : read cs = .ok (t, after)) :
    after.length < cs.length := by
  fun_induction read cs generalizing t with
  | case1 => simp at h
  | case2 rest ih =>
    cases hr : read rest with
    | error e => simp [hr, Except.map] at h
    | ok p =>
      obtain ⟨rfl, rfl⟩ := by simpa [hr, Except.map] using h
      have := ih hr
      simp only [List.length_cons]
      omega
  | case3 rest c name semicolon after' hs =>
    have hlen := (List.dropWhile_suffix (l := rest) (· != ';')).length_le
    obtain ⟨-, rfl⟩ := Prod.mk.injEq .. ▸ Except.ok.injEq .. ▸ h
    simp only [hs, List.length_cons] at hlen ⊢
    omega
  | case4 => simp at h
  | case5 c rest _ _ b hb => simp_all
  | case6 => simp at h

end FieldType

def FieldType.ofDescriptor (text : String) : Except InvalidDescriptor FieldType :=
  match FieldType.read text.toList with
  | .ok (t, []) => .ok t
  | .ok _ => .error ⟨text⟩
  | .error part => .error ⟨String.ofList part⟩

namespace MethodDescriptor

inductive ParamsRefusal where
  | unclosed
  | badType (part : List Char)

def readParams (cs : List Char) : Except ParamsRefusal (List FieldType × List Char) :=
  match cs with
  | [] => .error .unclosed
  | ')' :: rest => .ok ([], rest)
  | cs =>
    match _h : FieldType.read cs with
    | .error part => .error (.badType part)
    | .ok (t, after) => (readParams after).map fun (ts, rest) => (t :: ts, rest)
termination_by cs.length
decreasing_by exact FieldType.length_lt_of_read ‹_›

def ofDescriptor (text : String) : Except InvalidDescriptor MethodDescriptor :=
  match text.toList with
  | '(' :: inner =>
    match readParams inner with
    | .error .unclosed => .error ⟨text⟩
    | .error (.badType part) => .error ⟨String.ofList part⟩
    | .ok (_, []) => .error ⟨text⟩
    | .ok (params, ['V']) => .ok ⟨params, .void⟩
    | .ok (_, 'V' :: _) => .error ⟨text⟩
    | .ok (params, rest) =>
      match FieldType.read rest with
      | .ok (t, []) => .ok ⟨params, .value t⟩
      | .ok _ => .error ⟨text⟩
      | .error part => .error ⟨String.ofList part⟩
  | _ => .error ⟨text⟩

end MethodDescriptor

end ClassHierarchy
