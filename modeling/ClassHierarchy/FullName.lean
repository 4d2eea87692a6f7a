import ClassHierarchy.Primitive
import ClassHierarchy.Text.Split

/-!
Full names, the keys under which classes are registered. A reference type has its dotted name
(`java.util.Map$Entry`), a primitive its keyword, and an array one `[` per dimension before its
element: a primitive's code (`[I`) or a reference name between `L` and `;`
(`[Ljava.lang.String;`).
-/

namespace ClassHierarchy

abbrev FullName := String

inductive ArrayElement where
  | primitive (p : Primitive)
  | named (name : FullName)
  deriving DecidableEq

namespace ArrayElement

def decode? : List Char → Option ArrayElement
  | [] => none
  | '[' :: rest => some (.named (String.ofList ('[' :: rest)))
  | 'L' :: rest =>
    if rest.getLast? = some ';' ∧ rest.dropLast ≠ [] then
      some (.named (String.ofList rest.dropLast))
    else none
  | [c] => (Primitive.ofCode? c).map .primitive
  | _ :: _ :: _ => none

end ArrayElement

namespace FullName

def isArray (name : FullName) : Bool := name.toList.head? == some '['

/-- One array dimension less. A name that is no array has no element, nor has a malformed one. -/
def element? (name : FullName) : Option ArrayElement :=
  match name.toList with
  | '[' :: rest => ArrayElement.decode? rest
  | _ => none

theorem length_le_of_decode? {cs : List Char} {inner : FullName}
    (h : ArrayElement.decode? cs = some (.named inner)) : inner.toList.length ≤ cs.length := by
  revert h
  fun_cases ArrayElement.decode? cs <;> simp
  case case2 => rintro rfl; simp
  case case3 rest hrest =>
    intro h
    subst h
    simp
    omega

theorem length_lt_of_element? {name inner : FullName} (h : name.element? = some (.named inner)) :
    inner.toList.length < name.toList.length := by
  simp only [element?] at h
  split at h
  next rest hn =>
    have := length_le_of_decode? h
    simp only [hn, List.length_cons]
    omega
  next => simp at h

def elementChain (name : FullName) : List FullName :=
  match h : name.element? with
  | some (.named inner) =>
    have := length_lt_of_element? h
    inner :: elementChain inner
  | _ => []
termination_by name.toList.length

def short (name : FullName) : String :=
  match Text.splitLast? '.' name.toList with
  | some (_, after) => String.ofList after
  | none => name

def package? (name : FullName) : Option String :=
  (Text.splitLast? '.' name.toList).map fun p => String.ofList p.1

def outer? (name : FullName) : Option FullName :=
  (Text.splitLast? '$' name.toList).map fun p => String.ofList p.1

end FullName

def dotted (name : List Char) : List Char := name.map fun c => if c = '/' then '.' else c

def FullName.ofInternal (name : String) : FullName := String.ofList (dotted name.toList)

end ClassHierarchy
