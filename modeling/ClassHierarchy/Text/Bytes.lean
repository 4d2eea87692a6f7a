import ClassHierarchy.Text.Classes

namespace ClassHierarchy.Text

def byteLength (cs : List Char) : Nat := cs.foldr (·.utf8Size + ·) 0

inductive Edge where
  | start
  | finish
  deriving DecidableEq

def Edge.label : Edge → String
  | .start => "start"
  | .finish => "end"

structure Miscut where
  edge : Edge
  place : Nat
  inside : Char
  first : Nat
  deriving DecidableEq

def Miscut.message (m : Miscut) : String :=
  let edge := m.edge.label
  let place := m.place
  let inside := String.ofList (escaped m.inside)
  let first := m.first
  let next := m.first + m.inside.utf8Size
  s!"{edge} byte index {place} is not a char boundary; " ++
    s!"it is inside '{inside}' (bytes {first}..{next} of string)"

instance : ToString Miscut := ⟨Miscut.message⟩

def cutFrom (edge : Edge) (place : Nat) :
    (first : Nat) → List Char → Except Miscut (List Char × List Char)
  | _, [] => .ok ([], [])
  | first, c :: cs =>
    if place ≤ first then .ok ([], c :: cs)
    else if place < first + c.utf8Size then .error { edge, place, inside := c, first }
    else do
      let (before, after) ← cutFrom edge place (first + c.utf8Size) cs
      return (c :: before, after)

def cutAtByte (edge : Edge) (place : Nat) (text : List Char) :
    Except Miscut (List Char × List Char) :=
  cutFrom edge place 0 text

theorem byteLength_cons (c : Char) (cs : List Char) :
    byteLength (c :: cs) = c.utf8Size + byteLength cs := rfl

theorem cutFrom_byteLength (edge : Edge) (first : Nat) (as bs : List Char) :
    cutFrom edge (first + byteLength as) first (as ++ bs) = .ok (as, bs) := by
  induction as generalizing first with
  | nil => cases bs <;> simp [cutFrom, byteLength]
  | cons c cs ih =>
    have hc := Char.utf8Size_pos c
    have h := ih (first + c.utf8Size)
    rw [Nat.add_assoc, ← byteLength_cons] at h
    have hlo : ¬ first + byteLength (c :: cs) ≤ first := by
      rw [byteLength_cons]; omega
    have hhi : ¬ first + byteLength (c :: cs) < first + c.utf8Size := by
      rw [byteLength_cons]; omega
    rw [List.cons_append, cutFrom, if_neg hlo, if_neg hhi, h]
    rfl

theorem cutAtByte_byteLength (edge : Edge) (as bs : List Char) :
    cutAtByte edge (byteLength as) (as ++ bs) = .ok (as, bs) := by
  simpa [cutAtByte] using cutFrom_byteLength edge 0 as bs

end ClassHierarchy.Text
