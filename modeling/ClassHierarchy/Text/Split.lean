namespace ClassHierarchy.Text

def splitLast? (c : Char) : List Char → Option (List Char × List Char)
  | [] => none
  | x :: xs =>
    match splitLast? c xs with
    | some (before, after) => some (x :: before, after)
    | none => if x = c then some ([], xs) else none

theorem splitLast?_eq_none {c : Char} {cs : List Char} : splitLast? c cs = none ↔ c ∉ cs := by
  induction cs with
  | nil => simp [splitLast?]
  | cons x xs ih =>
    simp only [splitLast?]
    cases h : splitLast? c xs with
    | none =>
      have hx : c ∉ xs := ih.1 h
      by_cases hc : x = c
      · simp [hc]
      · simp [hc, hx, Ne.symm hc]
    | some p =>
      have hx : c ∈ xs := by
        by_cases hm : c ∈ xs
        · exact hm
        · exact absurd (ih.2 hm) (by simp [h])
      simp [hx]

theorem eq_append_of_splitLast? {c : Char} {cs before after : List Char}
    (h : splitLast? c cs = some (before, after)) : cs = before ++ c :: after ∧ c ∉ after := by
  induction cs generalizing before with
  | nil => simp [splitLast?] at h
  | cons x xs ih =>
    simp only [splitLast?] at h
    cases hs : splitLast? c xs with
    | none =>
      simp only [hs] at h
      split at h
      next hc =>
        obtain ⟨rfl, rfl⟩ := by simpa using h
        exact ⟨by simp [hc], splitLast?_eq_none.1 hs⟩
      next => simp at h
    | some p =>
      simp only [hs, Option.some.injEq, Prod.mk.injEq] at h
      obtain ⟨rfl, rfl⟩ := h
      exact ⟨by simp [(ih hs).1], (ih hs).2⟩

def pieces (c : Char) : List Char → List (List Char)
  | [] => [[]]
  | x :: xs =>
    if x = c then [] :: pieces c xs
    else
      match pieces c xs with
      | [] => [[x]]
      | p :: ps => (x :: p) :: ps

theorem pieces_ne_nil (c : Char) (cs : List Char) : pieces c cs ≠ [] := by
  cases cs with
  | nil => simp [pieces]
  | cons x xs =>
    simp only [pieces]
    split
    · simp
    · split <;> simp

theorem pieces_of_not_mem {c : Char} {cs : List Char} (h : c ∉ cs) : pieces c cs = [cs] := by
  induction cs with
  | nil => rfl
  | cons x xs ih =>
    have hx : x ≠ c := fun hx => h (hx ▸ List.mem_cons_self)
    have hxs : c ∉ xs := fun hxs => h (List.mem_cons_of_mem x hxs)
    simp [pieces, hx, ih hxs]

theorem pieces_append (c : Char) (as bs : List Char) :
    pieces c (as ++ c :: bs) = pieces c as ++ pieces c bs := by
  induction as with
  | nil => simp [pieces]
  | cons x xs ih =>
    by_cases hx : x = c
    · simp [pieces, hx, ih]
    · simp only [List.cons_append, pieces, hx, if_false, ih]
      cases h : pieces c xs with
      | nil => exact absurd h (pieces_ne_nil c xs)
      | cons p ps => simp

def isBlank (c : Char) : Bool :=
  let n := c.toNat
  9 ≤ n && n ≤ 13 || n == 0x20 || n == 0x85 || n == 0xA0 || n == 0x1680 ||
    0x2000 ≤ n && n ≤ 0x200A || n == 0x2028 || n == 0x2029 || n == 0x202F || n == 0x205F ||
    n == 0x3000

def trimEnd (cs : List Char) : List Char := (cs.reverse.dropWhile isBlank).reverse

def trim (cs : List Char) : List Char := trimEnd (cs.dropWhile isBlank)

end ClassHierarchy.Text

namespace ClassHierarchy.SortedList

variable {α : Type} [LT α] [DecidableLT α]

def insert (x : α) : List α → List α
  | [] => [x]
  | y :: ys => if x < y then x :: y :: ys else if y < x then y :: insert x ys else y :: ys

def ofList (xs : List α) : List α := xs.foldr insert []

end ClassHierarchy.SortedList
