import Mathlib.Order.Defs.Unbundled
import Mathlib.Tactic.Common
import ClassHierarchy.Primitive
import ClassHierarchy.Text.Split

namespace ClassHierarchy

instance ClassId.trichotomous : Std.Trichotomous (· < · : ClassId → ClassId → Prop) where
  trichotomous a b hab hba := by
    have hab : ¬ a.index < b.index := hab
    have hba : ¬ b.index < a.index := hba
    exact ClassId.ext (by omega)

instance ClassId.isTrans : IsTrans ClassId (· < ·) where
  trans _ _ _ := Nat.lt_trans

namespace SortedList

variable {α : Type} [LT α] [DecidableLT α] [Std.Trichotomous (· < · : α → α → Prop)] {x y : α} {xs : List α}

theorem mem_insert : x ∈ insert y xs ↔ x = y ∨ x ∈ xs := by
  induction xs with
  | nil => simp [insert]
  | cons z zs ih =>
    unfold insert
    split
    · simp
    next hyz =>
      split
      · simp only [List.mem_cons, ih]
        tauto
      next hzy => simp [Std.Trichotomous.trichotomous y z hyz hzy]

theorem mem_ofList : x ∈ ofList xs ↔ x ∈ xs := by
  induction xs with
  | nil => simp [ofList]
  | cons y ys ih =>
    change x ∈ insert y (ofList ys) ↔ _
    rw [mem_insert, ih, List.mem_cons]

variable [IsTrans α (· < ·)]

theorem pairwise_insert (h : xs.Pairwise (· < ·)) : (insert y xs).Pairwise (· < ·) := by
  induction xs with
  | nil => simp [insert]
  | cons z zs ih =>
    obtain ⟨hz, hzs⟩ := List.pairwise_cons.mp h
    unfold insert
    split
    next hyz =>
      refine List.pairwise_cons.mpr ⟨fun w hw => ?_, h⟩
      rcases List.mem_cons.mp hw with rfl | hw
      · exact hyz
      · exact IsTrans.trans _ _ _ hyz (hz w hw)
    · split
      next hzy =>
        refine List.pairwise_cons.mpr ⟨fun w hw => ?_, ih hzs⟩
        rcases mem_insert.mp hw with rfl | hw
        · exact hzy
        · exact hz w hw
      · exact h

theorem pairwise_ofList (xs : List α) : (ofList xs).Pairwise (· < ·) := by
  induction xs with
  | nil => exact .nil
  | cons y ys ih => exact pairwise_insert ih

end SortedList

end ClassHierarchy
