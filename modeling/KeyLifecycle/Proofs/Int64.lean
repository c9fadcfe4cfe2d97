import Mathlib.Algebra.Group.Int.Defs
import Mathlib.Algebra.Group.Nat.Defs
import Mathlib.Data.Int.Order.Basic
import Mathlib.Order.MinMax

/-!
# Counting with sixty-four bits

Rows and users are numbered by counters of sixty-four bits, which begin anew after their last
number. The number after a number is one more as long as there is room for it
(`KeyLifecycle.Int64.toInt_add_one`), and is another number in any case
(`KeyLifecycle.Int64.add_one_ne`). A counter that has to be at the greatest number seen is moved by
`max`, which is that of the integers (`KeyLifecycle.Int64.toInt_max`).
-/

namespace KeyLifecycle

namespace Int64

variable {n : Int64}

/-! ### The number after a number -/

/-- **The number after a number is one more**, as long as there is one. -/
theorem toInt_add_one (h : n.toInt + 1 < 2 ^ 63) : (n + 1).toInt = n.toInt + 1 := by
  have hle := Int64.le_toInt n
  have hone : (1 : Int64).toInt = 1 := rfl
  rw [Int64.toInt_add, hone]
  exact Int.bmod_eq_of_le (by omega) (by omega)

theorem lt_add_one (h : n.toInt + 1 < 2 ^ 63) : n < n + 1 := by
  rw [Int64.lt_iff_toInt_lt, toInt_add_one h]
  omega

theorem add_one_ne (n : Int64) : n + 1 ≠ n := by
  rw [Ne, Int64.add_eq_left]
  decide

/-! ### The greater of two numbers -/

/-- The greater of two numbers is one of them, and no less than either. -/
instance instLawfulOrderMax : Std.LawfulOrderMax Int64 where
  max_eq_or a b := by
    change (if a ≤ b then b else a) = a ∨ _
    split
    · exact Or.inr (if_pos ‹_›)
    · exact Or.inl rfl
  max_le_iff a b c := by
    change (if a ≤ b then b else a) ≤ c ↔ _
    split
    · exact ⟨fun h => ⟨Int64.le_trans ‹_› h, h⟩, And.right⟩
    · exact ⟨fun h => ⟨h, Int64.le_trans ((Int64.le_total a b).resolve_left ‹_›) h⟩, And.left⟩

theorem toInt_max (a b : Int64) : (max a b).toInt = max a.toInt b.toInt := by
  by_cases h : a ≤ b
  · rw [max_eq_right (Int64.le_iff_toInt_le.mp h)]
    exact congrArg Int64.toInt (if_pos h)
  · rw [max_eq_left (Int.le_of_lt (Int.not_le.mp fun hle => h (Int64.le_iff_toInt_le.mpr hle)))]
    exact congrArg Int64.toInt (if_neg h)

/-- A counter at the greatest number seen goes to the number after that. -/
theorem max_add_one (h : n.toInt + 1 < 2 ^ 63) : max n (n + 1) = n + 1 :=
  if_pos (Int64.le_of_lt (lt_add_one h))

end Int64

end KeyLifecycle
