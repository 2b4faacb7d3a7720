import Mathlib.Data.Fintype.Basic

/-!
# Sides — the two ends of a pair
-/

namespace Pbr.Lib

inductive Side where
  | left | right
  deriving DecidableEq, Repr

namespace Side

instance : Fintype Side := ⟨{.left, .right}, fun s => by cases s <;> simp⟩

def other : Side → Side
  | .left => .right
  | .right => .left

@[simp] theorem other_other (s : Side) : s.other.other = s := by cases s <;> rfl

@[simp] theorem other_ne (s : Side) : s.other ≠ s := by cases s <;> simp [other]

@[simp] theorem ne_other (s : Side) : s ≠ s.other := by cases s <;> simp [other]

theorem eq_or_eq_other (s t : Side) : t = s ∨ t = s.other := by cases s <;> cases t <;> simp [other]

end Side

end Pbr.Lib
