import DomainColoring.Binary64

/-!
# The order of finite doubles

Two finite doubles can be compared either way round, with opposite results (`compare_of_isFinite`). So what is not at most another
is above it, and what is not below another is at least as great. Neither holds of what is no number.
-/

namespace DomainColoring

open Float.Model

/-- Mantissas of one sign are compared by exponent first. -/
theorem compare_magnitudes (m n : Nat) (e f : Int) :
    (compare f e).then (compare n m) = ((compare e f).then (compare m n)).swap := by
  rw [Ordering.swap_then, ← Std.OrientedCmp.eq_swap, ← Std.OrientedCmp.eq_swap]

/-- Two finite doubles can be compared, and the other way round the order is turned. -/
theorem compare_of_isFinite {a b : UnpackedFloat} (ha : a.isFinite = true) (hb : b.isFinite = true) :
    ∃ order, a.compare b = some order ∧ b.compare a = some order.swap := by
  rcases a with _ | _ | s | ⟨s, m, e, hm⟩
  · cases ha
  · cases ha
  · rcases b with _ | _ | t | ⟨t, n, f, hn⟩
    · cases hb
    · cases hb
    · exact ⟨.eq, rfl, rfl⟩
    · cases t
      · exact ⟨_, rfl, rfl⟩
      · exact ⟨_, rfl, rfl⟩
  · rcases b with _ | _ | t | ⟨t, n, f, hn⟩
    · cases hb
    · cases hb
    · cases s
      · exact ⟨_, rfl, rfl⟩
      · exact ⟨_, rfl, rfl⟩
    · cases s
      · cases t
        · exact ⟨_, rfl, congrArg some (congrArg Ordering.swap (compare_magnitudes m n e f))⟩
        · exact ⟨_, rfl, rfl⟩
      · cases t
        · exact ⟨_, rfl, rfl⟩
        · exact ⟨_, rfl, congrArg some (compare_magnitudes m n e f)⟩

variable {x y : Float}

/-- Doubles are at most as great as others where they are compared so. -/
theorem float_le_iff : x ≤ y ↔ ((x.toModel.unpack.compare y.toModel.unpack).any (·.isLE)) = true := by
  change Float.le x y = true ↔ _
  unfold Float.le
  rw [decide_eq_true_iff]
  rfl

/-- Doubles are less than others where they are compared so. -/
theorem float_lt_iff : x < y ↔ x.toModel.unpack.compare y.toModel.unpack = some .lt := by
  change Float.lt x y = true ↔ _
  unfold Float.lt
  rw [decide_eq_true_iff]
  exact beq_iff_eq

/-- Of two finite doubles one is less unless the other is at most as great. -/
theorem float_lt_of_not_le (hx : x.isFinite = true) (hy : y.isFinite = true) (h : ¬x ≤ y) : y < x := by
  obtain ⟨order, there, back⟩ := compare_of_isFinite hx hy
  rw [float_le_iff, there] at h
  rw [float_lt_iff, back]
  cases order with
  | gt => rfl
  | _ => exact absurd rfl h

/-- Of two finite doubles one is at most as great unless the other is less. -/
theorem float_le_of_not_lt (hx : x.isFinite = true) (hy : y.isFinite = true) (h : ¬x < y) : y ≤ x := by
  obtain ⟨order, there, back⟩ := compare_of_isFinite hx hy
  rw [float_lt_iff, there] at h
  rw [float_le_iff, back]
  cases order with
  | lt => exact absurd rfl h
  | _ => rfl

end DomainColoring
