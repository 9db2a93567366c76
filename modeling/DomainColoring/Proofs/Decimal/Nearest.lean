import DomainColoring.Decimal
import DomainColoring.Proofs.Scalar.Operations

/-!
# Decimals in the spread of a double

Every decimal in the spread of a double reads as the double (`Decimal.nearest_of_contains`). A short one is a quotient or a product of two
doubles, a whole number and a power of ten; any other is a product or a quotient of whole numbers.
-/

namespace DomainColoring

open Float.Model Float.Model.UnpackedFloat Binary64

namespace Decimal

variable {m : Nat} {e : Int}

/-- The table of powers of ten holds them exactly. -/
theorem unpack_powerOfTen {k : Nat} (listed : k < Float.exactlyRepresentablePowersOfTen.size) :
    ∃ m e, ∃ nonzero : 0 < m, leadingBit ≤ m ∧ size m e = (10 : Rat) ^ k ∧
      Float.exactlyRepresentablePowersOfTen[k].toModel.unpack = .finite .positive m e nonzero := by
  have table : ∀ i : Fin Float.exactlyRepresentablePowersOfTen.size,
      (match Float.exactlyRepresentablePowersOfTen[i].toModel.unpack with
        | .finite .positive m e _ => leadingBit ≤ m && size m e == (10 : Rat) ^ i.val
        | _ => false) = true := by
    decide +kernel +revert
  have entry := table ⟨k, listed⟩
  rw [Fin.getElem_fin] at entry
  split at entry
  · rename_i m e nonzero unpacked
    obtain ⟨full, exact⟩ := Bool.and_eq_true_iff.1 entry
    exact ⟨m, e, nonzero, of_decide_eq_true full, eq_of_beq exact, unpacked⟩
  · cases entry

/-- No decimal that is near to a double is too small or too great to be taken apart. -/
theorem bounds_of_contains {x : Rat} (form : Canonical m e) (pos : 0 < m) (inside : (spread m e).contains x = true) :
    2 ^ (-1075 : Int) ≤ x ∧ x < 2 ^ (1024 : Int) := by
  have power : (0 : Rat) < 2 ^ e := by positivity
  have scaled : x = x / 2 ^ e * 2 ^ e := (div_mul_cancel₀ x power.ne').symm
  rw [scaled] at inside ⊢
  have near := roundsTo_of_contains pos inside
  generalize x / 2 ^ e = w at near
  have one : (1 : Rat) ≤ m := by exact_mod_cast pos
  have most : (m : Rat) + 1 ≤ 2 ^ (53 : Int) := by exact_mod_cast (form.small : m < 2 ^ 53)
  constructor
  · calc (2 : Rat) ^ (-1075 : Int) = 1 / 2 * 2 ^ (-1074 : Int) := by
          rw [one_div, ← zpow_neg_one, ← zpow_add₀ (by norm_num)]
          rfl
      _ ≤ 1 / 2 * 2 ^ e := mul_le_mul_of_nonneg_left (zpow_le_zpow_right₀ (by norm_num) form.least) (by norm_num)
      _ ≤ w * 2 ^ e := mul_le_mul_of_nonneg_right (by linarith [near.below]) power.le
  · calc w * 2 ^ e < 2 ^ (53 : Int) * 2 ^ e := mul_lt_mul_of_pos_right (by linarith [near.above]) power
      _ ≤ 2 ^ (53 : Int) * 2 ^ (971 : Int) :=
        mul_le_mul_of_nonneg_left (zpow_le_zpow_right₀ (by norm_num) form.greatest) (by positivity)
      _ = 2 ^ (1024 : Int) := by
          rw [← zpow_add₀ (by norm_num)]
          rfl

variable {n : Nat} {place : Int}

theorem tenPower_of_nonneg (h : 0 ≤ place) : (10 : Rat) ^ place = 10 ^ place.natAbs := by
  rw [← zpow_natCast, Int.natAbs_of_nonneg h]

theorem tenPower_of_neg (h : place < 0) : (10 : Rat) ^ place = (10 ^ place.natAbs)⁻¹ := by
  rw [← zpow_natCast, ← zpow_neg, Int.ofNat_natAbs_of_nonpos h.le, neg_neg]

/-- A decimal in the spread of a number other than zero is not zero. -/
theorem pos_of_contains (form : Canonical m e) (pos : 0 < m) (inside : (spread m e).contains (n * (10 : Rat) ^ place) = true) :
    0 < n := by
  apply Nat.pos_of_ne_zero
  rintro rfl
  obtain ⟨low, -⟩ := bounds_of_contains form pos inside
  rw [Nat.cast_zero, zero_mul] at low
  exact absurd low (not_le.2 (by positivity))

/-- A decimal with few digits and a small exponent is read by one operation on doubles. -/
theorem nearest_of_short (form : Canonical m e) (pos : 0 < m)
    (inside : (spread m e).contains (n * (10 : Rat) ^ place) = true) (short : n < 2 ^ 53 ∧ place.natAbs ≤ 22) :
    nearest n place = ⟨Float.Model.pack (.finite .positive m e pos)⟩ := by
  have nonzero : 0 < n := pos_of_contains form pos inside
  obtain ⟨m₁, e₁, nonzero₁, full₁, size₁, unpacked₁⟩ := unpack_toFloat nonzero short.1
  have listed : place.natAbs < Float.exactlyRepresentablePowersOfTen.size := Nat.lt_succ_of_le short.2
  obtain ⟨m₂, e₂, nonzero₂, full₂, size₂, unpacked₂⟩ := unpack_powerOfTen listed
  rw [nearest, Float.ofScientific, dif_pos short]
  dsimp only
  by_cases negative : place < 0
  · have value : n * (10 : Rat) ^ place = size m₁ e₁ / size m₂ e₂ := by
      rw [size₁, size₂, tenPower_of_neg negative, div_eq_mul_inv]
    rw [value] at inside
    rw [if_pos (decide_eq_true negative), float_div_of_contains unpacked₁ unpacked₂ form inside]
    rfl
  · have value : n * (10 : Rat) ^ place = size m₁ e₁ * size m₂ e₂ := by
      rw [size₁, size₂, tenPower_of_nonneg (not_lt.1 negative)]
    have enough : leadingBit ≤ m₁ * m₂ := full₁.trans (Nat.le_mul_of_pos_right m₁ nonzero₂)
    rw [value] at inside
    rw [if_neg (by simpa using negative), float_mul_of_contains unpacked₁ unpacked₂ form (.inl enough) inside]
    rfl

/-- What lies in the spread of a double has an exponent that is neither too small nor too great for the number of its digits. -/
theorem place_bounds (form : Canonical m e) (pos : 0 < m) (inside : (spread m e).contains (n * (10 : Rat) ^ place) = true) :
    -(2048 + (n.log2 : Int)) ≤ place ∧ place ≤ 2048 := by
  obtain ⟨low, high⟩ := bounds_of_contains form pos inside
  constructor
  · by_contra below
    have digits : (n : Rat) ≤ 2 ^ ((n.log2 + 1 : Nat) : Int) := by exact_mod_cast (Nat.lt_log2_self (n := n)).le
    have power : (10 : Rat) ^ place ≤ 2 ^ place := by
      obtain ⟨k, rfl⟩ : ∃ k : Nat, place = -(k : Int) := ⟨place.natAbs, by omega⟩
      rw [zpow_neg, zpow_neg]
      exact inv_anti₀ (by positivity) (zpow_le_zpow_left₀ (by omega) (by norm_num) (by norm_num))
    apply absurd low (not_le.2 _)
    calc (n : Rat) * 10 ^ place ≤ 2 ^ ((n.log2 + 1 : Nat) : Int) * 2 ^ place :=
          mul_le_mul digits power (by positivity) (by positivity)
      _ = 2 ^ ((n.log2 + 1 : Nat) + place) := (zpow_add₀ (by norm_num) ..).symm
      _ < 2 ^ (-1075 : Int) := zpow_lt_zpow_right₀ (by norm_num) (by omega)
  · by_contra above
    have power : (2 : Rat) ^ place ≤ 10 ^ place := zpow_le_zpow_left₀ (by omega) (by norm_num) (by norm_num)
    have one : (1 : Rat) ≤ n := by exact_mod_cast pos_of_contains form pos inside
    apply absurd high (not_lt.2 _)
    calc (2 : Rat) ^ (1024 : Int) ≤ 2 ^ place := zpow_le_zpow_right₀ (by norm_num) (by omega)
      _ ≤ 10 ^ place := power
      _ ≤ n * 10 ^ place := le_mul_of_one_le_left (by positivity) one

/-- Any other is one exact product or quotient of whole numbers, which is rounded once. -/
theorem ofScientific_of_contains (form : Canonical m e) (pos : 0 < m)
    (inside : (spread m e).contains (n * (10 : Rat) ^ place) = true) :
    UnpackedFloat.ofScientific Format.binary64 n place = .finite .positive m e pos := by
  have nonzero : 0 < n := pos_of_contains form pos inside
  obtain ⟨least, greatest⟩ := place_bounds form pos inside
  have bits : (2 : Int) ^ Format.binary64.exponentBits = 2048 := rfl
  rw [UnpackedFloat.ofScientific, dif_neg nonzero.ne', bits, if_neg (not_lt.2 greatest), if_neg (not_lt.2 least)]
  by_cases whole : 0 ≤ place
  · have value : n * (10 : Rat) ^ place = size (n <<< 53) (-53) * size (10 ^ place.toNat) 0 := by
      have same : place.toNat = place.natAbs := by omega
      rw [size, size, Nat.shiftLeft_eq, zpow_neg, zpow_zero, tenPower_of_nonneg whole, same]
      push_cast
      field_simp
    have enough : leadingBit ≤ n <<< 53 * 10 ^ place.toNat := by
      calc leadingBit ≤ n * 2 ^ 53 := (by decide : leadingBit ≤ 2 ^ 53).trans (Nat.le_mul_of_pos_left _ nonzero)
        _ ≤ n <<< 53 * 10 ^ place.toNat := by
          rw [Nat.shiftLeft_eq]
          exact Nat.le_mul_of_pos_right _ (by positivity)
    rw [value] at inside
    rw [if_pos whole]
    exact mul_of_contains form (.inl enough) inside
  · have value : n * (10 : Rat) ^ place = size n 0 / size (10 ^ (-place).toNat) 0 := by
      have same : (-place).toNat = place.natAbs := by omega
      rw [size, size, zpow_zero, tenPower_of_neg (not_le.1 whole), same]
      push_cast
      field_simp
    rw [value] at inside
    rw [if_neg whole]
    exact div_of_contains form inside

/-- A decimal in the spread of a double reads as the double. -/
theorem nearest_of_contains (form : Canonical m e) (pos : 0 < m)
    (inside : (spread m e).contains (n * (10 : Rat) ^ place) = true) :
    nearest n place = ⟨Float.Model.pack (.finite .positive m e pos)⟩ := by
  by_cases short : n < 2 ^ 53 ∧ place.natAbs ≤ 22
  · exact nearest_of_short form pos inside short
  · have signed : (if decide (place < 0) = true then Int.negOfNat place.natAbs else Int.ofNat place.natAbs) = place := by
      by_cases negative : place < 0
      · rw [if_pos (decide_eq_true negative), Int.negOfNat_eq, Int.ofNat_eq_natCast]
        omega
      · rw [if_neg (by simpa using negative), Int.ofNat_eq_natCast]
        omega
    rw [nearest, Float.ofScientific, dif_neg short]
    dsimp only
    rw [signed, Float.Model.ofScientific, ofScientific_of_contains form pos inside]

end Decimal

end DomainColoring
