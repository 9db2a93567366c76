import DomainColoring.Proofs.Scalar.Rounding

/-!
# Products and quotients of doubles

Products are exact before they are rounded, and quotients are known as far as the rounding needs it. So a product or a quotient in the
spread of a double is rounded to the double. Whole numbers of at most 53 bits are doubles themselves (`Binary64.unpack_toFloat`).
-/

namespace DomainColoring

open Float.Model Float.Model.UnpackedFloat

namespace Binary64

/-! ## Quotients of whole numbers -/

/-- The quotient of whole numbers with what is left over describes their exact quotient. -/
theorem describes_quotient (n : Nat) {d : Nat} (pos : 0 < d) :
    Describes (.ofMantissaAndAccuracy (n / d) (accuracyOfFraction (n % d) d)) ((n : Rat) / d) := by
  have divisor : (0 : Rat) < d := by exact_mod_cast pos
  have whole : (n : Rat) = d * (n / d : Nat) + (n % d : Nat) := by exact_mod_cast (Nat.div_add_mod n d).symm
  have below : n % d < d := Nat.mod_lt n pos
  have value : (n : Rat) / d = (n / d : Nat) + (n % d : Nat) / d := by
    rw [div_eq_iff divisor.ne', whole, add_mul, div_mul_cancel₀ _ divisor.ne', mul_comm]
  rw [value, accuracyOfFraction]
  generalize n / d = q, n % d = r at below
  by_cases none : r = 0
  · simp [none, ExtendedMantissa.ofMantissaAndAccuracy, Describes]
  · have positive : (0 : Rat) < r / d := div_pos (by exact_mod_cast Nat.pos_of_ne_zero none) divisor
    have less : (r : Rat) / d < 1 := (div_lt_one divisor).2 (by exact_mod_cast below)
    rw [if_neg none]
    cases half : compare (2 * r) d with
    | lt =>
      have half : ((2 * r : Nat) : Rat) < d := by exact_mod_cast Nat.compare_eq_lt.1 half
      have part : (r : Rat) / d < 1 / 2 := by
        rw [div_lt_div_iff₀ divisor (by norm_num)]
        push_cast at half
        linarith
      exact ⟨by linarith, by linarith⟩
    | eq =>
      have half : ((2 * r : Nat) : Rat) = d := by exact_mod_cast Nat.compare_eq_eq.1 half
      have part : (r : Rat) / d = 1 / 2 := by
        rw [div_eq_div_iff divisor.ne' (by norm_num)]
        push_cast at half
        linarith
      exact congrArg ((q : Rat) + ·) part
    | gt =>
      have half : (d : Rat) < (2 * r : Nat) := by exact_mod_cast Nat.compare_eq_gt.1 half
      have part : 1 / 2 < (r : Rat) / d := by
        rw [div_lt_div_iff₀ (by norm_num) divisor]
        push_cast at half
        linarith
      exact ⟨by linarith, by linarith⟩

variable {sign₁ sign₂ : Sign} {m₁ m₂ m' : Nat} {e₁ e₂ e' : Int} {pos₁ : 0 < m₁} {pos₂ : 0 < m₂} {pos' : 0 < m'}

/-- The significands of two sizes are multiplied and their exponents added. -/
theorem size_mul_size : size m₁ e₁ * size m₂ e₂ = (m₁ * m₂ : Nat) * 2 ^ (e₁ + e₂) := by
  rw [size, size, zpow_add₀ (by norm_num)]
  push_cast
  ring

/-- Enough is known of a quotient before it is rounded. -/
theorem exists_div (sign₁ sign₂ : Sign) (e₁ e₂ : Int) (pos₁ : 0 < m₁) (pos₂ : 0 < m₂) : ∃ n accuracy w t,
    Describes (.ofMantissaAndAccuracy n accuracy) w ∧ (leadingBit ≤ n ∨ t ≤ -1074) ∧ size m₁ e₁ / size m₂ e₂ = w * 2 ^ t ∧
    UnpackedFloat.div Format.binary64 (.finite sign₁ m₁ e₁ pos₁) (.finite sign₂ m₂ e₂ pos₂) =
      roundWithAccuracy Format.binary64 (sign₁ / sign₂) n t accuracy := by
  change ∃ n accuracy w t, _ ∧ _ ∧ _ ∧ roundWithAccuracy Format.binary64 (sign₁ / sign₂) _ _ _ = _
  generalize chosen : min (e₁ - e₂) (Format.binary64.targetExponent (totalExponent m₁ e₁ - totalExponent m₂ e₂)) = t
  obtain ⟨k, shift⟩ : ∃ k : Nat, e₁ - e₂ = t + k := ⟨(e₁ - e₂ - t).toNat, by omega⟩
  have amount : (e₁ - e₂ - t).toNat = k := by omega
  have quotient : size m₁ e₁ / size m₂ e₂ = ((m₁ <<< k : Nat) : Rat) / m₂ * 2 ^ t := by
    have first : e₁ = e₂ + t + k := by omega
    have divisor : (m₂ : Rat) ≠ 0 := by exact_mod_cast pos₂.ne'
    have power : (2 : Rat) ^ e₂ ≠ 0 := by positivity
    rw [size, size, first, zpow_add₀ (by norm_num), zpow_add₀ (by norm_num), zpow_natCast, Nat.shiftLeft_eq]
    push_cast
    field_simp
  have enough : leadingBit ≤ m₁ <<< k / m₂ ∨ t ≤ -1074 := by
    have bits : Format.binary64.mantissaBits = 53 := rfl
    have least : Format.binary64.minExponent = -1074 := rfl
    rw [Format.targetExponent, totalExponent, totalExponent, bits, least] at chosen
    by_cases low : t ≤ -1074
    · exact .inr low
    · left
      rw [Nat.le_div_iff_mul_le pos₂, Nat.shiftLeft_eq]
      have dividend : 2 ^ m₁.log2 ≤ m₁ := Nat.log2_self_le pos₁.ne'
      have divisor : m₂ < 2 ^ (m₂.log2 + 1) := Nat.lt_log2_self
      have gap : 52 + (m₂.log2 + 1) ≤ m₁.log2 + k := by omega
      calc leadingBit * m₂ ≤ 2 ^ 52 * 2 ^ (m₂.log2 + 1) := Nat.mul_le_mul_left _ divisor.le
        _ = 2 ^ (52 + (m₂.log2 + 1)) := (pow_add ..).symm
        _ ≤ 2 ^ (m₁.log2 + k) := Nat.pow_le_pow_right (by decide) gap
        _ = 2 ^ m₁.log2 * 2 ^ k := pow_add ..
        _ ≤ m₁ * 2 ^ k := Nat.mul_le_mul_right _ dividend
  rw [amount]
  exact ⟨_, _, _, t, describes_quotient _ pos₂, enough, quotient, rfl⟩

/-- A product in the spread of a double is rounded to the double. -/
theorem mul_of_contains (form : Canonical m' e') (enough : leadingBit ≤ m₁ * m₂ ∨ e₁ + e₂ ≤ -1074)
    (inside : (spread m' e').contains (size m₁ e₁ * size m₂ e₂) = true) :
    UnpackedFloat.mul Format.binary64 (.finite sign₁ m₁ e₁ pos₁) (.finite sign₂ m₂ e₂ pos₂) =
      .finite (sign₁ * sign₂) m' e' pos' := by
  rw [size_mul_size] at inside
  exact roundWithAccuracy_of_contains _ form pos' rfl enough inside

/-- A quotient in the spread of a double is rounded to the double. -/
theorem div_of_contains (form : Canonical m' e') (inside : (spread m' e').contains (size m₁ e₁ / size m₂ e₂) = true) :
    UnpackedFloat.div Format.binary64 (.finite sign₁ m₁ e₁ pos₁) (.finite sign₂ m₂ e₂ pos₂) =
      .finite (sign₁ / sign₂) m' e' pos' := by
  obtain ⟨n, accuracy, w, t, described, enough, quotient, rounded⟩ := exists_div sign₁ sign₂ e₁ e₂ pos₁ pos₂
  rw [quotient] at inside
  rw [rounded]
  exact roundWithAccuracy_of_contains _ form pos' described enough inside

section Floats

variable {x y : Float} (hx : x.toModel.unpack = .finite sign₁ m₁ e₁ pos₁) (hy : y.toModel.unpack = .finite sign₂ m₂ e₂ pos₂)

include hx hy

/-- A product is the double whose spread the exact product lies in. -/
theorem float_mul_of_contains (form : Canonical m' e') (enough : leadingBit ≤ m₁ * m₂ ∨ e₁ + e₂ ≤ -1074)
    (inside : (spread m' e').contains (size m₁ e₁ * size m₂ e₂) = true) :
    x * y = ⟨Float.Model.pack (.finite (sign₁ * sign₂) m' e' pos')⟩ := by
  change (⟨Float.Model.pack (UnpackedFloat.mul Format.binary64 x.toModel.unpack y.toModel.unpack)⟩ : Float) = _
  rw [hx, hy, mul_of_contains form enough inside]

/-- A quotient is the double whose spread the exact quotient lies in. -/
theorem float_div_of_contains (form : Canonical m' e') (inside : (spread m' e').contains (size m₁ e₁ / size m₂ e₂) = true) :
    x / y = ⟨Float.Model.pack (.finite (sign₁ / sign₂) m' e' pos')⟩ := by
  change (⟨Float.Model.pack (UnpackedFloat.div Format.binary64 x.toModel.unpack y.toModel.unpack)⟩ : Float) = _
  rw [hx, hy, div_of_contains form inside]

end Floats

/-! ## Whole numbers -/

/-- A whole number of at most 53 bits is a double. -/
theorem unpack_toFloat {n : Nat} (pos : 0 < n) (small : n < 2 * leadingBit) :
    ∃ m e, ∃ nonzero : 0 < m, leadingBit ≤ m ∧ size m e = n ∧
      n.toUInt64.toFloat.toModel.unpack = .finite .positive m e nonzero := by
  have leading : leadingBit = 4503599627370496 := rfl
  have low : 2 ^ n.log2 ≤ n := Nat.log2_self_le pos.ne'
  have high : n < 2 ^ (n.log2 + 1) := Nat.lt_log2_self
  obtain ⟨k, bits⟩ : ∃ k, n.log2 + k = 52 := ⟨52 - n.log2, by have := log2_le_of_lt small; omega⟩
  have full : leadingBit ≤ n <<< k := by
    calc leadingBit = 2 ^ n.log2 * 2 ^ k := by rw [← pow_add, bits]; rfl
      _ ≤ n * 2 ^ k := Nat.mul_le_mul_right _ low
      _ = n <<< k := (Nat.shiftLeft_eq n k).symm
  have short : n <<< k < 2 * leadingBit := by
    calc n <<< k = n * 2 ^ k := Nat.shiftLeft_eq n k
      _ < 2 ^ (n.log2 + 1) * 2 ^ k := Nat.mul_lt_mul_of_pos_right high (by positivity)
      _ = 2 * leadingBit := by rw [← pow_add, Nat.add_right_comm, bits]; rfl
  have form : Canonical (n <<< k) (-k) := ⟨short, .inl full, by omega, by omega⟩
  have nonzero : 0 < n <<< k := by omega
  have rounded : UnpackedFloat.ofNat Format.binary64 n = .finite .positive (n <<< k) (-k) nonzero := by
    have target : Format.binary64.targetExponent (totalExponent n 0) = -(k : Int) := by
      rw [targetExponent_totalExponent, roundingExponent]
      omega
    have amount : (0 - -(k : Int)).toNat = k := by omega
    have shifted : decreaseExponent n 0 (-k) = (n <<< k, -(k : Int)) := by
      rw [decreaseExponent, amount, Int.zero_sub]
    have order : compare (n : Int) 0 = .gt := compare_gt_iff_gt.2 (by exact_mod_cast pos)
    rw [UnpackedFloat.ofNat, UnpackedFloat.ofInt, UnpackedFloat.normalize, order]
    dsimp only
    rw [UnpackedFloat.round, Int.toNat_natCast, target, shifted]
    exact roundWithAccuracy_of_contains _ form nonzero rfl (.inl full) (contains_size _ nonzero)
  refine ⟨n <<< k, -k, nonzero, full, ?_, ?_⟩
  · rw [size, Nat.shiftLeft_eq, zpow_neg, zpow_natCast]
    push_cast
    field_simp
  · have same : n.toUInt64.toNat = n := Nat.mod_eq_of_lt (small.trans (by decide))
    rw [UInt64.toFloat, Float.Model.ofUInt64, UnpackedFloat.ofUInt64, same, rounded]
    exact unpack_pack form

end Binary64

end DomainColoring
