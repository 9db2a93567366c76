import DomainColoring.Decimal
import DomainColoring.Proofs.Scalar.Parts

/-!
# Rounding to doubles

A number that is about to be rounded is held as a whole number with two bits, which say how it lies to the next half (`Describes`). The
bits stay right while it is shifted, and so it is rounded to the nearest double, ties to even (`Binary64.roundWithAccuracy_eq`). What
lies in the spread of a double is therefore rounded to the double (`Binary64.roundWithAccuracy_of_contains`).
-/

namespace DomainColoring

open Float.Model Float.Model.UnpackedFloat

namespace Binary64

/-! ## A whole number and two bits -/

/-- What a whole number says of a number with its round bit, which is worth one half, and its sticky bit, which says that there is
more. -/
def Describes (x : ExtendedMantissa) (w : Rat) : Prop :=
  match x with
  | ⟨n, false, false⟩ => w = n
  | ⟨n, false, true⟩ => n < w ∧ w < n + 1 / 2
  | ⟨n, true, false⟩ => w = n + 1 / 2
  | ⟨n, true, true⟩ => n + 1 / 2 < w ∧ w < n + 1

/-- The nearest whole number, or the even one of two that are equally near. -/
structure RoundsTo (w : Rat) (n : Nat) : Prop where
  above : w ≤ n + 1 / 2
  below : n ≤ w + 1 / 2
  even : w = n + 1 / 2 ∨ n = w + 1 / 2 → n % 2 = 0

/-- Of two whole numbers one apart only one is even, so the order is kept on halves too. -/
theorem RoundsTo.mono {w v : Rat} {n k : Nat} (hn : RoundsTo w n) (hk : RoundsTo v k) (le : w ≤ v) : n ≤ k := by
  by_contra less
  have one : (k : Rat) + 1 ≤ n := by exact_mod_cast not_le.1 less
  have above := hk.above
  have below := hn.below
  have evenK := hk.even (.inl (by linarith))
  have evenN := hn.even (.inr (by linarith))
  have next : n = k + 1 := by
    have same : (n : Rat) = k + 1 := by linarith
    exact_mod_cast same
  omega

/-- A number is rounded to one whole number only. -/
theorem RoundsTo.unique {w : Rat} {n k : Nat} (hn : RoundsTo w n) (hk : RoundsTo w k) : n = k :=
  le_antisymm (hn.mono hk le_rfl) (hk.mono hn le_rfl)

namespace Describes

variable {x : ExtendedMantissa} {w : Rat}

/-- What two bits describe lies between two neighbouring whole numbers. -/
theorem bounds (h : Describes x w) : (x.mantissa : Rat) ≤ w ∧ w < x.mantissa + 1 := by
  rcases x with ⟨n, round, sticky⟩
  cases round <;> cases sticky <;> simp only [Describes] at h ⊢ <;> constructor <;> linarith

/-- The whole number is rounded by its two bits. -/
theorem roundsTo (h : Describes x w) : RoundsTo w x.roundedMantissa := by
  rcases x with ⟨n, round, sticky⟩
  cases round with
  | false =>
    have near : (n : Rat) ≤ w ∧ w < n + 1 / 2 := by
      cases sticky with
      | false => exact ⟨h.ge, by linarith [show w = n from h]⟩
      | true => exact ⟨h.1.le, h.2⟩
    have rounded : ExtendedMantissa.roundedMantissa ⟨n, false, sticky⟩ = n := by cases sticky <;> rfl
    rw [rounded]
    refine ⟨by linarith, by linarith, ?_⟩
    rintro (half | half)
    · linarith
    · linarith
  | true =>
    cases sticky with
    | false =>
      have half : w = n + 1 / 2 := h
      have rounded : ExtendedMantissa.roundedMantissa ⟨n, true, false⟩ = n + n % 2 := rfl
      rw [rounded]
      rcases Nat.mod_two_eq_zero_or_one n with even | odd
      · rw [even, Nat.add_zero]
        exact ⟨by linarith, by linarith, fun _ => even⟩
      · rw [odd]
        refine ⟨?_, ?_, fun _ => by omega⟩ <;> push_cast <;> linarith
    | true =>
      obtain ⟨low, high⟩ : (n : Rat) + 1 / 2 < w ∧ w < n + 1 := h
      have rounded : ExtendedMantissa.roundedMantissa ⟨n, true, true⟩ = n + 1 := rfl
      rw [rounded]
      refine ⟨?_, ?_, ?_⟩ <;> push_cast
      · linarith
      · linarith
      · rintro (half | half)
        · linarith
        · linarith

/-- The last bit of the whole number becomes the round bit. -/
theorem shiftRightOne (h : Describes x w) : Describes x.shiftRightOne (w / 2) := by
  rcases x with ⟨n, round, sticky⟩
  have parts : (n : Rat) = 2 * (n / 2 : Nat) + (n % 2 : Nat) := by exact_mod_cast (Nat.div_add_mod n 2).symm
  have bounds := h.bounds
  dsimp only at bounds
  have exact : (round || sticky) = false → w = n := by
    intro none
    obtain ⟨rfl, rfl⟩ := Bool.or_eq_false_iff.1 none
    exact h
  have inexact : (round || sticky) = true → n < w := by
    intro nonzero
    cases round <;> cases sticky <;> simp only [Describes, Bool.or_self, Bool.false_eq_true] at h nonzero <;> linarith
  rcases Nat.mod_two_eq_zero_or_one n with even | odd
  · have shifted : ExtendedMantissa.shiftRightOne ⟨n, round, sticky⟩ = ⟨n / 2, false, round || sticky⟩ := by
      rw [ExtendedMantissa.shiftRightOne, even]
      rfl
    rw [even, Nat.cast_zero, add_zero] at parts
    rw [shifted]
    cases rest : round || sticky with
    | false =>
      have same := exact rest
      change w / 2 = _
      linarith
    | true =>
      have more := inexact rest
      constructor <;> linarith
  · have shifted : ExtendedMantissa.shiftRightOne ⟨n, round, sticky⟩ = ⟨n / 2, true, round || sticky⟩ := by
      rw [ExtendedMantissa.shiftRightOne, odd]
      rfl
    rw [odd, Nat.cast_one] at parts
    rw [shifted]
    cases rest : round || sticky with
    | false =>
      have same := exact rest
      change w / 2 = _
      linarith
    | true =>
      have more := inexact rest
      constructor <;> linarith

/-- A shift keeps in two bits what is shifted out. -/
theorem shiftRight (h : Describes x w) (k : Nat) : Describes (x >>> k) (w / 2 ^ k) := by
  change Describes (k.repeat ExtendedMantissa.shiftRightOne x) _
  induction k with
  | zero => simpa [Nat.repeat] using h
  | succ k ih =>
    rw [pow_succ, ← div_div]
    exact ih.shiftRightOne

end Describes

/-! ## Rounding to a double -/

/-- The exponent of the doubles around a number with `m` for a whole part, over the exponent `e`. -/
def roundingExponent (m : Nat) (e : Int) : Int :=
  max (m.log2 - 52 + e) (-1074)

/-- The exponent that a number is rounded at is that of its grid. -/
theorem targetExponent_totalExponent (m : Nat) (e : Int) :
    Format.binary64.targetExponent (totalExponent m e) = roundingExponent m e := by
  have least : Format.binary64.minExponent = -1074 := rfl
  have bits : Format.binary64.mantissaBits = 53 := rfl
  rw [Format.targetExponent, totalExponent, least, bits, roundingExponent]
  omega

/-- Below twice the leading bit there are 53 bits at most. -/
theorem log2_le_of_lt {m : Nat} (h : m < 2 * leadingBit) : m.log2 ≤ 52 := by
  by_cases zero : m = 0
  · rw [zero]
    decide
  · have small : m.log2 < 53 := (Nat.log2_lt zero).2 h
    omega

/-- From the leading bit on there are 53 bits at least. -/
theorem le_log2_of_le {m : Nat} (h : leadingBit ≤ m) : 52 ≤ m.log2 := by
  have leading : leadingBit = 4503599627370496 := rfl
  exact (Nat.le_log2 (by omega)).2 h

/-- A significand is shifted as far as its exponent is from the one that it is rounded at. -/
theorem shiftToTargetExponent_eq {m k : Nat} {e : Int} (accuracy : Accuracy) (amount : (roundingExponent m e - e).toNat = k) :
    shiftToTargetExponent Format.binary64 m e accuracy =
      (ExtendedMantissa.ofMantissaAndAccuracy m accuracy >>> k, e + k) := by
  rw [shiftToTargetExponent, targetExponent_totalExponent, shiftToExponent, amount]

/-- A whole number of at most 53 bits keeps its exponent, if that is not below the least. -/
theorem shiftToTargetExponent_of_lt {m : Nat} {e : Int} (small : m < 2 * leadingBit) (least : -1074 ≤ e) :
    shiftToTargetExponent Format.binary64 m e .exact = (⟨m, false, false⟩, e) := by
  have log := log2_le_of_lt small
  have none : (roundingExponent m e - e).toNat = 0 := by
    rw [roundingExponent]
    omega
  rw [shiftToTargetExponent_eq .exact none, Nat.cast_zero, add_zero]
  rfl

/-- The least whole number of 54 bits is shifted by one. -/
theorem shiftToTargetExponent_two_leadingBit {e : Int} (least : -1074 ≤ e) :
    shiftToTargetExponent Format.binary64 (2 * leadingBit) e .exact = (⟨leadingBit, false, false⟩, e + 1) := by
  have log : (2 * leadingBit).log2 = 53 := by decide +kernel
  have one : (roundingExponent (2 * leadingBit) e - e).toNat = 1 := by
    rw [roundingExponent]
    omega
  rw [shiftToTargetExponent_eq .exact one]
  rfl

/-- A significand with its accuracy lies between two neighbouring whole numbers. -/
theorem bounds_of_described {m : Nat} {accuracy : Accuracy} {w : Rat} (h : Describes (.ofMantissaAndAccuracy m accuracy) w) :
    (m : Rat) ≤ w ∧ w < (m + 1 : Nat) := by
  have mantissa : (ExtendedMantissa.ofMantissaAndAccuracy m accuracy).mantissa = m := by
    rcases accuracy with _ | order
    · rfl
    · cases order <;> rfl
  have bounds := h.bounds
  rw [mantissa] at bounds
  exact_mod_cast bounds

/-- A number between whole numbers lies between powers of two. -/
theorem power_bounds {m : Nat} {accuracy : Accuracy} {w : Rat} (described : Describes (.ofMantissaAndAccuracy m accuracy) w)
    (d : Int) : (m ≠ 0 → (2 : Rat) ^ (m.log2 + d) ≤ w * 2 ^ d) ∧ w * 2 ^ d < 2 ^ (m.log2 + 1 + d) := by
  obtain ⟨low, high⟩ := bounds_of_described described
  have positive : (0 : Rat) < 2 ^ d := by positivity
  constructor
  · intro nonzero
    have log : 2 ^ m.log2 ≤ m := Nat.log2_self_le nonzero
    have log : (2 : Rat) ^ m.log2 ≤ w := (by exact_mod_cast log : (2 : Rat) ^ m.log2 ≤ m).trans low
    rw [zpow_add₀ (by norm_num), zpow_natCast]
    exact mul_le_mul_of_nonneg_right log positive.le
  · have log : m + 1 ≤ 2 ^ (m.log2 + 1) := Nat.lt_log2_self
    have log : w < (2 : Rat) ^ (m.log2 + 1) := high.trans_le (by exact_mod_cast log)
    rw [zpow_add₀ (by norm_num), ← Nat.cast_succ, zpow_natCast]
    exact mul_lt_mul_of_pos_right log positive

/-- A number of which enough is known is rounded to a double: over the exponent of the doubles around it the nearest whole number is
taken, and if that has 54 bits then half of it over the next exponent. -/
theorem roundWithAccuracy_eq {m : Nat} {accuracy : Accuracy} {w : Rat} {e : Int} (sign : Sign)
    (described : Describes (.ofMantissaAndAccuracy m accuracy) w) (enough : leadingBit ≤ m ∨ e ≤ -1074) :
    ∃ n, RoundsTo (w * 2 ^ (e - roundingExponent m e)) n ∧ n ≤ 2 * leadingBit ∧
      roundWithAccuracy Format.binary64 sign m e accuracy =
        if h : n = 0 then .zero sign
        else if n < 2 * leadingBit then .finite sign n (roundingExponent m e) (Nat.pos_of_ne_zero h)
        else .finite sign leadingBit (roundingExponent m e + 1) (by decide) := by
  have least : -1074 ≤ roundingExponent m e := le_max_right _ _
  -- Nothing is to be shifted back: either there are bits enough, or the exponent is that of the least doubles or below it.
  obtain ⟨k, shift⟩ : ∃ k : Nat, e + k = roundingExponent m e := by
    refine ⟨(roundingExponent m e - e).toNat, ?_⟩
    rcases enough with leading | small
    · have log := le_log2_of_le leading
      rw [roundingExponent]
      omega
    · omega
  have amount : (roundingExponent m e - e).toNat = k := by omega
  have first := shiftToTargetExponent_eq accuracy amount
  have scaled : w * 2 ^ (e - roundingExponent m e) = w / 2 ^ k := by
    have difference : e - roundingExponent m e = -(k : Int) := by omega
    rw [difference, zpow_neg, zpow_natCast, div_eq_mul_inv]
  have rounds := (described.shiftRight k).roundsTo
  generalize rounded : (ExtendedMantissa.ofMantissaAndAccuracy m accuracy >>> k).roundedMantissa = n at rounds
  have small : n ≤ 2 * leadingBit := by
    have below : w / 2 ^ k < 2 ^ (53 : Int) := by
      have exponent : (m.log2 : Int) + 1 + (e - roundingExponent m e) ≤ 53 := by
        rw [roundingExponent]
        omega
      rw [← scaled]
      exact (power_bounds described _).2.trans_le (zpow_le_zpow_right₀ (by norm_num) exponent)
    have near : (n : Rat) < 2 ^ 53 + 1 := by linarith [rounds.below]
    have near : n < 2 ^ 53 + 1 := by exact_mod_cast near
    exact Nat.le_of_lt_succ near
  refine ⟨n, scaled ▸ rounds, small, ?_⟩
  rw [roundWithAccuracy, first, shift]
  dsimp only
  rw [rounded]
  by_cases few : n < 2 * leadingBit
  · rw [shiftToTargetExponent_of_lt few least]
    simp only [if_pos few]
  · obtain rfl : n = 2 * leadingBit := by omega
    rw [shiftToTargetExponent_two_leadingBit least]
    rfl

/-! ## The spread of a double -/

/-- How far below a double, in units of its last place, the numbers begin that round to it. -/
def gapBelow (m : Nat) (e : Int) : Rat :=
  if m = leadingBit ∧ -1074 < e then 1 / 4 else 1 / 2

theorem gapBelow_pos (m : Nat) (e : Int) : 0 < gapBelow m e := by
  unfold gapBelow
  split <;> norm_num

/-- The gap below a size reaches half of a unit at most. -/
theorem gapBelow_le (m : Nat) (e : Int) : gapBelow m e ≤ 1 / 2 := by
  unfold gapBelow
  split <;> norm_num

/-- What lies in the spread of a double is within half of its last place, and within a quarter below a power of two. A tie is there
only if the significand is even. -/
theorem contains_iff {m : Nat} {e : Int} {w : Rat} (pos : 0 < m) : (spread m e).contains (w * 2 ^ e) = true ↔
    if m % 2 = 0 then m - gapBelow m e ≤ w ∧ w ≤ m + 1 / 2 else m - gapBelow m e < w ∧ w < m + 1 / 2 := by
  have positive : (0 : Rat) < 2 ^ e := by positivity
  have quarter : (2 : Rat) ^ (e - 2) = 1 / 4 * 2 ^ e := by
    rw [zpow_sub₀ (by norm_num)]
    ring
  have lower : (spread m e).lower = (m - gapBelow m e) * 2 ^ e := by
    change ((4 * m - (if m = leadingBit ∧ -1074 < e then 1 else 2) : Nat) : Rat) * 2 ^ (e - 2) = _
    rw [quarter, ← mul_assoc, gapBelow]
    congr 1
    split
    · rw [Nat.cast_sub (by omega)]
      push_cast
      ring
    · rw [Nat.cast_sub (by omega)]
      push_cast
      ring
  have upper : (spread m e).upper = (m + 1 / 2) * 2 ^ e := by
    change ((4 * m + 2 : Nat) : Rat) * 2 ^ (e - 2) = _
    rw [quarter]
    push_cast
    ring
  have closed : (spread m e).closed = true ↔ m % 2 = 0 := decide_eq_true_iff
  rw [Spread.contains]
  by_cases even : m % 2 = 0
  · rw [if_pos (closed.2 even), if_pos even, Bool.and_eq_true, decide_eq_true_eq, decide_eq_true_eq, lower, upper,
      mul_le_mul_iff_left₀ positive, mul_le_mul_iff_left₀ positive]
  · rw [if_neg (mt closed.1 even), if_neg even, Bool.and_eq_true, decide_eq_true_eq, decide_eq_true_eq, lower, upper,
      mul_lt_mul_iff_left₀ positive, mul_lt_mul_iff_left₀ positive]

/-- What is nearer to a double than the border of its spread lies in it. -/
theorem contains_of_near {m : Nat} {e : Int} {w : Rat} (pos : 0 < m) (low : m - gapBelow m e < w) (high : w < m + 1 / 2) :
    (spread m e).contains (w * 2 ^ e) = true := by
  rw [contains_iff pos]
  split
  · exact ⟨low.le, high.le⟩
  · exact ⟨low, high⟩

theorem contains_size {m : Nat} (e : Int) (pos : 0 < m) : (spread m e).contains (size m e) = true :=
  contains_of_near pos (sub_lt_self _ (gapBelow_pos m e)) (lt_add_of_pos_right _ (by norm_num))

/-- What lies in the spread of a significand is rounded to it. -/
theorem roundsTo_of_contains {m : Nat} {e : Int} {w : Rat} (pos : 0 < m)
    (inside : (spread m e).contains (w * 2 ^ e) = true) : RoundsTo w m := by
  have gap := gapBelow_le m e
  rw [contains_iff pos] at inside
  split at inside
  · rename_i even
    exact ⟨inside.2, by linarith [inside.1], fun _ => even⟩
  · obtain ⟨low, high⟩ := inside
    refine ⟨high.le, by linarith, ?_⟩
    rintro (tie | tie)
    · linarith
    · linarith

/-- The exponent of the doubles around a number in the spread of a double is that of the double, or the one below it, just below a
power of two. -/
theorem roundingExponent_of_near {m : Nat} {accuracy : Accuracy} {w : Rat} {e : Int} {m' : Nat} {e' : Int}
    (form : Canonical m' e') (described : Describes (.ofMantissaAndAccuracy m accuracy) w) (enough : leadingBit ≤ m ∨ e ≤ -1074)
    (near : RoundsTo (w * 2 ^ (e - e')) m') :
    roundingExponent m e = e' ∨
      roundingExponent m e = e' - 1 ∧ m' = leadingBit ∧ -1074 < e' ∧ w * 2 ^ (e - e') < leadingBit := by
  obtain ⟨small, full, least, -⟩ := form
  have leading : leadingBit = 4503599627370496 := rfl
  have two : (1 : Rat) < 2 := by norm_num
  obtain ⟨below, above⟩ := power_bounds described (e - e')
  generalize w * 2 ^ (e - e') = u at *
  have high : m.log2 + (e - e') < 53 := by
    by_cases zero : m = 0
    · have log : m.log2 = 0 := by
        rw [zero]
        rfl
      omega
    · have most : (m' : Rat) + 1 ≤ 2 ^ (53 : Int) := by
        have fits : m' + 1 ≤ 2 ^ 53 := small
        exact_mod_cast fits
      exact (zpow_lt_zpow_iff_right₀ two).1 (by linarith [below zero, near.above])
  rw [roundingExponent]
  rcases full with full | rfl
  · have low : 51 < m.log2 + 1 + (e - e') := by
      have more : (2 : Rat) ^ (51 : Int) + 1 ≤ m' := by
        have fits : 2 ^ 51 + 1 ≤ m' := by omega
        exact_mod_cast fits
      exact (zpow_lt_zpow_iff_right₀ two).1 (by linarith [near.below])
    by_cases same : (m.log2 : Int) - 52 + e = e'
    · left
      omega
    · have under : u < leadingBit := by
        have exponent : (m.log2 : Int) + 1 + (e - e') = 52 := by omega
        rw [exponent] at above
        exact above.trans_le (by norm_num [leadingBit])
      have most : (m' : Rat) < leadingBit + 1 := by linarith [near.below]
      have most : m' < leadingBit + 1 := by exact_mod_cast most
      by_cases bottom : e' = -1074
      · left
        omega
      · right
        exact ⟨by omega, by omega, by omega, under⟩
  · left
    omega

/-- A number in the spread of a double is rounded to the double. -/
theorem roundWithAccuracy_of_contains {m : Nat} {accuracy : Accuracy} {w : Rat} {e : Int} {m' : Nat} {e' : Int} (sign : Sign)
    (form : Canonical m' e') (pos : 0 < m') (described : Describes (.ofMantissaAndAccuracy m accuracy) w)
    (enough : leadingBit ≤ m ∨ e ≤ -1074) (inside : (spread m' e').contains (w * 2 ^ e) = true) :
    roundWithAccuracy Format.binary64 sign m e accuracy = .finite sign m' e' pos := by
  have scaled : w * 2 ^ e = w * 2 ^ (e - e') * 2 ^ e' := by
    rw [mul_assoc, ← zpow_add₀ (by norm_num), Int.sub_add_cancel]
  rw [scaled] at inside
  have near := roundsTo_of_contains pos inside
  obtain ⟨n, rounds, -, rounded⟩ := roundWithAccuracy_eq sign described enough
  rw [rounded]
  rcases roundingExponent_of_near form described enough near with same | ⟨lower, power, low, under⟩
  · rw [same] at rounds ⊢
    obtain rfl := rounds.unique near
    rw [dif_neg (by omega), if_pos form.small]
  · subst power
    have quarter : gapBelow leadingBit e' = 1 / 4 := if_pos ⟨rfl, low⟩
    rw [contains_iff pos, if_pos (by decide), quarter] at inside
    have close := inside.1
    have double : w * 2 ^ (e - roundingExponent m e) = 2 * (w * 2 ^ (e - e')) := by
      have next : e - roundingExponent m e = e - e' + 1 := by omega
      rw [next, zpow_add_one₀ (by norm_num)]
      ring
    have far : RoundsTo (w * 2 ^ (e - roundingExponent m e)) (2 * leadingBit) := by
      rw [double]
      refine ⟨?_, ?_, fun _ => by decide⟩ <;> push_cast <;> linarith
    obtain rfl := rounds.unique far
    rw [dif_neg (by decide), if_neg (by decide), lower, Int.sub_add_cancel]

end Binary64

end DomainColoring
