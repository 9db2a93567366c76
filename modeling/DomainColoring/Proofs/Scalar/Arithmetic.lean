import DomainColoring.Proofs.Scalar.Operations
import DomainColoring.Proofs.Scalar.Values

/-!
# Rounded arithmetic

Sums, differences, products and quotients of finite doubles are the doubles nearest to the exact results, or infinite where no double is
near (`Binary64.Rounded`). What infinities and divisions by zero come to is listed apart. Whole numbers of at most 53 bits are doubles
(`Binary64.hasValue_natCast`).
-/

namespace DomainColoring

open Float.Model Float.Model.UnpackedFloat

namespace Binary64

/-! ## Rounding -/

/-- What is taken for an exact result: the nearest double, or the infinity on its side where no double is near. -/
inductive Rounded (r : Rat) (u : UnpackedFloat) : Prop
  | finite {q : Rat} (nearest : Nearest r q) (value : HasValue u q)
  | infinite {sign : Sign} {q : Rat} (nearest : Nearest r (signed sign q)) (beyond : limit ≤ q) (infinite : u = .infinity sign)

namespace Rounded

variable {r q : Rat} {u : UnpackedFloat}

/-- A result is finite exactly if it does not reach the border. -/
theorem isFinite_iff (h : Rounded r u) : u.isFinite = true ↔ |r| < border := by
  cases h with
  | finite nearest value => exact iff_of_true value.isFinite (nearest.abs_lt_limit_iff.1 value.abs_lt_limit)
  | infinite nearest beyond infinite =>
    rw [infinite, ← nearest.abs_lt_limit_iff, abs_signed]
    exact iff_of_false Bool.false_ne_true (not_lt.2 (beyond.trans (le_abs_self _)))

/-- A rounded result is a number. -/
theorem isNaN_eq_false (h : Rounded r u) : u.isNaN = false := by
  cases h with
  | finite nearest value => exact value.isNaN_eq_false
  | infinite nearest beyond infinite =>
    rw [infinite]
    rfl

/-- Below the border a result has a value, the nearest one. -/
theorem exists_value (h : Rounded r u) (small : |r| < border) : ∃ q, Nearest r q ∧ HasValue u q := by
  have finite := h.isFinite_iff.2 small
  cases h with
  | finite nearest value => exact ⟨_, nearest, value⟩
  | infinite nearest beyond infinite =>
    rw [infinite] at finite
    cases finite

/-- Where an exact result is not negative, infinity is positive. -/
theorem of_nonneg (h : Rounded r u) (nonneg : 0 ≤ r) :
    (∃ q, Nearest r q ∧ HasValue u q) ∨ (border ≤ r ∧ u = .infinity .positive) := by
  cases h with
  | finite nearest value => exact .inl ⟨_, nearest, value⟩
  | @infinite sign q nearest beyond infinite =>
    have far : border ≤ r := by
      rw [← abs_of_nonneg nonneg, ← not_lt, ← nearest.abs_lt_limit_iff, abs_signed]
      exact not_lt.2 (beyond.trans (le_abs_self q))
    cases sign with
    | positive => exact .inr ⟨far, infinite⟩
    | negative =>
      have same : 0 ≤ -q := nearest.le_of_ge .zero nonneg
      have positive : 0 < limit := (abs_nonneg _).trans_lt (HasValue.zero .positive).abs_lt_limit
      linarith

/-- What needs no rounding is the result itself. -/
theorem value_of_short (h : Rounded r u) (short : Short r) (small : |r| < border) : HasValue u r := by
  obtain ⟨q, nearest, value⟩ := h.exists_value small
  rwa [nearest.eq_of_short short] at value

end Rounded

/-- A number of either sign is rounded as its size is. -/
theorem nearest_signed {r : Rat} {n : Nat} {e : Int} (sign : Sign) (h : NearestSize r n e) :
    Nearest (signed sign r) (signed sign (size n e)) := by
  cases sign with
  | negative => exact .below h
  | positive => exact .above h

/-- The value of a double is the nearest to itself. -/
theorem HasValue.nearest {u : UnpackedFloat} {q : Rat} (h : HasValue u q) : Nearest q q := by
  cases h with
  | zero sign =>
    have zero : size 0 (-1074) = 0 := zero_mul _
    rw [← zero]
    exact .above (nearestSize_of_canonical ⟨by decide, .inr rfl, le_rfl, by decide⟩)
  | finite sign pos form => exact nearest_signed sign (nearestSize_of_canonical form)

/-- The value of a double is below the border. -/
theorem HasValue.abs_lt_border {u : UnpackedFloat} {q : Rat} (h : HasValue u q) : |q| < border :=
  h.nearest.abs_lt_limit_iff.1 h.abs_lt_limit

/-- Packed and unpacked again, a double is still the rounded value of itself. -/
theorem HasValue.rounded {u : UnpackedFloat} {q : Rat} (h : HasValue u q) : Rounded q (Float.Model.pack u).unpack := by
  rw [h.unpack_pack]
  exact .finite h.nearest h

/-- A double in which the exponent is too great is packed as infinity. -/
theorem rounded_pack {r : Rat} {sign : Sign} {m : Nat} {e : Int} (pos : 0 < m) (nearest : Nearest r (signed sign (size m e)))
    (small : m < 2 * leadingBit) (full : leadingBit ≤ m ∨ e = -1074) (least : -1074 ≤ e) :
    Rounded r (Float.Model.pack (.finite sign m e pos)).unpack := by
  rcases le_or_gt e 971 with low | high
  · have form : Canonical m e := ⟨small, full, least, low⟩
    have unpacked : (Float.Model.pack (.finite sign m e pos)).unpack = .finite sign m e pos := unpack_pack form
    rw [unpacked]
    exact .finite nearest (.finite sign pos form)
  · have full : leadingBit ≤ m := full.resolve_right (by omega)
    have beyond : limit ≤ size m e := by
      rw [limit, size_twice]
      exact (size_mono _ high).trans (size_le_size.2 full)
    have packed : UnpackedFloat.pack Format.binary64 (.finite sign m e pos) = UnpackedFloat.pack Format.binary64 (.infinity sign) := by
      have bias : Format.binary64.exponentBias = 1023 := rfl
      simp only [UnpackedFloat.pack]
      rw [if_pos (by omega)]
    refine .infinite nearest beyond ?_
    change UnpackedFloat.unpack Format.binary64 (UnpackedFloat.pack Format.binary64 _) = _
    rw [packed]
    exact unpack_pack_infinity sign

/-- A number of which enough is known is rounded. -/
theorem rounded_of_described {m : Nat} {accuracy : Accuracy} {w : Rat} {e : Int} (sign : Sign)
    (described : Describes (.ofMantissaAndAccuracy m accuracy) w) (enough : leadingBit ≤ m ∨ e ≤ -1074) :
    Rounded (signed sign (w * 2 ^ e)) (Float.Model.pack (roundWithAccuracy Format.binary64 sign m e accuracy)).unpack := by
  obtain ⟨n, f, nearest, rounded⟩ := exists_roundWithAccuracy sign described enough
  have taken := nearest_signed sign nearest
  rw [rounded]
  by_cases zero : n = 0
  · rw [dif_pos zero, unpack_pack_zero]
    have value : signed sign (size n f) = 0 := by
      rw [← abs_eq_zero, abs_signed, zero, size, Nat.cast_zero, zero_mul, abs_zero]
    rw [value] at taken
    exact .finite taken (.zero sign)
  · rw [dif_neg zero]
    by_cases few : n < 2 * leadingBit
    · rw [if_pos few]
      have full : leadingBit ≤ n ∨ f = -1074 := nearest.full.symm.imp_left nearest.le_of_ge
      exact rounded_pack _ taken few full nearest.least
    · rw [if_neg few]
      obtain rfl : n = 2 * leadingBit := le_antisymm nearest.fits (not_lt.1 few)
      rw [size_twice] at taken
      exact rounded_pack _ taken (by decide) (.inl le_rfl) (by have := nearest.least; omega)

/-- A whole number over any exponent is rounded. -/
theorem rounded_round (sign : Sign) {m : Nat} (nonzero : m ≠ 0) (e : Int) :
    Rounded (signed sign (size m e)) (Float.Model.pack (UnpackedFloat.round Format.binary64 sign m e)).unpack := by
  rw [UnpackedFloat.round, targetExponent_totalExponent, decreaseExponent]
  generalize amount : (e - roundingExponent m e).toNat = k
  have same : size m e = ((m <<< k : Nat) : Rat) * 2 ^ (e - k) := by
    rw [Nat.shiftLeft_eq, ← size, ← size_add, Int.sub_add_cancel]
  have enough : leadingBit ≤ m <<< k ∨ e - k ≤ -1074 := by
    rw [roundingExponent] at amount
    by_cases low : e - k ≤ -1074
    · exact .inr low
    · left
      have bits : 52 ≤ m.log2 + k := by omega
      calc leadingBit = 2 ^ 52 := rfl
        _ ≤ 2 ^ (m.log2 + k) := Nat.pow_le_pow_right (by decide) bits
        _ = 2 ^ m.log2 * 2 ^ k := pow_add ..
        _ ≤ m * 2 ^ k := Nat.mul_le_mul_right _ (Nat.log2_self_le nonzero)
        _ = m <<< k := (Nat.shiftLeft_eq m k).symm
  rw [same]
  exact rounded_of_described sign rfl enough

/-- A whole number times a power of two is rounded once when it is brought into form. -/
theorem rounded_normalize (n : Int) (e : Int) (sign : Sign) :
    Rounded (n * 2 ^ e) (Float.Model.pack (UnpackedFloat.normalize Format.binary64 n e sign)).unpack := by
  rw [UnpackedFloat.normalize]
  rcases lt_trichotomy n 0 with negative | rfl | positive
  · obtain ⟨m, rfl⟩ : ∃ m : Nat, n = -m := ⟨(-n).toNat, by omega⟩
    have value : ((-m : Int) : Rat) * 2 ^ e = signed .negative (size m e) := by
      rw [Int.cast_neg, Int.cast_natCast, neg_mul]
      rfl
    have whole : (- -(m : Int)).toNat = m := by omega
    rw [compare_lt_iff_lt.2 negative, value]
    dsimp only
    rw [whole]
    exact rounded_round .negative (by omega) e
  · rw [Int.cast_zero, zero_mul]
    exact (HasValue.zero sign).rounded
  · obtain ⟨m, rfl⟩ : ∃ m : Nat, n = m := ⟨n.toNat, by omega⟩
    have value : ((m : Int) : Rat) * 2 ^ e = signed .positive (size m e) := by
      rw [Int.cast_natCast]
      rfl
    rw [compare_gt_iff_gt.2 positive, value]
    exact rounded_round .positive (by omega) e

/-- Two signed sizes over the lower of their exponents. -/
theorem aligned (sign : Sign) (m : Nat) {e t : Int} (le : t ≤ e) :
    signed sign (size m e) = (sign.apply (decreaseExponent m e t).1 : Int) * 2 ^ t := by
  obtain ⟨k, rfl⟩ := Int.le.dest le
  have amount : (t + k - t).toNat = k := by omega
  rw [decreaseExponent, amount, cast_apply, Nat.shiftLeft_eq, size_add]
  cases sign with
  | negative => exact (neg_mul _ _).symm
  | positive => rfl

/-- Enough is known of the product of two significands. -/
theorem mul_enough {m n : Nat} {e f : Int} (hm : Canonical m e) (hn : Canonical n f) (posm : 0 < m) (posn : 0 < n) :
    leadingBit ≤ m * n ∨ e + f ≤ -1074 := by
  rcases hm.full with full | rfl
  · exact .inl (full.trans (Nat.le_mul_of_pos_right m posn))
  · rcases hn.full with full | rfl
    · exact .inl (full.trans (Nat.le_mul_of_pos_left n posm))
    · exact .inr (by omega)

/-- A difference is the sum with the other sign. -/
theorem sub_eq_add (u v : UnpackedFloat) : UnpackedFloat.sub Format.binary64 u v = UnpackedFloat.add Format.binary64 u v.neg := by
  cases u with
  | finite sign m e pos =>
    cases v with
    | finite sign' n f pos' =>
      have opposite (k : Nat) : (-sign').apply k = -sign'.apply k := by
        cases sign' with
        | negative => exact (Int.neg_neg _).symm
        | positive => rfl
      simp only [UnpackedFloat.sub, UnpackedFloat.add, UnpackedFloat.neg, opposite, Int.sub_eq_add_neg]
    | _ => rfl
  | _ => cases v <;> rfl

section Operations

variable {x y : Float} {p q : Rat}

/-- The value of the opposite is the opposite value. -/
theorem hasValue_neg (hx : HasValue x.toModel.unpack p) : HasValue (-x).toModel.unpack (-p) := by
  change HasValue (Float.Model.pack x.toModel.unpack.neg).unpack (-p)
  rw [hx.neg.unpack_pack]
  exact hx.neg

/-- Sums of unpacked doubles are rounded once. -/
theorem rounded_sum {u v : UnpackedFloat} (hu : HasValue u p) (hv : HasValue v q) :
    Rounded (p + q) (Float.Model.pack (UnpackedFloat.add Format.binary64 u v)).unpack := by
  cases hu with
  | zero sign =>
    rw [zero_add]
    cases hv with
    | zero sign' =>
      cases sign with
      | negative =>
        cases sign' with
        | negative => exact (HasValue.zero _).rounded
        | positive => exact (HasValue.zero _).rounded
      | positive =>
        cases sign' with
        | negative => exact (HasValue.zero _).rounded
        | positive => exact (HasValue.zero _).rounded
    | finite sign' pos' form' => exact (HasValue.finite sign' pos' form').rounded
  | finite sign pos form =>
    cases hv with
    | zero sign' =>
      rw [add_zero]
      exact (HasValue.finite sign pos form).rounded
    | finite sign' pos' form' =>
      rw [aligned sign _ (min_le_left _ _), aligned sign' _ (min_le_right _ _), ← add_mul, ← Int.cast_add]
      exact rounded_normalize _ _ _

variable (hx : HasValue x.toModel.unpack p) (hy : HasValue y.toModel.unpack q)

include hx hy

/-- A sum is the exact one, rounded once. -/
theorem rounded_add : Rounded (p + q) (x + y).toModel.unpack :=
  rounded_sum hx hy

theorem rounded_sub : Rounded (p - q) (x - y).toModel.unpack := by
  have sum := rounded_sum hx hy.neg
  rwa [← sub_eq_add, ← sub_eq_add_neg] at sum

theorem rounded_mul : Rounded (p * q) (x * y).toModel.unpack := by
  change Rounded _ (Float.Model.pack (UnpackedFloat.mul Format.binary64 x.toModel.unpack y.toModel.unpack)).unpack
  generalize x.toModel.unpack = u, y.toModel.unpack = v at hx hy
  cases hx with
  | zero sign =>
    rw [zero_mul]
    cases hy with
    | zero sign' => exact (HasValue.zero _).rounded
    | finite sign' pos' form' => exact (HasValue.zero _).rounded
  | finite sign pos form =>
    cases hy with
    | zero sign' =>
      rw [mul_zero]
      exact (HasValue.zero _).rounded
    | finite sign' pos' form' =>
      rw [← signed_mul, size_mul_size]
      exact rounded_of_described _ rfl (mul_enough form form' pos pos')

theorem rounded_div (nonzero : q ≠ 0) : Rounded (p / q) (x / y).toModel.unpack := by
  change Rounded _ (Float.Model.pack (UnpackedFloat.div Format.binary64 x.toModel.unpack y.toModel.unpack)).unpack
  generalize x.toModel.unpack = u, y.toModel.unpack = v at hx hy
  cases hy with
  | zero sign' => exact absurd rfl nonzero
  | @finite sign' n f pos' form' =>
    cases hx with
    | zero sign =>
      rw [zero_div]
      exact (HasValue.zero _).rounded
    | @finite sign m e pos form =>
      obtain ⟨n, accuracy, w, t, described, enough, quotient, rounded⟩ := exists_div sign sign' e f pos pos'
      rw [← signed_div, quotient, rounded]
      exact rounded_of_described _ described enough

end Operations

/-! ## Infinities -/

section Infinities

variable {x y : Float} {sign sign' : Sign} {q : Rat}

theorem isFinite_of_infinity (h : x.toModel.unpack = .infinity sign) : x.isFinite = false :=
  congrArg UnpackedFloat.isFinite h

/-- The opposite of an infinity is the other one. -/
theorem neg_infinity (hx : x.toModel.unpack = .infinity sign) : (-x).toModel.unpack = .infinity (-sign) := by
  change (Float.Model.pack x.toModel.unpack.neg).unpack = _
  rw [hx]
  exact unpack_pack_infinity _

/-- The opposite of no number is none. -/
theorem neg_notANumber (hx : x.toModel.unpack = .notANumber) : (-x).toModel.unpack = .notANumber := by
  change (Float.Model.pack x.toModel.unpack.neg).unpack = _
  rw [hx]
  rfl

/-- A value and an infinity make that infinity. -/
theorem add_infinity (hx : HasValue x.toModel.unpack q) (hy : y.toModel.unpack = .infinity sign) :
    (x + y).toModel.unpack = .infinity sign := by
  change (Float.Model.pack (UnpackedFloat.add Format.binary64 x.toModel.unpack y.toModel.unpack)).unpack = _
  rw [hy]
  generalize x.toModel.unpack = u at hx
  cases hx with
  | zero sign => exact unpack_pack_infinity _
  | finite sign pos form => exact unpack_pack_infinity _

/-- An infinity and a value make that infinity. -/
theorem infinity_add (hx : x.toModel.unpack = .infinity sign) (hy : HasValue y.toModel.unpack q) :
    (x + y).toModel.unpack = .infinity sign := by
  change (Float.Model.pack (UnpackedFloat.add Format.binary64 x.toModel.unpack y.toModel.unpack)).unpack = _
  rw [hx]
  generalize y.toModel.unpack = u at hy
  cases hy with
  | zero sign => exact unpack_pack_infinity _
  | finite sign pos form => exact unpack_pack_infinity _

/-- An infinity over a value is an infinity. -/
theorem infinity_div (hx : x.toModel.unpack = .infinity sign) (hy : HasValue y.toModel.unpack q) :
    ∃ sign', (x / y).toModel.unpack = .infinity sign' := by
  change ∃ sign', (Float.Model.pack (UnpackedFloat.div Format.binary64 x.toModel.unpack y.toModel.unpack)).unpack = _
  rw [hx]
  generalize y.toModel.unpack = u at hy
  cases hy with
  | zero sign => exact ⟨_, unpack_pack_infinity _⟩
  | finite sign pos form => exact ⟨_, unpack_pack_infinity _⟩

/-- A value over an infinity is zero. -/
theorem div_infinity (hx : HasValue x.toModel.unpack q) (hy : y.toModel.unpack = .infinity sign) :
    HasValue (x / y).toModel.unpack 0 := by
  change HasValue (Float.Model.pack (UnpackedFloat.div Format.binary64 x.toModel.unpack y.toModel.unpack)).unpack 0
  rw [hy]
  generalize x.toModel.unpack = u at hx
  cases hx with
  | zero sign =>
    rw [UnpackedFloat.div, unpack_pack_zero]
    exact .zero _
  | finite sign pos form =>
    rw [UnpackedFloat.div, unpack_pack_zero]
    exact .zero _

/-- Two infinities of one sign make that infinity. -/
theorem infinity_add_infinity (hx : x.toModel.unpack = .infinity sign) (hy : y.toModel.unpack = .infinity sign) :
    (x + y).toModel.unpack = .infinity sign := by
  change (Float.Model.pack (UnpackedFloat.add Format.binary64 x.toModel.unpack y.toModel.unpack)).unpack = _
  rw [hx, hy]
  cases sign with
  | negative => rfl
  | positive => rfl

/-- The quotient by zero is infinite, or that of zero by zero. -/
theorem div_zero (hx : HasValue x.toModel.unpack q) (hy : HasValue y.toModel.unpack 0) :
    (q = 0 ∧ (x / y).toModel.unpack = .notANumber) ∨ (q ≠ 0 ∧ ∃ sign, (x / y).toModel.unpack = .infinity sign) := by
  change (q = 0 ∧ (Float.Model.pack (UnpackedFloat.div Format.binary64 x.toModel.unpack y.toModel.unpack)).unpack = _) ∨
    (q ≠ 0 ∧ ∃ sign, (Float.Model.pack (UnpackedFloat.div Format.binary64 x.toModel.unpack y.toModel.unpack)).unpack = _)
  obtain ⟨sign', zero⟩ := hy.exists_zero
  rw [zero]
  generalize x.toModel.unpack = u at hx
  cases hx with
  | zero sign =>
    refine .inl ⟨rfl, ?_⟩
    rw [UnpackedFloat.div]
    rfl
  | @finite sign m e pos form =>
    refine .inr ⟨?_, _, unpack_pack_infinity _⟩
    rw [← abs_pos, abs_signed, abs_pos]
    exact (size_pos pos e).ne'

end Infinities

/-! ## What is no number -/

/-- What is packed with an exponent other than the last is a number. -/
theorem isNaN_packComponents (sign : Sign) {e : BitVec 11} (bounded : e ≠ -1#11) (m : BitVec 52) :
    (UnpackedFloat.unpack Format.binary64 (packComponents Format.binary64 sign e m)).isNaN = false := by
  unfold UnpackedFloat.unpack
  dsimp only
  simp only [unpackMantissa_packComponents, unpackExponent_packComponents]
  rw [if_neg bounded]
  split
  · split
    · rfl
    · rfl
  · rfl

/-- Whatever is packed, it is no number only if it was none before. -/
theorem isNaN_pack (u : UnpackedFloat) : (Float.Model.pack u).unpack.isNaN = u.isNaN := by
  cases u with
  | notANumber => rfl
  | infinity sign =>
    rw [unpack_pack_infinity]
  | zero sign =>
    rw [unpack_pack_zero]
  | finite sign m e pos =>
    change (UnpackedFloat.unpack Format.binary64 (UnpackedFloat.pack Format.binary64 _)).isNaN = false
    simp only [UnpackedFloat.pack]
    split
    · exact congrArg UnpackedFloat.isNaN (unpack_pack_infinity sign)
    · rename_i low
      split
      · refine isNaN_packComponents sign ?_ _
        intro top
        have top := congrArg BitVec.toNat top
        have last : (-1#11).toNat = 2047 := rfl
        rw [last, BitVec.toNat_ofNat] at top
        omega
      · exact isNaN_packComponents sign (by decide) _

/-- An opposite is a number exactly if the number is one. -/
theorem isNaN_neg (x : Float) : (-x).isNaN = x.isNaN := by
  change (Float.Model.pack x.toModel.unpack.neg).unpack.isNaN = x.toModel.unpack.isNaN
  rw [isNaN_pack]
  cases x.toModel.unpack <;> rfl

/-! ## Whole numbers -/

section WholeNumbers

variable {n : Nat} (small : n < 2 * leadingBit)

include small

theorem short_natCast : Short n :=
  ⟨n, 0, small.le, by decide, by rw [abs_of_nonneg n.cast_nonneg, size, zpow_zero, mul_one]⟩

/-- A whole number of 53 bits is below the border. -/
theorem natCast_lt_border : |(n : Rat)| < border := by
  have positive : |(n : Rat)| = size n 0 := by rw [abs_of_nonneg n.cast_nonneg, size, zpow_zero, mul_one]
  rw [positive]
  exact (size_mono n (by decide)).trans_lt (size_lt_size.2 (by omega))

/-- A whole number of 53 bits has itself for its value as a double. -/
theorem hasValue_toFloat : HasValue n.toUInt64.toFloat.toModel.unpack n := by
  have same : n.toUInt64.toNat = n := Nat.mod_eq_of_lt (small.trans (by decide))
  have rounded := rounded_normalize n 0 .positive
  rw [zpow_zero, mul_one, Int.cast_natCast] at rounded
  rw [UInt64.toFloat, Float.Model.ofUInt64, UnpackedFloat.ofUInt64, same]
  exact rounded.value_of_short (short_natCast small) (natCast_lt_border small)

/-- A whole number of at most 53 bits is a double. -/
theorem hasValue_natCast : HasValue (Nat.cast n : Float).toModel.unpack n := by
  have one : HasValue (Float.ofBits 0x3ff0000000000000).toModel.unpack 1 := value?_eq_some_iff.1 (by decide +kernel)
  have product := rounded_mul (hasValue_toFloat small) one
  rw [mul_one] at product
  have fast : n < 2 ^ 53 ∧ 0 ≤ 22 := ⟨small, by decide⟩
  change HasValue (Float.ofScientific n false 0).toModel.unpack n
  rw [Float.ofScientific, dif_pos fast]
  exact product.value_of_short (short_natCast small) (natCast_lt_border small)

end WholeNumbers

end Binary64

end DomainColoring
