import Mathlib.Data.Rat.Floor
import Mathlib.Data.EReal.Inv
import DomainColoring.Proofs.Scalar.Arithmetic
import DomainColoring.Proofs.Scalar.RoundedOnce

/-!
# Doubles are rounded once

Doubles stand for extended reals (`Binary64.reading?`), and what an exact result becomes does not depend on the operation: it is the
nearest double, or an infinity beyond the greatest one (`Binary64.rounding`). This keeps order and signs, so all that is known of
arithmetic with one rounding is known of doubles (`roundedOnce_float`).
-/

namespace DomainColoring

open Float.Model Float.Model.UnpackedFloat

namespace Binary64

/-! ## What doubles stand for -/

/-- The end of the extended line on the side of a sign. -/
noncomputable def endpoint (sign : Sign) : EReal :=
  if isMinus sign then ⊥ else ⊤

/-- The extended real that an unpacked double stands for. -/
noncomputable def reading? : UnpackedFloat → Option EReal
  | .notANumber => none
  | .infinity sign => some (endpoint sign)
  | .zero _ => some 0
  | .finite sign m e _ => some ((signed sign (size m e) : Rat) : ℝ)

/-- A double that has a value stands for it. -/
theorem HasValue.reading? {u : UnpackedFloat} {q : Rat} (h : HasValue u q) : reading? u = some ((q : ℝ) : EReal) := by
  cases h with
  | zero sign => simp [Binary64.reading?]
  | finite sign pos form => rfl

/-- A double that is a number has a value or is infinite. -/
theorem reading?_cases {x : Float} {p : EReal} (h : reading? x.toModel.unpack = some p) :
    (∃ q : Rat, p = (q : ℝ) ∧ HasValue x.toModel.unpack q) ∨ ∃ sign, p = endpoint sign ∧ x.toModel.unpack = .infinity sign := by
  cases unpacked : x.toModel.unpack with
  | notANumber => simp [unpacked, reading?] at h
  | infinity sign =>
    rw [unpacked] at h
    exact .inr ⟨sign, (Option.some.inj h).symm, rfl⟩
  | zero sign =>
    rw [unpacked] at h
    refine .inl ⟨0, ?_, .zero sign⟩
    simpa [reading?] using h.symm
  | finite sign m e pos =>
    rw [unpacked] at h
    exact .inl ⟨_, (Option.some.inj h).symm, .finite sign pos (canonical_of_unpack unpacked)⟩

/-- No end of the line is a real number. -/
theorem endpoint_ne_coe (sign : Sign) (r : ℝ) : endpoint sign ≠ r := by
  cases sign with
  | negative => exact EReal.bot_ne_coe r
  | positive => exact EReal.top_ne_coe r

/-- A double that stands for a real number has a value. -/
theorem exists_value_of_reading? {x : Float} {r : ℝ} (h : reading? x.toModel.unpack = some (r : EReal)) :
    ∃ q : Rat, r = q ∧ HasValue x.toModel.unpack q := by
  rcases reading?_cases h with ⟨q, same, value⟩ | ⟨sign, same, -⟩
  · exact ⟨q, EReal.coe_injective same, value⟩
  · exact absurd same.symm (endpoint_ne_coe sign r)

/-- A double that is a number and does not stand for a real number is infinite. -/
theorem isFinite_of_reading? {x : Float} {p : EReal} (h : reading? x.toModel.unpack = some p) (infinite : p = ⊤ ∨ p = ⊥) :
    x.isFinite = false := by
  rcases reading?_cases h with ⟨q, rfl, -⟩ | ⟨sign, -, unpacked⟩
  · rcases infinite with top | bot
    · exact absurd top (EReal.coe_ne_top _)
    · exact absurd bot (EReal.coe_ne_bot _)
  · exact isFinite_of_infinity unpacked

/-! ## The rounding -/

/-- A number from the limit of doubles on gives way to infinity. -/
noncomputable def cut (q : Rat) : EReal :=
  if limit ≤ q then ⊤ else if q ≤ -limit then ⊥ else (q : ℝ)

theorem limit_pos : 0 < limit :=
  size_pos (by decide) _

theorem cut_of_abs_lt {q : Rat} (h : |q| < limit) : cut q = (q : ℝ) := by
  obtain ⟨low, high⟩ := abs_lt.1 h
  simp [cut, not_le.2 low, not_le.2 high]

/-- From the limit on a number of either sign gives way to the end on its side. -/
theorem cut_signed (sign : Sign) {q : Rat} (h : limit ≤ q) : cut (signed sign q) = endpoint sign := by
  have positive := limit_pos
  cases sign with
  | negative =>
    have first : ¬limit ≤ -q := by linarith
    simp [cut, signed, isMinus, endpoint, first, h]
  | positive => simp [cut, signed, isMinus, endpoint, h]

theorem cut_neg (q : Rat) : cut (-q) = -cut q := by
  have positive := limit_pos
  rcases le_or_gt limit q with above | below
  · have first : ¬limit ≤ -q := by linarith
    simp [cut, above, first]
  · rcases le_or_gt q (-limit) with low | within
    · have first : limit ≤ -q := by linarith
      simp [cut, low, not_le.2 below, first]
    · rw [cut_of_abs_lt (abs_lt.2 ⟨within, below⟩), cut_of_abs_lt (abs_lt.2 ⟨by linarith, by linarith⟩)]
      simp

/-- Cutting keeps the order. -/
theorem cut_mono : Monotone cut := by
  intro p q le
  unfold cut
  split_ifs with h₁ h₂ h₃ h₄ h₅ h₆
  · rfl
  · linarith
  · linarith
  · exact le_top
  · exact le_rfl
  · exact bot_le
  · exact le_top
  · linarith
  · exact_mod_cast le

/-- What becomes of a number that is not negative: no less than what becomes of the rational numbers below it. -/
noncomputable def roundingUp (r : EReal) : EReal :=
  ⨆ p : {p : Rat × Rat // Nearest p.1 p.2 ∧ 0 ≤ p.1 ∧ ((p.1 : ℝ) : EReal) ≤ r}, cut p.1.2

/-- What becomes of an exact result. -/
noncomputable def rounding (r : EReal) : EReal :=
  if 0 ≤ r then roundingUp r else -roundingUp (-r)

/-- The more rational numbers are below, the more becomes of a number. -/
theorem roundingUp_mono : Monotone roundingUp := by
  intro r r' le
  refine iSup_le ?_
  rintro ⟨p, nearest, nonneg, below⟩
  exact le_iSup_of_le ⟨p, nearest, nonneg, below.trans le⟩ le_rfl

/-- Rational numbers are rounded to the nearest double. -/
theorem roundingUp_coe {r q : Rat} (h : Nearest r q) (nonneg : 0 ≤ r) : roundingUp ((r : ℝ) : EReal) = cut q := by
  apply le_antisymm
  · refine iSup_le ?_
    rintro ⟨⟨r', q'⟩, nearest, -, below⟩
    exact cut_mono (nearest.mono h (by exact_mod_cast below))
  · exact le_iSup_of_le ⟨(r, q), h, nonneg, le_rfl⟩ le_rfl

/-- A rational number becomes the nearest double, cut at the limit. -/
theorem rounding_coe {r q : Rat} (h : Nearest r q) : rounding ((r : ℝ) : EReal) = cut q := by
  unfold rounding
  split_ifs with nonneg
  · exact roundingUp_coe h (by exact_mod_cast nonneg)
  · have negative : r < 0 := by exact_mod_cast not_le.1 nonneg
    have turned : -((r : ℝ) : EReal) = ((-r : Rat) : ℝ) := by push_cast; rfl
    rw [turned, roundingUp_coe h.neg (by linarith), cut_neg, neg_neg]

theorem nearest_zero : Nearest 0 0 :=
  (HasValue.zero .positive).nearest

theorem rounding_zero : rounding 0 = 0 := by
  have zero := rounding_coe nearest_zero
  rw [cut_of_abs_lt (by simpa using limit_pos)] at zero
  simpa using zero

/-- An opposite is rounded to the opposite. -/
theorem rounding_odd (r : EReal) : rounding (-r) = -rounding r := by
  rcases lt_trichotomy r 0 with negative | rfl | positive
  · have first : (0 : EReal) ≤ -r := EReal.neg_nonneg.2 negative.le
    simp [rounding, first, not_le.2 negative]
  · simp [rounding_zero]
  · have first : ¬(0 : EReal) ≤ -r := by simpa using positive
    simp [rounding, first, positive.le]

/-- Rounding keeps the order. -/
theorem rounding_mono : Monotone rounding := by
  have nonneg {r : EReal} (h : 0 ≤ r) : 0 ≤ roundingUp r := by
    have zero := roundingUp_mono h
    rwa [← rounding_zero, rounding, if_pos le_rfl]
  intro r r' le
  rcases le_or_gt 0 r with first | first
  · rw [rounding, if_pos first, rounding, if_pos (first.trans le)]
    exact roundingUp_mono le
  · rw [rounding, if_neg (not_le.2 first)]
    rcases le_or_gt 0 r' with second | second
    · rw [rounding, if_pos second]
      exact (EReal.neg_le_neg_iff.2 (nonneg (EReal.neg_nonneg.2 first.le))).trans (by simpa using nonneg second)
    · rw [rounding, if_neg (not_le.2 second)]
      exact EReal.neg_le_neg_iff.2 (roundingUp_mono (EReal.neg_le_neg_iff.2 le))

/-- Infinity stays infinity. -/
theorem rounding_top : rounding ⊤ = ⊤ := by
  have large : Nearest (size leadingBit 972) (size leadingBit 972) :=
    .above ⟨size_nonneg _ _, by
      rw [size, mul_div_cancel_right₀ _ (by positivity)]
      exact .natCast _, by decide, .inr le_rfl, by decide⟩
  have reached : limit ≤ size leadingBit 972 := by rw [limit, size_twice]; rfl
  have top : rounding ((size leadingBit 972 : Rat) : ℝ) ≤ rounding ⊤ := rounding_mono le_top
  rw [rounding_coe large, cut, if_pos reached] at top
  exact top_le_iff.1 top

/-- The ends of the line stay where they are. -/
theorem rounding_endpoint (sign : Sign) : rounding (endpoint sign) = endpoint sign := by
  cases sign with
  | negative =>
    change rounding ⊥ = ⊥
    rw [← EReal.neg_top, rounding_odd, rounding_top]
  | positive => exact rounding_top

/-- What is taken for an exact result stands for the rounded one. -/
theorem Rounded.reading? {r : Rat} {u : UnpackedFloat} (h : Rounded r u) : reading? u = some (rounding ((r : ℝ) : EReal)) := by
  cases h with
  | finite nearest value => rw [value.reading?, rounding_coe nearest, cut_of_abs_lt value.abs_lt_limit]
  | infinite nearest beyond unpacked => rw [unpacked, rounding_coe nearest, cut_signed _ beyond, Binary64.reading?]

/-! ## Operations on infinities -/

section Infinities

variable {x y : Float} {sign sign' : Sign} {q : Rat}

/-- It makes no difference in which order two numbers are multiplied, infinities and what is no number among them. -/
theorem float_mul_comm (x y : Float) : x * y = y * x := by
  have signs (s s' : Sign) : s * s' = s' * s := by cases s <;> cases s' <;> rfl
  change Float.ofModel (Float.Model.pack (UnpackedFloat.mul Format.binary64 x.toModel.unpack y.toModel.unpack)) =
    Float.ofModel (Float.Model.pack (UnpackedFloat.mul Format.binary64 y.toModel.unpack x.toModel.unpack))
  congr 2
  generalize x.toModel.unpack = u, y.toModel.unpack = v
  cases u <;> cases v <;> simp only [UnpackedFloat.mul, Nat.mul_comm, Int.add_comm, signs]

/-- An infinity times a number other than zero is an infinity, of the sign of the product. -/
theorem infinity_mul_of_finite {m : Nat} {e : Int} {pos : 0 < m} (hx : x.toModel.unpack = .infinity sign)
    (hy : y.toModel.unpack = .finite sign' m e pos) : (x * y).toModel.unpack = .infinity (sign * sign') := by
  change (Float.Model.pack (UnpackedFloat.mul Format.binary64 x.toModel.unpack y.toModel.unpack)).unpack = _
  rw [hx, hy]
  exact unpack_pack_infinity _

/-- An infinity over a number other than zero is an infinity, of the sign of the quotient. -/
theorem infinity_div_of_finite {m : Nat} {e : Int} {pos : 0 < m} (hx : x.toModel.unpack = .infinity sign)
    (hy : y.toModel.unpack = .finite sign' m e pos) : (x / y).toModel.unpack = .infinity (sign / sign') := by
  change (Float.Model.pack (UnpackedFloat.div Format.binary64 x.toModel.unpack y.toModel.unpack)).unpack = _
  rw [hx, hy]
  exact unpack_pack_infinity _

/-- A real number does not move an end of the line. -/
theorem coe_add_endpoint (r : ℝ) (sign : Sign) : (r : EReal) + endpoint sign = endpoint sign := by
  cases sign with
  | negative => exact EReal.add_bot _
  | positive => exact EReal.coe_add_top r

/-- An end of the line times a number other than zero is the end on the side of the product. -/
theorem endpoint_mul (sign sign' : Sign) {r : Rat} (pos : 0 < r) :
    endpoint sign * ((signed sign' r : Rat) : ℝ) = endpoint (sign * sign') := by
  have positive : (0 : ℝ) < r := by exact_mod_cast pos
  have negative : ((-r : Rat) : ℝ) < 0 := by exact_mod_cast neg_lt_zero.2 pos
  cases sign with
  | negative =>
    cases sign' with
    | negative => exact EReal.bot_mul_coe_of_neg negative
    | positive => exact EReal.bot_mul_coe_of_pos positive
  | positive =>
    cases sign' with
    | negative => exact EReal.top_mul_coe_of_neg negative
    | positive => exact EReal.top_mul_coe_of_pos positive

/-- An end of the line over a number other than zero is the end on the side of the quotient. -/
theorem endpoint_div (sign sign' : Sign) {r : Rat} (pos : 0 < r) :
    endpoint sign / ((signed sign' r : Rat) : ℝ) = endpoint (sign / sign') := by
  have inverse : (signed sign' r)⁻¹ = signed sign' r⁻¹ := by
    cases sign' with
    | negative => exact inv_neg
    | positive => rfl
  have same : sign / sign' = sign * sign' := by
    cases sign <;> cases sign' <;> rfl
  rw [same, ← endpoint_mul sign sign' (inv_pos.2 pos), ← inverse]
  push_cast
  rw [EReal.coe_inv]
  rfl

end Infinities

/-! ## Comparisons -/

/-- Rational numbers are in the same order on the extended line. -/
theorem compare_coe (p q : Rat) : compare ((p : ℝ) : EReal) ((q : ℝ) : EReal) = compare p q := by
  rcases lt_trichotomy p q with less | rfl | greater
  · rw [compare_lt_iff_lt.2 less, compare_lt_iff_lt]
    exact_mod_cast less
  · rw [compare_eq_iff_eq.2 rfl, compare_eq_iff_eq.2 rfl]
  · rw [compare_gt_iff_gt.2 greater, compare_gt_iff_gt]
    exact_mod_cast greater

/-- A value and an infinity are compared as they are on the line. -/
theorem compare_infinity_right {u : UnpackedFloat} {q : Rat} (h : HasValue u q) (sign : Sign) :
    u.compare (.infinity sign) = some (compare ((q : ℝ) : EReal) (endpoint sign)) := by
  have less : compare ((q : ℝ) : EReal) ⊤ = .lt := compare_lt_iff_lt.2 (EReal.coe_lt_top _)
  have greater : compare ((q : ℝ) : EReal) ⊥ = .gt := compare_gt_iff_gt.2 (EReal.bot_lt_coe _)
  cases sign with
  | negative =>
    change _ = some (compare _ ⊥)
    rw [greater]
    cases h <;> rfl
  | positive =>
    change _ = some (compare _ ⊤)
    rw [less]
    cases h <;> rfl

/-- An infinity and a value are compared as they are on the line. -/
theorem compare_infinity_left {u : UnpackedFloat} {q : Rat} (h : HasValue u q) (sign : Sign) :
    UnpackedFloat.compare (.infinity sign) u = some (compare (endpoint sign) ((q : ℝ) : EReal)) := by
  have greater : compare ⊤ ((q : ℝ) : EReal) = .gt := compare_gt_iff_gt.2 (EReal.coe_lt_top _)
  have less : compare ⊥ ((q : ℝ) : EReal) = .lt := compare_lt_iff_lt.2 (EReal.bot_lt_coe _)
  cases sign with
  | negative =>
    change _ = some (compare ⊥ _)
    rw [less]
    cases h <;> rfl
  | positive =>
    change _ = some (compare ⊤ _)
    rw [greater]
    cases h <;> rfl

/-- Two infinities are compared as the ends of the line are. -/
theorem compare_infinities (sign sign' : Sign) :
    UnpackedFloat.compare (.infinity sign) (.infinity sign') = some (compare (endpoint sign) (endpoint sign')) := by
  have less : compare (⊥ : EReal) ⊤ = .lt := compare_lt_iff_lt.2 bot_lt_top
  have greater : compare (⊤ : EReal) ⊥ = .gt := compare_gt_iff_gt.2 bot_lt_top
  cases sign with
  | negative =>
    cases sign' with
    | negative => exact congrArg some (compare_eq_iff_eq.2 rfl).symm
    | positive => exact congrArg some less.symm
  | positive =>
    cases sign' with
    | negative => exact congrArg some greater.symm
    | positive => exact congrArg some (compare_eq_iff_eq.2 rfl).symm

/-- Doubles are compared as what they stand for. -/
theorem compare_of_reading? {x y : Float} {p q : EReal} (hx : reading? x.toModel.unpack = some p)
    (hy : reading? y.toModel.unpack = some q) : x.toModel.unpack.compare y.toModel.unpack = some (compare p q) := by
  rcases reading?_cases hx with ⟨r, rfl, value⟩ | ⟨sign, rfl, infinity⟩
  · rcases reading?_cases hy with ⟨r', rfl, value'⟩ | ⟨sign', rfl, infinity'⟩
    · rw [value.compare_eq value', compare_coe]
    · rw [infinity', compare_infinity_right value]
  · rcases reading?_cases hy with ⟨r', rfl, value'⟩ | ⟨sign', rfl, infinity'⟩
    · rw [infinity, compare_infinity_left value']
    · rw [infinity, infinity', compare_infinities]

/-! ## Whole parts -/

/-- Shifting the significand gives the whole part of a size. -/
theorem floor_size (m : Nat) (e : Int) : ⌊size m e⌋ = wholePart m e := by
  unfold size wholePart
  split_ifs with nonneg
  · obtain ⟨k, rfl⟩ := Int.eq_ofNat_of_zero_le nonneg
    rw [Int.toNat_natCast, Nat.shiftLeft_eq, zpow_natCast, ← Nat.cast_two, ← Nat.cast_pow, ← Nat.cast_mul, Int.floor_natCast]
  · obtain ⟨k, rfl⟩ : ∃ k : Nat, e = -k := ⟨(-e).toNat, by omega⟩
    rw [neg_neg, Int.toNat_natCast, Nat.shiftRight_eq_div_pow, zpow_neg, zpow_natCast, ← div_eq_mul_inv, ← Nat.cast_two,
      ← Nat.cast_pow, Rat.floor_natCast_div_natCast, Int.natCast_ediv]

/-- Shifting it with one more where bits are lost gives the least whole number that is not below the size. -/
theorem ceil_size (m : Nat) (e : Int) : ⌈size m e⌉ = roundedUp m e := by
  unfold size roundedUp
  split_ifs with nonneg zero
  · obtain ⟨k, rfl⟩ := Int.eq_ofNat_of_zero_le nonneg
    rw [Int.toNat_natCast, Nat.shiftLeft_eq, zpow_natCast, ← Nat.cast_two, ← Nat.cast_pow, ← Nat.cast_mul, Int.ceil_natCast]
  · simp [zero]
  · obtain ⟨k, rfl⟩ : ∃ k : Nat, e = -k := ⟨(-e).toNat, by omega⟩
    obtain ⟨n, rfl⟩ : ∃ n, m = n + 1 := ⟨m - 1, by omega⟩
    have power : (0 : Rat) < (2 ^ k : Nat) := by exact_mod_cast Nat.two_pow_pos k
    rw [neg_neg, Int.toNat_natCast, Nat.shiftRight_eq_div_pow, zpow_neg, zpow_natCast, ← div_eq_mul_inv, ← Nat.cast_two,
      ← Nat.cast_pow, Nat.add_sub_cancel, Int.ceil_eq_iff]
    have below : ((n / 2 ^ k : Nat) : Rat) ≤ n / (2 ^ k : Nat) := Nat.cast_div_le
    have above : n + 1 ≤ 2 ^ k * (n / 2 ^ k + 1) := Nat.lt_mul_div_succ n (Nat.two_pow_pos k)
    have above : ((n + 1 : Nat) : Rat) ≤ (2 ^ k : Nat) * (n / 2 ^ k + 1 : Nat) := by exact_mod_cast above
    generalize n / 2 ^ k = w at below above
    constructor
    · have more : (n : Rat) / (2 ^ k : Nat) < (n + 1 : Nat) / (2 ^ k : Nat) :=
        div_lt_div_of_pos_right (by exact_mod_cast Nat.lt_succ_self n) power
      rw [Nat.cast_succ, Int.cast_add, Int.cast_natCast, Int.cast_one, add_sub_cancel_right]
      exact below.trans_lt more
    · rw [div_le_iff₀' power]
      exact above

/-- The whole part of a finite double is that of its value. -/
theorem floor?_of_value? {x : Binary64} {q : Rat} (h : x.value? = some q) : x.floor? = some ⌊q⌋ := by
  cases x with
  | finite negative m e =>
    cases negative with
    | true =>
      obtain rfl : -size m e = q := Option.some.inj h
      rw [Int.floor_neg, ceil_size]
      rfl
    | false =>
      obtain rfl : size m e = q := Option.some.inj h
      rw [floor_size]
      rfl
  | infinite negative => cases h
  | undefined => cases h

/-- Where there is no value there is no whole part. -/
theorem floor?_of_isFinite_eq_false {x : Float} (infinite : x.isFinite = false) : (ofFloat x).floor? = none := by
  cases parts : ofFloat x with
  | finite negative m e =>
    have finite := isFinite_of_value? (x := x) (congrArg value? parts)
    rw [infinite] at finite
    cases finite
  | infinite negative => rfl
  | undefined => rfl

/-! ## What results stand for -/

section Results

variable {x y : Float} {p : EReal} {q r : ℝ}

/-- What a double stands for needs no rounding. -/
theorem rounding_of_reading? (hx : reading? x.toModel.unpack = some p) : rounding p = p := by
  rcases reading?_cases hx with ⟨q, rfl, value⟩ | ⟨sign, rfl, -⟩
  · rw [rounding_coe value.nearest, cut_of_abs_lt value.abs_lt_limit]
  · exact rounding_endpoint sign

/-- Different doubles are at least as far apart as the least one is from zero, and this distance needs no rounding. -/
theorem rounding_difference_pos (hx : reading? x.toModel.unpack = some (r : EReal)) (hy : reading? y.toModel.unpack = some (q : EReal))
    (less : q < r) : 0 < rounding ((r - q : ℝ)) := by
  obtain ⟨s, rfl, value⟩ := exists_value_of_reading? hx
  obtain ⟨t, rfl, value'⟩ := exists_value_of_reading? hy
  have least : HasValue (.finite .positive 1 (-1074) (by decide)) (size 1 (-1074)) :=
    .finite .positive (by decide) ⟨by decide, .inr rfl, by decide, by decide⟩
  have apart : size 1 (-1074) ≤ s - t := value.short.size_one_le_sub value'.short (by exact_mod_cast less)
  calc (0 : EReal) < ((size 1 (-1074) : Rat) : ℝ) := by exact_mod_cast size_pos (by decide) _
    _ = rounding ((size 1 (-1074) : Rat) : ℝ) := by rw [rounding_coe least.nearest, cut_of_abs_lt least.abs_lt_limit]
    _ ≤ rounding ((s - t : ℝ)) := rounding_mono (by exact_mod_cast apart)

/-- A sum stands for the rounded one, also if the second number is infinite. -/
theorem reading?_add (hx : reading? x.toModel.unpack = some (r : EReal)) (hy : reading? y.toModel.unpack = some p) :
    reading? (x + y).toModel.unpack = some (rounding (r + p)) := by
  obtain ⟨s, rfl, value⟩ := exists_value_of_reading? hx
  rcases reading?_cases hy with ⟨t, rfl, value'⟩ | ⟨sign, rfl, infinity⟩
  · have sum := (rounded_add value value').reading?
    push_cast at sum
    exact sum
  · rw [coe_add_endpoint, rounding_endpoint, add_infinity value infinity, reading?]

/-- A difference stands for the rounded one. -/
theorem reading?_sub (hx : reading? x.toModel.unpack = some (r : EReal)) (hy : reading? y.toModel.unpack = some (q : EReal)) :
    reading? (x - y).toModel.unpack = some (rounding ((r - q : ℝ))) := by
  obtain ⟨s, rfl, value⟩ := exists_value_of_reading? hx
  obtain ⟨t, rfl, value'⟩ := exists_value_of_reading? hy
  have difference := (rounded_sub value value').reading?
  push_cast at difference
  exact difference

/-- Two doubles whose product and quotient are determined: both have values, or the first is infinite and the second is a number
other than zero. -/
inductive Determined (x y : Float) : EReal → ℝ → Prop
  | values {r t : Rat} (first : HasValue x.toModel.unpack r) (second : HasValue y.toModel.unpack t) :
    Determined x y ((r : ℝ) : EReal) t
  | infinite {sign sign' : Sign} {m : Nat} {e : Int} {pos : 0 < m} (first : x.toModel.unpack = .infinity sign)
    (second : y.toModel.unpack = .finite sign' m e pos) : Determined x y (endpoint sign) ((signed sign' (size m e) : Rat) : ℝ)

/-- Only an infinity and zero leave open what becomes of them. -/
theorem determined_of_reading? (hx : reading? x.toModel.unpack = some p) (hy : reading? y.toModel.unpack = some (q : EReal))
    (determined : q = 0 → ∃ r : ℝ, p = r) : Determined x y p q := by
  obtain ⟨t, rfl, value'⟩ := exists_value_of_reading? hy
  rcases reading?_cases hx with ⟨r, rfl, value⟩ | ⟨sign, rfl, infinity⟩
  · exact .values value value'
  · generalize unpacked : y.toModel.unpack = u at value'
    cases value' with
    | zero sign' =>
      obtain ⟨r, same⟩ := determined (by simp)
      exact absurd same (endpoint_ne_coe sign r)
    | finite sign' pos form => exact .infinite infinity unpacked

/-- A product stands for the rounded one. -/
theorem Determined.reading?_mul (h : Determined x y p q) : reading? (x * y).toModel.unpack = some (rounding (p * q)) := by
  cases h with
  | values first second =>
    have product := (rounded_mul first second).reading?
    push_cast at product
    exact product
  | @infinite _ _ _ _ pos first second =>
    rw [endpoint_mul _ _ (size_pos pos _), rounding_endpoint, infinity_mul_of_finite first second, Binary64.reading?]

/-- So does a quotient, unless the divisor is zero. -/
theorem Determined.reading?_div (h : Determined x y p q) (nonzero : q ≠ 0) :
    reading? (x / y).toModel.unpack = some (rounding (p / q)) := by
  cases h with
  | values first second =>
    have quotient := (rounded_div first second (by exact_mod_cast nonzero)).reading?
    push_cast at quotient
    exact quotient
  | @infinite _ _ _ _ pos first second =>
    rw [endpoint_div _ _ (size_pos pos _), rounding_endpoint, infinity_div_of_finite first second, Binary64.reading?]

/-- A double is finite exactly if it stands for a real number. -/
theorem isFinite_iff_reading? : x.isFinite = true ↔ ∃ r : ℝ, reading? x.toModel.unpack = some (r : EReal) := by
  constructor
  · intro finite
    obtain ⟨q, value⟩ := exists_value_of_isFinite finite
    exact ⟨q, value.reading?⟩
  · rintro ⟨r, hx⟩
    obtain ⟨q, -, value⟩ := exists_value_of_reading? hx
    exact value.isFinite

end Results

end Binary64

/-! ## All of it together -/

open Binary64

/-- Doubles are computed with under one rounding. -/
theorem roundedOnce_float : RoundedOnce (fun x : Float => reading? x.toModel.unpack) rounding where
  monotone := rounding_mono
  odd := rounding_odd
  fixed := rounding_of_reading?
  difference_pos := rounding_difference_pos
  natCast := by
    intro n word
    have small : n < 2 * leadingBit := word.trans (by decide)
    simpa using (hasValue_natCast small).reading?
  add := reading?_add
  sub := reading?_sub
  mul := fun hx hy determined => (determined_of_reading? hx hy determined).reading?_mul
  div := fun hx hy nonzero => (determined_of_reading? hx hy fun zero => absurd zero nonzero).reading?_div nonzero
  lt_iff := by
    intro x y p q hx hy
    rw [float_lt_iff, compare_of_reading? hx hy, Option.some_inj, compare_lt_iff_lt]
  le_iff := by
    intro x y p q hx hy
    rw [float_le_iff, compare_of_reading? hx hy, Option.any_some, Ordering.isLE_iff_ne_gt, ← not_lt, ← compare_gt_iff_gt]
  isFinite_iff := isFinite_iff_reading?
  floor? := by
    intro x r hx
    obtain ⟨q, rfl, value⟩ := exists_value_of_reading? hx
    rw [Rat.floor_cast]
    exact floor?_of_value? (value?_eq_some_iff.2 value)
  floor?_infinite := by
    intro x hx
    rcases hx with hx | hx
    · exact floor?_of_isFinite_eq_false (isFinite_of_reading? hx (.inl rfl))
    · exact floor?_of_isFinite_eq_false (isFinite_of_reading? hx (.inr rfl))

end DomainColoring
