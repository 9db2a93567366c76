import DomainColoring.Proofs.Scalar.Nearest
import DomainColoring.Proofs.Scalar.Order

/-!
# Values of doubles

A finite double stands for a rational number (`Binary64.HasValue`), which has at most 53 bits and is below the limit of the doubles.
Comparing doubles is comparing these numbers (`Binary64.float_lt_iff_lt`, `Binary64.float_le_iff_le`, `Binary64.float_beq_iff_eq`).
-/

namespace DomainColoring

open Float.Model Float.Model.UnpackedFloat

namespace Binary64

/-- A number with a sign. -/
def signed (sign : Sign) (r : Rat) : Rat :=
  if isMinus sign then -r else r

/-- A sign does not change the absolute value. -/
theorem abs_signed (sign : Sign) (r : Rat) : |signed sign r| = |r| := by
  cases sign with
  | negative => exact abs_neg r
  | positive => rfl

/-- The other sign makes the opposite. -/
theorem signed_neg (sign : Sign) (r : Rat) : signed (-sign) r = -signed sign r := by
  cases sign with
  | negative => exact (neg_neg r).symm
  | positive => rfl

/-- Signs are multiplied as numbers are. -/
theorem signed_mul (sign₁ sign₂ : Sign) (r₁ r₂ : Rat) :
    signed (sign₁ * sign₂) (r₁ * r₂) = signed sign₁ r₁ * signed sign₂ r₂ := by
  cases sign₁ with
  | negative =>
    cases sign₂ with
    | negative => exact (neg_mul_neg r₁ r₂).symm
    | positive => exact (neg_mul r₁ r₂).symm
  | positive =>
    cases sign₂ with
    | negative => exact (mul_neg r₁ r₂).symm
    | positive => rfl

/-- Signs are divided as numbers are. -/
theorem signed_div (sign₁ sign₂ : Sign) (r₁ r₂ : Rat) :
    signed (sign₁ / sign₂) (r₁ / r₂) = signed sign₁ r₁ / signed sign₂ r₂ := by
  cases sign₁ with
  | negative =>
    cases sign₂ with
    | negative => exact (neg_div_neg_eq r₁ r₂).symm
    | positive => exact (neg_div r₂ r₁).symm
  | positive =>
    cases sign₂ with
    | negative => exact (div_neg r₁).symm
    | positive => rfl

/-- A sign before a whole number is one before its value. -/
theorem cast_apply (sign : Sign) (n : Nat) : ((sign.apply n : Int) : Rat) = signed sign n := by
  cases sign with
  | negative => exact (Int.cast_neg _).trans (congrArg Neg.neg (Int.cast_natCast n))
  | positive => exact Int.cast_natCast n

/-- An unpacked double is finite, has the form that doubles have, and is that number. -/
inductive HasValue : UnpackedFloat → Rat → Prop
  | zero (sign : Sign) : HasValue (.zero sign) 0
  | finite (sign : Sign) {m : Nat} {e : Int} (pos : 0 < m) (form : Canonical m e) :
    HasValue (.finite sign m e pos) (signed sign (size m e))

/-- Only finite doubles have an exact value. -/
theorem isFinite_of_value? {x : Float} {q : Rat} (h : (ofFloat x).value? = some q) : x.isFinite = true := by
  rw [ofFloat, biased_toBits] at h
  have bounded : @unpackExponent Format.binary64 x.toBits.toBitVec ≠ -1#11 := by
    intro top
    have top : (@unpackExponent Format.binary64 x.toBits.toBitVec).toNat = 2047 := congrArg BitVec.toNat top
    dsimp only at h
    rw [if_pos top] at h
    split at h
    · cases h
    · cases h
  change (UnpackedFloat.unpack Format.binary64 x.toBits.toBitVec).isFinite = true
  unfold UnpackedFloat.unpack
  dsimp only
  rw [if_neg bounded]
  split
  · split
    · rfl
    · rfl
  · rfl

/-- A double has the value of its unpacked form. -/
theorem value?_eq_some_iff {x : Float} {q : Rat} : (ofFloat x).value? = some q ↔ HasValue x.toModel.unpack q := by
  constructor
  · intro h
    have finite : x.toModel.unpack.isFinite = true := isFinite_of_value? h
    rcases unpacked : x.toModel.unpack with _ | _ | sign | ⟨sign, m, e, pos⟩
    · rw [unpacked] at finite
      cases finite
    · rw [unpacked] at finite
      cases finite
    · rw [ofFloat_of_zero unpacked] at h
      have zero : size 0 (-1074) = 0 := zero_mul _
      cases sign with
      | negative =>
        obtain rfl : -size 0 (-1074) = q := Option.some.inj h
        rw [zero, neg_zero]
        exact .zero _
      | positive =>
        obtain rfl : size 0 (-1074) = q := Option.some.inj h
        rw [zero]
        exact .zero _
    · rw [ofFloat_of_finite unpacked] at h
      obtain rfl : signed sign (size m e) = q := Option.some.inj h
      exact .finite sign pos (canonical_of_unpack unpacked)
  · intro h
    generalize unpacked : x.toModel.unpack = u at h
    cases h with
    | zero sign =>
      have zero : size 0 (-1074) = 0 := zero_mul _
      rw [ofFloat_of_zero unpacked, value?, zero, neg_zero, ite_self]
    | finite sign pos form =>
      rw [ofFloat_of_finite unpacked]
      rfl

/-- A finite double has a value. -/
theorem exists_value_of_isFinite {x : Float} (h : x.isFinite = true) : ∃ q, HasValue x.toModel.unpack q := by
  have finite : x.toModel.unpack.isFinite = true := h
  rcases unpacked : x.toModel.unpack with _ | _ | sign | ⟨sign, m, e, pos⟩
  · rw [unpacked] at finite
    cases finite
  · rw [unpacked] at finite
    cases finite
  · exact ⟨0, .zero sign⟩
  · exact ⟨_, .finite sign pos (canonical_of_unpack unpacked)⟩

/-- A zero is packed without loss. -/
theorem unpack_pack_zero (sign : Sign) : (Float.Model.pack (.zero sign)).unpack = .zero sign := by
  cases sign with
  | negative => rfl
  | positive => rfl

/-- An infinity is packed without loss. -/
theorem unpack_pack_infinity (sign : Sign) : (Float.Model.pack (.infinity sign)).unpack = .infinity sign := by
  cases sign with
  | negative => rfl
  | positive => rfl

namespace HasValue

variable {u v : UnpackedFloat} {p q : Rat}

/-- What has a value is packed without loss. -/
theorem unpack_pack (h : HasValue u q) : (Float.Model.pack u).unpack = u := by
  cases h with
  | zero sign => exact unpack_pack_zero sign
  | finite sign pos form => exact Binary64.unpack_pack form

/-- What has a value is finite. -/
theorem isFinite (h : HasValue u q) : u.isFinite = true := by
  cases h with
  | zero sign => rfl
  | finite sign pos form => rfl

/-- What has a value is a number. -/
theorem isNaN_eq_false (h : HasValue u q) : u.isNaN = false := by
  cases h with
  | zero sign => rfl
  | finite sign pos form => rfl

/-- The opposite has the opposite value. -/
theorem neg (h : HasValue u q) : HasValue u.neg (-q) := by
  cases h with
  | zero sign =>
    rw [neg_zero]
    exact .zero _
  | finite sign pos form =>
    rw [← signed_neg]
    exact .finite _ pos form

/-- The value is a signed size in the form that doubles have. -/
theorem exists_size (h : HasValue u q) : ∃ m e, Canonical m e ∧ |q| = size m e := by
  cases h with
  | zero sign =>
    refine ⟨0, -1074, ⟨by decide, .inr rfl, le_rfl, by decide⟩, ?_⟩
    rw [abs_zero, size, Nat.cast_zero, zero_mul]
  | @finite sign m e pos form => exact ⟨m, e, form, (abs_signed _ _).trans (abs_of_nonneg (size_nonneg m e))⟩

theorem short (h : HasValue u q) : Short q := by
  obtain ⟨m, e, form, same⟩ := h.exists_size
  exact ⟨m, e, form.small.le, form.least, same⟩

/-- A value is below the limit. -/
theorem abs_lt_limit (h : HasValue u q) : |q| < limit := by
  obtain ⟨m, e, form, same⟩ := h.exists_size
  rw [same]
  exact (size_mono m form.greatest).trans_lt (size_lt_size.2 form.small)

/-- What has the value zero is a zero of either sign. -/
theorem exists_zero (h : HasValue u 0) : ∃ sign, u = .zero sign := by
  generalize zero : (0 : Rat) = r at h
  cases h with
  | zero sign => exact ⟨sign, rfl⟩
  | @finite sign m e pos form =>
    have value : size m e = 0 := by rw [← abs_of_nonneg (size_nonneg m e), ← abs_signed sign, ← zero, abs_zero]
    exact absurd value (size_pos pos e).ne'

/-- Larger significands come after smaller ones, and larger exponents after smaller ones. -/
theorem compare_size {m n : Nat} {e f : Int} (hm : Canonical m e) (hn : Canonical n f) :
    (compare e f).then (compare m n) = compare (size m e) (size n f) := by
  -- The significand over the greater exponent is full, so the size is above all that are over the lower one.
  have less {m n : Nat} {e f : Int} (hm : Canonical m e) (hn : Canonical n f) (lower : e < f) : size m e < size n f := by
    have full : leadingBit ≤ n := hn.full.resolve_right (by have := hm.least; omega)
    calc size m e < size (2 * leadingBit) e := size_lt_size.2 hm.small
      _ = size leadingBit (e + 1) := size_twice e
      _ ≤ size leadingBit f := size_mono _ lower
      _ ≤ size n f := size_le_size.2 full
  rcases lt_trichotomy e f with lower | rfl | higher
  · rw [compare_lt_iff_lt.2 lower, compare_lt_iff_lt.2 (less hm hn lower)]
    rfl
  · rw [compare_eq_iff_eq.2 rfl]
    change compare m n = _
    rcases lt_trichotomy m n with less | rfl | greater
    · rw [compare_lt_iff_lt.2 less, compare_lt_iff_lt.2 (size_lt_size.2 less)]
    · rw [compare_eq_iff_eq.2 rfl, compare_eq_iff_eq.2 rfl]
    · rw [compare_gt_iff_gt.2 greater, compare_gt_iff_gt.2 (size_lt_size.2 greater)]
  · rw [compare_gt_iff_gt.2 higher, compare_gt_iff_gt.2 (less hn hm higher)]
    rfl

/-- Opposites are in the opposite order. -/
theorem compare_neg (r t : Rat) : compare (-r) (-t) = (compare r t).swap := by
  rcases lt_trichotomy r t with less | rfl | greater
  · rw [compare_lt_iff_lt.2 less, compare_gt_iff_gt.2 (neg_lt_neg less)]
    rfl
  · rw [compare_eq_iff_eq.2 rfl, compare_eq_iff_eq.2 rfl]
    rfl
  · rw [compare_gt_iff_gt.2 greater, compare_lt_iff_lt.2 (neg_lt_neg greater)]
    rfl

/-- Doubles that have values are compared as these are. -/
theorem compare_eq (hu : HasValue u p) (hv : HasValue v q) : u.compare v = some (compare p q) := by
  cases hu with
  | zero sign =>
    cases hv with
    | zero sign' => exact congrArg some (compare_eq_iff_eq.2 rfl).symm
    | @finite sign' n f pos' form' =>
      cases sign' with
      | negative => exact congrArg some (compare_gt_iff_gt.2 (neg_neg_of_pos (size_pos pos' f))).symm
      | positive => exact congrArg some (compare_lt_iff_lt.2 (size_pos pos' f)).symm
  | @finite sign m e pos form =>
    cases hv with
    | zero sign' =>
      cases sign with
      | negative => exact congrArg some (compare_lt_iff_lt.2 (neg_neg_of_pos (size_pos pos e))).symm
      | positive => exact congrArg some (compare_gt_iff_gt.2 (size_pos pos e)).symm
    | @finite sign' n f pos' form' =>
      cases sign with
      | negative =>
        cases sign' with
        | negative =>
          refine congrArg some ?_
          rw [compare_size form form']
          exact (compare_neg _ _).symm
        | positive =>
          exact congrArg some (compare_lt_iff_lt.2 ((neg_neg_of_pos (size_pos pos e)).trans (size_pos pos' f))).symm
      | positive =>
        cases sign' with
        | negative =>
          exact congrArg some (compare_gt_iff_gt.2 ((neg_neg_of_pos (size_pos pos' f)).trans (size_pos pos e))).symm
        | positive => exact congrArg some (compare_size form form')

end HasValue

section Order

variable {x y : Float} {p q : Rat} (hx : HasValue x.toModel.unpack p) (hy : HasValue y.toModel.unpack q)

include hx hy

/-- A double is less where its value is. -/
theorem float_lt_iff_lt : x < y ↔ p < q := by
  rw [float_lt_iff, hx.compare_eq hy, Option.some_inj, compare_lt_iff_lt]

theorem float_le_iff_le : x ≤ y ↔ p ≤ q := by
  rw [float_le_iff, hx.compare_eq hy, Option.any_some, Ordering.isLE_iff_ne_gt, ← not_lt, ← compare_gt_iff_gt]

theorem float_beq_iff_eq : (x == y) = true ↔ p = q := by
  change (x.toModel.unpack.compare y.toModel.unpack == some .eq) = true ↔ _
  rw [beq_iff_eq, hx.compare_eq hy, Option.some_inj, compare_eq_iff_eq]

end Order

end Binary64

end DomainColoring
