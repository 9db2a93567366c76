import DomainColoring.Proofs.Scalar.Rounding

/-!
# The nearest double

What a number is rounded to if no exponent is too great for a double (`Binary64.Nearest`). A number stays on its side of every number
of at most 53 bits (`Nearest.le_of_le`, `Nearest.le_of_ge`), so it does not leave an interval with such ends. It is rounded to zero up to
half the least double (`Nearest.eq_zero_iff`), and beyond all doubles from the middle between the greatest double and the next power of
two on (`Nearest.abs_lt_limit_iff`).
-/

namespace DomainColoring

open Float.Model Float.Model.UnpackedFloat

namespace Binary64

namespace RoundsTo

variable {w : Rat} {n k : Nat}

/-- A number up to a whole one is not rounded beyond it. -/
theorem le_of_le (h : RoundsTo w n) (le : w ≤ k) : n ≤ k := by
  have near : (n : Rat) < k + 1 := by linarith [h.below]
  have near : n < k + 1 := by exact_mod_cast near
  omega

/-- A number from a whole one on is not rounded below it. -/
theorem le_of_ge (h : RoundsTo w n) (ge : k ≤ w) : k ≤ n := by
  have near : (k : Rat) < n + 1 := by linarith [h.above]
  have near : k < n + 1 := by exact_mod_cast near
  omega

/-- A whole number is rounded to itself. -/
theorem natCast (n : Nat) : RoundsTo n n := by
  refine ⟨by linarith, by linarith, ?_⟩
  rintro (tie | tie)
  · linarith
  · linarith

end RoundsTo

/-! ## Sizes -/

theorem size_nonneg (n : Nat) (e : Int) : 0 ≤ size n e := by
  unfold size
  positivity

theorem size_pos {n : Nat} (pos : 0 < n) (e : Int) : 0 < size n e :=
  mul_pos (by exact_mod_cast pos) (by positivity)

/-- A size over a lower exponent. -/
theorem size_add (n : Nat) (e : Int) (d : Nat) : size n (e + d) = size (n * 2 ^ d) e := by
  rw [size, size, zpow_add₀ (by norm_num), zpow_natCast]
  push_cast
  ring

theorem size_le_size {n k : Nat} {e : Int} : size n e ≤ size k e ↔ n ≤ k := by
  have power : (0 : Rat) < 2 ^ e := by positivity
  rw [size, size, mul_le_mul_iff_left₀ power, Nat.cast_le]

/-- A size grows with its exponent. -/
theorem size_mono (n : Nat) {e j : Int} (le : e ≤ j) : size n e ≤ size n j := by
  obtain ⟨d, rfl⟩ := Int.le.dest le
  rw [size_add, size_le_size]
  exact Nat.le_mul_of_pos_right n (by positivity)

/-- A multiple of a size has that multiple of its significand. -/
theorem size_mul_natCast (n : Nat) (e : Int) (k : Nat) : size n e * k = size (n * k) e := by
  rw [size, size, Nat.cast_mul]
  ring

theorem size_twice (e : Int) : size (2 * leadingBit) e = size leadingBit (e + 1) := by
  rw [show e + 1 = e + (1 : Nat) from rfl, size_add, pow_one, Nat.mul_comm]

theorem size_lt_size {n k : Nat} {e : Int} : size n e < size k e ↔ n < k := by
  rw [← not_le, size_le_size, not_le]

/-- The number behind the greatest double, if there were one more exponent. -/
def limit : Rat :=
  size (2 * leadingBit) 971

/-- The middle between the greatest double and the limit. -/
def border : Rat :=
  size (4 * leadingBit - 1) 970

/-- The border comes before the limit. -/
theorem border_lt_limit : border < limit := by
  have same : limit = size (4 * leadingBit) 970 := by
    rw [limit, show (971 : Int) = 970 + (1 : Nat) from rfl, size_add]
    rfl
  rw [same, border, size_lt_size]
  decide

/-- The border lies in the middle between the greatest double and the limit. -/
theorem border_eq : border = ((2 * leadingBit : Nat) - 1 / 2) * 2 ^ (971 : Int) := by
  have half : ((4 * leadingBit - 1 : Nat) : Rat) = 2 * ((2 * leadingBit : Nat) - 1 / 2) := by norm_num [leadingBit]
  have power : (2 : Rat) ^ (971 : Int) = 2 ^ (970 : Int) * 2 := zpow_add_one₀ (by norm_num) 970
  rw [border, size, half, power]
  ring

/-- The greatest power of two of a double is below the border. -/
theorem two_pow_lt_border : (2 : Rat) ^ (1023 : Int) < border := by
  have same : (2 : Rat) ^ (1023 : Int) = size (2 ^ 53) 970 := by
    rw [size, Nat.cast_pow, Nat.cast_two, ← zpow_natCast, ← zpow_add₀ (by norm_num)]
    rfl
  rw [same, border, size_lt_size]
  decide

/-- What a number that is not negative is rounded to: a whole number over the exponent for which it has 53 bits, or the least one. -/
structure NearestSize (r : Rat) (n : Nat) (e : Int) : Prop where
  nonneg : 0 ≤ r
  nearest : RoundsTo (r / 2 ^ e) n
  least : -1074 ≤ e
  full : e = -1074 ∨ size leadingBit e ≤ r
  fits : n ≤ 2 * leadingBit

namespace NearestSize

variable {r : Rat} {n : Nat} {e : Int} {k : Nat} {j : Int}

/-- What is up to a size on its grid is not rounded beyond it. -/
theorem le_of_le (h : NearestSize r n e) (le : r ≤ size k e) : n ≤ k := by
  have power : (0 : Rat) < 2 ^ e := by positivity
  exact h.nearest.le_of_le ((div_le_iff₀ power).2 le)

/-- What is from a size on its grid on is not rounded below it. -/
theorem le_of_ge (h : NearestSize r n e) (ge : size k e ≤ r) : k ≤ n := by
  have power : (0 : Rat) < 2 ^ e := by positivity
  exact h.nearest.le_of_ge ((le_div_iff₀ power).2 ge)

/-- Over a lower exponent there are no sizes of 53 bits beyond the least one that has 53 bits over the exponent itself. -/
theorem size_le_leadingBit (h : NearestSize r n e) (few : k ≤ 2 * leadingBit) (least : -1074 ≤ j) (lower : j < e) :
    size k j ≤ size leadingBit e ∧ size leadingBit e ≤ r := by
  constructor
  · calc size k j ≤ size (2 * leadingBit) j := size_le_size.2 few
      _ = size leadingBit (j + 1) := size_twice j
      _ ≤ size leadingBit e := size_mono _ lower
  · exact h.full.resolve_left (by omega)

/-- What is not above a number of at most 53 bits is not rounded above it. -/
theorem size_le (h : NearestSize r n e) (few : k ≤ 2 * leadingBit) (least : -1074 ≤ j) (le : r ≤ size k j) :
    size n e ≤ size k j := by
  rcases le_or_gt e j with up | lower
  · obtain ⟨d, rfl⟩ := Int.le.dest up
    rw [size_add] at le ⊢
    exact size_le_size.2 (h.le_of_le le)
  · obtain ⟨small, above⟩ := h.size_le_leadingBit few least lower
    calc size n e ≤ size leadingBit e := size_le_size.2 (h.le_of_le (le.trans small))
      _ ≤ r := above
      _ ≤ size k j := le

/-- What is not below a number of at most 53 bits is not rounded below it. -/
theorem le_size (h : NearestSize r n e) (few : k ≤ 2 * leadingBit) (least : -1074 ≤ j) (ge : size k j ≤ r) :
    size k j ≤ size n e := by
  rcases le_or_gt e j with up | lower
  · obtain ⟨d, rfl⟩ := Int.le.dest up
    rw [size_add] at ge ⊢
    exact size_le_size.2 (h.le_of_ge ge)
  · obtain ⟨small, above⟩ := h.size_le_leadingBit few least lower
    exact small.trans (size_le_size.2 (h.le_of_ge above))

/-- Rounding keeps the order, also between numbers that are rounded over different exponents. -/
theorem mono {r' : Rat} {n' : Nat} {e' : Int} (h : NearestSize r n e) (h' : NearestSize r' n' e') (le : r ≤ r') :
    size n e ≤ size n' e' := by
  have power (j : Int) : (0 : Rat) < 2 ^ j := by positivity
  rcases lt_trichotomy e e' with lower | rfl | higher
  · obtain ⟨small, full⟩ := h'.size_le_leadingBit h.fits h.least lower
    exact small.trans (h'.le_size (Nat.le_mul_of_pos_left _ (by decide)) h'.least full)
  · exact size_le_size.2 (h.nearest.mono h'.nearest (div_le_div_of_nonneg_right le (power e).le))
  · -- The lesser number has 53 bits over an exponent above that of the greater one: both are next to the power of two in between.
    obtain ⟨small, full⟩ := h.size_le_leadingBit h'.fits h'.least higher
    have reached : size leadingBit e ≤ size n' e' :=
      h'.le_size (Nat.le_mul_of_pos_left _ (by decide)) h.least (full.trans le)
    obtain rfl : e = e' + 1 := by
      by_contra other
      have far : size (4 * leadingBit) e' ≤ size leadingBit e := by
        rw [show 4 * leadingBit = leadingBit * 2 ^ 2 from rfl, ← size_add]
        exact size_mono _ (by omega)
      have few := size_le_size.1 (far.trans (reached.trans (size_le_size.2 h'.fits)))
      exact absurd few (by decide)
    refine le_trans (size_le_size.2 ?_) reached
    have most : r ≤ (2 * leadingBit + 1 / 2) * 2 ^ e' := by
      have fits : (n' : Rat) ≤ 2 * leadingBit := by exact_mod_cast h'.fits
      have near := (div_le_iff₀ (power e')).1 h'.nearest.above
      exact le.trans (near.trans (mul_le_mul_of_nonneg_right (by linarith) (power e').le))
    have quotient : r / 2 ^ (e' + 1) ≤ leadingBit + 1 / 4 := by
      rw [div_le_iff₀ (power _), zpow_add_one₀ (by norm_num)]
      linarith
    have near : (n : Rat) < leadingBit + 1 := by linarith [h.nearest.below]
    have near : n < leadingBit + 1 := by exact_mod_cast near
    omega

/-- A number is rounded to zero up to half the least double. -/
theorem eq_zero_iff (h : NearestSize r n e) : n = 0 ↔ r ≤ 2 ^ (-1075 : Int) := by
  have half : (2 : Rat) ^ (-1075 : Int) = 1 / 2 * 2 ^ (-1074 : Int) := by
    rw [show (-1075 : Int) = -1074 - 1 from rfl, zpow_sub_one₀ (by norm_num)]
    ring
  have power : (0 : Rat) < 2 ^ (-1074 : Int) := by positivity
  have leading : leadingBit = 4503599627370496 := rfl
  constructor
  · rintro rfl
    have bottom : e = -1074 := by
      rcases h.full with bottom | full
      · exact bottom
      · have none := h.le_of_ge full
        omega
    subst bottom
    have near := h.nearest.above
    rw [div_le_iff₀ power] at near
    rw [half]
    simpa using near
  · intro small
    have bottom : e = -1074 := by
      rcases h.full with bottom | full
      · exact bottom
      · have least : size 1 (-1074) ≤ size leadingBit e := (size_le_size.2 (by omega)).trans (size_mono _ h.least)
        rw [size, Nat.cast_one, one_mul] at least
        linarith
    subst bottom
    have part : r / 2 ^ (-1074 : Int) ≤ 1 / 2 := by
      rw [div_le_iff₀ power, ← half]
      exact small
    have one : (n : Rat) ≤ 1 := by linarith [h.nearest.below]
    have one : n ≤ 1 := by exact_mod_cast one
    -- One is odd, so a half is not rounded up to it.
    rcases Nat.le_one_iff_eq_zero_or_eq_one.1 one with zero | odd
    · exact zero
    · have even := h.nearest.even (.inr (by rw [odd, Nat.cast_one]; linarith [odd ▸ h.nearest.below]))
      omega

/-- A size that has a greater whole number over some exponent has a greater exponent. -/
theorem le_exponent (h : NearestSize r n e) (large : leadingBit < k) (le : size k j ≤ size n e) : j ≤ e := by
  by_contra lower
  have bound : size n e ≤ size leadingBit j :=
    calc size n e ≤ size (2 * leadingBit) e := size_le_size.2 h.fits
      _ = size leadingBit (e + 1) := size_twice e
      _ ≤ size leadingBit j := size_mono _ (by omega)
  have few := size_le_size.1 (le.trans bound)
  omega

/-- A number is rounded to a double up to the border. -/
theorem size_lt_limit_iff (h : NearestSize r n e) : size n e < limit ↔ r < border := by
  have leading : leadingBit = 4503599627370496 := rfl
  have power : (0 : Rat) < 2 ^ (971 : Int) := by positivity
  -- Beyond the exponent 971 a number has 53 bits and is above the border, and so is what it is rounded to.
  have beyond (high : 971 < e) : limit ≤ size leadingBit e ∧ size leadingBit e ≤ r := by
    refine ⟨?_, h.full.resolve_left (by omega)⟩
    rw [limit, size_twice]
    exact size_mono _ high
  rw [← not_le, ← not_le, not_iff_not]
  constructor
  · intro large
    rcases (h.le_exponent (by omega) large).lt_or_eq with high | rfl
    · obtain ⟨above, full⟩ := beyond high
      exact border_lt_limit.le.trans (above.trans full)
    · have all : ((2 * leadingBit : Nat) : Rat) ≤ n := by exact_mod_cast size_le_size.1 large
      have near := h.nearest.below
      rw [border_eq, ← le_div_iff₀ power]
      linarith
  · intro large
    have most : size (2 * leadingBit - 1) 971 ≤ r := by
      refine le_trans ?_ large
      rw [border, show (971 : Int) = 970 + (1 : Nat) from rfl, size_add, size_le_size]
      decide
    rcases (h.le_exponent (by omega) (h.le_size (by omega) (by omega) most)).lt_or_eq with high | rfl
    · obtain ⟨above, full⟩ := beyond high
      exact above.trans (size_le_size.2 (h.le_of_ge full))
    · refine size_le_size.2 ?_
      have most := h.le_of_ge most
      rw [border_eq, ← le_div_iff₀ power] at large
      -- The greatest whole number of 53 bits is odd, so the border is rounded up.
      by_contra less
      have last : n = 2 * leadingBit - 1 := by omega
      have next : ((2 * leadingBit : Nat) : Rat) = n + 1 := by
        rw [last]
        norm_num [leadingBit]
      rw [next] at large
      have even := h.nearest.even (.inl (le_antisymm h.nearest.above (by linarith)))
      omega

end NearestSize

/-- A size in canonical form is the nearest one to itself. -/
theorem nearestSize_of_canonical {m : Nat} {e : Int} (form : Canonical m e) : NearestSize (size m e) m e := by
  have power : (2 : Rat) ^ e ≠ 0 := by positivity
  refine ⟨size_nonneg m e, ?_, form.least, ?_, form.small.le⟩
  · rw [size, mul_div_cancel_right₀ _ power]
    exact .natCast m
  · rcases form.full with full | bottom
    · exact .inr (size_le_size.2 full)
    · exact .inl bottom

/-- What is taken for a number of which enough is known. -/
theorem exists_roundWithAccuracy {m : Nat} {accuracy : Accuracy} {w : Rat} {e : Int} (sign : Sign)
    (described : Describes (.ofMantissaAndAccuracy m accuracy) w) (enough : leadingBit ≤ m ∨ e ≤ -1074) :
    ∃ n f, NearestSize (w * 2 ^ e) n f ∧ roundWithAccuracy Format.binary64 sign m e accuracy =
      if h : n = 0 then .zero sign
      else if n < 2 * leadingBit then .finite sign n f (Nat.pos_of_ne_zero h)
      else .finite sign leadingBit (f + 1) (by decide) := by
  obtain ⟨n, rounds, fits, rounded⟩ := roundWithAccuracy_eq sign described enough
  have whole : (m : Rat) ≤ w := (bounds_of_described described).1
  have power : (0 : Rat) < 2 ^ e := by positivity
  refine ⟨n, roundingExponent m e, ⟨?_, ?_, le_max_right _ _, ?_, fits⟩, rounded⟩
  · exact mul_nonneg (m.cast_nonneg.trans whole) power.le
  · rwa [mul_div_assoc, ← zpow_sub₀ (by norm_num)]
  · by_cases bottom : roundingExponent m e = -1074
    · exact .inl bottom
    · right
      have exponent : roundingExponent m e = m.log2 - 52 + e := by
        rw [roundingExponent] at bottom ⊢
        omega
      have nonzero : m ≠ 0 := by
        rintro rfl
        have leading : leadingBit = 4503599627370496 := rfl
        have log : Nat.log2 0 = 0 := rfl
        rw [roundingExponent, log] at bottom
        omega
      have leading : (leadingBit : Rat) = 2 ^ (52 : Int) := by norm_num [leadingBit]
      have total : (52 : Int) + (m.log2 - 52 + e) = m.log2 + e := by omega
      rw [exponent, size, leading, ← zpow_add₀ (by norm_num), total]
      exact (power_bounds described e).1 nonzero

/-! ## With a sign -/

/-- A number of at most 53 bits over an exponent that is not below the least one. -/
def Short (q : Rat) : Prop :=
  ∃ n e, n ≤ 2 * leadingBit ∧ -1074 ≤ e ∧ |q| = size n e

theorem Short.zero : Short 0 :=
  ⟨0, -1074, by decide, le_rfl, by rw [abs_zero, size, Nat.cast_zero, zero_mul]⟩

/-- A size of few enough bits needs no rounding. -/
theorem short_size {n : Nat} {e : Int} (few : n ≤ 2 * leadingBit) (least : -1074 ≤ e) : Short (size n e) :=
  ⟨n, e, few, least, abs_of_nonneg (size_nonneg n e)⟩

theorem Short.abs {q : Rat} (h : Short q) : Short |q| := by
  rwa [Short, abs_abs]

theorem Short.neg {q : Rat} (h : Short q) : Short (-q) := by
  rwa [Short, abs_neg]

/-- A power of two needs no rounding. -/
theorem short_two_pow {e : Int} (least : -1074 ≤ e) : Short (2 ^ e) := by
  have one : Short (size 1 e) := short_size (by decide) least
  rwa [size, Nat.cast_one, one_mul] at one

/-- A number of at most 53 bits is a whole number of least doubles. -/
theorem Short.exists_whole {q : Rat} (h : Short q) : ∃ k : Int, q = k * 2 ^ (-1074 : Int) := by
  obtain ⟨n, e, -, least, same⟩ := h
  obtain ⟨d, rfl⟩ := Int.le.dest least
  rw [size_add, size] at same
  rcases abs_choice q with positive | negative
  · exact ⟨(n * 2 ^ d : Nat), by rw [← positive, same, Int.cast_natCast]⟩
  · refine ⟨-(n * 2 ^ d : Nat), ?_⟩
    rw [Int.cast_neg, Int.cast_natCast, neg_mul, ← same, negative, neg_neg]

/-- A number of at most 53 bits that is above zero is not below the least double. -/
theorem Short.least {q : Rat} (h : Short q) (pos : 0 < q) : 2 ^ (-1074 : Int) ≤ q := by
  obtain ⟨n, e, -, least, same⟩ := h
  rw [abs_of_pos pos] at same
  have nonzero : n ≠ 0 := by
    rintro rfl
    rw [same, size, Nat.cast_zero, zero_mul] at pos
    exact lt_irrefl 0 pos
  calc (2 : Rat) ^ (-1074 : Int) = size 1 (-1074) := by rw [size, Nat.cast_one, one_mul]
    _ ≤ size 1 e := size_mono 1 least
    _ ≤ size n e := size_le_size.2 (Nat.one_le_iff_ne_zero.2 nonzero)
    _ = q := same.symm

/-- Different numbers of at most 53 bits are not closer than the least double. -/
theorem Short.size_one_le_sub {q t : Rat} (hq : Short q) (ht : Short t) (less : t < q) : size 1 (-1074) ≤ q - t := by
  obtain ⟨i, rfl⟩ := hq.exists_whole
  obtain ⟨k, rfl⟩ := ht.exists_whole
  have power : (0 : Rat) < 2 ^ (-1074 : Int) := by positivity
  have order : k < i := by exact_mod_cast lt_of_mul_lt_mul_right less power.le
  have one : (1 : Rat) ≤ i - k := by exact_mod_cast Int.sub_pos.2 order
  rw [size, Nat.cast_one, ← sub_mul]
  exact mul_le_mul_of_nonneg_right one power.le

/-- What a number is rounded to if no exponent is too great. -/
inductive Nearest : Rat → Rat → Prop
  | above {r : Rat} {n : Nat} {e : Int} (h : NearestSize r n e) : Nearest r (size n e)
  | below {r : Rat} {n : Nat} {e : Int} (h : NearestSize r n e) : Nearest (-r) (-size n e)

namespace Nearest

variable {r q b : Rat}

/-- The nearest double to the opposite is the opposite one. -/
theorem neg (h : Nearest r q) : Nearest (-r) (-q) := by
  cases h with
  | above h => exact .below h
  | below h =>
    rw [neg_neg, neg_neg]
    exact .above h

/-- Its size is the nearest one to the absolute value. -/
theorem abs (h : Nearest r q) : ∃ n e, NearestSize |r| n e ∧ |q| = size n e := by
  cases h with
  | above h =>
    rw [abs_of_nonneg h.nonneg, abs_of_nonneg (size_nonneg _ _)]
    exact ⟨_, _, h, rfl⟩
  | below h =>
    rw [abs_neg, abs_neg, abs_of_nonneg h.nonneg, abs_of_nonneg (size_nonneg _ _)]
    exact ⟨_, _, h, rfl⟩

/-- The nearest double needs no rounding. -/
theorem short (h : Nearest r q) : Short q := by
  obtain ⟨n, e, size, same⟩ := h.abs
  exact ⟨n, e, size.fits, size.least, same⟩

/-- A number up to one that needs no rounding is not rounded beyond it. -/
theorem le_of_le (h : Nearest r q) (short : Short b) (le : r ≤ b) : q ≤ b := by
  obtain ⟨k, j, few, least, same⟩ := short
  cases h with
  | above h =>
    rw [abs_of_nonneg (h.nonneg.trans le)] at same
    rw [same] at le ⊢
    exact h.size_le few least le
  | @below r n e h =>
    have nonneg := size_nonneg n e
    rcases le_or_gt 0 b with positive | negative
    · linarith
    · rw [abs_of_neg negative] at same
      have below := h.le_size few least (by linarith)
      linarith

/-- A number from one on that needs no rounding is not rounded below it. -/
theorem le_of_ge (h : Nearest r q) (short : Short b) (ge : b ≤ r) : b ≤ q :=
  neg_le_neg_iff.1 (h.neg.le_of_le short.neg (neg_le_neg ge))

/-- Rounding keeps the order. -/
theorem mono {r' q' : Rat} (h : Nearest r q) (h' : Nearest r' q') (le : r ≤ r') : q ≤ q' := by
  cases h with
  | @above r n e h =>
    cases h' with
    | above h' => exact h.mono h' le
    | @below r' n' e' h' =>
      have zero : r ≤ 0 := le.trans (neg_nonpos.2 h'.nonneg)
      have zero' : 0 ≤ -r' := h.nonneg.trans le
      exact ((above h).le_of_le .zero zero).trans ((below h').le_of_ge .zero zero')
  | @below r n e h =>
    cases h' with
    | above h' => exact (neg_nonpos.2 (size_nonneg n e)).trans (size_nonneg _ _)
    | below h' => exact neg_le_neg (h'.mono h (neg_le_neg_iff.1 le))

/-- A number that needs no rounding is the nearest to itself. -/
theorem eq_of_short (h : Nearest r q) (short : Short r) : q = r :=
  le_antisymm (h.le_of_le short le_rfl) (h.le_of_ge short le_rfl)

/-- A number is rounded to zero up to half of the least size. -/
theorem eq_zero_iff (h : Nearest r q) : q = 0 ↔ |r| ≤ 2 ^ (-1075 : Int) := by
  obtain ⟨n, e, nearest, same⟩ := h.abs
  have power : (2 : Rat) ^ e ≠ 0 := by positivity
  rw [← abs_eq_zero, same, ← nearest.eq_zero_iff, size, mul_eq_zero, or_iff_left power, Nat.cast_eq_zero]

/-- A number is rounded to the limit from the border on. -/
theorem abs_lt_limit_iff (h : Nearest r q) : |q| < limit ↔ |r| < border := by
  obtain ⟨n, e, nearest, same⟩ := h.abs
  rw [same]
  exact nearest.size_lt_limit_iff

end Nearest

end Binary64

end DomainColoring
