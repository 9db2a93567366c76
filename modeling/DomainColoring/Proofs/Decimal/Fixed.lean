import DomainColoring.Proofs.Decimal.Written

/-!
# Decimals with a fixed number of places

A number that is written with a fixed number of places is a plain decimal with as many digits behind its point, and it is off by half a
unit of the last place at most (`Decimal.exists_written_fixed`). Before it stands a minus exactly if the sign bit of the double is set
(`Decimal.fixedText_of_value?`), also where the digits are all zero.
-/

namespace DomainColoring

open Binary64

namespace Decimal

/-! ## Rounding -/

/-- Rounding moves a number by half at most. -/
theorem roundHalfEven_bounds (x : Rat) : roundHalfEven x - 1 / 2 ≤ x ∧ x ≤ roundHalfEven x + 1 / 2 := by
  have low := Rat.floor_le x
  have high := Rat.lt_floor_add_one x
  unfold roundHalfEven
  dsimp only
  push_cast at high
  split_ifs with below above
  · constructor <;> linarith
  · push_cast
    constructor <;> linarith
  · -- In the middle between two integers either of them is as near.
    rcases Int.emod_two_eq_zero_or_one x.floor with even | odd
    · rw [even]
      push_cast
      constructor <;> linarith
    · rw [odd]
      push_cast
      constructor <;> linarith

/-- A number from zero on is not rounded below zero. -/
theorem roundHalfEven_nonneg {x : Rat} (nonneg : 0 ≤ x) : 0 ≤ roundHalfEven x := by
  have near : (-1 : Rat) < roundHalfEven x := by linarith [(roundHalfEven_bounds x).2]
  have whole : (-1 : Int) < roundHalfEven x := by exact_mod_cast near
  omega

/-! ## Plain decimals -/

namespace Written

/-- What a decimal stands for. -/
def value (d : Written) : Rat :=
  d.significand / (10 : Rat) ^ d.places

/-- A whole number with its last digits behind a point. -/
def ofNat (places n : Nat) : Written where
  whole := (padded 1 (n / 10 ^ places)).toList
  fraction := some (padded places (n % 10 ^ places)).toList
  nonempty := padded_ne_nil 1 _
  digits := isDigit_padded 1 _
  decimals := by
    intro row among
    rw [← Option.mem_some_iff.1 among]
    exact isDigit_padded places _

section Places

variable {places : Nat} (positive : 0 < places) (n : Nat)

include positive

/-- A whole number with a point among its digits is written as such. -/
theorem text_ofNat : (ofNat places n).text = (withPoint places n).toList := by
  rw [toList_withPoint positive, text, ofNat, Option.elim_some]

theorem places_ofNat : (ofNat places n).places = places :=
  length_decimals positive n

/-- Its value is the whole number over a power of ten. -/
theorem value_ofNat : (ofNat places n).value = n / (10 : Rat) ^ places := by
  have digits : (ofNat places n).significand = n := by
    rw [significand, ofNat, Option.getD_some, digitsValue_withPoint positive]
  rw [value, digits, places_ofNat positive]

end Places

/-- Where there are places there is a point. -/
theorem exists_fraction {d : Written} (point : d.places ≠ 0) : ∃ row, d.fraction = some row := by
  cases fraction : d.fraction with
  | none =>
    rw [places, fraction] at point
    exact absurd rfl point
  | some row => exact ⟨row, rfl⟩

/-- A decimal with a point is known by its text. -/
theorem eq_of_text {d d' : Written} (point : d.places ≠ 0) (point' : d'.places ≠ 0) (same : d.text = d'.text) : d = d' := by
  obtain ⟨row, fraction⟩ := exists_fraction point
  obtain ⟨row', fraction'⟩ := exists_fraction point'
  have before : '.' ∉ d.whole := fun among => absurd (d.digits _ among) (by decide)
  have behind : '.' ∉ row := fun among => absurd (d.decimals row fraction _ among) (by decide)
  rw [text, text, fraction, fraction'] at same
  obtain ⟨whole, -, rows⟩ := (List.append_cons_inj_of_notMem before behind).1 same
  obtain ⟨whole, _, _, _, _⟩ := d
  obtain ⟨whole', _, _, _, _⟩ := d'
  dsimp only at *
  subst fraction fraction' whole rows
  rfl

end Written

/-- A number with a fixed count of places in writing. -/
theorem exists_written_fixed {places : Nat} (positive : 0 < places) {x : Rat} (nonneg : 0 ≤ x) :
    ∃ d : Written, d.text = (fixed places x).toList ∧ d.places = places ∧ |d.value - x| ≤ 1 / 2 / (10 : Rat) ^ places := by
  have unit : (0 : Rat) < 10 ^ places := by positivity
  have scaled : 0 ≤ x * (10 : Rat) ^ places := mul_nonneg nonneg unit.le
  obtain ⟨n, rounded⟩ := Int.eq_ofNat_of_zero_le (roundHalfEven_nonneg scaled)
  have near := roundHalfEven_bounds (x * (10 : Rat) ^ places)
  refine ⟨.ofNat places n, ?_, Written.places_ofNat positive n, ?_⟩
  · rw [Written.text_ofNat positive, fixed, rounded]
    rfl
  · rw [rounded] at near
    push_cast at near
    have off : (n : Rat) / 10 ^ places - x = (n - x * 10 ^ places) / 10 ^ places := by
      rw [sub_div, mul_div_cancel_right₀ _ unit.ne']
    rw [Written.value_ofNat positive, off, abs_div, abs_of_pos unit]
    refine div_le_div_of_nonneg_right (abs_le.2 ⟨?_, ?_⟩) unit.le
    · linarith [near.2]
    · linarith [near.1]

/-! ## Doubles -/

section Doubles

variable {x : Float} {q : Rat} (h : (ofFloat x).value? = some q)

include h

/-- A finite double is its sign bit with a size. -/
theorem exists_size_of_value? : ∃ m e, ofFloat x = .finite (isSignNegative x) m e ∧
    (if isSignNegative x then -size m e else size m e) = q := by
  unfold isSignNegative
  cases parts : ofFloat x with
  | finite negative m e =>
    rw [parts] at h
    exact ⟨m, e, rfl, Option.some.inj h⟩
  | infinite negative =>
    rw [parts] at h
    cases h
  | undefined =>
    rw [parts] at h
    cases h

/-- The sign bit of a number that is not zero is that of the number. -/
theorem sign_of_value? : (isSignNegative x = true → q ≤ 0) ∧ (isSignNegative x = false → 0 ≤ q) := by
  obtain ⟨m, e, -, rfl⟩ := exists_size_of_value? h
  have nonneg := size_nonneg m e
  constructor
  · intro negative
    rw [if_pos negative]
    exact neg_nonpos.2 nonneg
  · intro positive
    rwa [positive, if_neg Bool.false_ne_true]

theorem isSignNegative_of_neg (less : q < 0) : isSignNegative x = true := by
  by_contra positive
  exact absurd ((sign_of_value? h).2 (Bool.eq_false_of_not_eq_true positive)) (not_le.2 less)

theorem isSignNegative_of_pos (greater : 0 < q) : isSignNegative x = false := by
  by_contra negative
  exact absurd ((sign_of_value? h).1 (Bool.eq_true_of_not_eq_false negative)) (not_le.2 greater)

/-- A finite double with a fixed count of places: its sign bit, and the size. -/
theorem fixedText_of_value? (places : Nat) :
    fixedText places x = (if isSignNegative x then "-" else "") ++ fixed places |q| := by
  obtain ⟨m, e, parts, rfl⟩ := exists_size_of_value? h
  have nonneg := size_nonneg m e
  have abs : |if isSignNegative x then -size m e else size m e| = size m e := by
    split
    · rw [abs_neg, abs_of_nonneg nonneg]
    · rw [abs_of_nonneg nonneg]
  rw [abs, fixedText, parts, textWith]

/-- A finite double is written as a minus or nothing and a plain decimal, which together are near to it. -/
theorem exists_written_fixedText {places : Nat} (positive : 0 < places) :
    ∃ d : Written, (fixedText places x).toList = (if isSignNegative x then ['-'] else []) ++ d.text ∧ d.places = places ∧
      |(if isSignNegative x then -d.value else d.value) - q| ≤ 1 / 2 / (10 : Rat) ^ places := by
  obtain ⟨d, text, digits, near⟩ := exists_written_fixed positive (abs_nonneg q)
  obtain ⟨below, above⟩ := sign_of_value? h
  refine ⟨d, ?_, digits, ?_⟩
  · rw [fixedText_of_value? h, String.toList_append, text]
    cases isSignNegative x <;> rfl
  · cases sign : isSignNegative x with
    | true =>
      rw [abs_of_nonpos (below sign), sub_neg_eq_add, ← abs_neg, neg_add'] at near
      rwa [if_pos rfl]
    | false =>
      rw [abs_of_nonneg (above sign)] at near
      rwa [if_neg Bool.false_ne_true]

end Doubles

end Decimal

end DomainColoring
