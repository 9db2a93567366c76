import DomainColoring.Proofs.Decimal.ReadBack
import DomainColoring.Proofs.Scalar.Arithmetic

/-!
# Plain decimals in writing

A decimal that is digits only, with a point among or behind them, is always read as a number (`Decimal.read?_written`), and the number is
not undefined (`Decimal.isNaN_ofScientific`).
-/

namespace DomainColoring

open Float.Model Float.Model.UnpackedFloat Binary64

namespace Decimal

/-- A row of digits with, perhaps, a point and further digits behind it. -/
structure Written where
  whole : List Char
  /-- The digits behind the point, if there is one. -/
  fraction : Option (List Char)
  nonempty : whole ≠ []
  digits : ∀ c ∈ whole, c.isDigit = true
  decimals : ∀ row ∈ fraction, ∀ c ∈ row, c.isDigit = true

namespace Written

/-- The decimal as it is written. -/
def text (d : Written) : List Char :=
  d.whole ++ d.fraction.elim [] ('.' :: ·)

/-- Digits and at most a point are written. -/
theorem mem_text {d : Written} {c : Char} (h : c ∈ d.text) : c.isDigit = true ∨ c = '.' := by
  rcases List.mem_append.1 h with whole | rest
  · exact .inl (d.digits c whole)
  · cases fraction : d.fraction with
    | none =>
      rw [fraction] at rest
      cases rest
    | some row =>
      rw [fraction] at rest
      rcases List.mem_cons.1 rest with point | digit
      · exact .inr point
      · exact .inl (d.decimals row fraction c digit)

theorem text_ne_nil (d : Written) : d.text ≠ [] :=
  List.append_ne_nil_of_left_ne_nil d.nonempty _

/-- The digits of a decimal as a whole number. -/
def significand (d : Written) : Nat :=
  digitsValue (d.whole ++ d.fraction.getD [])

/-- The number of digits behind the point. -/
def places (d : Written) : Nat :=
  (d.fraction.getD []).length

/-- What is written is read as what it is. -/
theorem ofText?_text (d : Written) : Numeral.ofText? d.text = some (.decimal false d.significand (-d.places)) := by
  have written := ofText?_of_digits false d.nonempty d.digits (d.fraction.elim [] ('.' :: ·))
  change Numeral.ofText? d.text = _ at written
  rw [written, significand, places]
  cases fraction : d.fraction with
  | none =>
    have whole := unsigned?_whole false d.nonempty d.digits
    simpa using whole
  | some row => exact unsigned?_point false d.nonempty d.digits (d.decimals row fraction)

end Written

/-! ## The doubles they stand for -/

/-- A number is the same over one as times one. -/
theorem ofScientific_zero (n : Nat) : Float.ofScientific n true 0 = Float.ofScientific n false 0 := by
  rcases n.eq_zero_or_pos with rfl | pos
  · decide +kernel
  by_cases short : n < 2 ^ 53 ∧ 0 ≤ 22
  · obtain ⟨m, e, nonzero, full, -, whole⟩ := unpack_toFloat pos short.1
    obtain ⟨m', e', nonzero', -, one, unit⟩ := unpack_powerOfTen (k := 0) (by decide)
    have form : Canonical m e := canonical_of_unpack whole
    have inside := contains_size e nonzero
    have enough : leadingBit ≤ m * m' := full.trans (Nat.le_mul_of_pos_right m nonzero')
    rw [pow_zero] at one
    have quotient : (spread m e).contains (size m e / size m' e') = true := by rwa [one, div_one]
    have product : (spread m e).contains (size m e * size m' e') = true := by rwa [one, mul_one]
    have divided : n.toUInt64.toFloat / Float.exactlyRepresentablePowersOfTen[0] =
        ⟨Float.Model.pack (.finite (.positive / .positive) m e nonzero)⟩ :=
      float_div_of_contains whole unit form quotient
    have multiplied : n.toUInt64.toFloat * Float.exactlyRepresentablePowersOfTen[0] =
        ⟨Float.Model.pack (.finite (.positive * .positive) m e nonzero)⟩ :=
      float_mul_of_contains whole unit form (.inl enough) product
    rw [Float.ofScientific, Float.ofScientific, dif_pos short, dif_pos short]
    dsimp only
    rw [if_pos rfl, if_neg Bool.false_ne_true, divided, multiplied]
    rfl
  · rw [Float.ofScientific, Float.ofScientific, dif_neg short, dif_neg short]
    rfl

/-- A decimal is never read as what is no number. -/
theorem isNaN_ofScientific (n : Nat) (small : Bool) (k : Nat) : (Float.ofScientific n small k).isNaN = false := by
  by_cases short : n < 2 ^ 53 ∧ k ≤ 22
  · have listed : k < Float.exactlyRepresentablePowersOfTen.size := Nat.lt_succ_of_le short.2
    have whole := hasValue_toFloat short.1
    obtain ⟨m, e, nonzero, -, power, unpacked⟩ := unpack_powerOfTen listed
    have divisor : HasValue (Float.exactlyRepresentablePowersOfTen[k]).toModel.unpack (10 ^ k) := by
      rw [unpacked, ← power]
      exact .finite .positive nonzero (canonical_of_unpack unpacked)
    rw [Float.ofScientific, dif_pos short]
    dsimp only
    cases small with
    | true => exact (rounded_div whole divisor (by positivity)).isNaN_eq_false
    | false => exact (rounded_mul whole divisor).isNaN_eq_false
  · rw [Float.ofScientific, dif_neg short]
    dsimp only
    generalize (if small = true then Int.negOfNat k else Int.ofNat k) = e
    change (Float.Model.pack (UnpackedFloat.ofScientific Format.binary64 n e)).unpack.isNaN = false
    rw [isNaN_pack, UnpackedFloat.ofScientific]
    have rounded (sign : Sign) (m : Nat) (e : Int) (accuracy : Accuracy) :
        (roundWithAccuracy Format.binary64 sign m e accuracy).isNaN = false := by
      rw [roundWithAccuracy]
      dsimp only
      split
      · rfl
      · rfl
    split_ifs
    · rfl
    · rfl
    · rfl
    · exact rounded _ _ _ _
    · exact rounded _ _ _ _

/-- The nearest double to digits with places is that of their scientific form. -/
theorem nearest_neg (n k : Nat) : nearest n (-k) = Float.ofScientific n true k := by
  rcases k.eq_zero_or_pos with rfl | pos
  · rw [ofScientific_zero]
    rfl
  · have negative : -(k : Int) < 0 := by omega
    have size : (-(k : Int)).natAbs = k := by omega
    rw [nearest, decide_eq_true negative, size]

/-- A decimal in writing is read as the double that is nearest to it. -/
theorem read?_written (d : Written) : read? d.text = some (Float.ofScientific d.significand true d.places) := by
  rw [read?, d.ofText?_text, Option.map_some, Numeral.toFloat, nearest_neg]
  rfl

end Decimal

end DomainColoring
