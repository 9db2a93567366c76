import DomainColoring.Proofs.Decimal.Nearest
import DomainColoring.Proofs.Decimal.Shortest

/-!
# Doubles read back

The shortest text of a finite double reads as the double (`Decimal.read?_shortestText`): it is a decimal in the spread of the double,
which is what its digits stand for, and every such decimal reads as the double.
-/

namespace DomainColoring

open Float.Model Float.Model.UnpackedFloat Binary64

namespace Decimal

/-! ## Rows of digits -/

/-- Digits in front count for as many tens as there are digits behind them. -/
theorem digitsValue_append (front back : List Char) :
    digitsValue (front ++ back) = digitsValue front * 10 ^ back.length + digitsValue back := by
  change Nat.ofDigitChars 10 (front ++ back) 0 = _
  rw [Nat.ofDigitChars_append, Nat.ofDigitChars_eq_ofDigitChars_zero, Nat.mul_comm]
  rfl

theorem digitsValue_toDigits (n : Nat) : digitsValue (Nat.toDigits 10 n) = n :=
  Nat.ofDigitChars_toDigits (by decide) (by decide)

/-- Zeros stand for zero. -/
theorem digitsValue_replicate_zero (k : Nat) : digitsValue (List.replicate k '0') = 0 := by
  induction k with
  | zero => rfl
  | succ k ih => exact ih

/-- Zeros in front do not change what digits stand for. -/
theorem digitsValue_padded (width n : Nat) : digitsValue (padded width n).toList = n := by
  rw [padded, String.toList_ofList, digitsValue_append, digitsValue_replicate_zero, digitsValue_toDigits, Nat.zero_mul, Nat.zero_add]

/-- A number with zeros in front is a row of digits. -/
theorem isDigit_padded (width n : Nat) : ∀ c ∈ (padded width n).toList, c.isDigit = true := by
  intro c among
  rw [padded, String.toList_ofList, List.mem_append] at among
  rcases among with zero | digit
  · rw [List.eq_of_mem_replicate zero]
    rfl
  · exact Nat.isDigit_of_mem_toDigits (by decide) (by decide) digit

theorem padded_ne_nil (width n : Nat) : (padded width n).toList ≠ [] := by
  rw [padded, String.toList_ofList]
  exact List.append_ne_nil_of_right_ne_nil _ Nat.toDigits_ne_nil

/-- A number is brought to a width that is enough for it. -/
theorem length_padded {width n : Nat} (positive : 0 < width) (small : n < 10 ^ width) :
    (padded width n).toList.length = width := by
  have fits : (Nat.toDigits 10 n).length ≤ width := (Nat.length_toDigits_le_iff (by decide) positive).2 small
  rw [padded, String.toList_ofList, List.length_append, List.length_replicate]
  omega

/-! ## Numbers in writing -/

section Writing

variable (negative : Bool) {whole fraction : List Char} (nonempty : whole ≠ []) (digits : ∀ c ∈ whole, c.isDigit = true)

include nonempty digits

/-- A row of digits is read as a whole number. -/
theorem unsigned?_whole : unsigned? negative whole = some (.decimal negative (digitsValue whole) 0) := by
  have first : whole.takeWhile Char.isDigit = whole := List.takeWhile_eq_self_iff.2 digits
  have rest : whole.dropWhile Char.isDigit = [] := List.dropWhile_eq_nil_iff.2 digits
  have filled : whole.isEmpty = false := by simpa using nonempty
  rw [unsigned?, first, rest]
  dsimp only
  rw [filled, List.append_nil]
  rfl

/-- Digits around a point are read as one number over a power of ten. -/
theorem unsigned?_point (decimals : ∀ c ∈ fraction, c.isDigit = true) : unsigned? negative (whole ++ '.' :: fraction) =
    some (.decimal negative (digitsValue (whole ++ fraction)) (-fraction.length)) := by
  have first : (whole ++ '.' :: fraction).takeWhile Char.isDigit = whole := by
    rw [List.takeWhile_append_of_pos digits, List.takeWhile_cons_of_neg (by decide), List.append_nil]
  have rest : (whole ++ '.' :: fraction).dropWhile Char.isDigit = '.' :: fraction := by
    rw [List.dropWhile_append_of_pos digits, List.dropWhile_cons_of_neg (by decide)]
  have second : fraction.takeWhile Char.isDigit = fraction := List.takeWhile_eq_self_iff.2 decimals
  have last : fraction.dropWhile Char.isDigit = [] := List.dropWhile_eq_nil_iff.2 decimals
  have filled : whole.isEmpty = false := by simpa using nonempty
  unfold unsigned?
  simp only [first, rest, second, last, filled, exponent?, Bool.false_and, Bool.false_eq_true, if_false, Option.map_some, zero_sub]

end Writing

/-- A digit has no lower case. -/
theorem toLower_of_isDigit {c : Char} (digit : c.isDigit = true) : c.toLower = c := by
  have low : c.val ≤ '9'.val := by
    simp only [Char.isDigit, Bool.and_eq_true, decide_eq_true_eq] at digit
    exact digit.2
  rw [Char.toLower, dif_neg]
  rintro ⟨high, -⟩
  exact absurd (UInt32.le_trans high low) (by decide)

/-- Text that begins with a digit is a number without a sign or a word. -/
theorem ofText?_of_digit (negative : Bool) {c : Char} (digit : c.isDigit = true) (text : List Char) :
    Numeral.ofText? ((if negative then "-" else "").toList ++ c :: text) = unsigned? negative (c :: text) := by
  have signed : splitSign ((if negative then "-" else "").toList ++ c :: text) = (negative, c :: text) := by
    cases negative with
    | true => rfl
    | false =>
      have minus : c ≠ '-' := by
        rintro rfl
        cases digit
      have plus : c ≠ '+' := by
        rintro rfl
        cases digit
      change splitSign (c :: text) = _
      rw [splitSign] <;> simpa
  have word {w : String} {d : Char} {letters : List Char} (spelled : w.toList = d :: letters) (letter : d.isDigit = false) :
      String.ofList ((c :: text).map Char.toLower) ≠ w := by
    rintro rfl
    rw [String.toList_ofList, List.map_cons, toLower_of_isDigit digit] at spelled
    obtain ⟨rfl, -⟩ := List.cons.inj spelled
    rw [digit] at letter
    cases letter
  rw [Numeral.ofText?, signed]
  dsimp only
  rw [if_neg (not_or.2 ⟨word rfl rfl, word rfl rfl⟩), if_neg (word rfl rfl)]

/-- What begins with digits, behind a minus perhaps, is read as a number and not as a word. -/
theorem ofText?_of_digits (negative : Bool) {row : List Char} (nonempty : row ≠ []) (digits : ∀ c ∈ row, c.isDigit = true)
    (rest : List Char) :
    Numeral.ofText? ((if negative then "-" else "").toList ++ (row ++ rest)) = unsigned? negative (row ++ rest) := by
  obtain ⟨c, tail, rfl⟩ := List.exists_cons_of_ne_nil nonempty
  exact ofText?_of_digit negative (digits c List.mem_cons_self) (tail ++ rest)

/-- A whole number is read as what it is. -/
theorem ofText?_padded (negative : Bool) (n : Nat) :
    Numeral.ofText? ((if negative then "-" else "").toList ++ (padded 1 n).toList) = some (.decimal negative n 0) := by
  have written := ofText?_of_digits negative (padded_ne_nil 1 n) (isDigit_padded 1 n) []
  rwa [List.append_nil, unsigned?_whole negative (padded_ne_nil 1 n) (isDigit_padded 1 n), digitsValue_padded] at written

/-- The point stands before as many digits as there are places. -/
theorem toList_withPoint {places : Nat} (positive : 0 < places) (n : Nat) :
    (withPoint places n).toList = (padded 1 (n / 10 ^ places)).toList ++ '.' :: (padded places (n % 10 ^ places)).toList := by
  rw [withPoint, if_neg positive.ne', String.toList_append, String.toList_append, List.append_assoc]
  rfl

theorem length_decimals {places : Nat} (positive : 0 < places) (n : Nat) :
    (padded places (n % 10 ^ places)).toList.length = places :=
  length_padded positive (Nat.mod_lt n (by positivity))

/-- The digits before and behind the point are those of the number. -/
theorem digitsValue_withPoint {places : Nat} (positive : 0 < places) (n : Nat) :
    digitsValue ((padded 1 (n / 10 ^ places)).toList ++ (padded places (n % 10 ^ places)).toList) = n := by
  rw [digitsValue_append, digitsValue_padded, digitsValue_padded, length_decimals positive]
  exact Nat.div_add_mod' n _

/-- A number with places is read as what it is. -/
theorem ofText?_withPoint (negative : Bool) {places : Nat} (positive : 0 < places) (n : Nat) :
    Numeral.ofText? ((if negative then "-" else "").toList ++ (withPoint places n).toList) =
      some (.decimal negative n (-places)) := by
  rw [toList_withPoint positive, ofText?_of_digits negative (padded_ne_nil 1 _) (isDigit_padded 1 _),
    unsigned?_point negative (padded_ne_nil 1 _) (isDigit_padded 1 _) (isDigit_padded places _), digitsValue_withPoint positive,
    length_decimals positive]

/-- A written number stands for the number. -/
theorem ofText?_positional (negative : Bool) (n : Nat) (place : Int) :
    ∃ m e, Numeral.ofText? ((if negative then "-" else "") ++ positional n place).toList = some (.decimal negative m e) ∧
      m * (10 : Rat) ^ e = n * (10 : Rat) ^ place := by
  rw [positional, String.toList_append]
  by_cases whole : 0 ≤ place
  · refine ⟨n * Nat.pow 10 place.toNat, 0, ?_, ?_⟩
    · rw [if_pos whole, ofText?_padded]
    · have same : place.toNat = place.natAbs := by omega
      rw [tenPower_of_nonneg whole, same, zpow_zero, mul_one, Nat.pow_eq]
      push_cast
      rfl
  · have places : -((-place).toNat : Int) = place := by omega
    refine ⟨n, place, ?_, rfl⟩
    rw [if_neg whole, ofText?_withPoint negative (by omega), places]

/-! ## Doubles -/

/-- The shortest text of a finite double reads as the double. -/
theorem read?_shortestText {x : Float} (finite : x.isFinite = true) : read? (shortestText x).toList = some x := by
  have same : (⟨Float.Model.pack x.toModel.unpack⟩ : Float) = x := Float.ofBits_toBits x
  have finite : x.toModel.unpack.isFinite = true := finite
  cases unpacked : x.toModel.unpack with
  | notANumber =>
    rw [unpacked] at finite
    cases finite
  | infinity sign =>
    rw [unpacked] at finite
    cases finite
  | zero sign =>
    rw [unpacked] at same
    rw [shortestText, ofFloat_of_zero unpacked, ← same]
    cases sign <;> decide +kernel
  | finite sign m e pos =>
    have form : Canonical m e := canonical_of_unpack unpacked
    have inside := contains_shortest form pos
    have text : shortestText x = (if isMinus sign then "-" else "") ++
        positional (shortest (spread m e).contains (size m e)).1 (shortest (spread m e).contains (size m e)).2 := by
      rw [shortestText, ofFloat_of_finite unpacked, textWith, shortestSize, if_neg pos.ne']
    dsimp only at inside
    generalize shortest (spread m e).contains (size m e) = decimal at inside text
    obtain ⟨n, place, read, value⟩ := ofText?_positional (isMinus sign) decimal.1 decimal.2
    rw [← value] at inside
    rw [unpacked] at same
    rw [read?, text, read, Option.map_some, Numeral.toFloat, nearest_of_contains form pos inside, ← same]
    cases sign with
    | positive => rfl
    | negative => exact congrArg some (float_neg_pack form)

end Decimal

end DomainColoring
