import DomainColoring.ComplexNumber
import DomainColoring.Proofs.ComplexNumber.Inverse
import DomainColoring.Proofs.Decimal.Fixed

/-!
# What a printed complex number says

A complex number is printed as two decimals with three places, and the sign between them is that of the imaginary part. Such a text can
be read in one way only (`ComplexNumber.Printed.text_injective`), and the parts that are read are near to those that were printed
(`ComplexNumber.printed_readably`). But the sign bit of a negative zero is printed too, behind the plus.
-/

namespace DomainColoring

open Decimal

namespace ComplexNumber

/-- Two decimals with three places each: the first has a minus or no sign, and between them there is a plus or a minus. -/
structure Printed where
  negative : Bool
  re : Written
  minus : Bool
  im : Written
  places : re.places = 3 ∧ im.places = 3

namespace Printed

/-- The first decimal with its sign. -/
def front (f : Printed) : List Char :=
  (if f.negative then ['-'] else []) ++ f.re.text

/-- The number as it is printed: `A + Bi` or `A - Bi`. -/
def text (f : Printed) : List Char :=
  f.front ++ ' ' :: (if f.minus then '-' else '+') :: ' ' :: (f.im.text ++ ['i'])

/-- The parts that are read: the first decimal, and plus or minus the second. -/
def parts (f : Printed) : Rat × Rat :=
  (if f.negative then -f.re.value else f.re.value, if f.minus then -f.im.value else f.im.value)

/-- There is no minus within digits. -/
theorem minus_notMem_text (d : Written) : '-' ∉ d.text := by
  intro among
  rcases d.mem_text among with digit | point
  · exact absurd digit (by decide)
  · exact absurd point (by decide)

/-- There is no blank in the real part. -/
theorem blank_notMem_front (f : Printed) : ' ' ∉ f.front := by
  intro among
  rcases List.mem_append.1 among with sign | digits
  · split at sign
    · exact absurd (List.mem_singleton.1 sign) (by decide)
    · cases sign
  · rcases f.re.mem_text digits with digit | point
    · exact absurd digit (by decide)
    · exact absurd point (by decide)

/-- What stands before the first blank, and what stands behind it. -/
theorem eq_of_append_blank {a b c d : List Char} (ha : ' ' ∉ a) (hb : ' ' ∉ b) (same : a ++ ' ' :: c = b ++ ' ' :: d) :
    a = b ∧ c = d := by
  rcases List.append_eq_append_iff.1 same with ⟨between, rfl, rest⟩ | ⟨between, rfl, rest⟩
  · cases between with
    | nil => exact ⟨(List.append_nil a).symm, (List.cons.inj rest).2⟩
    | cons first between =>
      obtain ⟨rfl, -⟩ := List.cons.inj rest
      exact absurd (List.mem_append_right a List.mem_cons_self) hb
  · cases between with
    | nil => exact ⟨List.append_nil b, (List.cons.inj rest).2.symm⟩
    | cons first between =>
      obtain ⟨rfl, -⟩ := List.cons.inj rest
      exact absurd (List.mem_append_right b List.mem_cons_self) ha

/-- A text can be read in one way only. -/
theorem text_injective : Function.Injective text := by
  intro f g same
  obtain ⟨fronts, backs⟩ := eq_of_append_blank f.blank_notMem_front g.blank_notMem_front same
  obtain ⟨signs, backs⟩ := List.cons.inj backs
  have ims : f.im.text = g.im.text := List.append_cancel_right (List.cons.inj backs).2
  have res : f.negative = g.negative ∧ f.re.text = g.re.text := by
    unfold front at fronts
    generalize f.negative = sign, g.negative = sign' at fronts ⊢
    cases sign <;> cases sign'
    · exact ⟨rfl, fronts⟩
    · have begins : f.re.text = '-' :: g.re.text := fronts
      exact absurd (begins ▸ List.mem_cons_self) (minus_notMem_text f.re)
    · have begins : '-' :: f.re.text = g.re.text := fronts
      exact absurd (begins ▸ List.mem_cons_self) (minus_notMem_text g.re)
    · exact ⟨rfl, (List.cons.inj fronts).2⟩
  have minus : f.minus = g.minus := by
    cases hf : f.minus <;> cases hg : g.minus <;> rw [hf, hg] at signs
    · exact absurd signs (by decide)
    · exact absurd signs (by decide)
  have three : (3 : Nat) ≠ 0 := by decide
  have re : f.re = g.re := Written.eq_of_text (f.places.1 ▸ three) (g.places.1 ▸ three) res.2
  have im : f.im = g.im := Written.eq_of_text (f.places.2 ▸ three) (g.places.2 ▸ three) ims
  obtain ⟨_, _, _, _, _⟩ := f
  obtain ⟨_, _, _, _, _⟩ := g
  obtain ⟨rfl, -⟩ := res
  dsimp only at minus re im
  subst minus re im
  rfl

end Printed

open Binary64

section Parts

variable {z : ComplexNumber Float} {p q : Rat} (h : z.HasParts p q)

include h

/-- The form with a minus is taken for negative imaginary parts. -/
theorem minus_iff : (isSignNegative z.im && z.im != Nat.cast 0) = true ↔ q < 0 := by
  have zero : (z.im == Nat.cast 0) = true ↔ q = 0 := by
    rw [beq_zero_iff, h.2, Option.some_inj]
  rw [Bool.and_eq_true, bne, Bool.not_eq_true', ← Bool.not_eq_true, zero]
  constructor
  · rintro ⟨negative, nonzero⟩
    exact lt_of_le_of_ne ((sign_of_value? h.2).1 negative) nonzero
  · intro less
    exact ⟨isSignNegative_of_neg h.2 less, less.ne⟩

/-- The imaginary part is printed without a sign of its own, unless it is a negative zero. -/
theorem exists_imaginary (proper : ¬(q = 0 ∧ isSignNegative z.im = true)) :
    ∃ (d : Written) (minus : Bool), d.places = 3 ∧ (minus = true ↔ q < 0) ∧
      |(if minus then -d.value else d.value) - q| ≤ 1 / 2 / (10 : Rat) ^ 3 ∧
      z.text.toList = (fixedText 3 z.re).toList ++ ' ' :: (if minus then '-' else '+') :: ' ' :: (d.text ++ ['i']) := by
  have three : 0 < 3 := by decide
  by_cases less : q < 0
  · have turned : (ofFloat (-z.im)).value? = some (-q) := value?_eq_some_iff.2 (hasValue_neg (value?_eq_some_iff.1 h.2))
    have sign : isSignNegative (-z.im) = false := isSignNegative_of_pos turned (neg_pos.2 less)
    obtain ⟨d, text, places, near⟩ := exists_written_fixedText turned three
    rw [sign] at text near
    refine ⟨d, true, places, iff_of_true rfl less, ?_, ?_⟩
    · rw [if_neg Bool.false_ne_true, ← abs_neg] at near
      rw [if_pos rfl]
      convert near using 2
      ring
    · rw [ComplexNumber.text, if_pos ((minus_iff h).2 less)]
      simp [text]
  · have sign : isSignNegative z.im = false := by
      cases sign : isSignNegative z.im with
      | true => exact absurd ⟨le_antisymm ((sign_of_value? h.2).1 sign) (not_lt.1 less), sign⟩ proper
      | false => rfl
    obtain ⟨d, text, places, near⟩ := exists_written_fixedText h.2 three
    rw [sign] at text near
    refine ⟨d, false, places, iff_of_false Bool.false_ne_true less, near, ?_⟩
    rw [ComplexNumber.text, if_neg (mt (minus_iff h).1 less)]
    simp [text]

/-- Behind the plus of a negative zero its sign is printed once more, and no number is read from that. -/
theorem text_of_negative_zero (zero : q = 0) (negative : isSignNegative z.im = true) :
    z.text = fixedText 3 z.re ++ " + -0.000i" ∧ ∀ f : Printed, f.text ≠ z.text.toList := by
  subst zero
  have digits : fixedText 3 z.im = "-0.000" := by
    rw [fixedText_of_value? h.2, negative, abs_zero]
    decide +kernel
  have text : z.text = fixedText 3 z.re ++ " + -0.000i" := by
    rw [ComplexNumber.text, if_neg (mt (minus_iff h).1 (lt_irrefl _)), digits, String.append_assoc, String.append_assoc]
    rfl
  refine ⟨text, ?_⟩
  intro f same
  obtain ⟨d, front, places, -⟩ := exists_written_fixedText h.1 (show 0 < 3 by decide)
  -- The front is that of a text that can be read, with any second decimal.
  let printed : Printed := ⟨isSignNegative z.re, d, false, f.im, places, f.places.2⟩
  have split : f.front ++ ' ' :: (if f.minus then '-' else '+') :: ' ' :: (f.im.text ++ ['i']) =
      printed.front ++ ' ' :: '+' :: ' ' :: "-0.000i".toList := by
    change f.text = _
    rw [same, text, String.toList_append, front]
    rfl
  have back := (Printed.eq_of_append_blank f.blank_notMem_front printed.blank_notMem_front split).2
  have decimal : f.im.text ++ ['i'] = '-' :: "0.000i".toList := (List.cons.inj (List.cons.inj back).2).2
  obtain ⟨first, rest, begins⟩ := List.exists_cons_of_ne_nil f.im.text_ne_nil
  rw [begins] at decimal
  obtain ⟨rfl, -⟩ := List.cons.inj decimal
  exact Printed.minus_notMem_text f.im (begins ▸ List.mem_cons_self)

/-- A number with finite parts, the imaginary part no negative zero, is printed as `A + Bi` or `A - Bi` with three places in both
decimals, in a text that can be read in one way only. What is read is at most half a unit of the last place off in both parts. The minus
stands there exactly for a negative imaginary part, and before the first decimal exactly for the sign bit of the real part. With a
negative zero for an imaginary part there are two signs in the text, and it cannot be read at all. -/
theorem printed_readably :
    (¬(q = 0 ∧ isSignNegative z.im = true) → ∃ f : Printed, f.text = z.text.toList ∧ (∀ g : Printed, g.text = z.text.toList → g = f) ∧
      |f.parts.1 - p| ≤ 1 / 2000 ∧ |f.parts.2 - q| ≤ 1 / 2000 ∧ (f.minus = true ↔ q < 0) ∧ f.negative = isSignNegative z.re) ∧
    (q = 0 ∧ isSignNegative z.im = true →
      z.text = fixedText 3 z.re ++ " + -0.000i" ∧ ∀ f : Printed, f.text ≠ z.text.toList) := by
  have unit : (1 : Rat) / 2 / 10 ^ 3 = 1 / 2000 := by norm_num
  constructor
  · intro proper
    obtain ⟨re, front, places, near⟩ := exists_written_fixedText h.1 (show 0 < 3 by decide)
    obtain ⟨im, minus, places', sign, near', text⟩ := exists_imaginary h proper
    rw [unit] at near near'
    let f : Printed := ⟨isSignNegative z.re, re, minus, im, places, places'⟩
    have printed : f.text = z.text.toList := by
      rw [text, front]
      rfl
    exact ⟨f, printed, fun g same => Printed.text_injective (same.trans printed.symm), near, near', sign, rfl⟩
  · rintro ⟨zero, negative⟩
    exact text_of_negative_zero h zero negative

end Parts

/-- The imaginary part is negative and all its digits that are printed are zero; the real part is in the middle between two decimals. -/
theorem tiny_part_printed :
    let z : ComplexNumber Float := ⟨-0.0625, -0.000244140625⟩
    z.HasParts (-1 / 16) (-1 / 4096) ∧ ∃ f : Printed, f.text = "-0.062 - 0.000i".toList ∧ f.minus = true ∧
      |f.parts.2 - (-1 / 4096)| ≤ 1 / 2000 := by
  intro z
  have parts : z.HasParts (-1 / 16) (-1 / 4096) := by decide +kernel
  obtain ⟨f, text, -, -, near, minus, -⟩ := (printed_readably parts).1 (by norm_num)
  have printed : z.text = "-0.062 - 0.000i" := by decide +kernel
  rw [printed] at text
  exact ⟨parts, f, text, minus.2 (by norm_num), near⟩

/-- The conjugate of one has a negative zero for an imaginary part. Both its parts are finite, and there is no way to read what is
printed. -/
theorem printed_form_false :
    let z : ComplexNumber Float := ⟨1, -0⟩
    (Expression.parse "z conj" >>= fun e => e.eval ⟨1, 0⟩).toOption = some z ∧ z.HasParts 1 0 ∧
      z.text = "1.000 + -0.000i" ∧ ¬∃ f : Printed, f.text = z.text.toList := by
  intro z
  have parts : z.HasParts 1 0 := by decide +kernel
  obtain ⟨-, unreadable⟩ := text_of_negative_zero parts rfl (by decide +kernel)
  refine ⟨by decide +kernel, parts, by decide +kernel, ?_⟩
  rintro ⟨f, same⟩
  exact unreadable f same

end ComplexNumber

end DomainColoring
