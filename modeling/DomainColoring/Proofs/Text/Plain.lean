import DomainColoring.Decimal
import DomainColoring.Text

/-!
# Plain texts

Numbers are written in visible characters of ASCII only, whatever they are: there is no blank among them, no control character and
no letter of another script.
-/

namespace DomainColoring

namespace Text

/-- A text of visible characters of ASCII. -/
def Plain (text : List Char) : Prop :=
  ∀ c ∈ text, 0x20 < c.toNat ∧ c.toNat < 0x7f

instance (text : List Char) : Decidable (Plain text) :=
  List.decidableBAll _ text

@[simp] theorem plain_append {a b : List Char} : Plain (a ++ b) ↔ Plain a ∧ Plain b :=
  List.forall_mem_append

theorem plain_replicate (n : Nat) {c : Char} (h : Plain [c]) : Plain (List.replicate n c) := by
  intro d member
  rw [List.eq_of_mem_replicate member]
  exact h c (List.mem_singleton_self c)

/-- There is no blank in a plain text. -/
theorem Plain.visible {text : List Char} (h : Plain text) : ∀ c ∈ text, isBlank c = false := by
  intro c member
  obtain ⟨low, high⟩ := h c member
  simp only [isBlank, Bool.or_eq_false_iff, Bool.and_eq_false_iff, decide_eq_false_iff_not, beq_eq_false_iff_ne]
  omega

/-- A line feed is not visible. -/
theorem Plain.lineFeed_not_mem {text : List Char} (h : Plain text) : '\n' ∉ text := by
  intro member
  have low := (h _ member).1
  revert low
  decide

/-! ## Whole numbers -/

/-- Digits are visible ASCII. -/
theorem plain_digitChar (digit : Nat) : Plain [digit.digitChar] := by
  have digits : ∀ digit < 17, Plain [digit.digitChar] := by decide
  by_cases small : digit < 17
  · exact digits digit small
  · -- What is too great for a digit is shown as an asterisk.
    have other : digit.digitChar = Nat.digitChar 16 := by
      simp only [Nat.digitChar]
      repeat rw [if_neg (by omega)]
    rw [other]
    decide

/-- Rows of digits are visible ASCII. -/
theorem plain_toDigits (base n : Nat) : Plain (Nat.toDigits base n) := by
  have core (fuel n : Nat) (digits : List Char) (h : Plain digits) : Plain (Nat.toDigitsCore base fuel n digits) := by
    induction fuel generalizing n digits with
    | zero => exact h
    | succ fuel ih =>
      have longer : Plain ((n % base).digitChar :: digits) := plain_append.2 ⟨plain_digitChar (n % base), h⟩
      rw [Nat.toDigitsCore]
      split
      · exact longer
      · exact ih _ _ longer
  exact core _ _ _ (List.forall_mem_nil _)

theorem plain_toString (n : Nat) : Plain (toString n).toList := by
  rw [Nat.toString_eq_ofList_toDigits, String.toList_ofList]
  exact plain_toDigits 10 n

end Text

/-! ## Decimals -/

namespace Decimal

open Text

theorem plain_padded (width n : Nat) : Plain (padded width n).toList := by
  rw [padded, String.toList_ofList, plain_append]
  exact ⟨plain_replicate _ (by decide), plain_toDigits 10 n⟩

/-- Numbers with a point in front of some places are written in visible ASCII. -/
theorem plain_withPoint (places n : Nat) : Plain (withPoint places n).toList := by
  rw [withPoint]
  split
  · exact plain_padded _ _
  · simp only [String.toList_append, plain_append]
    exact ⟨⟨plain_padded _ _, by decide⟩, plain_padded _ _⟩

/-- So are the shortest decimals. -/
theorem plain_shortestSize (significand : Nat) (exponent : Int) : Plain (shortestSize significand exponent).toList := by
  rw [shortestSize]
  split
  · decide
  · dsimp only
    rw [positional]
    split
    · exact plain_padded _ _
    · exact plain_withPoint _ _

/-- Doubles are written in visible ASCII, also if they are not finite. -/
theorem plain_shortestText (x : Float) : Plain (shortestText x).toList := by
  rw [shortestText]
  rcases Binary64.ofFloat x with ⟨negative, significand, exponent⟩ | negative | _
  · rw [textWith, String.toList_append, plain_append]
    exact ⟨by cases negative <;> decide, plain_shortestSize _ _⟩
  · cases negative <;> decide
  · decide

end Decimal

end DomainColoring
