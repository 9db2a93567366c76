import DomainColoring.Decimal
import DomainColoring.Proofs.Scalar.Rounding

/-!
# The shortest decimal is accepted

The search for a short decimal takes only accepted ones, and the decimal of seventeen digits that is nearest to a double is near enough
to be taken (`Decimal.contains_seventeen_digits`). So what is written of a double lies in its spread (`Decimal.contains_shortest`).
-/

namespace DomainColoring

open Binary64

namespace Decimal

/-! ## The order of a number -/

/-- How many digits a number has says between which powers of ten it lies. -/
theorem digitCount_bounds {n : Nat} (pos : 0 < n) :
    (10 : Rat) ^ ((digitCount n : Int) - 1) ≤ n ∧ (n : Rat) < 10 ^ (digitCount n : Int) := by
  have nonzero : 0 < digitCount n := List.length_pos_of_ne_nil Nat.toDigits_ne_nil
  have above : n < 10 ^ digitCount n := (Nat.length_toDigits_le_iff (by decide) nonzero).1 le_rfl
  obtain ⟨k, count⟩ : ∃ k, digitCount n = k + 1 := ⟨digitCount n - 1, by omega⟩
  have below : 10 ^ k ≤ n := by
    cases k with
    | zero => exact pos
    | succ k =>
      by_contra less
      have fewer : digitCount n ≤ k + 1 := (Nat.length_toDigits_le_iff (by decide) (by omega)).2 (Nat.lt_of_not_le less)
      omega
  rw [count] at above ⊢
  push_cast
  rw [add_sub_cancel_right]
  exact_mod_cast And.intro below above

/-- The order of a number is its place among the powers of ten. -/
theorem order_bounds {x : Rat} (pos : 0 < x) : (10 : Rat) ^ (order x - 1) ≤ x ∧ x < (10 : Rat) ^ order x := by
  have positive : 0 < x.num := Rat.num_pos.2 pos
  have fraction : x = x.num.natAbs / x.den := by
    conv_lhs => rw [← Rat.num_div_den x, ← Int.natAbs_of_nonneg positive.le]
    rfl
  obtain ⟨low, high⟩ := digitCount_bounds (n := x.num.natAbs) (by omega)
  obtain ⟨lowDen, highDen⟩ := digitCount_bounds x.den_pos
  rw [order]
  generalize (digitCount x.num.natAbs : Int) = a at low high
  generalize (digitCount x.den : Int) = b at lowDen highDen
  have below : (10 : Rat) ^ (a - b - 1) ≤ x := by
    have places : a - b - 1 = a - 1 - b := by omega
    rw [places, zpow_sub₀ (by norm_num), fraction]
    exact div_le_div₀ (by positivity) low (by positivity) highDen.le
  have above : x < (10 : Rat) ^ (a - b + 1) := by
    have places : a - b + 1 = a - (b - 1) := by omega
    rw [places, zpow_sub₀ (by norm_num), fraction]
    exact div_lt_div₀ high lowDen (by positivity) (by positivity)
  split
  · rename_i less
    exact ⟨below, less⟩
  · rename_i more
    rw [add_sub_cancel_right]
    exact ⟨not_lt.1 more, above⟩

/-! ## Neighbours on a grid -/

variable {accepts : Rat → Bool} {x unit : Rat} {n : Nat}

/-- Rounding moves a number by half at most, and by less if it goes down. -/
theorem roundHalfUp_bounds (x : Rat) : roundHalfUp x - 1 / 2 ≤ x ∧ x < roundHalfUp x + 1 / 2 := by
  have low := Rat.floor_le (x + 1 / 2)
  have high := Rat.lt_floor_add_one (x + 1 / 2)
  rw [roundHalfUp]
  push_cast at high
  constructor <;> linarith

/-- A number is rounded to one of its two neighbours. -/
theorem roundHalfUp_cases (x : Rat) : roundHalfUp x = x.floor ∨ roundHalfUp x = x.floor + 1 := by
  have low : x.floor ≤ roundHalfUp x := Rat.le_floor_iff.2 (by linarith [Rat.floor_le x])
  have high : roundHalfUp x < x.floor + 2 := by
    have above := Rat.lt_floor_add_one x
    rw [roundHalfUp, Rat.floor_lt_iff]
    push_cast at above ⊢
    linarith
  omega

/-- The neighbour that is chosen is an accepted one. -/
theorem accepts_of_acceptedNeighbour? (h : acceptedNeighbour? accepts x unit = some n) : accepts (n * unit) = true := by
  rw [acceptedNeighbour?] at h
  split at h
  · rename_i below above
    obtain rfl := Option.some.inj h
    obtain same | next : (roundHalfUp (x / unit)).toNat = (x / unit).floor.toNat ∨
        (roundHalfUp (x / unit)).toNat = (x / unit).floor.toNat + 1 := by
      have cases := roundHalfUp_cases (x / unit)
      omega
    · rw [same]
      exact below
    · rw [next]
      exact above
  · rename_i below _
    obtain rfl := Option.some.inj h
    exact below
  · rename_i _ above
    obtain rfl := Option.some.inj h
    exact above
  · cases h

/-- What the search finds is accepted, if the neighbour with seventeen digits is. -/
theorem accepts_shortest
    (enough : accepts ((roundHalfUp (x / (10 : Rat) ^ (order x - 17))).toNat * (10 : Rat) ^ (order x - 17)) = true) :
    accepts ((shortest accepts x).1 * (10 : Rat) ^ (shortest accepts x).2) = true := by
  rw [shortest]
  dsimp only
  cases hit : (List.range 18).findSome? fun (n : Nat) =>
      (acceptedNeighbour? accepts x ((10 : Rat) ^ (order x - (n : Int)))).map (·, order x - (n : Int)) with
  | none => exact enough
  | some decimal =>
    obtain ⟨n, -, found⟩ := List.exists_of_findSome?_eq_some hit
    obtain ⟨neighbour, accepted, rfl⟩ := Option.map_eq_some_iff.1 found
    exact accepts_of_acceptedNeighbour? accepted

/-- The nearest decimal with seventeen digits is off by at most one part in two times ten to the sixteenth. -/
theorem seventeen_digits_near (pos : 0 < x) :
    let unit := (10 : Rat) ^ (order x - 17)
    let nearest := (roundHalfUp (x / unit)).toNat * unit
    x - x / (2 * 10 ^ 16) ≤ nearest ∧ nearest ≤ x + x / (2 * 10 ^ 16) := by
  intro unit nearest
  have positive : 0 < unit := by positivity
  have coarse : unit * 10 ^ 16 ≤ x := by
    have places : order x - 1 = order x - 17 + (16 : Nat) := by omega
    have low := (order_bounds pos).1
    rwa [places, zpow_add₀ (by norm_num), zpow_natCast] at low
  obtain ⟨low, high⟩ := roundHalfUp_bounds (x / unit)
  have whole : (roundHalfUp (x / unit)).toNat = (roundHalfUp (x / unit) : Rat) := by
    have above : (-1 : Rat) < roundHalfUp (x / unit) := by linarith [div_pos pos positive]
    have above : -1 < roundHalfUp (x / unit) := by exact_mod_cast above
    exact_mod_cast Int.toNat_of_nonneg (by omega)
  rw [le_div_iff₀ positive] at low
  rw [div_lt_iff₀ positive] at high
  have value : nearest = roundHalfUp (x / unit) * unit := congrArg (· * unit) whole
  rw [value]
  constructor <;> linarith

/-- A double is the nearest to the decimal of seventeen digits that is nearest to it. -/
theorem contains_seventeen_digits {m : Nat} {e : Int} (form : Canonical m e) (pos : 0 < m) :
    (spread m e).contains
      ((roundHalfUp (size m e / (10 : Rat) ^ (order (size m e) - 17))).toNat * (10 : Rat) ^ (order (size m e) - 17)) = true := by
  have power : (0 : Rat) < 2 ^ e := by positivity
  have positive : 0 < size m e := mul_pos (by exact_mod_cast pos) power
  obtain ⟨low, high⟩ := seventeen_digits_near positive
  generalize ((roundHalfUp (size m e / (10 : Rat) ^ (order (size m e) - 17))).toNat : Rat) *
    (10 : Rat) ^ (order (size m e) - 17) = y at low high
  have scaled : y = y / 2 ^ e * 2 ^ e := (div_mul_cancel₀ y power.ne').symm
  have low : m - m / (2 * 10 ^ 16) ≤ y / 2 ^ e := by
    rw [le_div_iff₀ power, sub_mul, div_mul_eq_mul_div]
    exact low
  have high : y / 2 ^ e ≤ m + m / (2 * 10 ^ 16) := by
    rw [div_le_iff₀ power, add_mul, div_mul_eq_mul_div]
    exact high
  have small : (m : Rat) < 2 ^ 53 := by exact_mod_cast form.small
  have gap : (m : Rat) / (2 * 10 ^ 16) < gapBelow m e := by
    rw [gapBelow]
    split
    · rename_i power
      rw [power.1]
      norm_num [leadingBit]
    · linarith
  rw [scaled]
  exact contains_of_near pos (by linarith) (by linarith)

/-- The shortest decimal of a double lies in its spread. -/
theorem contains_shortest {m : Nat} {e : Int} (form : Canonical m e) (pos : 0 < m) :
    let decimal := shortest (spread m e).contains (size m e)
    (spread m e).contains (decimal.1 * (10 : Rat) ^ decimal.2) = true :=
  accepts_shortest (contains_seventeen_digits form pos)

end Decimal

end DomainColoring
