import Mathlib.Algebra.Order.Floor.Ring
import Mathlib.Tactic.FieldSimp
import Mathlib.Tactic.IntervalCases
import Mathlib.Tactic.Linarith
import Mathlib.Tactic.Ring
import DomainColoring.Color
import DomainColoring.Proofs.Scalar.Reals

/-!
# Hue, saturation and lightness

As long as nothing is rounded, the color of a hue, a saturation and a lightness is the standard one (`Light.standard`), in which no
sides of the hexagon are told apart: each channel follows its own distance from a corner. The channels lie between zero and one, around
the lightness and as far apart as the chroma, and the sides of the hexagon meet at its corners (`Light.ofHsl_standard`).
-/

namespace DomainColoring

namespace Light

/-- Red, green and blue in a row. -/
def channels {α : Type} (light : Light α) : List α :=
  [light.red, light.green, light.blue]

/-- The light with each channel replaced. -/
def map {α β : Type} (f : α → β) (light : Light α) : Light β :=
  ⟨f light.red, f light.green, f light.blue⟩

theorem channels_map {α β : Type} (f : α → β) (light : Light α) : (light.map f).channels = light.channels.map f := by
  rfl

/-! ## The sides of the hexagon -/

section Sides

variable {α : Type} [NatCast α]

/-- The channels on one side of the hexagon: a full one, an empty one and a third one. -/
def side (n : Nat) (full third : α) : Light α :=
  match n with
  | 0 => ⟨full, third, Nat.cast 0⟩
  | 1 => ⟨third, full, Nat.cast 0⟩
  | 2 => ⟨Nat.cast 0, full, third⟩
  | 3 => ⟨Nat.cast 0, third, full⟩
  | 4 => ⟨third, Nat.cast 0, full⟩
  | _ => ⟨full, Nat.cast 0, third⟩

variable [Sub α] [Mul α] [Neg α] [Scalar α] [LT α] [DecidableLT α]

/-- The channel that goes up on every other side and down on those between. -/
def between (place chroma : α) : α :=
  chroma * (Nat.cast 1 - magnitude (Scalar.remainder place (Nat.cast 2) - Nat.cast 1))

/-- The chroma is shared out as on the side of the hexagon on which the place lies. -/
theorem share_eq_side (place chroma : α) :
    share place chroma = side ((floorWithin 0 4294967295 place).toNat % 6) chroma (between place chroma) := by
  rfl

end Sides

/-! ## The standard color -/

section Standard

variable {K : Type} [FloorField K]

/-- A number brought into the range from zero to one. -/
def unit (x : K) : K :=
  max 0 (min x 1)

/-- The share of the chroma that each channel has at a place of the hexagon. -/
def shares (place : K) : Light K :=
  ⟨unit (|place - Nat.cast 3| - 1), unit (Nat.cast 2 - |place - Nat.cast 2|), unit (Nat.cast 2 - |place - Nat.cast 4|)⟩

/-- The place of a hue on the hexagon: what is left of it after whole turns, in sixths of a turn. -/
def placeOf (π hue : K) : K :=
  (hue - Nat.cast 2 * π * ⌊hue / (Nat.cast 2 * π)⌋) / (π / Nat.cast 3)

/-- How far apart the channels of a color are. -/
def chromaOf (saturation lightness : K) : K :=
  (1 - |Nat.cast 2 * lightness - 1|) * saturation

/-- The color of a hue, a saturation and a lightness, where `π` is half a turn. -/
def standard (π hue saturation lightness : K) : Light K :=
  (shares (placeOf π hue)).map fun t => lightness + chromaOf saturation lightness * (t - 1 / Nat.cast 2)

theorem chromaOf_eq (saturation lightness : K) : chromaOf saturation lightness = (1 - |2 * lightness - 1|) * saturation := by
  rw [chromaOf, Nat.cast_ofNat]

theorem standard_eq (π hue saturation lightness : K) : standard π hue saturation lightness =
    (shares (placeOf π hue)).map fun t => lightness + chromaOf saturation lightness * (t - 1 / 2) := by
  rw [standard, Nat.cast_ofNat]

/-- The greatest channel. -/
def greatest (light : Light K) : K :=
  max light.red (max light.green light.blue)

/-- The least channel. -/
def least (light : Light K) : K :=
  min light.red (min light.green light.blue)

/-! ### Within the range from zero to one -/

/-- From one on a number is brought down to one. -/
theorem unit_of_one_le {x : K} (h : 1 ≤ x) : unit x = 1 := by
  simp [unit, h]

/-- Up to zero a number is brought up to zero. -/
theorem unit_of_nonpos {x : K} (h : x ≤ 0) : unit x = 0 := by
  simp [unit, h]

theorem unit_of_mem {x : K} (nonneg : 0 ≤ x) (le : x ≤ 1) : unit x = x := by
  simp [unit, nonneg, le]

theorem unit_nonneg (x : K) : 0 ≤ unit x :=
  le_max_left _ _

theorem unit_le_one (x : K) : unit x ≤ 1 :=
  max_le zero_le_one (min_le_right _ _)

/-- What is missing to one is brought into the range in the same way. -/
theorem unit_one_sub (x : K) : unit (1 - x) = 1 - unit x := by
  rcases le_total x 0 with low | nonneg
  · rw [unit_of_one_le (by linarith), unit_of_nonpos low, sub_zero]
  · rcases le_total 1 x with high | le
    · rw [unit_of_nonpos (by linarith), unit_of_one_le high, sub_self]
    · rw [unit_of_mem (by linarith) (by linarith), unit_of_mem nonneg le]

/-- No channel has less than nothing or more than all of the chroma. -/
theorem shares_mem (place : K) {t : K} (h : t ∈ (shares place).channels) : 0 ≤ t ∧ t ≤ 1 := by
  simp only [shares, channels, List.mem_cons, List.not_mem_nil, or_false] at h
  rcases h with rfl | rfl | rfl <;> exact ⟨unit_nonneg _, unit_le_one _⟩

/-! ### Chroma and place -/

section Hsl

variable {π saturation lightness : K}

/-- Channels are never less than nothing apart. -/
theorem chromaOf_nonneg (saturated : 0 ≤ saturation) (dark : 0 ≤ lightness) (bright : lightness ≤ 1) :
    0 ≤ chromaOf saturation lightness := by
  have near : |2 * lightness - 1| ≤ 1 := abs_le.2 ⟨by linarith, by linarith⟩
  rw [chromaOf_eq]
  exact mul_nonneg (sub_nonneg.2 near) saturated

/-- Half of the chroma fits on both sides of the lightness. -/
theorem half_chromaOf_le (saturated : saturation ≤ 1) (dark : 0 ≤ lightness) (bright : lightness ≤ 1) :
    chromaOf saturation lightness / 2 ≤ lightness ∧ chromaOf saturation lightness / 2 ≤ 1 - lightness := by
  have near : |2 * lightness - 1| ≤ 1 := abs_le.2 ⟨by linarith, by linarith⟩
  have most : chromaOf saturation lightness ≤ 1 - |2 * lightness - 1| := by
    rw [chromaOf_eq]
    exact mul_le_of_le_one_right (sub_nonneg.2 near) saturated
  constructor
  · linarith [neg_le_abs (2 * lightness - 1)]
  · linarith [le_abs_self (2 * lightness - 1)]

/-- A whole turn goes once around the hexagon. -/
theorem placeOf_eq (positive : 0 < π) (hue : K) : placeOf π hue = 6 * Int.fract (hue / (2 * π)) := by
  simp only [placeOf, Nat.cast_ofNat, Int.fract]
  field_simp
  ring

theorem placeOf_nonneg (positive : 0 < π) (hue : K) : 0 ≤ placeOf π hue := by
  rw [placeOf_eq positive]
  exact mul_nonneg (by norm_num) (Int.fract_nonneg _)

theorem placeOf_lt (positive : 0 < π) (hue : K) : placeOf π hue < 6 := by
  rw [placeOf_eq positive]
  linarith [Int.fract_lt_one (hue / (2 * π))]

/-- A further turn leads to the same place. -/
theorem placeOf_add_turn (positive : 0 < π) (hue : K) : placeOf π (hue + 2 * π) = placeOf π hue := by
  rw [placeOf_eq positive, placeOf_eq positive, add_div, div_self (by positivity), Int.fract_add_one]

end Hsl

/-! ### One channel around its corner -/

section Corner

variable {place corner : K}

/-- Two sides before its corner a channel is still empty. -/
theorem unit_before (h : place ≤ corner - 2) : unit (2 - |place - corner|) = 0 := by
  rw [abs_of_nonpos (by linarith), unit_of_nonpos (by linarith)]

/-- On the side before that next to its corner a channel fills. -/
theorem unit_rising (low : corner - 2 ≤ place) (high : place ≤ corner - 1) :
    unit (2 - |place - corner|) = place - (corner - 2) := by
  rw [abs_of_nonpos (by linarith), unit_of_mem (by linarith) (by linarith)]
  ring

/-- On both sides at its corner a channel is full. -/
theorem unit_full (low : corner - 1 ≤ place) (high : place ≤ corner + 1) : unit (2 - |place - corner|) = 1 := by
  have near : |place - corner| ≤ 1 := abs_le.2 ⟨by linarith, by linarith⟩
  exact unit_of_one_le (by linarith)

/-- On the side after that it empties again. -/
theorem unit_falling (low : corner + 1 ≤ place) (high : place ≤ corner + 2) :
    unit (2 - |place - corner|) = corner + 2 - place := by
  rw [abs_of_nonneg (by linarith), unit_of_mem (by linarith) (by linarith)]
  ring

/-- From two sides behind its corner on a channel is empty. -/
theorem unit_after (h : corner + 2 ≤ place) : unit (2 - |place - corner|) = 0 := by
  rw [abs_of_nonneg (by linarith), unit_of_nonpos (by linarith)]

/-- Red is empty where a channel with the opposite corner is full. -/
theorem shares_eq (place : K) :
    shares place = ⟨1 - unit (2 - |place - 3|), unit (2 - |place - 2|), unit (2 - |place - 4|)⟩ := by
  have opposite : 1 - (2 - |place - 3|) = |place - 3| - 1 := by ring
  simp only [shares, Nat.cast_ofNat]
  rw [← unit_one_sub, opposite]

end Corner

/-! ### The channel in between -/

/-- How full the channel is that goes up and down. -/
def wave (place : K) : K :=
  1 - |place - Nat.cast 2 * ⌊place / Nat.cast 2⌋ - 1|

theorem wave_eq (place : K) : wave place = 1 - |place - 2 * ⌊place / 2⌋ - 1| := by
  rw [wave, Nat.cast_ofNat]

/-- The channel in between is never less than empty. -/
theorem wave_nonneg (place : K) : 0 ≤ wave place := by
  have low := Int.floor_le (place / 2)
  have high := Int.lt_floor_add_one (place / 2)
  have near : |place - 2 * ⌊place / 2⌋ - 1| ≤ 1 := abs_le.2 ⟨by linarith, by linarith⟩
  rw [wave_eq]
  exact sub_nonneg.2 near

theorem wave_le_one (place : K) : wave place ≤ 1 :=
  sub_le_self 1 (abs_nonneg _)

/-- On sides of even number the channel in between fills. -/
theorem wave_rising {place : K} (k : Int) (low : 2 * k ≤ place) (high : place ≤ 2 * k + 1) : wave place = place - 2 * k := by
  have floor : ⌊place / 2⌋ = k := Int.floor_eq_iff.2 ⟨by linarith, by linarith⟩
  rw [wave_eq, floor, abs_of_nonpos (by linarith)]
  ring

/-- On sides of odd number the channel in between empties. -/
theorem wave_falling {place : K} (k : Int) (low : 2 * k + 1 ≤ place) (high : place ≤ 2 * k + 2) :
    wave place = 2 * k + 2 - place := by
  rcases high.lt_or_eq with less | corner
  · have floor : ⌊place / 2⌋ = k := Int.floor_eq_iff.2 ⟨by linarith, by linarith⟩
    rw [wave_eq, floor, abs_of_nonneg (by linarith)]
    ring
  · -- The falling side ends where the next rising one begins.
    rw [wave_rising (k + 1) (by push_cast; linarith) (by push_cast; linarith), corner]
    push_cast
    ring

/-- On each side of the hexagon, both ends included, one channel is full, one is empty and the third is in between. -/
theorem shares_eq_side {n : Nat} (below : n < 6) {place : K} (low : n ≤ place) (high : place ≤ n + 1) :
    shares place = side n 1 (wave place) := by
  rw [shares_eq]
  interval_cases n <;> push_cast at low high <;> simp only [side, mk.injEq]
  · rw [wave_rising 0 (by push_cast; linarith) (by push_cast; linarith), unit_before (by linarith),
      unit_rising (by linarith) (by linarith), unit_before (by linarith)]
    norm_num
  · rw [wave_falling 0 (by push_cast; linarith) (by push_cast; linarith), unit_rising (by linarith) (by linarith),
      unit_full (by linarith) (by linarith), unit_before (by linarith)]
    refine ⟨?_, rfl, Nat.cast_zero.symm⟩
    push_cast
    ring
  · rw [wave_rising 1 (by push_cast; linarith) (by push_cast; linarith), unit_full (by linarith) (by linarith),
      unit_full (by linarith) (by linarith), unit_rising (by linarith) (by linarith)]
    norm_num
  · rw [wave_falling 1 (by push_cast; linarith) (by push_cast; linarith), unit_full (by linarith) (by linarith),
      unit_falling (by linarith) (by linarith), unit_full (by linarith) (by linarith)]
    norm_num
  · rw [wave_rising 2 (by push_cast; linarith) (by push_cast; linarith), unit_falling (by linarith) (by linarith),
      unit_after (by linarith), unit_full (by linarith) (by linarith)]
    refine ⟨?_, Nat.cast_zero.symm, rfl⟩
    push_cast
    ring
  · rw [wave_falling 2 (by push_cast; linarith) (by push_cast; linarith), unit_after (by linarith),
      unit_after (by linarith), unit_falling (by linarith) (by linarith)]
    norm_num

/-- Every place lies on one of the sides. -/
theorem exists_side {place : K} (nonneg : 0 ≤ place) (below : place < 6) :
    ∃ n : Nat, n < 6 ∧ ⌊place⌋ = n ∧ (n : K) ≤ place ∧ place ≤ n + 1 := by
  obtain ⟨n, floor⟩ := Int.eq_ofNat_of_zero_le (Int.floor_nonneg.2 nonneg)
  have low := Int.floor_le place
  have high := Int.lt_floor_add_one place
  rw [floor, Int.cast_natCast] at low high
  refine ⟨n, ?_, floor, low, high.le⟩
  have small : (n : K) < (6 : Nat) := by
    push_cast
    exact low.trans_lt below
  exact_mod_cast small

/-- At the corner where a side ends and the next one begins, both have the same channels. -/
theorem side_eq_next {n : Nat} (below : n < 6) :
    side n 1 (wave (n + 1 : K)) = side ((n + 1) % 6) 1 (wave (n + 1 : K)) := by
  have ends := shares_eq_side below (le_add_of_nonneg_right zero_le_one) (le_refl (n + 1 : K))
  rcases (show n < 5 ∨ n = 5 by omega) with inner | rfl
  · rw [Nat.mod_eq_of_lt (by omega), ← ends]
    exact shares_eq_side (by omega) (by push_cast; exact le_refl _) (by push_cast; linarith)
  · -- After the last side comes the first one again.
    rw [wave_falling 2 (by push_cast; norm_num) (by push_cast; norm_num)]
    simp only [side, mk.injEq]
    norm_num

/-! ### The greatest and the least channel -/

/-- On every side one channel is full. -/
theorem greatest_side (n : Nat) {third : K} (nonneg : 0 ≤ third) (le : third ≤ 1) : greatest (side n 1 third) = 1 := by
  unfold side greatest
  split <;> simp [nonneg, le]

/-- On every side one channel is empty. -/
theorem least_side (n : Nat) {third : K} (nonneg : 0 ≤ third) (le : third ≤ 1) : least (side n 1 third) = 0 := by
  unfold side least
  split <;> simp [nonneg, le]

theorem greatest_map {f : K → K} (mono : Monotone f) (light : Light K) : greatest (light.map f) = f (greatest light) := by
  simp only [greatest, map, mono.map_max]

theorem least_map {f : K → K} (mono : Monotone f) (light : Light K) : least (light.map f) = f (least light) := by
  simp only [least, map, mono.map_min]

section Hsl

variable {π saturation lightness : K} (positive : 0 < π) (hue : K)

/-- The greater its share, the brighter the channel. -/
theorem monotone_channel (pale : 0 ≤ saturation) (dark : 0 ≤ lightness) (bright : lightness ≤ 1) :
    Monotone fun t => lightness + chromaOf saturation lightness * (t - 1 / 2) := by
  intro t t' le
  have spread := chromaOf_nonneg pale dark bright
  exact add_le_add_right (mul_le_mul_of_nonneg_left (sub_le_sub_right le _) spread) lightness

include positive in
/-- The full channel is half of the chroma above the lightness. -/
theorem greatest_standard (pale : 0 ≤ saturation) (dark : 0 ≤ lightness) (bright : lightness ≤ 1) :
    greatest (standard π hue saturation lightness) = lightness + chromaOf saturation lightness / 2 := by
  obtain ⟨n, below, -, low, high⟩ := exists_side (placeOf_nonneg positive hue) (placeOf_lt positive hue)
  rw [standard_eq, greatest_map (monotone_channel pale dark bright), shares_eq_side below low high,
    greatest_side n (wave_nonneg _) (wave_le_one _)]
  ring

include positive in
/-- The empty channel is half of the chroma below the lightness. -/
theorem least_standard (pale : 0 ≤ saturation) (dark : 0 ≤ lightness) (bright : lightness ≤ 1) :
    least (standard π hue saturation lightness) = lightness - chromaOf saturation lightness / 2 := by
  obtain ⟨n, below, -, low, high⟩ := exists_side (placeOf_nonneg positive hue) (placeOf_lt positive hue)
  rw [standard_eq, least_map (monotone_channel pale dark bright), shares_eq_side below low high,
    least_side n (wave_nonneg _) (wave_le_one _)]
  ring

/-- The channels of the standard color lie between zero and one. -/
theorem mem_channels_standard (pale : 0 ≤ saturation) (saturated : saturation ≤ 1) (dark : 0 ≤ lightness)
    (bright : lightness ≤ 1) {v : K} (h : v ∈ (standard π hue saturation lightness).channels) : 0 ≤ v ∧ v ≤ 1 := by
  obtain ⟨fits_below, fits_above⟩ := half_chromaOf_le saturated dark bright
  rw [standard_eq, channels_map, List.mem_map] at h
  obtain ⟨t, share_t, rfl⟩ := h
  obtain ⟨nonneg, le⟩ := shares_mem _ share_t
  have low := monotone_channel pale dark bright nonneg
  have high := monotone_channel pale dark bright le
  dsimp only at low high
  constructor
  · linarith
  · linarith

include positive in
/-- The standard color is the same after a whole turn. -/
theorem standard_add_turn : standard π (hue + 2 * π) saturation lightness = standard π hue saturation lightness := by
  rw [standard, standard, placeOf_add_turn positive]

end Hsl

end Standard

end Light

/-! ## The color is the standard one -/

section Exactly

variable {K α : Type} [FloorField K] [Add α] [Sub α] [Mul α] [Div α] [Neg α] [NatCast α] [Scalar α] [LT α] [DecidableLT α]
  {number : K → α}

namespace Exact

/-- What is left of an angle are the whole laps below it taken away, also where it is negative. -/
theorem withinLap_eq (exact : Exact number) {lap : K} (positive : 0 < lap) (angle : K) :
    withinLap (number lap) (number angle) = number (angle - lap * ⌊angle / lap⌋) := by
  have angle_eq : angle = lap * (angle / lap) := (mul_div_cancel₀ angle positive.ne').symm
  simp only [withinLap]
  rw [exact.remainder _ positive.ne', exact.natCast, Nat.cast_zero, exact.add]
  by_cases nonneg : 0 ≤ angle / lap
  · have rest : 0 ≤ angle - lap * ⌊angle / lap⌋ := by
      rw [sub_nonneg]
      nth_rewrite 2 [angle_eq]
      exact mul_le_mul_of_nonneg_left (Int.floor_le _) positive.le
    rw [if_pos nonneg, if_neg (mt (exact.lt_iff _ _).1 (not_lt.2 rest))]
  · rw [if_neg nonneg]
    rcases (Int.le_ceil (angle / lap)).eq_or_lt with whole | part
    · have floor : ⌊angle / lap⌋ = ⌈angle / lap⌉ := Int.floor_eq_iff.2 ⟨whole.ge, by linarith⟩
      rw [floor, ← whole, mul_div_cancel₀ angle positive.ne', sub_self, if_neg (mt (exact.lt_iff _ _).1 (lt_irrefl 0))]
    · have floor : ⌊angle / lap⌋ = ⌈angle / lap⌉ - 1 := by
        rw [Int.floor_eq_iff]
        push_cast
        exact ⟨by linarith [Int.ceil_lt_add_one (angle / lap)], by linarith⟩
      have rest : angle - lap * ⌈angle / lap⌉ < 0 := by
        rw [sub_neg]
        nth_rewrite 1 [angle_eq]
        exact mul_lt_mul_of_pos_left part positive
      rw [if_pos ((exact.lt_iff _ _).2 rest), floor]
      congr 1
      push_cast
      ring

/-- A byte is the whole part of its channel in steps of one byte, brought into the range of bytes. -/
theorem toNat_channel (exact : Exact number) (v : K) :
    ((channel (number v)).toNat : Int) = max 0 (min ⌊v * 255⌋ 255) := by
  have bounded : (max 0 (min ⌊v * 255⌋ 255)).toNat < 256 := by omega
  rw [channel, exact.natCast, exact.mul, Nat.cast_ofNat, exact.floorWithin_eq, Nat.toUInt8_eq, UInt8.toNat_ofNat',
    Nat.mod_eq_of_lt bounded]
  exact Int.toNat_of_nonneg (le_max_left _ _)

/-- No byte is cut off at a bound where the channel is between zero and one. -/
theorem toNat_channel_of_mem (exact : Exact number) {v : K} (nonneg : 0 ≤ v) (le : v ≤ 1) :
    ((channel (number v)).toNat : Int) = ⌊v * 255⌋ := by
  have least : 0 ≤ ⌊v * 255⌋ := Int.floor_nonneg.2 (by linarith)
  have greatest : ⌊v * 255⌋ < 256 := by
    rw [Int.floor_lt]
    push_cast
    linarith
  rw [exact.toNat_channel]
  omega

/-- The chroma that is computed is the standard one. -/
theorem chroma_eq (exact : Exact number) (saturation lightness : K) :
    Light.chroma (number saturation) (number lightness) = number (Light.chromaOf saturation lightness) := by
  rw [Light.chroma, exact.natCast, exact.natCast, exact.mul, exact.sub, exact.magnitude_eq, exact.sub, exact.mul, Nat.cast_one,
    Nat.cast_ofNat, Light.chromaOf_eq]

/-- The channel that goes up and down has as much of the chroma as the wave says. -/
theorem between_eq (exact : Exact number) {place : K} (nonneg : 0 ≤ place) (chroma : K) :
    Light.between (number place) (number chroma) = number (chroma * Light.wave place) := by
  have halved : 0 ≤ place / 2 := div_nonneg nonneg zero_le_two
  rw [Light.between, exact.natCast, exact.natCast, Nat.cast_one, Nat.cast_ofNat, exact.remainder _ two_ne_zero, if_pos halved,
    exact.sub, exact.magnitude_eq, exact.sub, exact.mul, Light.wave_eq]

omit [DecidableLT α] in
/-- What a side does with the chroma is what it does with one, as often as the chroma has it. -/
theorem side_eq (exact : Exact number) (n : Nat) (chroma third : K) :
    Light.side n (number chroma) (number (chroma * third)) = (Light.side n 1 third).map fun t => number (chroma * t) := by
  unfold Light.side Light.map
  split <;> simp [exact.natCast]

/-- Two sides have the same channels at their common corner. -/
theorem sides_meet (exact : Exact number) {n : Nat} (below : n < 6) (chroma : K) :
    Light.side n (number chroma) (Light.between (number (n + 1 : K)) (number chroma)) =
      Light.side ((n + 1) % 6) (number chroma) (Light.between (number (n + 1 : K)) (number chroma)) := by
  rw [exact.between_eq (by positivity), exact.side_eq, exact.side_eq, Light.side_eq_next below]

/-- A side tells how the chroma is shared out wherever a place lies on it, also at the corner that belongs to the next side. -/
theorem share_on_side (exact : Exact number) {n : Nat} (below : n < 6) {place : K} (low : n ≤ place) (high : place ≤ n + 1)
    (chroma : K) : Light.share (number place) (number chroma) =
      Light.side n (number chroma) (Light.between (number place) (number chroma)) := by
  rw [Light.share_eq_side, exact.floorWithin_eq]
  rcases high.lt_or_eq with inner | rfl
  · have floor : ⌊place⌋ = n := Int.floor_eq_iff.2 ⟨by exact_mod_cast low, by exact_mod_cast inner⟩
    have sector : (max 0 (min ⌊place⌋ 4294967295)).toNat % 6 = n := by omega
    rw [sector]
  · have floor : ⌊(n + 1 : K)⌋ = (n + 1 : Nat) := by exact_mod_cast Int.floor_natCast (R := K) (n + 1)
    have sector : (max 0 (min ⌊(n + 1 : K)⌋ 4294967295)).toNat % 6 = (n + 1) % 6 := by omega
    rw [sector]
    exact (exact.sides_meet below chroma).symm

/-- Each channel has its share of the chroma. -/
theorem share_eq (exact : Exact number) {place : K} (nonneg : 0 ≤ place) (below : place < 6) (chroma : K) :
    Light.share (number place) (number chroma) = (Light.shares place).map fun t => number (chroma * t) := by
  obtain ⟨n, small, -, low, high⟩ := Light.exists_side nonneg below
  rw [exact.share_on_side small low high, exact.between_eq nonneg, exact.side_eq, Light.shares_eq_side small low high]

variable [Elementary α] {π : K}

/-- The place on the hexagon that is computed is the standard one. -/
theorem hexagon_eq (exact : Exact number) (positive : 0 < π) (halfTurn : (Elementary.pi : α) = number π) (hue : K) :
    Light.hexagon (number hue) = number (Light.placeOf π hue) := by
  rw [Light.hexagon, Light.turn, halfTurn, exact.natCast, exact.natCast, exact.mul,
    exact.withinLap_eq (by positivity), exact.div _ (by positivity), exact.div _ (by positivity), Light.placeOf]

/-- The channels that are computed are those of the standard color. -/
theorem ofHsl_eq (exact : Exact number) (positive : 0 < π) (halfTurn : (Elementary.pi : α) = number π)
    (hue saturation lightness : K) :
    Light.ofHsl (number hue) (number saturation) (number lightness) =
      (Light.standard π hue saturation lightness).map number := by
  have added (t : K) : number (Light.chromaOf saturation lightness * t) +
      (number lightness - number (Light.chromaOf saturation lightness) / Nat.cast 2) =
        number (lightness + Light.chromaOf saturation lightness * (t - 1 / 2)) := by
    rw [exact.natCast, Nat.cast_ofNat, exact.div _ two_ne_zero, exact.sub, exact.add]
    congr 1
    ring
  simp only [Light.ofHsl]
  rw [exact.hexagon_eq positive halfTurn, exact.chroma_eq,
    exact.share_eq (Light.placeOf_nonneg positive hue) (Light.placeOf_lt positive hue)]
  simp only [Light.map, Light.standard_eq, added]

end Exact

/-- A color has the bytes of a light whose channels lie between zero and one: of each channel, in steps of one byte, the fraction is
dropped. -/
structure Rgb.Shows (color : Rgb) (light : Light K) : Prop where
  red : (color.r.toNat : Int) = ⌊light.red * Nat.cast 255⌋
  green : (color.g.toNat : Int) = ⌊light.green * Nat.cast 255⌋
  blue : (color.b.toNat : Int) = ⌊light.blue * Nat.cast 255⌋

/-- A light is shown by one color. -/
theorem Rgb.Shows.unique {color color' : Rgb} {light : Light K} (h : color.Shows light) (h' : color'.Shows light) :
    color = color' := by
  obtain ⟨r, g, b⟩ := color
  obtain ⟨r', g', b'⟩ := color'
  have red := h.red.trans h'.red.symm
  have green := h.green.trans h'.green.symm
  have blue := h.blue.trans h'.blue.symm
  rw [Nat.cast_inj, UInt8.toNat_inj] at red green blue
  subst red green blue
  rfl

/-- What is made of a light whose channels lie between zero and one shows it. -/
theorem Exact.shows_toRgb (exact : Exact number) {light : Light K} (inside : ∀ v ∈ light.channels, 0 ≤ v ∧ v ≤ 1) :
    (light.map number).toRgb.Shows light := by
  have byte (v : K) (h : v ∈ light.channels) : ((channel (number v)).toNat : Int) = ⌊v * Nat.cast 255⌋ := by
    rw [Nat.cast_ofNat]
    exact exact.toNat_channel_of_mem (inside v h).1 (inside v h).2
  exact ⟨byte _ (by simp [Light.channels]), byte _ (by simp [Light.channels]), byte _ (by simp [Light.channels])⟩

/-- What the color of a hue, a saturation and a lightness is. -/
structure Light.ConvertsExactly [Elementary α] (number : K → α) (π hue saturation lightness : K) : Prop where
  /-- Red, green and blue are those of the standard color. -/
  light : ofHsl (number hue) (number saturation) (number lightness) = (standard π hue saturation lightness).map number
  /-- It is from these that the bytes are made. -/
  color : (ofHsl (number hue) (number saturation) (number lightness)).toRgb =
    ⟨channel (number (standard π hue saturation lightness).red), channel (number (standard π hue saturation lightness).green),
      channel (number (standard π hue saturation lightness).blue)⟩
  /-- The channels lie between zero and one, so that no byte is cut off at a bound. -/
  inside : ∀ v ∈ (standard π hue saturation lightness).channels, 0 ≤ v ∧ v ≤ 1
  bytes : (ofHsl (number hue) (number saturation) (number lightness)).toRgb.Shows (standard π hue saturation lightness)
  /-- They lie around the lightness and are as far apart as the chroma. -/
  sum : greatest (standard π hue saturation lightness) + least (standard π hue saturation lightness) = Nat.cast 2 * lightness
  difference : greatest (standard π hue saturation lightness) - least (standard π hue saturation lightness) =
    chromaOf saturation lightness
  /-- A full turn changes nothing, neither in the channels nor in the bytes. -/
  turned : ofHsl (number (hue + Nat.cast 2 * π)) (number saturation) (number lightness) =
    ofHsl (number hue) (number saturation) (number lightness)
  turnedColor : (ofHsl (number (hue + Nat.cast 2 * π)) (number saturation) (number lightness)).toRgb =
    (ofHsl (number hue) (number saturation) (number lightness)).toRgb

/-- The conversion does all that is asked of it where nothing is rounded. -/
theorem Exact.convertsExactly [Elementary α] (exact : Exact number) {π : K} (positive : 0 < π)
    (halfTurn : (Elementary.pi : α) = number π) (hue : K) {saturation lightness : K} (pale : 0 ≤ saturation)
    (saturated : saturation ≤ 1) (dark : 0 ≤ lightness) (bright : lightness ≤ 1) :
    Light.ConvertsExactly number π hue saturation lightness := by
  have light (hue : K) := exact.ofHsl_eq positive halfTurn hue saturation lightness
  have inside (v : K) := Light.mem_channels_standard (π := π) hue pale saturated dark bright (v := v)
  have most := Light.greatest_standard positive hue pale dark bright
  have fewest := Light.least_standard positive hue pale dark bright
  have turned : Light.ofHsl (number (hue + Nat.cast 2 * π)) (number saturation) (number lightness) =
      Light.ofHsl (number hue) (number saturation) (number lightness) := by
    rw [light, light, Nat.cast_ofNat, Light.standard_add_turn positive]
  refine ⟨light hue, ?_, inside, ?_, ?_, ?_, turned, ?_⟩
  · rw [light]
    rfl
  · rw [light]
    exact exact.shows_toRgb inside
  · rw [most, fewest, Nat.cast_ofNat]
    ring
  · rw [most, fewest]
    ring
  · rw [turned]

/-- As long as nothing is rounded, the color of a hue, a saturation and a lightness is the standard one, whatever number is taken for
half a turn, and its bytes are those of the standard color. A side of the hexagon tells how the chroma is shared out everywhere on it,
both ends included, so that two sides have the same channels at their common corner. -/
theorem Light.ofHsl_standard [Elementary α] (exact : Exact number) {π : K} (positive : 0 < π)
    (halfTurn : (Elementary.pi : α) = number π) (hue : K) {saturation lightness : K} (pale : 0 ≤ saturation)
    (saturated : saturation ≤ 1) (dark : 0 ≤ lightness) (bright : lightness ≤ 1) :
    ConvertsExactly number π hue saturation lightness ∧
      (∀ n : Nat, n < 6 → ∀ place chroma : K, n ≤ place → place ≤ n + 1 →
        share (number place) (number chroma) = side n (number chroma) (between (number place) (number chroma))) ∧
      ∀ n : Nat, n < 6 → ∀ chroma : K, side n (number chroma) (between (number (n + 1)) (number chroma)) =
        side ((n + 1) % 6) (number chroma) (between (number (n + 1)) (number chroma)) := by
  refine ⟨exact.convertsExactly positive halfTurn hue pale saturated dark bright, ?_, ?_⟩
  · intro n below place chroma low high
    exact exact.share_on_side below low high chroma
  · intro n below chroma
    exact exact.sides_meet below chroma

end Exactly

/-- Half a turn is cyan, where the sides of green and blue meet, and so is one turn more. -/
theorem Light.half_turn_cyan :
    0 < Real.pi ∧ (Elementary.pi : ℝ) = Real.pi ∧ (0 : ℝ) ≤ 1 ∧ (1 : ℝ) ≤ 1 ∧ (0 : ℝ) ≤ 1 / 2 ∧ (1 / 2 : ℝ) ≤ 1 ∧
      ofHsl Real.pi 1 (1 / 2) = ⟨0, 1, 1⟩ ∧ (ofHsl Real.pi 1 (1 / 2)).toRgb = ⟨0, 255, 255⟩ ∧
      (ofHsl (Real.pi + (2 : Nat) * Real.pi) 1 (1 / 2)).toRgb = ⟨0, 255, 255⟩ ∧
      share (3 : ℝ) 1 = side 2 1 (between 3 1) ∧ share (3 : ℝ) 1 = side 3 1 (between 3 1) := by
  have halfTurn : (Elementary.pi : ℝ) = Real.pi := rfl
  obtain ⟨converts, sides, -⟩ := ofHsl_standard exact_real Real.pi_pos halfTurn Real.pi zero_le_one le_rfl
    (by norm_num : (0 : ℝ) ≤ 1 / 2) (by norm_num)
  have place : placeOf Real.pi Real.pi = 3 := by
    have half : Real.pi / (2 * Real.pi) = 1 / 2 := by
      field_simp
    rw [placeOf_eq Real.pi_pos, half, Int.fract_eq_self.2 (by norm_num)]
    norm_num
  have cyan : standard Real.pi Real.pi 1 (1 / 2) = ⟨0, 1, 1⟩ := by
    rw [standard_eq, place, shares_eq_side (by decide : 3 < 6) (by norm_num) (by norm_num),
      wave_falling 1 (by norm_num) (by norm_num)]
    norm_num [side, map, chromaOf_eq]
  have eq := converts.light
  have bytes := converts.bytes
  rw [cyan] at eq bytes
  have shows_cyan : Rgb.Shows ⟨0, 255, 255⟩ (⟨0, 1, 1⟩ : Light ℝ) := ⟨by simp, by simp, by simp⟩
  have color := bytes.unique shows_cyan
  refine ⟨Real.pi_pos, halfTurn, zero_le_one, le_rfl, by norm_num, by norm_num, eq, color, ?_, ?_, ?_⟩
  · exact converts.turnedColor.trans color
  · exact sides 2 (by decide) 3 1 (by norm_num) (by norm_num)
  · exact sides 3 (by decide) 3 1 (by norm_num) (by norm_num)

end DomainColoring
