import DomainColoring.Proofs.Color.Hexagon

/-!
# Colors brighten with the modulus

Of two values with the same argument the one that is further away from zero is at least as bright in every byte, also if the bound on
lightness grows with it (`Shading.color_mono`). Nothing is rounded here. The chroma falls in the upper half of the lightness, but no
faster than the lightness grows, so no channel falls with it.
-/

namespace DomainColoring

/-! ## A channel grows with the lightness -/

section Lightness

variable {K : Type} [FloorField K] {lightness lightness' t : K}

/-- Between two values of lightness the chroma differs by at most twice as much. -/
theorem Light.abs_chromaOf_sub_le (le : lightness ≤ lightness') :
    |chromaOf 1 lightness' - chromaOf 1 lightness| ≤ 2 * (lightness' - lightness) := by
  have differ : chromaOf 1 lightness' - chromaOf 1 lightness = |2 * lightness - 1| - |2 * lightness' - 1| := by
    simp only [chromaOf_eq]
    ring
  calc |chromaOf 1 lightness' - chromaOf 1 lightness| = |(|2 * lightness - 1| - |2 * lightness' - 1|)| := by rw [differ]
    _ ≤ |2 * lightness - 1 - (2 * lightness' - 1)| := abs_abs_sub_abs_le _ _
    _ = |2 * (lightness - lightness')| := by
      congr 1
      ring
    _ = 2 * (lightness' - lightness) := by
      rw [abs_of_nonpos (by linarith)]
      ring

/-- A channel has at most half of the chroma on either side of the lightness, so it does not fall where the lightness grows. -/
theorem Light.channel_mono (le : lightness ≤ lightness') (nonneg : 0 ≤ t) (le_one : t ≤ 1) :
    lightness + chromaOf 1 lightness * (t - 1 / 2) ≤ lightness' + chromaOf 1 lightness' * (t - 1 / 2) := by
  have half : |t - 1 / 2| ≤ 1 / 2 := abs_le.2 ⟨by linarith, by linarith⟩
  have change : |(chromaOf 1 lightness' - chromaOf 1 lightness) * (t - 1 / 2)| ≤ lightness' - lightness := by
    rw [abs_mul]
    calc |chromaOf 1 lightness' - chromaOf 1 lightness| * |t - 1 / 2| ≤ 2 * (lightness' - lightness) * (1 / 2) :=
        mul_le_mul (abs_chromaOf_sub_le le) half (abs_nonneg _) (by linarith)
      _ = lightness' - lightness := by ring
  linarith [neg_le_of_abs_le change]

end Lightness

/-! ## A byte grows with the modulus -/

section Exactly

variable {K α : Type} [FloorField K] [Add α] [Sub α] [Mul α] [Div α] [Neg α] [NatCast α] [Scalar α] [LT α] [DecidableLT α]
  {number : K → α}

namespace Exact

/-- A byte does not fall where its channel does not. -/
theorem channel_le (exact : Exact number) {v v' : K} (le : v ≤ v') : channel (number v) ≤ channel (number v') := by
  have floor : ⌊v * 255⌋ ≤ ⌊v' * 255⌋ := Int.floor_le_floor (by linarith)
  have byte := exact.toNat_channel v
  have byte' := exact.toNat_channel v'
  rw [UInt8.le_iff_toNat_le]
  omega

variable [Elementary α] {π : K}

omit [DecidableLT α] in
/-- The lightness of a modulus, from the power of two that belongs to it. -/
theorem lightness_eq (exact : Exact number) {s : Shading α} {bound power : K} {modulus : α}
    (bounded : s.lightnessMax = number bound) (raised : Elementary.exp2 (-modulus) = number power) :
    s.lightness modulus = number ((1 - power) * bound) := by
  rw [Shading.lightness, raised, bounded, exact.natCast, exact.sub, exact.mul, Nat.cast_one]

omit [DecidableLT α] in
/-- The hue of a value depends on its argument alone. -/
theorem exists_hue (exact : Exact number) (positive : 0 < π) (halfTurn : (Elementary.pi : α) = number π) (angle : K) :
    ∃ hue : K, Scalar.remainder (Elementary.pi + number angle) Light.turn = number hue := by
  rw [Light.turn, halfTurn, exact.natCast, exact.mul, exact.add, Nat.cast_ofNat]
  exact ⟨_, exact.remainder _ (by positivity)⟩

end Exact

/-- Of two finite values with the same argument, none of the bytes of the second one is smaller if its modulus and the bound on
lightness are not. Nothing is rounded, and of the powers of two it is asked that they do not grow where the exponent falls below zero,
and do not exceed one there. -/
theorem Shading.color_mono [Elementary α] (exact : Exact number) {π : K} (positive : 0 < π)
    (halfTurn : (Elementary.pi : α) = number π) {power : K → K}
    (raised : ∀ x, 0 ≤ x → Elementary.exp2 (-number x) = number (power x)) (antitone : AntitoneOn power (Set.Ici 0))
    (le_one : ∀ x, 0 ≤ x → power x ≤ 1) {s s' : Shading α} {bound bound' : K} (bounded : s.lightnessMax = number bound)
    (bounded' : s'.lightnessMax = number bound') (nonneg : 0 ≤ bound) (bounds : bound ≤ bound') {w w' : ComplexNumber α}
    (finite : w.isFinite = true) (finite' : w'.isFinite = true) {angle modulus modulus' : K} (argument : w.arg = number angle)
    (argument' : w'.arg = number angle) (distance : w.norm = number modulus) (distance' : w'.norm = number modulus')
    (modulus_nonneg : 0 ≤ modulus) (further : modulus ≤ modulus') :
    (s.color w).r ≤ (s'.color w').r ∧ (s.color w).g ≤ (s'.color w').g ∧ (s.color w).b ≤ (s'.color w').b := by
  have modulus_nonneg' : 0 ≤ modulus' := modulus_nonneg.trans further
  obtain ⟨hue, hue_eq⟩ := exact.exists_hue positive halfTurn angle
  have light : s.light w = (Light.standard π hue 1 ((1 - power modulus) * bound)).map number := by
    rw [Shading.light, argument, hue_eq, distance, exact.lightness_eq bounded (raised _ modulus_nonneg), exact.natCast,
      Nat.cast_one, exact.ofHsl_eq positive halfTurn]
  have light' : s'.light w' = (Light.standard π hue 1 ((1 - power modulus') * bound')).map number := by
    rw [Shading.light, argument', hue_eq, distance', exact.lightness_eq bounded' (raised _ modulus_nonneg'), exact.natCast,
      Nat.cast_one, exact.ofHsl_eq positive halfTurn]
  have brighter : (1 - power modulus) * bound ≤ (1 - power modulus') * bound' := by
    have fall : power modulus' ≤ power modulus := antitone modulus_nonneg modulus_nonneg' further
    have part : 0 ≤ 1 - power modulus' := sub_nonneg.2 (le_one _ modulus_nonneg')
    exact mul_le_mul (sub_le_sub_left fall 1) bounds nonneg part
  rw [Shading.color, Shading.color, if_pos finite, if_pos finite', light, light']
  have byte (x : K) := exact.channel_le (Light.channel_mono brighter (Light.unit_nonneg x) (Light.unit_le_one x))
  exact ⟨byte _, byte _, byte _⟩

end Exactly

/-- The value two under the full bound is at least as bright as the value one under half of it. -/
theorem Shading.two_brighter_than_one :
    let power : ℝ → ℝ := fun x => 2 ^ (-x)
    let half : Shading ℝ := ⟨1 / 2⟩
    let full : Shading ℝ := ⟨1⟩
    let one : ComplexNumber ℝ := ⟨1, 0⟩
    let two : ComplexNumber ℝ := ⟨2, 0⟩
    (∀ x : ℝ, 0 ≤ x → Elementary.exp2 (-id x) = id (power x)) ∧ AntitoneOn power (Set.Ici 0) ∧ (∀ x, 0 ≤ x → power x ≤ 1) ∧
      half.lightnessMax = 1 / 2 ∧ full.lightnessMax = 1 ∧ one.isFinite = true ∧ two.isFinite = true ∧ one.arg = 0 ∧
      two.arg = 0 ∧ one.norm = 1 ∧ two.norm = 2 ∧ (half.color one).r ≤ (full.color two).r ∧
      (half.color one).g ≤ (full.color two).g ∧ (half.color one).b ≤ (full.color two).b := by
  intro power half full one two
  have raised : ∀ x : ℝ, 0 ≤ x → Elementary.exp2 (-id x) = id (power x) := fun _ _ => rfl
  have antitone : AntitoneOn power (Set.Ici 0) := by
    intro x _ y _ le
    exact Real.rpow_le_rpow_of_exponent_le one_le_two (neg_le_neg le)
  have le_one : ∀ x, 0 ≤ x → power x ≤ 1 := by
    intro x nonneg
    exact Real.rpow_le_one_of_one_le_of_nonpos one_le_two (neg_nonpos.2 nonneg)
  have argument {x : ℝ} (nonneg : 0 ≤ x) : (⟨x, 0⟩ : ComplexNumber ℝ).arg = 0 := Complex.arg_ofReal_of_nonneg nonneg
  have distance {x : ℝ} (nonneg : 0 ≤ x) : (⟨x, 0⟩ : ComplexNumber ℝ).norm = x := by
    have square : (⟨x, 0⟩ : ComplexNumber ℝ).normSq = x * x := by
      simp [ComplexNumber.normSq]
    rw [ComplexNumber.norm, square]
    exact Real.sqrt_mul_self nonneg
  have bounded : half.lightnessMax = id (1 / 2 : ℝ) := rfl
  have bounded' : full.lightnessMax = id (1 : ℝ) := rfl
  have finite : one.isFinite = true := rfl
  have finite' : two.isFinite = true := rfl
  have order := color_mono exact_real Real.pi_pos rfl raised antitone le_one bounded bounded' (by norm_num) (by norm_num)
    finite finite' (argument zero_le_one) (argument zero_le_two) (distance zero_le_one) (distance zero_le_two) zero_le_one
    one_le_two
  exact ⟨raised, antitone, le_one, bounded, bounded', finite, finite', argument zero_le_one, argument zero_le_two,
    distance zero_le_one, distance zero_le_two, order⟩

end DomainColoring
