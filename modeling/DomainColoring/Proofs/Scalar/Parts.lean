import Mathlib
import DomainColoring.Binary64

/-!
# The parts of a double

A finite double is packed from a sign, a significand and an exponent, and gives them back if they have the form that those of a double
have (`Binary64.Canonical`, `Binary64.unpack_pack`). What is read off its bits are the same parts (`Binary64.ofFloat_of_finite`).
-/

namespace DomainColoring

open Float.Model Float.Model.UnpackedFloat

namespace Binary64

/-- Significand and exponent as a double has them: of 53 bits all are in use, or the exponent is the least. -/
structure Canonical (significand : Nat) (exponent : Int) : Prop where
  small : significand < 2 * leadingBit
  full : leadingBit ≤ significand ∨ exponent = -1074
  least : -1074 ≤ exponent
  greatest : exponent ≤ 971

/-- The fraction of a double is in its low bits. -/
theorem toNat_unpackMantissa (b : BitVec Format.binary64.numBits) : (unpackMantissa b).toNat = b.toNat % leadingBit := by
  simp [unpackMantissa, BitVec.extractLsb, BitVec.extractLsb', leadingBit]

theorem toNat_unpackExponent (b : BitVec Format.binary64.numBits) : (unpackExponent b).toNat = b.toNat / leadingBit % 2048 := by
  simp [unpackExponent, BitVec.extractLsb, BitVec.extractLsb', Nat.shiftRight_eq_div_pow, leadingBit]

theorem toNat_unpackSign (b : BitVec Format.binary64.numBits) : (unpackSign b).toNat = b.toNat / signBit := by
  have bits : b.toNat < 18446744073709551616 := b.isLt
  simp [unpackSign, BitVec.extractLsb, BitVec.extractLsb', Nat.shiftRight_eq_div_pow, signBit]
  omega

theorem toNat_implicit (f : BitVec Format.binary64.mantissaBitsWithoutImplicit) : (1#1 ++ f).toNat = leadingBit + f.toNat := by
  rw [BitVec.toNat_append, ← Nat.shiftLeft_add_eq_or_of_lt f.isLt]
  rfl

/-- The three kinds of finite doubles by their bits: zeros, those without a leading one, and those with it. -/
theorem unpack_cases (b : BitVec Format.binary64.numBits)
    (finite : (UnpackedFloat.unpack Format.binary64 b).isFinite = true) :
    ((unpackExponent b).toNat = 0 ∧ (unpackMantissa b).toNat = 0 ∧
      UnpackedFloat.unpack Format.binary64 b = .zero (.ofBitVec (unpackSign b))) ∨
    ((unpackExponent b).toNat = 0 ∧ ∃ pos, UnpackedFloat.unpack Format.binary64 b =
      .finite (.ofBitVec (unpackSign b)) (unpackMantissa b).toNat (-1074) pos) ∨
    (0 < (unpackExponent b).toNat ∧ (unpackExponent b).toNat < 2047 ∧ ∃ pos, UnpackedFloat.unpack Format.binary64 b =
      .finite (.ofBitVec (unpackSign b)) (leadingBit + (unpackMantissa b).toNat) ((unpackExponent b).toNat - 1075) pos) := by
  have small : (unpackExponent b).toNat < 2048 := (unpackExponent b).isLt
  unfold UnpackedFloat.unpack at finite ⊢
  dsimp only at finite ⊢
  split at finite
  · split at finite
    · cases finite
    · cases finite
  · rename_i bounded
    rw [if_neg bounded]
    have bounded : (unpackExponent b).toNat ≠ 2047 := fun top => bounded (BitVec.eq_of_toNat_eq top)
    split
    · rename_i least
      have least : (unpackExponent b).toNat = 0 := congrArg BitVec.toNat least
      split
      · rename_i zero
        exact .inl ⟨least, congrArg BitVec.toNat zero, rfl⟩
      · rename_i nonzero
        have nonzero : (unpackMantissa b).toNat ≠ 0 := fun zero => nonzero (BitVec.eq_of_toNat_eq zero)
        refine .inr (.inl ⟨least, by omega, ?_⟩)
        congr 1
        rw [least]
        rfl
    · rename_i nonzero
      have nonzero : (unpackExponent b).toNat ≠ 0 := fun zero => nonzero (BitVec.eq_of_toNat_eq zero)
      refine .inr (.inr ⟨by omega, by omega, Nat.add_pos_left (by decide) _, ?_⟩)
      congr 1
      exact toNat_implicit (unpackMantissa b)

/-- What is unpacked is in canonical form. -/
theorem canonical_of_unpack {b : BitVec Format.binary64.numBits} {sign : Sign} {m : Nat} {e : Int} {pos : 0 < m}
    (h : UnpackedFloat.unpack Format.binary64 b = .finite sign m e pos) : Canonical m e := by
  have fraction : (unpackMantissa b).toNat < leadingBit := (unpackMantissa b).isLt
  have finite : (UnpackedFloat.unpack Format.binary64 b).isFinite = true := by
    rw [h]
    rfl
  have leading : leadingBit = 4503599627370496 := rfl
  rcases unpack_cases b finite with ⟨-, -, zero⟩ | ⟨-, _, least⟩ | ⟨low, high, _, full⟩
  · rw [zero] at h
    cases h
  · rw [least] at h
    cases h
    exact ⟨by omega, .inr rfl, by omega, by omega⟩
  · rw [full] at h
    cases h
    exact ⟨by omega, .inl (Nat.le_add_right _ _), by omega, by omega⟩

/-- How a double with a leading one is packed. -/
theorem pack_full {sign : Sign} {m : Nat} {e : Int} {pos : 0 < m} (h : Canonical m e) (full : leadingBit ≤ m) :
    UnpackedFloat.pack Format.binary64 (.finite sign m e pos) =
      packComponents Format.binary64 sign (BitVec.ofNat 11 (e + 1075).toNat) (BitVec.ofNat 52 m) := by
  obtain ⟨small, -, least, greatest⟩ := h
  have leading : leadingBit = 4503599627370496 := rfl
  have log : m.log2 = 52 := (Nat.log2_eq_iff (by omega)).2 (by omega)
  have biased : (e + Format.binary64.exponentBias + (52 : Nat)).toNat = (e + 1075).toNat := by
    have bias : Format.binary64.exponentBias = 1023 := rfl
    omega
  rw [UnpackedFloat.pack]
  dsimp only
  rw [biased, if_neg (by omega), if_pos (by rw [log]; rfl)]

/-- How a double without a leading one is packed. -/
theorem pack_least {sign : Sign} {m : Nat} {e : Int} {pos : 0 < m} (h : Canonical m e) (few : m < leadingBit) :
    UnpackedFloat.pack Format.binary64 (.finite sign m e pos) = packComponents Format.binary64 sign 0#11 (BitVec.ofNat 52 m) := by
  obtain ⟨-, full, -, -⟩ := h
  have leading : leadingBit = 4503599627370496 := rfl
  obtain rfl : e = -1074 := full.resolve_left (by omega)
  have log : m.log2 < 52 := (Nat.log2_lt (by omega)).2 (by omega)
  have short : m.log2 + 1 ≠ Format.binary64.mantissaBits := by
    have bits : Format.binary64.mantissaBits = 53 := rfl
    omega
  rw [UnpackedFloat.pack]
  dsimp only
  rw [if_neg (by decide), if_neg short]

/-- A number in canonical form is packed without loss. -/
theorem unpack_pack {sign : Sign} {m : Nat} {e : Int} {pos : 0 < m} (h : Canonical m e) :
    UnpackedFloat.unpack Format.binary64 (UnpackedFloat.pack Format.binary64 (.finite sign m e pos)) = .finite sign m e pos := by
  have leading : leadingBit = 4503599627370496 := rfl
  obtain ⟨small, full, least, greatest⟩ := id h
  unfold UnpackedFloat.unpack
  dsimp only
  by_cases few : m < leadingBit
  · obtain rfl : e = -1074 := full.resolve_left (by omega)
    have fraction : (BitVec.ofNat 52 m).toNat = m := by
      rw [BitVec.toNat_ofNat]
      omega
    have nonzero : BitVec.ofNat 52 m ≠ 0#52 := by
      intro zero
      rw [zero] at fraction
      have zero : (0#52).toNat = 0 := rfl
      omega
    rw [pack_least h few]
    simp only [unpackMantissa_packComponents, unpackExponent_packComponents, unpackSign_packComponents, Sign.ofBitVec_toBitVec]
    rw [if_neg (by decide), if_pos trivial, dif_neg nonzero]
    congr 1
  · have fraction : (BitVec.ofNat 52 m).toNat = m - leadingBit := by
      rw [BitVec.toNat_ofNat]
      omega
    have biased : (BitVec.ofNat 11 (e + 1075).toNat).toNat = (e + 1075).toNat := by
      rw [BitVec.toNat_ofNat]
      omega
    have low : BitVec.ofNat 11 (e + 1075).toNat ≠ 0#11 := by
      intro zero
      rw [zero] at biased
      have zero : (0#11).toNat = 0 := rfl
      omega
    have high : BitVec.ofNat 11 (e + 1075).toNat ≠ -1#11 := by
      intro top
      rw [top] at biased
      have top : (-1#11).toNat = 2047 := rfl
      omega
    rw [pack_full h (by omega)]
    simp only [unpackMantissa_packComponents, unpackExponent_packComponents, unpackSign_packComponents, Sign.ofBitVec_toBitVec]
    rw [if_neg high, if_neg low]
    congr 1
    · rw [toNat_implicit, fraction]
      omega
    · have bias : Format.binary64.exponentBias = 1023 := rfl
      omega

/-- Whether a sign is a minus. -/
def isMinus : Sign → Bool
  | .negative => true
  | .positive => false

/-- The sign bit is set for a minus. -/
theorem isMinus_ofBitVec (b : BitVec 1) : isMinus (.ofBitVec b) = decide (b.toNat = 1) := by
  rcases BitVec.eq_zero_or_eq_one b with rfl | rfl
  · rfl
  · rfl

/-! ## Doubles taken apart -/

variable {x : Float}

/-- The opposite of a packed number has the other sign. -/
theorem float_neg_pack {m : Nat} {e : Int} {pos : 0 < m} (form : Canonical m e) :
    -(⟨Float.Model.pack (.finite .positive m e pos)⟩ : Float) = ⟨Float.Model.pack (.finite .negative m e pos)⟩ := by
  have unpacked : (Float.Model.pack (.finite .positive m e pos)).unpack = .finite .positive m e pos := unpack_pack form
  change (⟨Float.Model.pack (Float.Model.pack (.finite .positive m e pos)).unpack.neg⟩ : Float) = _
  rw [unpacked]
  rfl

/-- The exponent that is cut out of the bits is the one that is unpacked. -/
theorem biased_toBits (x : Float) :
    (x.toBits >>> 52 &&& 0x7ff).toNat = (@unpackExponent Format.binary64 x.toBits.toBitVec).toNat := by
  rw [toNat_unpackExponent, UInt64.toNat_and, UInt64.toNat_shiftRight]
  exact (Nat.and_two_pow_sub_one_eq_mod _ 11).trans (congrArg (· % 2048) (Nat.shiftRight_eq_div_pow _ 52))

/-- The fraction that is cut out of the bits is the one that is unpacked. -/
theorem fraction_toBits (x : Float) :
    (x.toBits &&& 0xfffffffffffff).toNat = (@unpackMantissa Format.binary64 x.toBits.toBitVec).toNat := by
  rw [toNat_unpackMantissa, UInt64.toNat_and]
  exact Nat.and_two_pow_sub_one_eq_mod _ 52

/-- The sign that is read off the bits is the one that is unpacked. -/
theorem sign_toBits (x : Float) :
    decide (0x8000000000000000 ≤ x.toBits) = isMinus (.ofBitVec (@unpackSign Format.binary64 x.toBits.toBitVec)) := by
  have bits : x.toBits.toNat < 18446744073709551616 := x.toBits.toBitVec.isLt
  rw [isMinus_ofBitVec, toNat_unpackSign, decide_eq_decide, UInt64.le_iff_toNat_le]
  change 9223372036854775808 ≤ x.toBits.toNat ↔ x.toBits.toNat / 9223372036854775808 = 1
  omega

/-- The parts of a finite double that is not zero are those of its unpacked form. -/
theorem ofFloat_of_finite {sign : Sign} {m : Nat} {e : Int} {pos : 0 < m} (h : x.toModel.unpack = .finite sign m e pos) :
    ofFloat x = .finite (isMinus sign) m e := by
  rw [ofFloat, biased_toBits, fraction_toBits, sign_toBits]
  have finite : (UnpackedFloat.unpack Format.binary64 x.toBits.toBitVec).isFinite = true := congrArg UnpackedFloat.isFinite h
  rcases unpack_cases _ finite with ⟨-, -, unpacked⟩ | ⟨biased, _, unpacked⟩ | ⟨low, high, _, unpacked⟩
  · cases unpacked.symm.trans h
  · cases unpacked.symm.trans h
    dsimp only
    rw [if_neg (by omega), if_pos biased]
  · cases unpacked.symm.trans h
    dsimp only
    rw [if_neg (by omega), if_neg (by omega)]

/-- A zero has its sign and no significand. -/
theorem ofFloat_of_zero {sign : Sign} (h : x.toModel.unpack = .zero sign) : ofFloat x = .finite (isMinus sign) 0 (-1074) := by
  rw [ofFloat, biased_toBits, fraction_toBits, sign_toBits]
  have finite : (UnpackedFloat.unpack Format.binary64 x.toBits.toBitVec).isFinite = true := congrArg UnpackedFloat.isFinite h
  rcases unpack_cases _ finite with ⟨biased, fraction, unpacked⟩ | ⟨_, _, unpacked⟩ | ⟨_, _, _, unpacked⟩
  · cases unpacked.symm.trans h
    dsimp only
    rw [if_neg (by omega), if_pos biased, fraction]
  · cases unpacked.symm.trans h
  · cases unpacked.symm.trans h

end Binary64
end DomainColoring
