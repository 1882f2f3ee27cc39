import Mathlib
import Stencil.Decimal.Binary64

/-! The parts of a double are what the logic computes with.

The logic takes a double apart into a sign, a significand and an exponent before it computes with it, and packs the
result again. What it takes out of a bit pattern are the parts that are read off the pattern here, and canonical
parts are packed into a pattern that they are read back from.
-/

set_option autoImplicit false

namespace Stencil.Decimal

open Float.Model (UnpackedFloat Format)
open Float.Model.UnpackedFloat (Sign packComponents packedInfinity packedZero unpackExponent unpackMantissa unpackSign)

def signOf (negative : Bool) : Sign := if negative then .negative else .positive

/-- The parts of a double in the form in which the logic computes with it. -/
def Parts.unpacked (p : Parts) : UnpackedFloat :=
  if h : p.significand = 0 then .zero (signOf p.negative)
  else .finite (signOf p.negative) p.significand p.exponent (Nat.pos_of_ne_zero h)

theorem Parts.unpacked_of_zero {p : Parts} (zero : p.significand = 0) : p.unpacked = .zero (signOf p.negative) := by
  rw [unpacked, dif_pos zero]

theorem Parts.unpacked_of_ne {p : Parts} (some_ : p.significand ≠ 0) :
    p.unpacked = .finite (signOf p.negative) p.significand p.exponent (Nat.pos_of_ne_zero some_) := by
  rw [unpacked, dif_neg some_]

/-- Every finite double has parts in which the significand is as long as the exponent allows. -/
structure Parts.Canonical (p : Parts) : Prop where
  significand_lt : p.significand < 2 ^ 53
  lowest_le : lowest ≤ p.exponent
  exponent_le : p.exponent ≤ 971
  leading : 2 ^ 52 ≤ p.significand ∨ p.exponent = lowest

def Parts.ofFields (sign field fraction : Nat) : Parts where
  negative := sign == 1
  significand := if field = 0 then fraction else 2 ^ 52 + fraction
  exponent := if field = 0 then lowest else (field : Int) - 1075

theorem Parts.canonical_ofFields {sign field fraction : Nat} (finite : field < 2047) (short : fraction < 2 ^ 52) :
    (ofFields sign field fraction).Canonical := by
  by_cases zero : field = 0
  · refine ⟨?_, ?_, ?_, .inr ?_⟩ <;> simp only [ofFields, zero, if_true, lowest] <;> omega
  · refine ⟨?_, ?_, ?_, .inl ?_⟩ <;> simp only [ofFields, zero, if_false, lowest] <;> omega

/-! ### Unpacking -/

section

variable (b : BitVec Format.binary64.numBits)

theorem toNat_unpackExponent : (unpackExponent b).toNat = b.toNat / 2 ^ 52 % 2 ^ 11 := by
  simp [unpackExponent, BitVec.extractLsb_toNat, Nat.shiftRight_eq_div_pow]

theorem toNat_unpackMantissa : (unpackMantissa b).toNat = b.toNat % 2 ^ 52 := by
  simp [unpackMantissa, BitVec.extractLsb_toNat]

theorem toNat_unpackSign : (unpackSign b).toNat = b.toNat / 2 ^ 63 % 2 := by
  simp [unpackSign, BitVec.extractLsb_toNat, Nat.shiftRight_eq_div_pow]

theorem ofBits_eq_ofFields : Parts.ofBits b.toNat =
    Parts.ofFields (unpackSign b).toNat (unpackExponent b).toNat (unpackMantissa b).toNat := by
  rw [toNat_unpackSign, toNat_unpackExponent, toNat_unpackMantissa]
  rfl

theorem ofBitVec_eq_signOf (v : BitVec 1) : Sign.ofBitVec v = signOf (v.toNat == 1) := by
  rcases BitVec.eq_zero_or_eq_one v with rfl | rfl <;> rfl

theorem toNat_append_eq {v w : Nat} (high : BitVec v) (low : BitVec w) :
    (high ++ low).toNat = high.toNat * 2 ^ w + low.toNat := by
  rw [BitVec.toNat_append, ← Nat.shiftLeft_add_eq_or_of_lt low.isLt, Nat.shiftLeft_eq]

theorem eq_allOnes_iff : unpackExponent b = -1#_ ↔ (unpackExponent b).toNat = 2047 := by
  rw [← BitVec.toNat_inj]
  simp [BitVec.neg_one_eq_allOnes]

theorem unpack_of_lt (finite : (unpackExponent b).toNat < 2047) :
    UnpackedFloat.unpack Format.binary64 b = (Parts.ofBits b.toNat).unpacked := by
  have regular : unpackExponent b ≠ -1#_ := fun h => by
    rw [eq_allOnes_iff] at h
    omega
  rw [ofBits_eq_ofFields]
  unfold UnpackedFloat.unpack
  simp only [regular, if_false, ofBitVec_eq_signOf]
  by_cases zero : unpackExponent b = 0#_
  · simp only [zero, if_true]
    by_cases empty : unpackMantissa b = 0#_
    · simp [empty, Parts.ofFields, Parts.unpacked]
    · have some_ : (unpackMantissa b).toNat ≠ 0 := fun h => empty (BitVec.eq_of_toNat_eq h)
      simp [empty, some_, Parts.ofFields, Parts.unpacked, Format.exponentBias, Parts.lowest]
  · have field : (unpackExponent b).toNat ≠ 0 := fun h => zero (BitVec.eq_of_toNat_eq h)
    have whole : (1#1 ++ unpackMantissa b).toNat = 2 ^ 52 + (unpackMantissa b).toNat := by
      rw [toNat_append_eq]
      simp
    simp only [zero, if_false]
    simp [field, Parts.ofFields, Parts.unpacked, Format.exponentBias]
    exact whole

theorem isFinite_unpack :
    (UnpackedFloat.unpack Format.binary64 b).isFinite = decide ((unpackExponent b).toNat < 2047) := by
  by_cases finite : (unpackExponent b).toNat < 2047
  · rw [unpack_of_lt b finite, Parts.unpacked]
    split <;> simp [UnpackedFloat.isFinite, finite]
  · have bound := (unpackExponent b).isLt
    have all : unpackExponent b = -1#_ := by
      rw [eq_allOnes_iff]
      simp only at bound
      omega
    unfold UnpackedFloat.unpack
    simp only [all, if_true]
    split <;> simp [UnpackedFloat.isFinite, BitVec.neg_one_eq_allOnes]

end

/-! ### Packing -/

theorem toNat_signOf (negative : Bool) : (signOf negative).toBitVec.toNat = negative.toNat := by
  cases negative <;> rfl

theorem toNat_packComponents (negative : Bool) (field : BitVec 11) (fraction : BitVec 52) :
    (packComponents Format.binary64 (signOf negative) field fraction).toNat =
      (negative.toNat * 2 ^ 11 + field.toNat) * 2 ^ 52 + fraction.toNat := by
  rw [packComponents, toNat_append_eq, toNat_append_eq, toNat_signOf]

theorem ofBits_packComponents (negative : Bool) (field : BitVec 11) (fraction : BitVec 52) :
    Parts.ofBits (packComponents Format.binary64 (signOf negative) field fraction).toNat =
      Parts.ofFields negative.toNat field.toNat fraction.toNat := by
  have bit := negative.toNat_lt
  have long := field.isLt
  have short := fraction.isLt
  have top : (packComponents Format.binary64 (signOf negative) field fraction).toNat / 2 ^ 63 % 2 = negative.toNat := by
    rw [toNat_packComponents]
    omega
  have middle : (packComponents Format.binary64 (signOf negative) field fraction).toNat / 2 ^ 52 % 2 ^ 11 =
      field.toNat := by
    rw [toNat_packComponents]
    omega
  have bottom : (packComponents Format.binary64 (signOf negative) field fraction).toNat % 2 ^ 52 = fraction.toNat := by
    rw [toNat_packComponents]
    omega
  rw [ofBits_eq_ofFields, toNat_unpackSign, toNat_unpackExponent, toNat_unpackMantissa, top, middle, bottom]

theorem pack_finite (s : Sign) (m : Nat) (e : Int) (pos : 0 < m) :
    UnpackedFloat.pack Format.binary64 (.finite s m e pos) =
      if 2047 ≤ e + 1075 then packedInfinity Format.binary64 s
      else packComponents Format.binary64 s (if m.log2 = 52 then .ofNat 11 (e + 1075).toNat else 0) (.ofNat 52 m) := by
  have biased : e + (1023 : Nat) + (52 : Nat) = e + 1075 := by omega
  have overflow : 2 ^ 11 ≤ (e + 1075).toNat + 1 ↔ 2047 ≤ e + 1075 := by omega
  have full : m.log2 + 1 = 53 ↔ m.log2 = 52 := by omega
  have unfolded : UnpackedFloat.pack Format.binary64 (.finite s m e pos) =
      if 2 ^ 11 ≤ (e + (1023 : Nat) + (52 : Nat)).toNat + 1 then packedInfinity Format.binary64 s
      else if m.log2 + 1 = 53 then
        packComponents Format.binary64 s (.ofNat 11 (e + (1023 : Nat) + (52 : Nat)).toNat) (.ofNat 52 m)
      else packComponents Format.binary64 s 0 (.ofNat 52 m) := rfl
  rw [unfolded, biased]
  simp only [overflow, full]
  split_ifs <;> rfl

theorem Parts.Canonical.exists_fields {p : Parts} (canonical : p.Canonical) :
    ∃ (field : BitVec 11) (fraction : BitVec 52),
      UnpackedFloat.pack Format.binary64 p.unpacked =
        packComponents Format.binary64 (signOf p.negative) field fraction ∧
      field.toNat < 2047 ∧ ofFields p.negative.toNat field.toNat fraction.toNat = p := by
  obtain ⟨negative, significand, exponent⟩ := p
  obtain ⟨short, low, high, leading⟩ := canonical
  simp only [lowest] at *
  have sign : (negative.toNat == 1) = negative := by cases negative <;> rfl
  by_cases zero : significand = 0
  · obtain rfl := leading.resolve_left (by omega)
    refine ⟨0, 0, ?_, by simp, by simp [ofFields, zero, sign, lowest]⟩
    simp [zero, unpacked, UnpackedFloat.pack, packedZero]
  have packed := pack_finite (signOf negative) significand exponent (Nat.pos_of_ne_zero zero)
  rw [if_neg (by omega)] at packed
  rw [unpacked, dif_neg zero, packed]
  by_cases normal : 2 ^ 52 ≤ significand
  · -- The leading bit is left out of the fraction, and a field of the exponent above zero tells that it is there.
    have field : (BitVec.ofNat 11 (exponent + 1075).toNat).toNat = (exponent + 1075).toNat := by
      rw [BitVec.toNat_ofNat]
      omega
    have fraction : (BitVec.ofNat 52 significand).toNat = significand - 2 ^ 52 := by
      rw [BitVec.toNat_ofNat]
      omega
    have whole : 2 ^ 52 + (significand - 2 ^ 52) = significand := by omega
    have back : ((exponent + 1075).toNat : Int) - 1075 = exponent := by omega
    rw [if_pos ((Nat.log2_eq_iff zero).mpr ⟨normal, short⟩)]
    refine ⟨_, _, rfl, by omega, ?_⟩
    rw [field, fraction, ofFields, if_neg (by omega), if_neg (by omega), sign, whole, back]
  · -- Without a leading bit the exponent is the lowest, and the fraction all of the significand.
    obtain rfl := leading.resolve_left normal
    have fraction : (BitVec.ofNat 52 significand).toNat = significand := by
      rw [BitVec.toNat_ofNat]
      omega
    rw [if_neg fun long => normal ((Nat.log2_eq_iff zero).mp long).1]
    refine ⟨_, _, rfl, by simp, ?_⟩
    simp [ofFields, fraction, sign, lowest]

/-! ### Doubles -/

def bitsOf (x : Float) : BitVec Format.binary64.numBits := x.toBits.toBitVec

theorem partsOf_eq (x : Float) : partsOf x = Parts.ofBits (bitsOf x).toNat := rfl

theorem isFinite_iff (x : Float) : x.isFinite = true ↔ (unpackExponent (bitsOf x)).toNat < 2047 := by
  change (UnpackedFloat.unpack Format.binary64 (bitsOf x)).isFinite = true ↔ _
  rw [isFinite_unpack, decide_eq_true_iff]

theorem unpack_toModel {x : Float} (finite : x.isFinite = true) : x.toModel.unpack = (partsOf x).unpacked :=
  unpack_of_lt _ ((isFinite_iff x).mp finite)

theorem canonical_partsOf {x : Float} (finite : x.isFinite = true) : (partsOf x).Canonical := by
  rw [partsOf_eq, ofBits_eq_ofFields]
  exact Parts.canonical_ofFields ((isFinite_iff x).mp finite) (unpackMantissa (bitsOf x)).isLt

def Parts.packed (p : Parts) : Float := .ofModel (.pack p.unpacked)

theorem Parts.Canonical.bitsOf_packed {p : Parts} (canonical : p.Canonical) :
    ∃ (field : BitVec 11) (fraction : BitVec 52),
      bitsOf p.packed = packComponents Format.binary64 (signOf p.negative) field fraction ∧
        field.toNat < 2047 ∧ ofFields p.negative.toNat field.toNat fraction.toNat = p :=
  canonical.exists_fields

theorem Parts.Canonical.isFinite_packed {p : Parts} (canonical : p.Canonical) : p.packed.isFinite = true := by
  obtain ⟨field, fraction, bits, finite, -⟩ := canonical.bitsOf_packed
  rw [isFinite_iff, bits, Float.Model.UnpackedFloat.unpackExponent_packComponents]
  exact finite

@[simp] theorem Parts.Canonical.partsOf_packed {p : Parts} (canonical : p.Canonical) : partsOf p.packed = p := by
  obtain ⟨field, fraction, bits, -, same⟩ := canonical.bitsOf_packed
  rw [partsOf_eq, bits, ofBits_packComponents, same]

/-! ### Signs -/

def Parts.turned (p : Parts) : Parts := { p with negative := !p.negative }

theorem Parts.Canonical.turned {p : Parts} (canonical : p.Canonical) : p.turned.Canonical :=
  ⟨canonical.significand_lt, canonical.lowest_le, canonical.exponent_le, canonical.leading⟩

theorem Parts.unpacked_turned (p : Parts) : p.turned.unpacked = p.unpacked.neg := by
  have sign : signOf (!p.negative) = -signOf p.negative := by cases p.negative <;> rfl
  by_cases zero : p.significand = 0
  · rw [unpacked_of_zero zero, unpacked_of_zero (p := p.turned) zero, Parts.turned, sign]
    rfl
  · rw [unpacked_of_ne zero, unpacked_of_ne (p := p.turned) zero]
    simp only [Parts.turned, sign]
    rfl

theorem neg_eq_packed {x : Float} (finite : x.isFinite = true) : -x = (partsOf x).turned.packed := by
  change Float.ofModel (.pack x.toModel.unpack.neg) = _
  rw [unpack_toModel finite, ← Parts.unpacked_turned]
  rfl

end Stencil.Decimal
