import HomeControl.Decimal
import Mathlib
/-!
Whole numbers as floats. Below 2 ^ 53 each of them is a float: it is read as what it is, and stays so
when it is multiplied by one and added to zero.
-/

namespace HomeControl.Decimal

open Float.Model Float.Model.UnpackedFloat

theorem shiftRight_whole (m k : Nat) :
    (⟨m * 2 ^ k, false, false⟩ : ExtendedMantissa) >>> k = ⟨m, false, false⟩ := by
  change k.repeat ExtendedMantissa.shiftRightOne ⟨m * 2 ^ k, false, false⟩ = _
  induction k generalizing m with
  | zero => simp [Nat.repeat]
  | succ k ih =>
    have half : m * 2 ^ (k + 1) = (m * 2) * 2 ^ k := by ring
    rw [Nat.repeat, half, ih, ExtendedMantissa.shiftRightOne]
    simp

theorem append_implicit (mantissa : BitVec 52) :
    (1#1 ++ mantissa).toNat = 2 ^ 52 + mantissa.toNat := by
  rw [BitVec.toNat_append, ← Nat.shiftLeft_add_eq_or_of_lt mantissa.isLt, Nat.shiftLeft_eq]
  rfl

structure Normal (m : Nat) (e : Int) : Prop where
  low : 2 ^ 52 ≤ m
  high : m < 2 ^ 53
  least : -1074 ≤ e
  most : e ≤ 971

namespace Normal

variable {m : Nat} {e : Int} (h : Normal m e)

include h

theorem pos : 0 < m :=
  Nat.lt_of_lt_of_le (by decide) h.low

def float : Float :=
  ⟨Float.Model.pack (.finite .positive m e h.pos)⟩

theorem log2_shifted (k : Nat) : (m * 2 ^ k).log2 = 52 + k := by
  have some : m * 2 ^ k ≠ 0 := Nat.mul_ne_zero h.pos.ne' (Nat.two_pow_pos k).ne'
  refine (Nat.log2_eq_iff some).mpr ⟨?_, ?_⟩
  · rw [Nat.pow_add]
    exact Nat.mul_le_mul_right _ h.low
  · rw [show 52 + k + 1 = 53 + k by omega, Nat.pow_add]
    exact Nat.mul_lt_mul_of_pos_right h.high (Nat.two_pow_pos k)

theorem targetExponent_shifted (k : Nat) :
    Format.binary64.targetExponent (totalExponent (m * 2 ^ k) (e - k)) = e := by
  have bits : (Format.binary64.mantissaBits : Int) = 53 := rfl
  have least : Format.binary64.minExponent = -1074 := by decide
  have normal := h.least
  rw [Format.targetExponent, totalExponent, h.log2_shifted, bits, least]
  omega

theorem roundWithAccuracy_shifted (s : Sign) (k : Nat) :
    roundWithAccuracy Format.binary64 s (m * 2 ^ k) (e - k) .exact = .finite s m e h.pos := by
  have first : shiftToTargetExponent Format.binary64 (m * 2 ^ k) (e - k) .exact =
      (⟨m, false, false⟩, e) := by
    have amount : (e - (e - k)).toNat = k := by omega
    rw [shiftToTargetExponent, h.targetExponent_shifted, shiftToExponent, amount]
    exact Prod.ext (shiftRight_whole m k) (by simp)
  have again : shiftToTargetExponent Format.binary64 m e .exact = (⟨m, false, false⟩, e) := by
    have target := h.targetExponent_shifted 0
    simp only [Nat.pow_zero, Nat.mul_one, Nat.cast_zero, Int.sub_zero] at target
    rw [shiftToTargetExponent, target, shiftToExponent, Int.sub_self]
    exact Prod.ext rfl (by simp)
  have kept : ExtendedMantissa.roundedMantissa ⟨m, false, false⟩ = m := rfl
  simp only [roundWithAccuracy, first, kept, again, dif_neg h.pos.ne']

theorem pack_eq : UnpackedFloat.pack Format.binary64 (.finite .positive m e h.pos) =
    packComponents Format.binary64 .positive (BitVec.ofNat 11 (e + 1075).toNat)
      (BitVec.ofNat 52 m) := by
  have all : m.log2 = 52 := by simpa using h.log2_shifted 0
  have bias : e + (Format.binary64.exponentBias : Int) + (52 : Nat) = e + 1075 := by
    rw [show (Format.binary64.exponentBias : Int) = 1023 by decide]
    omega
  have finite : ¬ 2 ^ 11 ≤ (e + 1075).toNat + 1 := by
    have most := h.most
    omega
  simp only [UnpackedFloat.pack, all, bias]
  rw [if_neg finite, if_pos (by decide)]

theorem exponent_toNat : (BitVec.ofNat 11 (e + 1075).toNat).toNat = (e + 1075).toNat := by
  have most := h.most
  rw [BitVec.toNat_ofNat, Nat.mod_eq_of_lt (by omega)]

theorem mantissa_toNat : (BitVec.ofNat 52 m).toNat = m - 2 ^ 52 := by
  have low := h.low
  have high := h.high
  rw [BitVec.toNat_ofNat]
  omega

theorem toBits_float : h.float.toBits.toNat = (e + 1075).toNat * 2 ^ 52 + (m - 2 ^ 52) := by
  change (UnpackedFloat.pack Format.binary64 (.finite .positive m e h.pos)).toNat = _
  have sign : (Sign.toBitVec .positive).toNat = 0 := by decide
  have short : m - 2 ^ 52 < 2 ^ 52 := by
    have high := h.high
    omega
  rw [h.pack_eq, packComponents, BitVec.toNat_append, BitVec.toNat_append, sign, h.exponent_toNat,
    h.mantissa_toNat, Nat.zero_shiftLeft, Nat.zero_or, ← Nat.shiftLeft_add_eq_or_of_lt short,
    Nat.shiftLeft_eq]

theorem unpack_float : h.float.toModel.unpack = .finite .positive m e h.pos := by
  change UnpackedFloat.unpack Format.binary64
    (UnpackedFloat.pack Format.binary64 (.finite .positive m e h.pos)) = _
  have least := h.least
  have most := h.most
  have inside : BitVec.ofNat 11 (e + 1075).toNat ≠ -1#11 := by
    intro all
    have full := congrArg BitVec.toNat all
    rw [h.exponent_toNat, show (-1#11).toNat = 2047 by decide] at full
    omega
  have normal : BitVec.ofNat 11 (e + 1075).toNat ≠ 0#11 := by
    intro none
    have empty := congrArg BitVec.toNat none
    rw [h.exponent_toNat, show (0#11).toNat = 0 by decide] at empty
    omega
  have mantissa : (1#1 ++ BitVec.ofNat 52 m).toNat = m := by
    have low := h.low
    rw [append_implicit, h.mantissa_toNat]
    omega
  have exponent : (((BitVec.ofNat 11 (e + 1075).toNat).toNat : Int) -
      (Format.binary64.exponentBias + (52 : Nat))) = e := by
    rw [h.exponent_toNat, show (Format.binary64.exponentBias : Int) = 1023 by decide]
    omega
  rw [h.pack_eq]
  simp only [UnpackedFloat.unpack, unpackMantissa_packComponents, unpackExponent_packComponents,
    unpackSign_packComponents, if_neg inside, if_neg normal, mantissa, exponent]
  rfl

theorem ofFloat?_float : Decimal.Binary.ofFloat? h.float = some ⟨false, m, e⟩ := by
  have low := h.low
  have high := h.high
  have least := h.least
  have most := h.most
  have sign : ((e + 1075).toNat * 2 ^ 52 + (m - 2 ^ 52)) / bitRange 63 = 0 := by
    simp only [bitRange, Nat.pow_eq, Nat.reducePow]
    omega
  have biased : ((e + 1075).toNat * 2 ^ 52 + (m - 2 ^ 52)) / bitRange 52 % 2048 =
      (e + 1075).toNat := by
    simp only [bitRange, Nat.pow_eq, Nat.reducePow]
    omega
  have fraction : ((e + 1075).toNat * 2 ^ 52 + (m - 2 ^ 52)) % bitRange 52 = m - 2 ^ 52 := by
    simp only [bitRange, Nat.pow_eq, Nat.reducePow]
    omega
  have finite : ¬ (e + 1075).toNat = 2047 := by omega
  have normal : ¬ (e + 1075).toNat = 0 := by omega
  have whole : bitRange 52 + (m - 2 ^ 52) = m := by
    simp only [bitRange, Nat.pow_eq, Nat.reducePow]
    omega
  have exponent : Int.ofNat (e + 1075).toNat - 1075 = e := by
    simp only [Int.ofNat_eq_natCast]
    omega
  simp only [Decimal.Binary.ofFloat?, h.toBits_float, sign, biased, fraction, if_neg finite,
    if_neg normal, whole, exponent]
  rfl

end Normal

def IsWhole (x : Float) (n : Nat) : Prop :=
  ∃ k : Nat, ∃ h : Normal (n * 2 ^ k) (-k), x = h.float

namespace IsWhole

variable {x : Float} {n : Nat}

theorem mul_one (h : IsWhole x n) : x * 1 = x := by
  obtain ⟨k, normal, rfl⟩ := h
  have one : (1 : Float).toModel.unpack = .finite .positive (2 ^ 52) (-52) (by decide) := rfl
  change (⟨Float.Model.pack (UnpackedFloat.mul Format.binary64 normal.float.toModel.unpack
    (1 : Float).toModel.unpack)⟩ : Float) = _
  rw [normal.unpack_float, one]
  have same := normal.roundWithAccuracy_shifted .positive 52
  exact congrArg (fun f => (⟨Float.Model.pack f⟩ : Float)) same

theorem zero_add (h : IsWhole x n) : 0 + x = x := by
  obtain ⟨k, normal, rfl⟩ := h
  have zero : (0 : Float).toModel.unpack = .zero .positive := rfl
  change (⟨Float.Model.pack (UnpackedFloat.add Format.binary64 (0 : Float).toModel.unpack
    normal.float.toModel.unpack)⟩ : Float) = _
  rw [normal.unpack_float, zero]
  rfl

end IsWhole

section Whole

variable {n : Nat} (some : 0 < n) (small : n < 2 ^ 53)

include some small

theorem normal_whole : Normal (n * 2 ^ (52 - n.log2)) (-((52 - n.log2 : Nat) : Int)) := by
  have bits : n.log2 ≤ 52 := Nat.le_of_lt_succ ((Nat.log2_lt some.ne').mpr small)
  have low : 2 ^ n.log2 ≤ n := Nat.log2_self_le some.ne'
  have high : n < 2 ^ (n.log2 + 1) := Nat.lt_log2_self
  refine ⟨?_, ?_, by omega, by omega⟩
  · calc 2 ^ 52 = 2 ^ n.log2 * 2 ^ (52 - n.log2) := by rw [← Nat.pow_add, Nat.add_sub_cancel' bits]
      _ ≤ n * 2 ^ (52 - n.log2) := Nat.mul_le_mul_right _ low
  · calc n * 2 ^ (52 - n.log2) < 2 ^ (n.log2 + 1) * 2 ^ (52 - n.log2) :=
          Nat.mul_lt_mul_of_pos_right high (Nat.two_pow_pos _)
      _ = 2 ^ 53 := by rw [← Nat.pow_add]; congr 1; omega

theorem round_whole : UnpackedFloat.round Format.binary64 .positive n 0 =
    .finite .positive (n * 2 ^ (52 - n.log2)) (-((52 - n.log2 : Nat) : Int))
      (normal_whole some small).pos := by
  have bits : n.log2 ≤ 52 := Nat.le_of_lt_succ ((Nat.log2_lt some.ne').mpr small)
  have target : Format.binary64.targetExponent (totalExponent n 0) =
      -((52 - n.log2 : Nat) : Int) := by
    have wide : (Format.binary64.mantissaBits : Int) = 53 := rfl
    have least : Format.binary64.minExponent = -1074 := by decide
    rw [Format.targetExponent, totalExponent, wide, least]
    omega
  have moved : decreaseExponent n 0 (-((52 - n.log2 : Nat) : Int)) =
      (n * 2 ^ (52 - n.log2), -((52 - n.log2 : Nat) : Int)) := by
    have amount : (0 - -((52 - n.log2 : Nat) : Int)).toNat = 52 - n.log2 := by omega
    rw [decreaseExponent, amount, Nat.shiftLeft_eq, Int.zero_sub]
  have kept := (normal_whole some small).roundWithAccuracy_shifted .positive 0
  simp only [Nat.pow_zero, Nat.mul_one, Nat.cast_zero, Int.sub_zero] at kept
  simp only [UnpackedFloat.round, target, moved, kept]

theorem isWhole_toFloat : IsWhole n.toUInt64.toFloat n := by
  refine ⟨52 - n.log2, normal_whole some small, ?_⟩
  have same : n.toUInt64.toNat = n := by
    simp only [Nat.toUInt64, UInt64.toNat_ofNat']
    omega
  have positive : compare (n : Int) 0 = .gt := by
    rw [Int.compare_eq_gt]
    omega
  have rounded : UnpackedFloat.normalize Format.binary64 (n : Int) 0 .positive =
      UnpackedFloat.round Format.binary64 .positive n 0 := by
    simp only [UnpackedFloat.normalize, positive, Int.toNat_natCast]
  change (⟨Float.Model.pack
    (UnpackedFloat.normalize Format.binary64 (n.toUInt64.toNat : Int) 0 .positive)⟩ : Float) = _
  rw [same, rounded, round_whole some small]
  rfl

theorem isWhole_nearest : IsWhole (nearest n 0) n := by
  have short : ¬ ((Nat.toDigits 10 n).length + (0 : Int) > 400) := by
    have length : (Nat.toDigits 10 n).length ≤ 16 :=
      Nat.toDigits_length 10 n 16 (by decide) (small.trans (by decide))
    omega
  have large : ¬ ((Nat.toDigits 10 n).length + (0 : Int) < -400) := by omega
  have whole := isWhole_toFloat some small
  have read : Float.ofScientific n false 0 = n.toUInt64.toFloat := by
    rw [Float.ofScientific, dif_pos ⟨small, by decide⟩]
    exact whole.mul_one
  simp only [nearest, if_neg some.ne', if_neg short, if_neg large]
  rw [show Float.ofScientific n (decide ((0 : Int) < 0)) (0 : Int).natAbs = _ from read]
  exact whole

end Whole

end HomeControl.Decimal
