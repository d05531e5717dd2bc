import Applicability.Run.Result
import Mathlib

namespace Applicability.RunResult

open Float.Model Format
open UnpackedFloat hiding pack unpack round normalize

theorem mantissa_shiftRight (em : ExtendedMantissa) (k : Nat) : (em >>> k).mantissa = em.mantissa / 2 ^ k := by
  induction k with
  | zero => exact (Nat.div_one _).symm
  | succ k ih =>
    change (em >>> k).mantissa / 2 = _
    rw [ih, Nat.div_div_eq_div_mul, Nat.pow_succ]

theorem mantissa_ofMantissaAndAccuracy (m : Nat) (acc : Accuracy) :
    (ExtendedMantissa.ofMantissaAndAccuracy m acc).mantissa = m := by
  cases acc with
  | exact => rfl
  | inexact o => cases o <;> rfl

theorem le_roundToNearestEven (m : Nat) (acc : Accuracy) : m ≤ acc.roundToNearestEven m := by
  cases acc with
  | exact => exact Nat.le_refl m
  | inexact o => cases o <;> simp [Accuracy.roundToNearestEven]

theorem shifted_bounds {m : Nat} (hm : 0 < m) :
    0 < m / 2 ^ (m.log2 - 52) ∧ m / 2 ^ (m.log2 - 52) < 2 ^ 53 := by
  have hle : 2 ^ m.log2 ≤ m := Nat.log2_self_le (Nat.ne_of_gt hm)
  have hlt : m < 2 ^ (m.log2 + 1) := Nat.lt_log2_self
  constructor
  · apply Nat.div_pos _ (Nat.two_pow_pos _)
    exact Nat.le_trans (Nat.pow_le_pow_right Nat.two_pos (Nat.sub_le _ _)) hle
  · rw [Nat.div_lt_iff_lt_mul (Nat.two_pow_pos _), ← Nat.pow_add]
    exact Nat.lt_of_lt_of_le hlt (Nat.pow_le_pow_right Nat.two_pos (by omega))

theorem shiftToTargetExponent_bounds {m : Nat} {e : Int} (hm : 0 < m) (he : -1074 ≤ e) (acc : Accuracy) :
    let shifted := shiftToTargetExponent binary64 m e acc
    0 < shifted.1.mantissa ∧ shifted.1.mantissa < 2 ^ 53 ∧ -1074 ≤ shifted.2 := by
  have htarget : binary64.targetExponent (totalExponent m e) = max (m.log2 + 1 + e - 53) (-1074) := rfl
  -- The exponent is high enough already, so only the bits beyond 53 go.
  have hshift : (binary64.targetExponent (totalExponent m e) - e).toNat = m.log2 - 52 := by omega
  simp only [shiftToTargetExponent, shiftToExponent, mantissa_shiftRight, mantissa_ofMantissaAndAccuracy, hshift]
  obtain ⟨hpos, hlt⟩ := shifted_bounds hm
  exact ⟨hpos, hlt, by omega⟩

theorem exists_roundWithAccuracy {m : Nat} {e : Int} (hm : 0 < m) (he : -1074 ≤ e) (s : Sign) (acc : Accuracy) :
    ∃ m' e' h, roundWithAccuracy binary64 s m e acc = .finite s m' e' h ∧ m' < 2 ^ 53 ∧ -1074 ≤ e' := by
  obtain ⟨hpos, -, hexp⟩ := shiftToTargetExponent_bounds hm he acc
  have hrounded := Nat.lt_of_lt_of_le hpos (le_roundToNearestEven _
    (shiftToTargetExponent binary64 m e acc).1.accuracy)
  -- Rounding up may have given one more bit, which a second shift takes away.
  obtain ⟨hpos', hlt, hexp'⟩ := shiftToTargetExponent_bounds hrounded hexp .exact
  refine ⟨_, _, hpos', ?_, hlt, hexp'⟩
  exact dif_neg (Nat.ne_of_gt hpos')

theorem exists_round {m : Nat} {e : Int} (hm : 0 < m) (s : Sign) (he : -1074 ≤ e) :
    ∃ m' e' h, UnpackedFloat.round binary64 s m e = .finite s m' e' h ∧ m' < 2 ^ 53 ∧ -1074 ≤ e' := by
  unfold UnpackedFloat.round decreaseExponent
  apply exists_roundWithAccuracy
  · rw [Nat.shiftLeft_eq]
    exact Nat.mul_pos hm (Nat.two_pow_pos _)
  · have htarget : -1074 ≤ binary64.targetExponent (totalExponent m e) := Int.le_max_right _ _
    omega

/-- The divisors of which zero is a multiple. -/
def Divides : UnpackedFloat → Prop
  | .finite .. | .infinity _ => True
  | .zero _ | .notANumber => False

theorem divides_unpack {s : Sign} {x : BitVec 11} {y : BitVec 52} (htop : x = -1#_ → y = 0#_)
    (hbottom : x = 0#_ → y ≠ 0#_) : Divides (UnpackedFloat.unpack binary64 (packComponents binary64 s x y)) := by
  unfold UnpackedFloat.unpack
  simp only [unpackExponent_packComponents, unpackMantissa_packComponents]
  by_cases hx : x = -1#_
  · rw [if_pos hx, if_pos (htop hx)]
    trivial
  rw [if_neg hx]
  by_cases hx' : x = 0#_
  · rw [if_pos hx', dif_neg (hbottom hx')]
    trivial
  · rw [if_neg hx']
    trivial

theorem mod_eq_of_ofNat_eq {w n : Nat} {y : BitVec w} (h : BitVec.ofNat w n = y) : n % 2 ^ w = y.toNat := by
  rw [← h, BitVec.toNat_ofNat]

theorem divides_unpack_pack {m : Nat} {e : Int} (hm : 0 < m) (hlt : m < 2 ^ 53) (he : -1074 ≤ e) (s : Sign) :
    Divides (UnpackedFloat.unpack binary64 (UnpackedFloat.pack binary64 (.finite s m e hm))) := by
  have hbias : binary64.exponentBias = 1023 := by decide
  rw [UnpackedFloat.pack, hbias]
  dsimp only
  split
  · exact divides_unpack (fun _ => rfl) (by decide)
  rename_i hfits
  split
  · apply divides_unpack
    · intro hx
      have hmod : _ % 2048 = 2047 := mod_eq_of_ofNat_eq hx
      omega
    · intro hx
      have hmod : _ % 2048 = 0 := mod_eq_of_ofNat_eq hx
      omega
  rename_i hsmall
  have hlog : m.log2 < 53 := (Nat.log2_lt (Nat.ne_of_gt hm)).mpr hlt
  change ¬m.log2 + 1 = 53 at hsmall
  have hm' : m < 2 ^ 52 := (Nat.log2_lt (Nat.ne_of_gt hm)).mp (by omega)
  apply divides_unpack (fun h => absurd h (by decide))
  intro _ hy
  have hmod : m % 2 ^ 52 = 0 := mod_eq_of_ofNat_eq hy
  rw [Nat.mod_eq_of_lt hm'] at hmod
  exact Nat.ne_of_gt hm hmod

theorem divides_ofCount {n : Nat} (hn : 0 < n) : Divides (ofCount n).toModel.unpack := by
  have hpos : 0 < (UInt64.ofNatClamp n).toNat := by
    by_cases h : n < UInt64.size
    · rwa [UInt64.toNat_ofNatClamp_of_lt h]
    · rw [UInt64.toNat_ofNatClamp_of_le (Nat.le_of_not_lt h)]
      decide
  obtain ⟨m, e, hm, hround, hlt, he⟩ := exists_round (e := 0) hpos .positive (by decide)
  have hcount : UnpackedFloat.ofUInt64 binary64 (UInt64.ofNatClamp n) = .finite .positive m e hm := by
    rw [← hround, UnpackedFloat.ofUInt64, UnpackedFloat.ofNat, UnpackedFloat.ofInt, UnpackedFloat.normalize]
    rw [show compare ((UInt64.ofNatClamp n).toNat : Int) 0 = .gt from Int.compare_eq_gt.mpr (by omega)]
    rfl
  change Divides (UnpackedFloat.unpack binary64 (UnpackedFloat.pack binary64 (UnpackedFloat.ofUInt64 binary64 _)))
  rw [hcount]
  exact divides_unpack_pack hm hlt he .positive

theorem zero_div (s : Sign) {x : UnpackedFloat} (h : Divides x) :
    ∃ s', UnpackedFloat.div binary64 (.zero s) x = .zero s' := by
  cases x with
  | finite s' m e hm => exact ⟨s / s', rfl⟩
  | infinity s' => exact ⟨s / s', rfl⟩
  | zero s' => exact h.elim
  | notANumber => exact h.elim

theorem unpack_zero : (ofCount 0 * 100).toModel.unpack = .zero .positive := by
  have hbits : (ofCount 0 * 100).toModel.toBits = 0 := by decide +kernel
  rw [unpack, hbits]
  rfl

theorem hundred_sub_zero (s : Sign) :
    (100 : Float) - .ofModel (.pack (.zero s)) = 100 := by
  cases s <;> decide +kernel

theorem successRateOf_eq {outcomes : List Outcome} (h : ∀ o ∈ outcomes, o.status ≠ .error) :
    successRateOf outcomes = 100 := by
  have hcount : outcomes.countP (fun o => o.status = .error) = 0 := by
    rw [List.countP_eq_zero]
    intro o ho
    simpa using h o ho
  rw [successRateOf, hcount]
  split
  · rfl
  rename_i hne
  have hlength : 0 < outcomes.length := by
    rw [List.length_pos_iff]
    simpa using hne
  obtain ⟨s, hs⟩ := zero_div .positive (divides_ofCount hlength)
  have hrate : ofCount 0 * 100 / ofCount outcomes.length = .ofModel (.pack (.zero s)) := by
    rw [← hs, ← unpack_zero]
    rfl
  dsimp only
  rw [hrate, hundred_sub_zero]
  decide +kernel

end Applicability.RunResult
