import ResultSearch.Index.Eviction
import Mathlib

/-!
# How many runs are evicted

The number of runs to evict is a product of floating-point numbers whose digits after the point are
cut off. The product is rounded to the nearest number there is; but as long as the number of runs has
no more than 53 bits it is such a number itself, and what is no greater than it stays so.

A number is taken apart into a mantissa and an exponent. All numbers here are multiplied, rounded,
packed and unpacked with exponents that are no greater than zero, so that a bound on them is one on
their mantissas (`Bounded`), and one more bit that is shifted out of a mantissa halves it (`Below`).

* `Below.roundedMantissa_le`: rounding does not exceed the bound, as only what is below is rounded up.
* `AtMost`: a number between `-n` and `n`.
* `atMost_mul`, `atMost_ofNat`, `atMost_unpack_pack`, `AtMost.toNat_toUInt64_le`: what is done with
  such numbers.
* `Index.evictionCount_le`, `Index.evictionCount_eq_one`: no more runs are counted than there are, and
  one if the fraction is no number or negative.
-/

namespace ResultSearch

open Float.Model Float.Model.UnpackedFloat

namespace Rounding

/-! ## Shifting and rounding -/

/-- A mantissa is at most the bound, and less if it has lost some bits. -/
structure Below (em : ExtendedMantissa) (bound : Nat) : Prop where
  mantissa_le : em.mantissa ≤ bound
  mantissa_lt : em.roundBit = true ∨ em.stickyBit = true → em.mantissa < bound

namespace Below

variable {em : ExtendedMantissa} {bound : Nat}

theorem of_exact {mantissa : Nat} (h : mantissa ≤ bound) :
    Below (.ofMantissaAndAccuracy mantissa .exact) bound where
  mantissa_le := h
  mantissa_lt := by simp [ExtendedMantissa.ofMantissaAndAccuracy]

theorem shiftRightOne (h : Below em (2 * bound)) : Below em.shiftRightOne bound where
  mantissa_le := by
    have hle := h.mantissa_le
    show em.mantissa / 2 ≤ bound
    omega
  mantissa_lt hbits := by
    have hle := h.mantissa_le
    show em.mantissa / 2 < bound
    rcases hbits with hround | hsticky
    · have hodd : em.mantissa % 2 ≠ 0 := by simpa [ExtendedMantissa.shiftRightOne] using hround
      omega
    · have hlt := h.mantissa_lt (by simpa [ExtendedMantissa.shiftRightOne] using hsticky)
      omega

theorem shiftRight {places : Nat} (h : Below em (bound * 2 ^ places)) :
    Below (em >>> places) bound := by
  induction places generalizing bound with
  | zero =>
    rw [Nat.pow_zero, Nat.mul_one] at h
    exact h
  | succ places ih =>
    have hdouble : Below em ((2 * bound) * 2 ^ places) := by
      rwa [Nat.pow_succ, Nat.mul_comm (2 ^ places), ← Nat.mul_assoc, Nat.mul_comm bound] at h
    exact (ih hdouble).shiftRightOne

/-- The bound is a whole number, so rounding up a mantissa that is less does not go beyond it. -/
theorem roundedMantissa_le (h : Below em bound) : em.roundedMantissa ≤ bound := by
  obtain ⟨mantissa, roundBit, stickyBit⟩ := em
  obtain ⟨hle, hlt⟩ := h
  cases roundBit <;> cases stickyBit <;>
    simp_all [ExtendedMantissa.roundedMantissa, ExtendedMantissa.accuracy,
      Accuracy.roundToNearestEven]
  -- What is rounded up lies above the half, or is odd and lies on it.
  all_goals omega

end Below

/-- The number `mantissa * 2 ^ exponent` is at most `n`; its exponent is not positive. -/
structure Bounded (n mantissa : Nat) (exponent : Int) : Prop where
  exponent_le : exponent ≤ 0
  mantissa_le : mantissa ≤ n * 2 ^ (-exponent).toNat

variable {n : Nat}

namespace Bounded

variable {mantissa places : Nat} {exponent target : Int}

theorem of_lt_two_pow (hn : 0 < n) (hmantissa : mantissa < 2 ^ places)
    (hexponent : exponent ≤ -places) : Bounded n mantissa exponent where
  exponent_le := by omega
  mantissa_le := by
    have hpow : 2 ^ places ≤ 2 ^ (-exponent).toNat := Nat.pow_le_pow_right (by decide) (by omega)
    exact Nat.le_trans (Nat.le_of_lt hmantissa)
      (Nat.le_trans hpow (Nat.le_mul_of_pos_left _ hn))

theorem shiftToExponent (h : Bounded n mantissa exponent) (htarget : target ≤ 0) :
    let (em, e) := UnpackedFloat.shiftToExponent mantissa exponent .exact target
    e ≤ 0 ∧ Below em (n * 2 ^ (-e).toNat) := by
  have hexponent := h.exponent_le
  refine ⟨by omega, Below.shiftRight ?_⟩
  have hplaces : (-exponent).toNat =
      (-(exponent + (target - exponent).toNat)).toNat + (target - exponent).toNat := by omega
  rw [Nat.mul_assoc, ← Nat.pow_add, ← hplaces]
  exact .of_exact h.mantissa_le

/-- No bits before the point are shifted out, as there are 53 at most. -/
theorem targetExponent_le (h : Bounded n mantissa exponent) (hn : n < 2 ^ 53) :
    Format.binary64.targetExponent (totalExponent mantissa exponent) ≤ 0 := by
  have hexponent := h.exponent_le
  have hlog : mantissa.log2 < 53 + (-exponent).toNat := by
    rcases Nat.eq_zero_or_pos mantissa with rfl | hpos
    · rw [Nat.log2_zero]
      omega
    · rw [Nat.log2_lt (Nat.ne_of_gt hpos), Nat.pow_add]
      exact Nat.lt_of_le_of_lt h.mantissa_le (Nat.mul_lt_mul_of_pos_right hn (Nat.two_pow_pos _))
  simp only [Format.targetExponent, totalExponent, Format.mantissaBits, Format.minExponent]
  omega

/-- What is cut off after the point makes a number smaller. -/
theorem toNat_roundToInt_le (h : Bounded n mantissa exponent) (sign : Sign) :
    (roundToInt sign mantissa exponent).toNat ≤ n := by
  have hexponent := h.exponent_le
  obtain ⟨-, hbelow⟩ := h.shiftToExponent (Int.le_refl 0)
  have hend : (-(exponent + (0 - exponent).toNat)).toNat = 0 := by omega
  have hmantissa := hbelow.mantissa_le
  rw [hend, Nat.pow_zero, Nat.mul_one] at hmantissa
  have hsame : decreaseExponent mantissa exponent 0 = (mantissa, exponent) := by
    have hplaces : (exponent - 0).toNat = 0 := by omega
    rw [decreaseExponent, hplaces, Nat.shiftLeft_zero, Int.natCast_zero, Int.sub_zero]
  rw [roundToInt, hsame]
  cases sign with
  | negative => exact Nat.le_trans (Int.toNat_le.2 (by simp [Sign.apply])) (Nat.zero_le n)
  | positive => exact hmantissa

end Bounded

/-! ## Bounded numbers -/

/-- A number between `-n` and `n`. -/
def AtMost (n : Nat) : UnpackedFloat → Prop
  | .zero _ => True
  | .finite _ mantissa exponent _ => Bounded n mantissa exponent
  | _ => False

theorem atMost_roundWithAccuracy (hn : n < 2 ^ 53) (sign : Sign) {mantissa : Nat} {exponent : Int}
    (h : Bounded n mantissa exponent) :
    AtMost n (roundWithAccuracy .binary64 sign mantissa exponent .exact) := by
  obtain ⟨hle, hbelow⟩ := h.shiftToExponent (h.targetExponent_le hn)
  -- The rounded mantissa may have one bit too many; it is shifted once more.
  have hrounded : Bounded n _ _ := ⟨hle, hbelow.roundedMantissa_le⟩
  obtain ⟨hle', hbelow'⟩ := hrounded.shiftToExponent (hrounded.targetExponent_le hn)
  unfold roundWithAccuracy
  dsimp only
  split
  · trivial
  · exact ⟨hle', hbelow'.mantissa_le⟩

theorem atMost_mul {k : Nat} (hn : n * k < 2 ^ 53) {a b : UnpackedFloat} (ha : AtMost n a)
    (hb : AtMost k b) : AtMost (n * k) (UnpackedFloat.mul .binary64 a b) := by
  cases a with
  | infinity => cases ha
  | notANumber => cases ha
  | zero => cases b <;> trivial
  | finite _ m e =>
    cases b with
    | infinity => cases hb
    | notANumber => cases hb
    | zero => trivial
    | finite _ m' e' =>
      obtain ⟨he, hm⟩ := ha
      obtain ⟨he', hm'⟩ := hb
      refine atMost_roundWithAccuracy hn _ ⟨by omega, ?_⟩
      have hplaces : (-(e + e')).toNat = (-e).toNat + (-e').toNat := by omega
      rw [hplaces, Nat.pow_add, Nat.mul_mul_mul_comm]
      exact Nat.mul_le_mul hm hm'

theorem atMost_ofNat (hn : n < 2 ^ 53) : AtMost n (UnpackedFloat.ofNat .binary64 n) := by
  unfold UnpackedFloat.ofNat UnpackedFloat.ofInt UnpackedFloat.normalize
  split
  · next hlt =>
    rw [Int.compare_eq_lt] at hlt
    omega
  · trivial
  · have hbound : Bounded n n 0 := ⟨Int.le_refl 0, by simp⟩
    have htarget := hbound.targetExponent_le hn
    unfold UnpackedFloat.round decreaseExponent
    dsimp only
    refine atMost_roundWithAccuracy hn _ ⟨by omega, ?_⟩
    rw [Nat.shiftLeft_eq, Int.toNat_natCast]
    refine Nat.le_of_eq (congrArg (fun places => n * 2 ^ places) ?_)
    omega

theorem AtMost.toNat_toUInt64_le {u : UnpackedFloat} (h : AtMost n u) : u.toUInt64.toNat ≤ n := by
  have hint : (u.toInt 0 (UInt64.size - 1)).toNat ≤ n := by
    cases u with
    | infinity => cases h
    | notANumber => cases h
    | zero => exact Nat.zero_le n
    | finite sign m e hm => exact Bounded.toNat_roundToInt_le h sign
  unfold UnpackedFloat.toUInt64 UInt64.ofNatClamp
  split
  · exact hint
  · next hbig =>
    have hlarge := Nat.le_of_not_lt hbig
    exact Nat.le_trans (Nat.sub_le _ 1) (Nat.le_trans hlarge hint)

/-! ## Packing -/

/-- Without the implicit bit a mantissa is that of a number smaller than one. -/
theorem atMost_unpack_subnormal {mantissa : BitVec 52} (hn : mantissa ≠ 0#52 → 0 < n)
    (sign : Sign) :
    AtMost n (UnpackedFloat.unpack .binary64 (packComponents .binary64 sign 0#11 mantissa)) := by
  unfold UnpackedFloat.unpack
  simp only [unpackMantissa_packComponents, unpackExponent_packComponents]
  rw [if_neg (by decide), if_pos trivial]
  split
  · trivial
  · next hne => exact Bounded.of_lt_two_pow (hn hne) mantissa.isLt (by decide)

/-- A mantissa with all its bits is the implicit one and the others. -/
theorem toNat_implicit_append {mantissa : Nat} (h : mantissa.log2 = 52) :
    (1#1 ++ BitVec.ofNat 52 mantissa).toNat = mantissa := by
  have hpos : mantissa ≠ 0 := by
    rintro rfl
    cases h
  obtain ⟨hle, hlt⟩ := (Nat.log2_eq_iff hpos).1 h
  rw [BitVec.toNat_append, ← Nat.shiftLeft_add_eq_or_of_lt (BitVec.isLt _), BitVec.toNat_ofNat]
  show 2 ^ 52 + mantissa % 2 ^ 52 = mantissa
  omega

theorem atMost_unpack_normal {sign : Sign} {mantissa biased : Nat} (hpos : 0 < biased)
    (hbiased : biased + 1 < 2 ^ 11) (hlog : mantissa.log2 = 52)
    (h : Bounded n mantissa (biased - 1075)) :
    AtMost n (UnpackedFloat.unpack .binary64
      (packComponents .binary64 sign (BitVec.ofNat 11 biased) (BitVec.ofNat 52 mantissa))) := by
  have hvec : (BitVec.ofNat 11 biased).toNat = biased := by
    rw [BitVec.toNat_ofNat, Nat.mod_eq_of_lt (by omega)]
  have hfinite : BitVec.ofNat 11 biased ≠ -1#11 := by
    intro heq
    have hall : (-1#11).toNat = 2 ^ 11 - 1 := by decide
    rw [heq, hall] at hvec
    omega
  have hnormal : BitVec.ofNat 11 biased ≠ 0#11 := by
    intro heq
    rw [heq] at hvec
    exact Nat.ne_of_lt hpos hvec
  unfold UnpackedFloat.unpack
  simp only [unpackMantissa_packComponents, unpackExponent_packComponents]
  rw [if_neg hfinite, if_neg hnormal]
  show Bounded n (1#1 ++ BitVec.ofNat 52 mantissa).toNat ((BitVec.ofNat 11 biased).toNat - 1075)
  rwa [toNat_implicit_append hlog, hvec]

/-- A number that is packed and read again may lose bits but is not greater. -/
theorem atMost_unpack_pack {u : UnpackedFloat} (h : AtMost n u) :
    AtMost n (UnpackedFloat.unpack .binary64 (UnpackedFloat.pack .binary64 u)) := by
  cases u with
  | infinity => cases h
  | notANumber => cases h
  | zero sign => exact atMost_unpack_subnormal (fun hne => absurd rfl hne) sign
  | finite sign m e hm =>
    obtain ⟨hexponent, hmantissa⟩ := h
    have hn : 0 < n := Nat.pos_of_mul_pos_right (Nat.lt_of_lt_of_le hm hmantissa)
    have hbias : Format.binary64.exponentBias = 1023 := rfl
    simp only [UnpackedFloat.pack, hbias]
    generalize hbiased : (e + (1023 : Nat) + (52 : Nat)).toNat = biased
    rw [if_neg (by omega)]
    split
    · next hnormal =>
      rcases Nat.eq_zero_or_pos biased with rfl | hpos
      · exact atMost_unpack_subnormal (fun _ => hn) sign
      · have he : (biased : Int) - 1075 = e := by omega
        have hlog : m.log2 = 52 := Nat.succ.inj hnormal
        exact atMost_unpack_normal hpos (by omega) hlog (he ▸ ⟨hexponent, hmantissa⟩)
    · exact atMost_unpack_subnormal (fun _ => hn) sign

theorem lt_of_unpack_eq_finite {bits : BitVec 64} {sign : Sign} {m : Nat} {e : Int} {hm : 0 < m}
    (h : UnpackedFloat.unpack .binary64 bits = .finite sign m e hm) : m < 2 ^ 53 := by
  unfold UnpackedFloat.unpack at h
  dsimp only at h
  split at h
  · split at h <;> cases h
  · split at h
    · split at h
      · cases h
      · cases h
        exact Nat.lt_trans (BitVec.isLt _) (by decide)
    · cases h
      exact BitVec.isLt _

/-! ## The fraction -/

theorem unpack_zero : (0 : Float).toModel.unpack = .zero .positive := rfl

theorem unpack_one :
    (1 : Float).toModel.unpack = .finite .positive (2 ^ 52) (-52) (by decide) := rfl

theorem lt_iff {a b : Float} :
    a < b ↔ a.toModel.unpack.compare b.toModel.unpack = some .lt := by
  show decide (a.toModel < b.toModel) = true ↔ _
  rw [decide_eq_true_iff]
  show UnpackedFloat.lt _ _ = true ↔ _
  rw [UnpackedFloat.lt, beq_iff_eq]

/-- What is a number, not negative and not greater than one is between them. -/
theorem atMost_one {f : Float} (hnumber : ¬f.isNaN = true) (hlow : ¬f < 0) (hhigh : ¬1 < f) :
    AtMost 1 f.toModel.unpack := by
  rw [lt_iff, unpack_zero] at hlow
  rw [lt_iff, unpack_one] at hhigh
  cases hf : f.toModel.unpack with
  | notANumber => exact absurd (congrArg UnpackedFloat.isNaN hf) hnumber
  | infinity sign =>
    rw [hf] at hlow hhigh
    cases sign with
    | negative => exact absurd rfl hlow
    | positive => exact absurd rfl hhigh
  | zero => trivial
  | finite sign m e hm =>
    rw [hf] at hlow hhigh
    cases sign with
    | negative => exact absurd rfl hlow
    | positive =>
      have hbits := lt_of_unpack_eq_finite hf
      have horder : ¬((-52 : Int) < e ∨ (-52 : Int) = e ∧ 2 ^ 52 < m) := by
        rw [← Int.compare_eq_lt, ← Int.compare_eq_eq, ← Nat.compare_eq_lt, ← Ordering.then_eq_lt]
        exact fun hlt => hhigh (congrArg some hlt)
      rcases Int.lt_trichotomy e (-52) with hlt | rfl | hlt
      · exact Bounded.of_lt_two_pow Nat.one_pos hbits (by omega)
      · have hle : m ≤ 2 ^ 52 := by omega
        exact ⟨by decide, hle⟩
      · exact absurd (.inl hlt) horder

theorem atMost_clampFraction (fraction : Float) :
    AtMost 1 (Index.clampFraction fraction).toModel.unpack := by
  unfold Index.clampFraction
  split
  · trivial
  · next hnumber =>
    split
    · trivial
    · next hlow =>
      split
      · exact ⟨by decide, by decide⟩
      · next hhigh => exact atMost_one hnumber hlow hhigh

theorem clampFraction_eq_zero {fraction : Float} (h : fraction.isNaN = true ∨ fraction < 0) :
    Index.clampFraction fraction = 0 := by
  unfold Index.clampFraction
  split
  · rfl
  · next hnumber => exact if_pos (h.resolve_left hnumber)

end Rounding

namespace Index

open Rounding

/-- The part of the runs that is a bounded fraction of them is bounded as well. -/
theorem evictionCount_le_of_atMost {resident k : Nat} (h : resident < 2 ^ 53)
    (hk : resident * k < 2 ^ 53) {fraction : Float}
    (hfraction : AtMost k (clampFraction fraction).toModel.unpack) :
    evictionCount resident fraction ≤ max 1 (resident * k) := by
  have hsame : resident.toUInt64.toNat = resident := by
    rw [Nat.toUInt64_eq, UInt64.toNat_ofNat_of_lt']
    exact Nat.lt_trans h (by decide)
  have hnumber : AtMost resident resident.toUInt64.toFloat.toModel.unpack := by
    show AtMost resident (UnpackedFloat.unpack .binary64 (UnpackedFloat.pack .binary64
      (UnpackedFloat.ofNat .binary64 resident.toUInt64.toNat)))
    rw [hsame]
    exact atMost_unpack_pack (atMost_ofNat h)
  have hproduct := atMost_unpack_pack (atMost_mul hk hnumber hfraction)
  exact Nat.max_le.2 ⟨Nat.le_max_left .., Nat.le_trans hproduct.toNat_toUInt64_le
    (Nat.le_max_right ..)⟩

/-- Of some resident runs no more are counted than there are, whatever the fraction is. -/
theorem evictionCount_le {resident : Nat} (hpos : 1 ≤ resident) (h : resident < 2 ^ 53)
    (fraction : Float) : evictionCount resident fraction ≤ resident := by
  have hall : resident * 1 < 2 ^ 53 := by rwa [Nat.mul_one]
  have hle := evictionCount_le_of_atMost h hall (atMost_clampFraction fraction)
  rwa [Nat.mul_one, Nat.max_eq_right hpos] at hle

/-- Without a part of the runs to be evicted it is one run. -/
theorem evictionCount_eq_one {resident : Nat} (h : resident < 2 ^ 53) {fraction : Float}
    (hfraction : fraction.isNaN = true ∨ fraction < 0) : evictionCount resident fraction = 1 := by
  have hzero : AtMost 0 (clampFraction fraction).toModel.unpack := by
    rw [clampFraction_eq_zero hfraction]
    trivial
  exact Nat.le_antisymm (evictionCount_le_of_atMost h (by omega) hzero) (evictionCount_pos ..)

end Index

end ResultSearch
