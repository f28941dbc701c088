import Mathlib.Tactic.Positivity
import Scaffold.Json.Reader
import Scaffold.Proofs.Outcome

/-!
# Doubles that are numbers

Rounding gives a number or an infinity, never NaN. So the product and the quotient of a number and a
positive finite one are not NaN either, and neither is what a decimal text is read as.
-/

namespace Scaffold.Double

theorem magnitude_ofMagnitude {negative : Bool} {m : Nat} (h : m < signBit) :
    (ofMagnitude negative m).magnitude = m := by
  have hbits : (if negative then signBit else 0) + m < 2 ^ 64 := by
    cases negative <;> simp [signBit] at h ⊢ <;> omega
  rw [magnitude, ofMagnitude, UInt64.toNat_ofNat_of_lt' hbits]
  cases negative
  · simp [Nat.mod_eq_of_lt h]
  · simp [Nat.mod_eq_of_lt h]

theorem isNaN_ofMagnitude {negative : Bool} {m : Nat} (h : m ≤ infinityBits) :
    (ofMagnitude negative m).isNaN = false := by
  have hsign : m < signBit := Nat.lt_of_le_of_lt h (by decide)
  rw [isNaN, magnitude_ofMagnitude hsign, decide_eq_false_iff_not]
  omega

theorem magnitudeOfUnits_le (num den : Nat) : magnitudeOfUnits num den ≤ infinityBits := by
  rw [magnitudeOfUnits]
  split <;> omega

theorem isNaN_ofRatio (negative : Bool) (num den : Nat) : (ofRatio negative num den).isNaN = false :=
  isNaN_ofMagnitude (magnitudeOfUnits_le _ _)

theorem isNaN_ofInt (i : Int) : (ofInt i).isNaN = false := isNaN_ofRatio _ _ _

theorem isNaN_neg {d : Double} (h : d.isNaN = false) : d.neg.isNaN = false := by
  rw [isNaN, decide_eq_false_iff_not, Nat.not_lt] at h
  exact isNaN_ofMagnitude h

theorem same_self {d : Double} (h : d.isNaN = false) : d.same d = true := by simp [same, h]

/-- Neither an infinity nor NaN, and not a zero. -/
structure Ordinary (d : Double) : Prop where
  number : d.isNaN = false
  finite : d.isInfinite = false
  nonzero : d.isZero = false

theorem ordinary_ofMagnitude {negative : Bool} {m : Nat} (hpos : 0 < m) (hlt : m < infinityBits) :
    (ofMagnitude negative m).Ordinary := by
  have hm : (ofMagnitude negative m).magnitude = m :=
    magnitude_ofMagnitude (Nat.lt_trans hlt (by decide))
  refine ⟨isNaN_ofMagnitude hlt.le, ?_, ?_⟩
  · rw [isInfinite, hm, beq_eq_false_iff_ne]
    exact hlt.ne
  · rw [isZero, hm, beq_eq_false_iff_ne]
    exact hpos.ne'

theorem div_le_roundDiv (num den : Nat) : num / den ≤ roundDiv num den := by
  rw [roundDiv]
  split <;> omega

theorem roundDiv_le (num den : Nat) : roundDiv num den ≤ num / den + 1 := by
  rw [roundDiv]
  split <;> omega

/-- No positive whole number of least units is rounded to zero. -/
theorem magnitudeOfUnits_pos {num : Nat} (h : 0 < num) : 0 < magnitudeOfUnits num 1 := by
  have hpow : 2 ^ (num.log2 - 52) ≤ num :=
    (Nat.pow_le_pow_right Nat.two_pos (Nat.sub_le _ _)).trans (Nat.log2_self_le h.ne')
  have hone : 1 ≤ num / 2 ^ (num.log2 - 52) := (Nat.one_le_div_iff (Nat.two_pow_pos _)).2 hpow
  have hround := hone.trans (div_le_roundDiv _ _)
  rw [magnitudeOfUnits, Nat.div_one, Nat.one_mul, Nat.pow_eq]
  split
  · decide
  · exact Nat.lt_of_lt_of_le hround (Nat.le_add_left _ _)

/-- What lies below the greatest finite double is not rounded to an infinity. -/
theorem magnitudeOfUnits_lt {num k : Nat} (hpos : 0 < num) (hk : k ≤ 2045)
    (h : num < 2 ^ k * (2 ^ 53 - 1)) : magnitudeOfUnits num 1 < infinityBits := by
  have hpow : num < 2 ^ (k + 53) := by
    rw [Nat.pow_add]
    exact h.trans_le (Nat.mul_le_mul_left _ (Nat.sub_le _ _))
  have hlog : num.log2 < k + 53 := (Nat.log2_lt hpos.ne').2 hpow
  have hbits : num < 2 ^ (num.log2 - 52) * 2 ^ 53 := by
    rw [← Nat.pow_add]
    exact Nat.lt_log2_self.trans_le (Nat.pow_le_pow_right Nat.two_pos (by omega))
  have hquot : num / 2 ^ (num.log2 - 52) < 2 ^ 53 := Nat.div_lt_of_lt_mul hbits
  -- the last step before the infinities is the one that the bound on the number is for
  have hlast : num.log2 - 52 = k → num / 2 ^ (num.log2 - 52) < 2 ^ 53 - 1 := by
    intro heq
    rw [heq]
    exact Nat.div_lt_of_lt_mul h
  have hround := roundDiv_le num (2 ^ (num.log2 - 52))
  rw [magnitudeOfUnits, Nat.div_one, Nat.one_mul, Nat.pow_eq, infinityBits, topExponent, hiddenBit]
  split <;> omega

/-- The double of a whole number below the greatest finite one is not an infinity. -/
theorem ordinary_ofRatio {n k : Nat} {negative : Bool} (hpos : 0 < n) (hk : k ≤ 971)
    (h : n < 2 ^ k * (2 ^ 53 - 1)) : (ofRatio negative n 1).Ordinary := by
  obtain ⟨u, hu, hunits⟩ : ∃ u, u = 1074 ∧ unitsPerOne = Nat.pow 2 u := ⟨1074, rfl, rfl⟩
  rw [Nat.pow_eq] at hunits
  have hnum : 0 < n * 2 ^ u := Nat.mul_pos hpos (Nat.two_pow_pos u)
  have hlt : n * 2 ^ u < 2 ^ (k + u) * (2 ^ 53 - 1) := by
    rw [Nat.pow_add, Nat.mul_right_comm]
    exact Nat.mul_lt_mul_of_pos_right h (Nat.two_pow_pos u)
  rw [ofRatio, hunits]
  exact ordinary_ofMagnitude (magnitudeOfUnits_pos hnum) (magnitudeOfUnits_lt hnum (by omega) hlt)

theorem isNaN_mul {f d : Double} (hf : f.isNaN = false) (hd : Ordinary d) :
    (f.mul d).isNaN = false := by
  rw [mul, hf, hd.number, hd.finite, hd.nonzero, Bool.or_self, Bool.or_false, Bool.or_false,
    if_neg Bool.false_ne_true]
  split
  · rename_i hinf
    have hnonzero : f.isZero = false := by
      rw [isInfinite, beq_iff_eq] at hinf
      rw [isZero, hinf]
      decide
    rw [hnonzero, if_neg Bool.false_ne_true]
    exact isNaN_ofMagnitude Nat.le.refl
  · exact isNaN_ofMagnitude (magnitudeOfUnits_le _ _)

theorem isNaN_div {f d : Double} (hf : f.isNaN = false) (hd : Ordinary d) :
    (f.div d).isNaN = false := by
  rw [div, hf, hd.number, hd.finite, hd.nonzero, Bool.or_self, if_neg Bool.false_ne_true]
  split
  · exact isNaN_ofMagnitude Nat.le.refl
  · exact isNaN_ofRatio _ _ _

end Scaffold.Double

namespace Scaffold.Json

/-- The powers of ten that numbers are scaled by are positive and finite. -/
theorem ordinary_powerOfTen {e : Nat} (h : e ≤ greatestPower) : (powerOfTen e).Ordinary := by
  obtain ⟨k, hk, hgreatest⟩ : ∃ k ≤ 971, 10 ^ greatestPower < 2 ^ k * (2 ^ 53 - 1) :=
    ⟨971, Nat.le.refl, by decide +kernel⟩
  have hpow : 1 * 10 ^ e < 2 ^ k * (2 ^ 53 - 1) := by
    rw [Nat.one_mul]
    exact (Nat.pow_le_pow_right (by decide) h).trans_lt hgreatest
  have hpower : ¬ 400 < (e : Int) := by
    rw [greatestPower] at h
    omega
  have heq : powerOfTen e = .ofRatio false (1 * 10 ^ e) 1 := by
    rw [powerOfTen, Double.ofDecimal.eq_def, if_neg (by decide), if_neg hpower]
    rfl
  rw [heq]
  exact Double.ordinary_ofRatio (by positivity) hk hpow

theorem isNaN_divideByPower {f : Double} (hf : f.isNaN = false) (rounds e : Nat) :
    (divideByPower rounds f e).isNaN = false := by
  induction rounds generalizing f e with
  | zero => exact hf
  | succ rounds ih =>
    rw [divideByPower]
    split
    · rename_i he
      exact Double.isNaN_div hf (ordinary_powerOfTen he)
    · split
      · exact hf
      · exact ih (Double.isNaN_div hf (ordinary_powerOfTen Nat.le.refl)) _

theorem isNaN_scaled {negative : Bool} {significand : Nat} {exponent : Int} {d : Double}
    (h : scaled negative significand exponent = .ok d) : d.isNaN = false := by
  have hf := Double.isNaN_ofInt significand
  have hsigned : ∀ {d : Double}, d.isNaN = false →
      (if negative then d.neg else d).isNaN = false := by
    intro d hd
    cases negative
    · exact hd
    · exact Double.isNaN_neg hd
  unfold scaled at h
  dsimp only at h
  split at h
  · split at h
    · rename_i he
      split at h
      · cases h
      · obtain rfl := Except.ok.inj h
        exact hsigned (Double.isNaN_mul hf (ordinary_powerOfTen he))
    · split at h
      · obtain rfl := Except.ok.inj h
        exact hsigned hf
      · cases h
  · obtain rfl := Except.ok.inj h
    exact hsigned (isNaN_divideByPower hf _ _)

end Scaffold.Json
