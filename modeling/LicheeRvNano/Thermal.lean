import LicheeRvNano.BitField

/-!
# Thermal sensor: trips and readings

`cv1800_thermal.c`, as the thermal patch adds it: `cv1800_calc_temp` turns a raw
reading into a temperature for the polled path, `cv1800_calc_raw` turns a trip
temperature into a threshold for the interrupt.

The C code mixes `u32` and `int`, so both are 32-bit vectors here, and `toInt` is what
an `int` holds. A negative temperature comes out of an unsigned subtraction that
wraps. `toInt_calcTemp` and `toNat_calcRaw` say that on the values the driver meets
neither formula loses anything; the rest is about two truncating divisions.
-/

namespace LicheeRvNano

abbrev TEMPSEN_RESULT_RESULT_MASK : BitField 32 := .genmask 12 0
abbrev TEMPSEN_THRESHOLD_HIGH_OFFSET : Nat := 0
abbrev TEMPSEN_THRESHOLD_LOW_OFFSET : Nat := 16
abbrev TEMPSEN_INTR_THRESHOLD_HIGH : BitVec 32 := 1 <<< 4
abbrev TEMPSEN_INTR_THRESHOLD_LOW : BitVec 32 := 1 <<< 8

/-- The registers of channel 0. -/
structure TempsenRegs where
  result : BitVec 32
  threshold : BitVec 32
  intrEn : BitVec 32
  deriving DecidableEq

/-- `cv1800_calc_temp`: `u32` arithmetic, the result an `int`. -/
def cv1800CalcTemp (result : BitVec 32) : BitVec 32 := result * 1000 * 716 / 2048 - 273000

/-- `cv1800_calc_raw`: `int` arithmetic, the result a `u32`. -/
def cv1800CalcRaw (temp : BitVec 32) : BitVec 32 := ((temp + 273000) * 2048).sdiv (1000 * 716)

/-- `cv1800_set_threshold`. -/
def cv1800SetThreshold (regs : TempsenRegs) (low high : BitVec 32) : TempsenRegs :=
  { regs with
    threshold := (cv1800CalcRaw low <<< TEMPSEN_THRESHOLD_LOW_OFFSET) |||
      (cv1800CalcRaw high <<< TEMPSEN_THRESHOLD_HIGH_OFFSET)
    intrEn := TEMPSEN_INTR_THRESHOLD_LOW ||| TEMPSEN_INTR_THRESHOLD_HIGH }

/-- `cv1800_get_temp`. -/
def cv1800GetTemp (regs : TempsenRegs) : BitVec 32 :=
  cv1800CalcTemp (regs.result &&& TEMPSEN_RESULT_RESULT_MASK.mask)

/-- `clamp(t, -273 * 1000, 200 * 1000)`. -/
def clampTrip (t : BitVec 32) : BitVec 32 :=
  if t.slt (BitVec.ofInt 32 (-273000)) then BitVec.ofInt 32 (-273000)
  else if (200000 : BitVec 32).slt t then 200000
  else t

/-- `cv1800_set_trips`. -/
def cv1800SetTrips (regs : TempsenRegs) (low high : BitVec 32) : TempsenRegs :=
  cv1800SetThreshold regs (clampTrip low) (clampTrip high)

/-! ## What the formulas compute -/

theorem toInt_clampTrip (t : BitVec 32) :
    (clampTrip t).toInt = max (-273000) (min 200000 t.toInt) := by
  have hlo : (BitVec.ofInt 32 (-273000)).toInt = -273000 := by decide
  have hhi : (200000 : BitVec 32).toInt = 200000 := by decide
  rw [clampTrip, BitVec.slt_eq_decide, BitVec.slt_eq_decide, hlo, hhi]
  by_cases h₁ : t.toInt < -273000
  · rw [if_pos (decide_eq_true h₁), hlo]
    omega
  · rw [if_neg (by simpa using h₁)]
    by_cases h₂ : 200000 < t.toInt
    · rw [if_pos (decide_eq_true h₂), hhi]
      omega
    · rw [if_neg (by simpa using h₂)]
      omega

theorem toInt_calcTemp {r : BitVec 32} (h : r.toNat * 716000 < 2 ^ 32) :
    (cv1800CalcTemp r).toInt = (r.toNat * 716000 / 2048 : Nat) - 273000 := by
  have hdiv : (r * 1000 * 716 / 2048).toNat = r.toNat * 716000 / 2048 := by
    have h1000 : (1000 : BitVec 32).toNat = 1000 := by decide
    have h716 : (716 : BitVec 32).toNat = 716 := by decide
    have h2048 : (2048 : BitVec 32).toNat = 2048 := by decide
    rw [BitVec.toNat_udiv, BitVec.toNat_mul, BitVec.toNat_mul, h1000, h716, h2048]
    omega
  rw [cv1800CalcTemp, BitVec.toInt_sub, BitVec.toInt_eq_toNat_of_lt (by omega), hdiv]
  have h273 : (273000 : BitVec 32).toInt = 273000 := by decide
  rw [h273, Int.bmod_def]
  omega

theorem toNat_calcRaw {t : BitVec 32} (hlo : -273000 ≤ t.toInt) (hhi : t.toInt ≤ 200000) :
    ((cv1800CalcRaw t).toNat : Int) = (t.toInt + 273000) * 2048 / 716000 := by
  have hprod : ((t + 273000) * 2048).toInt = (t.toInt + 273000) * 2048 := by
    have h273 : (273000 : BitVec 32).toInt = 273000 := by decide
    have h2048 : (2048 : BitVec 32).toInt = 2048 := by decide
    rw [BitVec.toInt_mul, BitVec.toInt_add, h273, h2048, Int.bmod_def, Int.bmod_def]
    omega
  have hraw : (cv1800CalcRaw t).toInt = (t.toInt + 273000) * 2048 / 716000 := by
    have h716 : (1000 * 716 : BitVec 32).toInt = 716000 := by decide
    rw [cv1800CalcRaw, BitVec.toInt_sdiv, hprod, h716, Int.tdiv_eq_ediv_of_nonneg (by omega),
      Int.bmod_def]
    omega
  rw [BitVec.toInt_eq_toNat_cond] at hraw
  split at hraw
  · exact hraw
  · omega

/-! ## The two paths agree -/

section Trips

variable {r : BitVec 32} (hr : r.toNat * 716000 < 2 ^ 32)

include hr in
/-- Above the threshold the temperature has reached the trip. -/
theorem le_calcTemp_of_calcRaw_lt {t : BitVec 32} (hlo : -273000 ≤ t.toInt) (hhi : t.toInt ≤ 200000)
    (h : cv1800CalcRaw t < r) : t.toInt ≤ (cv1800CalcTemp r).toInt := by
  have hraw := toNat_calcRaw hlo hhi
  rw [BitVec.lt_def] at h
  rw [toInt_calcTemp hr]
  omega

include hr in
/-- Up to the threshold it has not passed the trip. -/
theorem calcTemp_le_of_le_calcRaw {t : BitVec 32} (hlo : -273000 ≤ t.toInt) (hhi : t.toInt ≤ 200000)
    (h : r ≤ cv1800CalcRaw t) : (cv1800CalcTemp r).toInt ≤ t.toInt := by
  have hraw := toNat_calcRaw hlo hhi
  rw [BitVec.le_def] at h
  rw [toInt_calcTemp hr]
  omega

include hr in
theorem calcTemp_mono {r' : BitVec 32} (h : r' ≤ r) :
    (cv1800CalcTemp r').toInt ≤ (cv1800CalcTemp r).toInt := by
  rw [BitVec.le_def] at h
  have hr' : r'.toNat * 716000 < 2 ^ 32 := lt_of_le_of_lt (Nat.mul_le_mul_right _ h) hr
  rw [toInt_calcTemp hr, toInt_calcTemp hr']
  omega

theorem calcRaw_mono {t t' : BitVec 32} (hlo : -273000 ≤ t.toInt) (hhi : t'.toInt ≤ 200000)
    (h : t.toInt ≤ t'.toInt) : cv1800CalcRaw t ≤ cv1800CalcRaw t' := by
  have hraw := toNat_calcRaw hlo (by omega)
  have hraw' := toNat_calcRaw (t := t') (by omega) hhi
  rw [BitVec.le_def]
  omega

/-- Two numbers of 16 bits side by side. -/
theorem toNat_shift_or {a b : BitVec 32} (ha : a.toNat < 2 ^ 16) (hb : b.toNat < 2 ^ 16) :
    (a <<< 16 ||| b).toNat = a.toNat * 2 ^ 16 + b.toNat := by
  have hor := Nat.shiftLeft_add_eq_or_of_lt hb a.toNat
  have hshift : a.toNat <<< 16 % 2 ^ 32 = a.toNat <<< 16 := by
    rw [Nat.shiftLeft_eq]
    exact Nat.mod_eq_of_lt (by omega)
  rw [BitVec.toNat_or, BitVec.toNat_shiftLeft, hshift, ← hor, Nat.shiftLeft_eq]

theorem calcRaw_lt {t : BitVec 32} (hlo : -273000 ≤ t.toInt) (hhi : t.toInt ≤ 200000) :
    (cv1800CalcRaw t).toNat < 2 ^ 16 := by
  have := toNat_calcRaw hlo hhi
  omega

end Trips

-- 85 degrees, and the readings next to its threshold
example : (cv1800CalcTemp 1023).toInt = 84650 ∧ (cv1800CalcTemp 1024).toInt = 85000 ∧
    cv1800CalcRaw 85000 = 1024 := by decide

end LicheeRvNano
