import Mathlib.Algebra.Order.Ring.Abs
import LicheeRvNano.I2sClock

/-!
# I2S controller: what `hw_params` programs

A successful `hw_params` leaves the slot, frame, word length and divider fields as
the stream asked for them. The limits that `set_slot_settings` and `set_bclk_div`
check are written apart from the fields they protect; here each value is shown to
fit its field, so that it is read back whole.

The dividers are rounded quotients of 32-bit numbers. The sum in
`DIV_ROUND_CLOSEST` may wrap, but then the quotient is zero and the range check
refuses it, so a divider that is programmed is the rounded quotient of the numbers.
-/

namespace LicheeRvNano

/-! ## Rounded division -/

/-- The quotient rounded to the nearest number. -/
def roundDiv (x divisor : Nat) : Nat := (x + divisor / 2) / divisor

/-- A rounded quotient misses the dividend by at most half the divisor. -/
theorem roundDiv_mul_near (x : Nat) {divisor : Nat} (h : 0 < divisor) :
    |(roundDiv x divisor * divisor : ℤ) - x| ≤ (divisor : ℤ) / 2 := by
  have hdiv := Nat.div_add_mod (x + divisor / 2) divisor
  have hmod := Nat.mod_lt (x + divisor / 2) h
  rw [Nat.mul_comm] at hdiv
  rw [← roundDiv] at hdiv
  have hdiv' : (roundDiv x divisor * divisor : ℤ) + ((x + divisor / 2) % divisor : ℕ) =
      x + (divisor / 2 : ℕ) := by exact_mod_cast hdiv
  rw [abs_le]
  constructor
  · omega
  · omega

/-- A rounded quotient that is not zero did not wrap. -/
theorem divRoundClosest_toNat {x divisor : BitVec 32} (h : divRoundClosest x divisor ≠ 0) :
    (divRoundClosest x divisor).toNat = roundDiv x.toNat divisor.toNat := by
  have hx := x.isLt
  have hd := divisor.isLt
  have hval : (divRoundClosest x divisor).toNat =
      (x.toNat + divisor.toNat / 2) % 2 ^ 32 / divisor.toNat := by
    rw [divRoundClosest, BitVec.toNat_udiv, BitVec.toNat_add, BitVec.toNat_udiv]
    rfl
  by_cases hwrap : x.toNat + divisor.toNat / 2 < 2 ^ 32
  · rw [hval, Nat.mod_eq_of_lt hwrap, roundDiv]
  · -- the wrapped sum is below half the divisor
    have hzero : (x.toNat + divisor.toNat / 2) % 2 ^ 32 / divisor.toNat = 0 := by
      apply Nat.div_eq_of_lt
      omega
    rw [hzero] at hval
    exact absurd (BitVec.eq_of_toNat_eq hval) h

/-! ## The master clock -/

/-- The divider of `calc_mclk_div`, over the numbers. -/
def mclkDivider (targetMclk : Nat) : Nat :=
  if targetMclk < 24576000 then roundDiv 24576000 targetMclk else 1

theorem calcMclkDiv_ok {targetMclk mclkDiv : BitVec 32}
    (h : cv1800bCalcMclkDiv targetMclk = .ok mclkDiv) :
    0 < targetMclk.toNat ∧ mclkDiv.toNat = mclkDivider targetMclk.toNat ∧
      1 ≤ mclkDiv.toNat ∧ mclkDiv.toNat ≤ 65535 := by
  simp only [cv1800bCalcMclkDiv] at h
  split at h
  · cases h
  rename_i h0
  have hpos : 0 < targetMclk.toNat := by
    have hne : targetMclk.toNat ≠ 0 := fun he => h0 (BitVec.eq_of_toNat_eq he)
    omega
  split at h
  · rename_i hlt
    split at h
    · cases h
    rename_i hrange
    obtain rfl := Except.ok.inj h
    rw [not_or, BitVec.not_lt] at hrange
    have hval := divRoundClosest_toNat hrange.1
    have hne : (divRoundClosest CV1800B_DEF_FREQ targetMclk).toNat ≠ 0 :=
      fun he => hrange.1 (BitVec.eq_of_toNat_eq he)
    refine ⟨hpos, ?_, by omega, hrange.2⟩
    have hlt' : targetMclk.toNat < 24576000 := hlt
    rw [mclkDivider, if_pos hlt']
    exact hval
  · rename_i hge
    obtain rfl := Except.ok.inj h
    refine ⟨hpos, ?_, by decide, by decide⟩
    have hge' : ¬ targetMclk.toNat < 24576000 := hge
    rw [mclkDivider, if_neg hge']
    rfl

/-- A product of 32-bit numbers fits the 64 bits of `clk_rate`. -/
theorem toNat_setWidth_mul (a b : BitVec 32) :
    (a.setWidth 64 * b.setWidth 64).toNat = a.toNat * b.toNat := by
  have hprod := Nat.mul_lt_mul'' a.isLt b.isLt
  rw [BitVec.toNat_mul, BitVec.toNat_setWidth_of_le (by decide),
    BitVec.toNat_setWidth_of_le (by decide), Nat.mod_eq_of_lt]
  exact lt_of_lt_of_le hprod (by decide)

/-- The state `set_rate_for_mclk` leaves once it has a divider: the clocks are gated
off, the rate is asked for, and only if that succeeds is the rest done. -/
theorem setRateForMclk_of_ok (i2s : I2s) {targetMclk mclkDiv : BitVec 32} (clk : Int)
    (h : cv1800bCalcMclkDiv targetMclk = .ok mclkDiv) :
    cv1800bI2sSetRateForMclk i2s targetMclk clk =
      let gated : I2s := { cv1800bEnableClocks i2s false with
        sysclkRate := targetMclk.setWidth 64 * mclkDiv.setWidth 64 }
      if clk ≠ 0 then (gated, clk)
      else (cv1800bEnableClocks (cv1800bSetMclkDiv gated mclkDiv) true, 0) := by
  have hmax : ¬ BitVec.allOnes 64 < targetMclk.setWidth 64 * mclkDiv.setWidth 64 := by
    rw [BitVec.lt_def, BitVec.toNat_allOnes]
    have hlt := (targetMclk.setWidth 64 * mclkDiv.setWidth 64).isLt
    omega
  simp only [cv1800bI2sSetRateForMclk, h]
  rw [if_neg hmax]

/-- What a `set_rate_for_mclk` that succeeds has done. -/
structure MclkSet (i2s' : I2s) (targetMclk : Nat) : Prop where
  div : (CLK_MCLK_DIV.get i2s'.clkCtrl1).toNat = mclkDivider targetMclk
  one_le : 1 ≤ mclkDivider targetMclk
  le_max : mclkDivider targetMclk ≤ 65535
  /-- the rate asked of the clock is exact -/
  rate : i2s'.sysclkRate.toNat = targetMclk * mclkDivider targetMclk
  /-- and lies near the frequency the driver prefers -/
  near : targetMclk < 24576000 → |(i2s'.sysclkRate.toNat : ℤ) - 24576000| ≤ (targetMclk : ℤ) / 2

theorem calcMclkDiv_error {targetMclk : BitVec 32} {ret : Int}
    (h : cv1800bCalcMclkDiv targetMclk = .error ret) : ret = -EINVAL := by
  simp only [cv1800bCalcMclkDiv] at h
  split at h
  · exact (Except.error.inj h).symm
  · split at h
    · split at h
      · exact (Except.error.inj h).symm
      · cases h
    · cases h

theorem setRateForMclk_of_error (i2s : I2s) {targetMclk : BitVec 32} (clk : Int) {ret : Int}
    (h : cv1800bCalcMclkDiv targetMclk = .error ret) :
    cv1800bI2sSetRateForMclk i2s targetMclk clk = (i2s, -EINVAL) := by
  simp only [cv1800bI2sSetRateForMclk, h]
  rw [calcMclkDiv_error h]

/-- A `set_rate_for_mclk` that succeeds has a divider and got its rate. -/
theorem setRateForMclk_eq_zero {i2s : I2s} {targetMclk : BitVec 32} {clk : Int}
    (h : (cv1800bI2sSetRateForMclk i2s targetMclk clk).2 = 0) :
    ∃ mclkDiv, cv1800bCalcMclkDiv targetMclk = .ok mclkDiv ∧ clk = 0 := by
  rcases hcalc : cv1800bCalcMclkDiv targetMclk with ret | mclkDiv
  · rw [setRateForMclk_of_error i2s clk hcalc] at h
    have hne : (-EINVAL : Int) ≠ 0 := by decide
    exact absurd h hne
  · refine ⟨mclkDiv, rfl, ?_⟩
    by_contra hclk
    rw [setRateForMclk_of_ok i2s clk hcalc] at h
    simp only [ne_eq, hclk, not_false_eq_true, if_true] at h

theorem setRateForMclk_ok {i2s : I2s} {targetMclk : BitVec 32} {clk : Int}
    (h : (cv1800bI2sSetRateForMclk i2s targetMclk clk).2 = 0) :
    MclkSet (cv1800bI2sSetRateForMclk i2s targetMclk clk).1 targetMclk.toNat := by
  obtain ⟨mclkDiv, hcalc, rfl⟩ := setRateForMclk_eq_zero h
  obtain ⟨hpos, hdiv, hone, hmax⟩ := calcMclkDiv_ok hcalc
  rw [setRateForMclk_of_ok i2s 0 hcalc]
  have hrate := toNat_setWidth_mul targetMclk mclkDiv
  rw [hdiv] at hrate hone hmax
  refine ⟨?_, hone, hmax, hrate, ?_⟩
  · have hfit : mclkDiv.toNat < 2 ^ CLK_MCLK_DIV.width := by
      rw [hdiv]
      exact Nat.lt_succ_of_le hmax
    have hget := BitField.get_replace_of_lt hfit i2s.clkCtrl1
    exact (congrArg BitVec.toNat hget).trans hdiv
  · intro hlt
    have hnear := roundDiv_mul_near 24576000 hpos
    have hprod : targetMclk.toNat * mclkDivider targetMclk.toNat =
        roundDiv 24576000 targetMclk.toNat * targetMclk.toNat := by
      rw [mclkDivider, if_pos hlt, Nat.mul_comm]
    have hcast : ((targetMclk.setWidth 64 * mclkDiv.setWidth 64).toNat : ℤ) =
        roundDiv 24576000 targetMclk.toNat * targetMclk.toNat := by
      rw [hrate, hprod, Nat.cast_mul]
    exact hcast ▸ hnear

/-- It changes nothing but the clock registers. -/
theorem setRateForMclk_frame (i2s : I2s) (targetMclk : BitVec 32) (clk : Int) :
    ∃ ctrl0 ctrl1 rate, (cv1800bI2sSetRateForMclk i2s targetMclk clk).1 =
      { i2s with clkCtrl0 := ctrl0, clkCtrl1 := ctrl1, sysclkRate := rate } := by
  rcases hcalc : cv1800bCalcMclkDiv targetMclk with ret | mclkDiv
  · rw [setRateForMclk_of_error i2s clk hcalc]
    exact ⟨i2s.clkCtrl0, i2s.clkCtrl1, i2s.sysclkRate, rfl⟩
  · rw [setRateForMclk_of_ok i2s clk hcalc]
    dsimp only
    split
    · exact ⟨_, i2s.clkCtrl1, _, rfl⟩
    · exact ⟨_, _, _, rfl⟩

/-! ## Slots and frame -/

/-- The slot and frame fields hold what was asked, and the other bits of their two
registers what they held. -/
structure SlotsSet (i2s i2s' : I2s) (slots physicalWidth dataSize : Nat) : Prop where
  slotNum : (SLOT_NUM.get i2s'.slotSetting1).toNat + 1 = slots
  slotSize : (SLOT_SIZE.get i2s'.slotSetting1).toNat + 1 = physicalWidth
  dataSize : (DATA_SIZE.get i2s'.slotSetting1).toNat + 1 = dataSize
  frameLength : (FRAME_LENGTH.get i2s'.frameSetting).toNat + 1 = physicalWidth * slots
  frameActiveLength : (FS_ACTIVE_LENGTH.get i2s'.frameSetting).toNat + 1 = physicalWidth
  slotOthers : ∀ i, ¬ SLOT_NUM.Has i → ¬ SLOT_SIZE.Has i → ¬ DATA_SIZE.Has i →
    i2s'.slotSetting1.getLsbD i = i2s.slotSetting1.getLsbD i
  frameOthers : ∀ i, ¬ FRAME_LENGTH.Has i → ¬ FS_ACTIVE_LENGTH.Has i →
    i2s'.frameSetting.getLsbD i = i2s.frameSetting.getLsbD i

/-- What `set_slot_settings` lets through. -/
def SlotsValid (slots physicalWidth dataSize : BitVec 32) : Prop :=
  (1 ≤ slots.toNat ∧ slots.toNat ≤ 16) ∧ (1 ≤ physicalWidth.toNat ∧ physicalWidth.toNat ≤ 64) ∧
    (1 ≤ dataSize.toNat ∧ dataSize.toNat ≤ 32) ∧ physicalWidth.toNat * slots.toNat ≤ 512

/-- One less than a number that is not zero. -/
theorem toNat_sub_one {x : BitVec 32} (h : 1 ≤ x.toNat) : (x - 1).toNat = x.toNat - 1 := by
  rw [BitVec.toNat_sub_of_le]
  · rfl
  · exact h

/-- A frame of the slots let through has a length of its own. -/
theorem toNat_frame {slots physicalWidth : BitVec 32} (hs : slots.toNat ≤ 16)
    (hw : physicalWidth.toNat ≤ 64) :
    (physicalWidth * slots).toNat = physicalWidth.toNat * slots.toNat := by
  have hprod := Nat.mul_le_mul hw hs
  rw [BitVec.toNat_mul, Nat.mod_eq_of_lt (by omega)]

theorem setSlotSettings_ok {i2s : I2s} {slots physicalWidth dataSize : BitVec 32}
    (h : (cv1800bSetSlotSettings i2s slots physicalWidth dataSize).2 = 0) :
    SlotsValid slots physicalWidth dataSize ∧
      (cv1800bSetSlotSettings i2s slots physicalWidth dataSize).1 =
        { i2s with
          slotSetting1 := SLOT_NUM.replace (DATA_SIZE.replace
            (SLOT_SIZE.replace i2s.slotSetting1 (physicalWidth - 1)) (dataSize - 1)) (slots - 1),
          frameSetting := FS_ACTIVE_LENGTH.replace
            (FRAME_LENGTH.replace i2s.frameSetting (physicalWidth * slots - 1))
            (physicalWidth - 1) } := by
  have hne : (-EINVAL : Int) ≠ 0 := by decide
  simp only [cv1800bSetSlotSettings] at h ⊢
  split at h
  · exact absurd h hne
  rename_i hzero
  split at h
  · exact absurd h hne
  rename_i hmax
  split at h
  · exact absurd h hne
  rename_i hframe
  rw [if_neg hzero, if_neg hmax, if_neg hframe]
  refine ⟨?_, rfl⟩
  simp only [not_or, BitVec.not_lt, BitVec.le_def, ← BitVec.toNat_inj] at hzero hmax hframe
  obtain ⟨h₁, h₂, h₃⟩ := hzero
  obtain ⟨h₄, h₅, h₆⟩ := hmax
  have h₁' : 1 ≤ slots.toNat := Nat.one_le_iff_ne_zero.mpr h₁
  have h₂' : 1 ≤ physicalWidth.toNat := Nat.one_le_iff_ne_zero.mpr h₂
  have h₃' : 1 ≤ dataSize.toNat := Nat.one_le_iff_ne_zero.mpr h₃
  have hpos := Nat.mul_pos h₂' h₁'
  have hlen := hframe.1
  rw [toNat_sub_one (by rw [toNat_frame h₄ h₅]; exact hpos), toNat_frame h₄ h₅] at hlen
  have hlen' : physicalWidth.toNat * slots.toNat - 1 ≤ 511 := hlen
  exact ⟨⟨h₁', h₄⟩, ⟨h₂', h₅⟩, ⟨h₃', h₆⟩, by omega⟩

/-- Every value written fits its field. -/
theorem setSlotSettings_set {i2s : I2s} {slots physicalWidth dataSize : BitVec 32}
    (h : (cv1800bSetSlotSettings i2s slots physicalWidth dataSize).2 = 0) :
    SlotsSet i2s (cv1800bSetSlotSettings i2s slots physicalWidth dataSize).1 slots.toNat
      physicalWidth.toNat dataSize.toNat := by
  obtain ⟨⟨⟨hs, hs'⟩, ⟨hw, hw'⟩, ⟨hd, hd'⟩, hframe⟩, heq⟩ := setSlotSettings_ok h
  rw [heq]
  have hpos := Nat.mul_pos hw hs
  have hlen : (physicalWidth * slots - 1).toNat = physicalWidth.toNat * slots.toNat - 1 := by
    rw [toNat_sub_one (by rw [toNat_frame hs' hw']; exact hpos), toNat_frame hs' hw']
  have hslots := toNat_sub_one hs
  have hwidth := toNat_sub_one hw
  have hsize := toNat_sub_one hd
  constructor
  case slotNum =>
    rw [BitField.get_replace_of_lt (f := SLOT_NUM) (show (slots - 1).toNat < 16 by omega)]
    omega
  case slotSize =>
    rw [BitField.get_replace_of_apart (by decide), BitField.get_replace_of_apart (by decide),
      BitField.get_replace_of_lt (f := SLOT_SIZE) (show (physicalWidth - 1).toNat < 64 by omega)]
    omega
  case dataSize =>
    rw [BitField.get_replace_of_apart (by decide),
      BitField.get_replace_of_lt (f := DATA_SIZE) (show (dataSize - 1).toNat < 32 by omega)]
    omega
  case frameLength =>
    rw [BitField.get_replace_of_apart (by decide),
      BitField.get_replace_of_lt (f := FRAME_LENGTH)
        (show (physicalWidth * slots - 1).toNat < 512 by omega)]
    omega
  case frameActiveLength =>
    rw [BitField.get_replace_of_lt (f := FS_ACTIVE_LENGTH)
      (show (physicalWidth - 1).toNat < 256 by omega)]
    omega
  case slotOthers =>
    intro i hnum hsz hdata
    rw [BitField.getLsbD_replace_of_not hnum, BitField.getLsbD_replace_of_not hdata,
      BitField.getLsbD_replace_of_not hsz]
  case frameOthers =>
    intro i hlength hactive
    rw [BitField.getLsbD_replace_of_not hactive, BitField.getLsbD_replace_of_not hlength]

/-! ## The bit clock -/

/-- The word length and bit clock fields, for a bit clock of `rate * ratio` out of a
master clock of `mclk`. -/
structure BclkSet (i2s i2s' : I2s) (p : PcmParams) (mclk ratio : Nat) : Prop where
  wordLength : wordLengthVal p.physicalWidth = some (DF_WORD_LENGTH.get i2s'.dataFormat)
  formatOthers : ∀ i, ¬ DF_WORD_LENGTH.Has i →
    i2s'.dataFormat.getLsbD i = i2s.dataFormat.getLsbD i
  bclkDiv : (CLK_BCLK_DIV.get i2s'.clkCtrl1).toNat = roundDiv mclk (p.rate.toNat * ratio)
  one_le : 1 ≤ (CLK_BCLK_DIV.get i2s'.clkCtrl1).toNat
  le_max : (CLK_BCLK_DIV.get i2s'.clkCtrl1).toNat ≤ 65535
  near : |((CLK_BCLK_DIV.get i2s'.clkCtrl1).toNat * p.rate.toNat * ratio : ℤ) - mclk| ≤
    (p.rate.toNat * ratio : ℤ) / 2

/-- A word length code fits its field. -/
theorem wordLengthVal_lt {physicalWidth val : BitVec 32}
    (h : wordLengthVal physicalWidth = some val) : val.toNat < 4 := by
  rw [wordLengthVal] at h
  split_ifs at h
  · obtain rfl := Option.some.inj h
    decide
  · obtain rfl := Option.some.inj h
    decide
  · obtain rfl := Option.some.inj h
    decide

/-- The checks between the choice of `bclk_ratio` and the divider. -/
theorem setBclkDiv_ok {i2s : I2s} {bclkDiv : BitVec 32}
    (h : (cv1800bSetBclkDiv i2s bclkDiv).2 = 0) :
    bclkDiv ≠ 0 ∧ bclkDiv.toNat ≤ 65535 ∧
      (cv1800bSetBclkDiv i2s bclkDiv).1 =
        { i2s with clkCtrl1 := CLK_BCLK_DIV.replace i2s.clkCtrl1 bclkDiv } := by
  rw [cv1800bSetBclkDiv] at h ⊢
  split at h
  · have hne : (-EINVAL : Int) ≠ 0 := by decide
    exact absurd h hne
  · rename_i hrange
    rw [if_neg hrange]
    rw [not_or, BitVec.not_lt] at hrange
    exact ⟨hrange.1, hrange.2, rfl⟩

theorem setWordLength_ok {i2s : I2s} {physicalWidth : BitVec 32}
    (h : (cv1800bSetWordLength i2s physicalWidth).2 = 0) :
    ∃ val, wordLengthVal physicalWidth = some val ∧
      (cv1800bSetWordLength i2s physicalWidth).1 =
        { i2s with dataFormat := DF_WORD_LENGTH.replace i2s.dataFormat val } := by
  rw [cv1800bSetWordLength] at h ⊢
  rcases hval : wordLengthVal physicalWidth with _ | val
  · rw [hval] at h
    have hne : (-EINVAL : Int) ≠ 0 := by decide
    exact absurd h hne
  · exact ⟨val, rfl, rfl⟩

theorem hwParamsBclk_ok {i2s : I2s} {p : PcmParams} {mclkRate : BitVec 32}
    (h : (hwParamsBclk i2s p mclkRate).2 = 0) :
    let tmp := p.rate * hwParamsBclkRatio i2s p
    let bclkDiv := divRoundClosest mclkRate tmp
    tmp.toNat = p.rate.toNat * (hwParamsBclkRatio i2s p).toNat ∧ tmp ≠ 0 ∧ bclkDiv ≠ 0 ∧
      bclkDiv.toNat ≤ 65535 ∧ ∃ val, wordLengthVal p.physicalWidth = some val ∧
        (hwParamsBclk i2s p mclkRate).1 =
          cv1800bResetI2s (cv1800bResetFifo (cv1800bEnableClocks (cv1800bSetTxMode
            { i2s with clkCtrl1 := CLK_BCLK_DIV.replace i2s.clkCtrl1 bclkDiv,
                       dataFormat := DF_WORD_LENGTH.replace i2s.dataFormat val }
            p.playback) true)) := by
  have hover : (-EOVERFLOW : Int) ≠ 0 := by decide
  have hinval : (-EINVAL : Int) ≠ 0 := by decide
  dsimp only [hwParamsBclk] at h ⊢
  split at h
  · exact absurd h hover
  rename_i hfit
  split at h
  · exact absurd h hinval
  rename_i hne
  rw [if_neg hfit, if_neg hne]
  obtain ⟨hbclk, heq⟩ := andThen_eq_zero h
  rw [heq] at h
  obtain ⟨hword, heq'⟩ := andThen_eq_zero h
  obtain ⟨hdiv, hmax, hset⟩ := setBclkDiv_ok hbclk
  obtain ⟨val, hval, hset'⟩ := setWordLength_ok hword
  refine ⟨?_, hne, hdiv, hmax, val, hval, ?_⟩
  · rw [BitVec.toNat_mul, Nat.mod_eq_of_lt (Nat.not_le.mp hfit)]
  · rw [heq, heq', hset', hset]

theorem hwParamsBclk_set {i2s : I2s} {p : PcmParams} {mclkRate : BitVec 32}
    (h : (hwParamsBclk i2s p mclkRate).2 = 0) :
    BclkSet i2s (hwParamsBclk i2s p mclkRate).1 p mclkRate.toNat
      (hwParamsBclkRatio i2s p).toNat := by
  obtain ⟨htmp, hne, hdiv, hmax, val, hval, heq⟩ := hwParamsBclk_ok h
  have hpos : 0 < p.rate.toNat * (hwParamsBclkRatio i2s p).toNat := by
    rw [← htmp]
    exact Nat.pos_of_ne_zero fun he => hne (BitVec.eq_of_toNat_eq he)
  have hround := divRoundClosest_toNat hdiv
  rw [htmp] at hround
  have hone : (divRoundClosest mclkRate (p.rate * hwParamsBclkRatio i2s p)).toNat ≠ 0 :=
    fun he => hdiv (BitVec.eq_of_toNat_eq he)
  rw [heq]
  have hget : CLK_BCLK_DIV.get (CLK_BCLK_DIV.replace i2s.clkCtrl1
      (divRoundClosest mclkRate (p.rate * hwParamsBclkRatio i2s p))) =
      divRoundClosest mclkRate (p.rate * hwParamsBclkRatio i2s p) :=
    BitField.get_replace_of_lt (Nat.lt_succ_of_le hmax) _
  have hnear := roundDiv_mul_near mclkRate.toNat hpos
  rw [← hround, ← hget, Nat.cast_mul, ← mul_assoc] at hnear
  refine ⟨?_, fun i hi => BitField.getLsbD_replace_of_not hi _ _, ?_, ?_, ?_, hnear⟩
  · rw [hval]
    exact congrArg some (BitField.get_replace_of_lt (wordLengthVal_lt hval) i2s.dataFormat).symm
  · exact (congrArg BitVec.toNat hget).trans hround
  · exact (congrArg BitVec.toNat hget) ▸ Nat.one_le_iff_ne_zero.mpr hone
  · exact (congrArg BitVec.toNat hget) ▸ hmax

/-- What the bit clock part of `hw_params` leaves of the rest. -/
structure BclkFrame (i2s i2s' : I2s) : Prop where
  slotSetting1 : i2s'.slotSetting1 = i2s.slotSetting1
  frameSetting : i2s'.frameSetting = i2s.frameSetting
  mclkDiv : CLK_MCLK_DIV.get i2s'.clkCtrl1 = CLK_MCLK_DIV.get i2s.clkCtrl1
  sysclkRate : i2s'.sysclkRate = i2s.sysclkRate

theorem hwParamsBclk_frame {i2s : I2s} {p : PcmParams} {mclkRate : BitVec 32}
    (h : (hwParamsBclk i2s p mclkRate).2 = 0) :
    BclkFrame i2s (hwParamsBclk i2s p mclkRate).1 := by
  obtain ⟨-, -, -, -, val, -, heq⟩ := hwParamsBclk_ok h
  rw [heq]
  exact ⟨rfl, rfl, BitField.get_replace_of_apart (by decide) _ _, rfl⟩

/-! ## `hw_params` -/

/-- The bit clock ratio a stream asks for, over the numbers. -/
def requestedRatio (i2s : I2s) (p : PcmParams) : Nat :=
  if i2s.bclkRatioFixed then i2s.bclkRatio.toNat else p.physicalWidth.toNat * p.channels.toNat

/-- The master clock it is divided from. -/
def requestedMclk (i2s : I2s) (p : PcmParams) : Nat :=
  if i2s.mclkRate = 0 then p.rate.toNat * 256 else i2s.mclkRate.toNat

/-- All that a stream asked for is in the registers. -/
structure HwParamsSet (i2s i2s' : I2s) (p : PcmParams) : Prop where
  slots : SlotsSet i2s i2s' p.channels.toNat p.physicalWidth.toNat p.dataWidth.toNat
  bclk : BclkSet i2s i2s' p (requestedMclk i2s p) (requestedRatio i2s p)
  /-- the driver's own master clock, where the machine supplies none -/
  mclk : i2s.mclkRate = 0 → MclkSet i2s' (p.rate.toNat * 256)
  /-- the machine's master clock is left alone -/
  supplied : i2s.mclkRate ≠ 0 → CLK_MCLK_DIV.get i2s'.clkCtrl1 = CLK_MCLK_DIV.get i2s.clkCtrl1 ∧
    i2s'.sysclkRate = i2s.sysclkRate

/-- The ratio of the slots let through does not wrap. -/
theorem toNat_hwParamsBclkRatio (i2s : I2s) {p : PcmParams} {dataSize : BitVec 32}
    (h : SlotsValid p.channels p.physicalWidth dataSize) :
    (hwParamsBclkRatio i2s p).toNat = requestedRatio i2s p := by
  rw [hwParamsBclkRatio, requestedRatio]
  split_ifs
  · rfl
  · exact toNat_frame h.1.2 h.2.1.2

/-- The two parts of a `hw_params` that succeeds: the slots, then the bit clock, with
the driver's own master clock in between where the machine supplies none. -/
theorem hwParams_ok {i2s : I2s} {p : PcmParams} {clk : Int}
    (h : (cv1800bI2sHwParams i2s p clk).2 = 0) :
    let slots := cv1800bSetSlotSettings i2s p.channels p.physicalWidth
      (BitVec.ofInt 32 p.dataWidth)
    let target := p.rate * CV1800B_DEF_MCLK_FS_RATIO
    let mclk := cv1800bI2sSetRateForMclk slots.1 target clk
    0 ≤ p.dataWidth ∧ slots.2 = 0 ∧
      ((i2s.mclkRate ≠ 0 ∧
        cv1800bI2sHwParams i2s p clk = hwParamsBclk slots.1 p i2s.mclkRate) ∨
      (i2s.mclkRate = 0 ∧ mclk.2 = 0 ∧
        cv1800bI2sHwParams i2s p clk = hwParamsBclk mclk.1 p target)) := by
  dsimp only [cv1800bI2sHwParams] at h ⊢
  split at h
  · rename_i hneg
    exact absurd h (Int.ne_of_lt hneg)
  rename_i hnonneg
  split at h
  · have hinval : (-EINVAL : Int) ≠ 0 := by decide
    exact absurd h hinval
  rename_i hzero
  rw [if_neg hnonneg, if_neg hzero]
  obtain ⟨hslots, heq⟩ := andThen_eq_zero h
  obtain ⟨-, hst⟩ := setSlotSettings_ok hslots
  have hrate : (cv1800bSetSlotSettings i2s p.channels p.physicalWidth
      (BitVec.ofInt 32 p.dataWidth)).1.mclkRate = i2s.mclkRate := by rw [hst]
  refine ⟨Int.not_lt.mp hnonneg, hslots, ?_⟩
  rw [heq] at h ⊢
  rw [hrate] at h ⊢
  by_cases hm : i2s.mclkRate = 0
  · right
    rw [if_neg (not_not.mpr hm)] at h ⊢
    obtain ⟨hmclk, heq'⟩ := andThen_eq_zero h
    exact ⟨hm, hmclk, heq'⟩
  · left
    rw [if_pos hm]
    exact ⟨hm, rfl⟩

theorem SlotsSet.congr {i2s b c : I2s} {slots physicalWidth dataSize : Nat}
    (h : SlotsSet i2s b slots physicalWidth dataSize) (hs : c.slotSetting1 = b.slotSetting1)
    (hf : c.frameSetting = b.frameSetting) : SlotsSet i2s c slots physicalWidth dataSize := by
  obtain ⟨h₁, h₂, h₃, h₄, h₅, h₆, h₇⟩ := h
  constructor
  · rwa [hs]
  · rwa [hs]
  · rwa [hs]
  · rwa [hf]
  · rwa [hf]
  · rwa [hs]
  · rwa [hf]

theorem MclkSet.congr {b c : I2s} {targetMclk : Nat} (h : MclkSet b targetMclk)
    (hc : BclkFrame b c) : MclkSet c targetMclk := by
  refine ⟨?_, h.one_le, h.le_max, ?_, ?_⟩
  · rw [hc.mclkDiv]
    exact h.div
  · rw [hc.sysclkRate]
    exact h.rate
  · rw [hc.sysclkRate]
    exact h.near

theorem BclkSet.of_dataFormat {i2s b c : I2s} {p : PcmParams} {mclk ratio : Nat}
    (h : BclkSet b c p mclk ratio) (hb : b.dataFormat = i2s.dataFormat) :
    BclkSet i2s c p mclk ratio :=
  ⟨h.wordLength, hb ▸ h.formatOthers, h.bclkDiv, h.one_le, h.le_max, h.near⟩

/-- A data width is an `int`. -/
theorem toNat_ofInt_dataWidth {x : Int} (h₀ : 0 ≤ x) (h : x < 2 ^ 31) :
    (BitVec.ofInt 32 x).toNat = x.toNat := by
  rw [BitVec.toNat_ofInt, Int.emod_eq_of_lt h₀ (by omega)]

theorem hwParams_set {i2s : I2s} {p : PcmParams} {clk : Int} (hlo : 8000 ≤ p.rate.toNat)
    (hhi : p.rate.toNat ≤ 192000) (hdata : p.dataWidth < 2 ^ 31)
    (h : (cv1800bI2sHwParams i2s p clk).2 = 0) :
    HwParamsSet i2s (cv1800bI2sHwParams i2s p clk).1 p := by
  obtain ⟨hnonneg, hslots, hrest⟩ := hwParams_ok h
  have hset := setSlotSettings_set hslots
  rw [toNat_ofInt_dataWidth hnonneg hdata] at hset
  obtain ⟨hvalid, hst⟩ := setSlotSettings_ok hslots
  have hratio := toNat_hwParamsBclkRatio i2s hvalid
  have htarget : (p.rate * CV1800B_DEF_MCLK_FS_RATIO).toNat = p.rate.toNat * 256 := by
    rw [BitVec.toNat_mul]
    exact Nat.mod_eq_of_lt (show p.rate.toNat * 256 < 2 ^ 32 by omega)
  -- only the slot and frame registers have changed so far
  generalize cv1800bSetSlotSettings i2s p.channels p.physicalWidth
    (BitVec.ofInt 32 p.dataWidth) = slots at hset hst hrest hslots
  have hslotRatio : hwParamsBclkRatio slots.1 p = hwParamsBclkRatio i2s p := by
    rw [hst]
    rfl
  rcases hrest with ⟨hm, heq⟩ | ⟨hm, hmclk, heq⟩
  · rw [heq] at h ⊢
    have hbclk := hwParamsBclk_set h
    have hframe := hwParamsBclk_frame h
    rw [hslotRatio, hratio] at hbclk
    refine ⟨hset.congr hframe.slotSetting1 hframe.frameSetting, ?_, fun h0 => absurd h0 hm, ?_⟩
    · rw [requestedMclk, if_neg hm]
      exact hbclk.of_dataFormat (by rw [hst])
    · intro _
      rw [hframe.mclkDiv, hframe.sysclkRate, hst]
      exact ⟨rfl, rfl⟩
  · rw [heq] at h ⊢
    have hbclk := hwParamsBclk_set h
    have hframe := hwParamsBclk_frame h
    have hmset := setRateForMclk_ok hmclk
    rw [htarget] at hmset hbclk
    obtain ⟨ctrl0, ctrl1, rate, hclocks⟩ :=
      setRateForMclk_frame slots.1 (p.rate * CV1800B_DEF_MCLK_FS_RATIO) clk
    have hmclkRatio : hwParamsBclkRatio (cv1800bI2sSetRateForMclk slots.1
        (p.rate * CV1800B_DEF_MCLK_FS_RATIO) clk).1 p = hwParamsBclkRatio i2s p := by
      rw [hclocks, ← hslotRatio]
      rfl
    rw [hmclkRatio, hratio] at hbclk
    refine ⟨hset.congr ?_ ?_, ?_, fun _ => hmset.congr hframe, fun h0 => absurd hm h0⟩
    · rw [hframe.slotSetting1, hclocks]
    · rw [hframe.frameSetting, hclocks]
    · rw [requestedMclk, if_pos hm]
      exact hbclk.of_dataFormat (by rw [hclocks, hst])

end LicheeRvNano
