import LicheeRvNano.I2sParams

/-!
# I2S controller: what a failed request leaves of the clock

`set_sysclk` and `hw_params` change the clock in steps, and an error between the steps
returns without taking back the ones made. The clocks are gated off before the rate
is asked for and stay off when the clock framework refuses it; `hw_params` programs
the dividers before it knows that it has a word length code.

The conditions here are on the request and on the state before it: a call keeps the
clock whenever it fails if and only if they hold (`setSysclk_failsClean`,
`hwParams_failsClean`).
-/

namespace LicheeRvNano

/-- The clock of two states is the same: gate, output, dividers and the machine's
master clock. -/
structure ClockKept (i2s i2s' : I2s) : Prop where
  audEn : CLK_AUD_EN.get i2s'.clkCtrl0 = CLK_AUD_EN.get i2s.clkCtrl0
  mclkOutEn : CLK_MCLK_OUT_EN.get i2s'.clkCtrl0 = CLK_MCLK_OUT_EN.get i2s.clkCtrl0
  mclkDiv : CLK_MCLK_DIV.get i2s'.clkCtrl1 = CLK_MCLK_DIV.get i2s.clkCtrl1
  bclkDiv : CLK_BCLK_DIV.get i2s'.clkCtrl1 = CLK_BCLK_DIV.get i2s.clkCtrl1
  mclkRate : i2s'.mclkRate = i2s.mclkRate

/-- If the call failed the clock is as it was. -/
def FailsClean (i2s : I2s) (r : I2s × Int) : Prop := r.2 ≠ 0 → ClockKept i2s r.1

theorem ClockKept.refl (i2s : I2s) : ClockKept i2s i2s := ⟨rfl, rfl, rfl, rfl, rfl⟩

theorem ClockKept.symm {i2s i2s' : I2s} (h : ClockKept i2s i2s') : ClockKept i2s' i2s :=
  ⟨h.audEn.symm, h.mclkOutEn.symm, h.mclkDiv.symm, h.bclkDiv.symm, h.mclkRate.symm⟩

theorem ClockKept.trans {a b c : I2s} (h : ClockKept a b) (h' : ClockKept b c) : ClockKept a c :=
  ⟨h'.audEn.trans h.audEn, h'.mclkOutEn.trans h.mclkOutEn, h'.mclkDiv.trans h.mclkDiv,
    h'.bclkDiv.trans h.bclkDiv, h'.mclkRate.trans h.mclkRate⟩

/-- Of two states with the same clock either may be the one before the call. -/
theorem ClockKept.failsClean_iff {i2s b : I2s} (h : ClockKept i2s b) (r : I2s × Int) :
    FailsClean i2s r ↔ FailsClean b r :=
  ⟨fun hr hne => h.symm.trans (hr hne), fun hr hne => h.trans (hr hne)⟩

theorem ClockKept.failsClean {i2s : I2s} {r : I2s × Int} (h : ClockKept i2s r.1) :
    FailsClean i2s r := fun _ => h

theorem failsClean_of_zero {i2s : I2s} {r : I2s × Int} (h : r.2 = 0) : FailsClean i2s r :=
  fun hne => absurd h hne

/-- For a call that failed. -/
theorem failsClean_iff_of_ne {i2s : I2s} {r : I2s × Int} (h : r.2 ≠ 0) :
    FailsClean i2s r ↔ ClockKept i2s r.1 :=
  ⟨fun hr => hr h, fun hr _ => hr⟩

/-! ## The master clock -/

theorem audEn_enableClocks (i2s : I2s) (enabled : Bool) :
    CLK_AUD_EN.get (cv1800bEnableClocks i2s enabled).clkCtrl0 = boolVal enabled :=
  BitField.get_replace_of_lt (by cases enabled <;> decide) _

theorem mclkOutEn_enableClocks (i2s : I2s) (enabled : Bool) :
    CLK_MCLK_OUT_EN.get (cv1800bEnableClocks i2s enabled).clkCtrl0 =
      CLK_MCLK_OUT_EN.get i2s.clkCtrl0 :=
  BitField.get_replace_of_apart (by decide) _ _

/-- The request is not refused by the clock framework, or there is nothing to ask for,
or the clocks are off anyway. -/
def MclkClean (i2s : I2s) (targetMclk : BitVec 32) (clk : Int) : Prop :=
  clk = 0 ∨ (∃ ret, cv1800bCalcMclkDiv targetMclk = .error ret) ∨
    CLK_AUD_EN.get i2s.clkCtrl0 = 0

/-- A refused request leaves the clocks gated off. -/
theorem setRateForMclk_refused (i2s : I2s) {targetMclk mclkDiv : BitVec 32} {clk : Int}
    (hcalc : cv1800bCalcMclkDiv targetMclk = .ok mclkDiv) (hclk : clk ≠ 0) :
    cv1800bI2sSetRateForMclk i2s targetMclk clk =
      ({ cv1800bEnableClocks i2s false with
         sysclkRate := targetMclk.setWidth 64 * mclkDiv.setWidth 64 }, clk) := by
  rw [setRateForMclk_of_ok i2s clk hcalc]
  exact if_pos hclk

/-- A request that is granted has the divider programmed and the clocks on. -/
theorem setRateForMclk_granted (i2s : I2s) {targetMclk mclkDiv : BitVec 32}
    (hcalc : cv1800bCalcMclkDiv targetMclk = .ok mclkDiv) :
    cv1800bI2sSetRateForMclk i2s targetMclk 0 =
      (cv1800bEnableClocks (cv1800bSetMclkDiv { cv1800bEnableClocks i2s false with
         sysclkRate := targetMclk.setWidth 64 * mclkDiv.setWidth 64 } mclkDiv) true, 0) := by
  rw [setRateForMclk_of_ok i2s 0 hcalc]
  exact if_neg (not_not.mpr rfl)

theorem setRateForMclk_failsClean (i2s : I2s) (targetMclk : BitVec 32) (clk : Int) :
    FailsClean i2s (cv1800bI2sSetRateForMclk i2s targetMclk clk) ↔
      MclkClean i2s targetMclk clk := by
  rcases hcalc : cv1800bCalcMclkDiv targetMclk with ret | mclkDiv
  · rw [setRateForMclk_of_error i2s clk hcalc]
    exact iff_of_true (ClockKept.refl i2s).failsClean (.inr (.inl ⟨ret, hcalc⟩))
  · by_cases hclk : clk = 0
    · subst hclk
      rw [setRateForMclk_granted i2s hcalc]
      exact iff_of_true (failsClean_of_zero rfl) (.inl rfl)
    · rw [setRateForMclk_refused i2s hcalc hclk, failsClean_iff_of_ne hclk]
      constructor
      · intro hkept
        have hoff := (audEn_enableClocks i2s false).symm.trans hkept.audEn
        exact .inr (.inr hoff.symm)
      · rintro (h0 | ⟨ret, herr⟩ | hoff)
        · exact absurd h0 hclk
        · rw [hcalc] at herr
          cases herr
        · exact ⟨(audEn_enableClocks i2s false).trans hoff.symm, mclkOutEn_enableClocks i2s false,
            rfl, rfl, rfl⟩

/-- After a granted request `set_sysclk` does not fail. -/
theorem setSysclk_failsClean (i2s : I2s) (freq : BitVec 32) (clockOut : Bool) (clk : Int) :
    FailsClean i2s (cv1800bI2sDaiSetSysclk i2s freq clockOut clk) ↔ MclkClean i2s freq clk := by
  rw [← setRateForMclk_failsClean, cv1800bI2sDaiSetSysclk]
  by_cases h : (cv1800bI2sSetRateForMclk i2s freq clk).2 = 0
  · rw [andThen_ok h]
    exact iff_of_true (failsClean_of_zero rfl) (failsClean_of_zero h)
  · rw [andThen_fail h]

/-! ## The bit clock -/

/-- The divider from a master clock to `rate * ratio`, `none` where there is none. -/
def dividerFor (rate ratio mclkRate : BitVec 32) : Option (BitVec 32) :=
  if 2 ^ 32 ≤ rate.toNat * ratio.toNat ∨ rate * ratio = 0 ∨
      divRoundClosest mclkRate (rate * ratio) = 0 ∨
      0xFFFF < divRoundClosest mclkRate (rate * ratio) then none
  else some (divRoundClosest mclkRate (rate * ratio))

/-- The divider of the bit clock that a stream asks for. -/
def bclkDivider (i2s : I2s) (p : PcmParams) (mclkRate : BitVec 32) : Option (BitVec 32) :=
  dividerFor p.rate (hwParamsBclkRatio i2s p) mclkRate

/-- The driver refuses the stream's bit clock. -/
def BclkRefused (i2s : I2s) (p : PcmParams) (mclkRate : BitVec 32) : Prop :=
  bclkDivider i2s p mclkRate = none ∨ wordLengthVal p.physicalWidth = none

/-- A width without a word length code is refused before the divider is programmed,
or the divider is the one that is there. -/
def BclkClean (i2s : I2s) (p : PcmParams) (mclkRate : BitVec 32) : Prop :=
  (wordLengthVal p.physicalWidth).isSome ∨ bclkDivider i2s p mclkRate = none ∨
    bclkDivider i2s p mclkRate = some (CLK_BCLK_DIV.get i2s.clkCtrl1)

theorem hwParamsBclk_of_none {i2s : I2s} {p : PcmParams} {mclkRate : BitVec 32}
    (h : bclkDivider i2s p mclkRate = none) :
    ∃ ret, ret ≠ 0 ∧ hwParamsBclk i2s p mclkRate = (i2s, ret) := by
  have hover : (-EOVERFLOW : Int) ≠ 0 := by decide
  have hinval : (-EINVAL : Int) ≠ 0 := by decide
  rw [bclkDivider, dividerFor] at h
  split at h
  · rename_i hbad
    dsimp only [hwParamsBclk]
    split
    · exact ⟨_, hover, rfl⟩
    · rename_i hfit
      split
      · exact ⟨_, hinval, rfl⟩
      · rename_i hne
        have hrange := (hbad.resolve_left hfit).resolve_left hne
        have hset : cv1800bSetBclkDiv i2s (divRoundClosest mclkRate
            (p.rate * hwParamsBclkRatio i2s p)) = (i2s, -EINVAL) := if_pos hrange
        rw [hset, andThen_fail hinval]
        exact ⟨_, hinval, rfl⟩
  · cases h

/-- The divider is programmed before the word length is looked up. -/
theorem hwParamsBclk_of_some {i2s : I2s} {p : PcmParams} {mclkRate bclkDiv : BitVec 32}
    (h : bclkDivider i2s p mclkRate = some bclkDiv) :
    bclkDiv.toNat ≤ 65535 ∧
      (wordLengthVal p.physicalWidth = none → hwParamsBclk i2s p mclkRate =
        ({ i2s with clkCtrl1 := CLK_BCLK_DIV.replace i2s.clkCtrl1 bclkDiv }, -EINVAL)) ∧
      ((wordLengthVal p.physicalWidth).isSome → (hwParamsBclk i2s p mclkRate).2 = 0) := by
  rw [bclkDivider, dividerFor] at h
  split at h
  · cases h
  rename_i hgood
  obtain rfl := Option.some.inj h
  rw [not_or, not_or] at hgood
  obtain ⟨hfit, hne, hrange⟩ := hgood
  have hset : cv1800bSetBclkDiv i2s (divRoundClosest mclkRate
      (p.rate * hwParamsBclkRatio i2s p)) =
      ({ i2s with
         clkCtrl1 := CLK_BCLK_DIV.replace i2s.clkCtrl1
           (divRoundClosest mclkRate (p.rate * hwParamsBclkRatio i2s p)) }, 0) :=
    if_neg hrange
  have hmax := BitVec.not_lt.mp (not_or.mp hrange).2
  refine ⟨hmax, fun hword => ?_, fun hword => ?_⟩
  · dsimp only [hwParamsBclk]
    rw [if_neg hfit, if_neg hne, hset, andThen_ok rfl]
    simp only [cv1800bSetWordLength, hword]
    rfl
  · obtain ⟨val, hval⟩ := Option.isSome_iff_exists.mp hword
    dsimp only [hwParamsBclk]
    rw [if_neg hfit, if_neg hne, hset, andThen_ok rfl]
    simp only [cv1800bSetWordLength, hval]
    rfl

/-- The clock of a state, the bit clock divider aside. -/
def MclkKept (i2s b : I2s) : Prop :=
  CLK_AUD_EN.get b.clkCtrl0 = CLK_AUD_EN.get i2s.clkCtrl0 ∧
    CLK_MCLK_DIV.get b.clkCtrl1 = CLK_MCLK_DIV.get i2s.clkCtrl1

/-- What comes before the bit clock leaves these alone. -/
structure BclkStart (i2s b : I2s) : Prop where
  mclkOutEn : CLK_MCLK_OUT_EN.get b.clkCtrl0 = CLK_MCLK_OUT_EN.get i2s.clkCtrl0
  bclkDiv : CLK_BCLK_DIV.get b.clkCtrl1 = CLK_BCLK_DIV.get i2s.clkCtrl1
  mclkRate : b.mclkRate = i2s.mclkRate
  fixed : b.bclkRatioFixed = i2s.bclkRatioFixed
  ratio : b.bclkRatio = i2s.bclkRatio

theorem BclkStart.divider {i2s b : I2s} (h : BclkStart i2s b) (p : PcmParams)
    (mclkRate : BitVec 32) : bclkDivider b p mclkRate = bclkDivider i2s p mclkRate := by
  rw [bclkDivider, bclkDivider, hwParamsBclkRatio, hwParamsBclkRatio, h.fixed, h.ratio]

/-- From a state whose master clock may have been changed on the way. -/
theorem hwParamsBclk_failsClean {i2s b : I2s} (hb : BclkStart i2s b) (p : PcmParams)
    (mclkRate : BitVec 32) :
    FailsClean i2s (hwParamsBclk b p mclkRate) ↔
      (BclkRefused i2s p mclkRate → MclkKept i2s b ∧ BclkClean i2s p mclkRate) := by
  have hinval : (-EINVAL : Int) ≠ 0 := by decide
  have hdivider := hb.divider p mclkRate
  rcases hdiv : bclkDivider i2s p mclkRate with _ | bclkDiv
  · obtain ⟨ret, hret, heq⟩ := hwParamsBclk_of_none (hdivider.trans hdiv)
    rw [heq, failsClean_iff_of_ne hret]
    constructor
    · exact fun hk _ => ⟨⟨hk.audEn, hk.mclkDiv⟩, .inr (.inl hdiv)⟩
    · intro h
      obtain ⟨⟨haud, hmclk⟩, -⟩ := h (.inl hdiv)
      exact ⟨haud, hb.mclkOutEn, hmclk, hb.bclkDiv, hb.mclkRate⟩
  · obtain ⟨hmax, hnone, hsome⟩ := hwParamsBclk_of_some (hdivider.trans hdiv)
    rcases hword : wordLengthVal p.physicalWidth with _ | val
    · have hget : CLK_BCLK_DIV.get (CLK_BCLK_DIV.replace b.clkCtrl1 bclkDiv) = bclkDiv :=
        BitField.get_replace_of_lt (Nat.lt_succ_of_le hmax) _
      have hbeside : CLK_MCLK_DIV.get (CLK_BCLK_DIV.replace b.clkCtrl1 bclkDiv) =
          CLK_MCLK_DIV.get b.clkCtrl1 := BitField.get_replace_of_apart (by decide) _ _
      rw [hnone hword, failsClean_iff_of_ne hinval]
      constructor
      · intro hk _
        refine ⟨⟨hk.audEn, hbeside.symm.trans hk.mclkDiv⟩, .inr (.inr ?_)⟩
        rw [hdiv, ← hget]
        exact congrArg some hk.bclkDiv
      · intro h
        obtain ⟨⟨haud, hmclk⟩, hclean⟩ := h (.inr hword)
        have hsame : bclkDiv = CLK_BCLK_DIV.get i2s.clkCtrl1 := by
          rw [BclkClean, hword, hdiv] at hclean
          rcases hclean with h' | h' | h'
          · cases h'
          · cases h'
          · exact Option.some.inj h'
        exact ⟨haud, hb.mclkOutEn, hbeside.trans hmclk, hget.trans hsame, hb.mclkRate⟩
    · have hzero := hsome (by rw [hword]; rfl)
      have hfine : ¬ BclkRefused i2s p mclkRate := by
        rintro (h | h)
        · rw [hdiv] at h
          cases h
        · rw [hword] at h
          cases h
      exact iff_of_true (failsClean_of_zero hzero) fun h => absurd h hfine

/-! ## `hw_params` -/

/-- What `hw_params` checks before it writes anything. -/
def StreamValid (p : PcmParams) : Prop :=
  0 ≤ p.dataWidth ∧ p.rate ≠ 0 ∧
    SlotsValid p.channels p.physicalWidth (BitVec.ofInt 32 p.dataWidth)

theorem setSlotSettings_of_not {i2s : I2s} {slots physicalWidth dataSize : BitVec 32}
    (h : ¬ SlotsValid slots physicalWidth dataSize) :
    cv1800bSetSlotSettings i2s slots physicalWidth dataSize = (i2s, -EINVAL) := by
  have hne : (cv1800bSetSlotSettings i2s slots physicalWidth dataSize).2 ≠ 0 :=
    fun h0 => h (setSlotSettings_ok h0).1
  dsimp only [cv1800bSetSlotSettings] at hne ⊢
  split_ifs at hne ⊢
  · rfl
  · rfl
  · rfl
  · exact absurd rfl hne

theorem setSlotSettings_of_valid (i2s : I2s) {slots physicalWidth dataSize : BitVec 32}
    (h : SlotsValid slots physicalWidth dataSize) :
    (cv1800bSetSlotSettings i2s slots physicalWidth dataSize).2 = 0 := by
  obtain ⟨⟨hs, hs'⟩, ⟨hw, hw'⟩, ⟨hd, hd'⟩, hframe⟩ := h
  have hlen : (physicalWidth * slots - 1).toNat = physicalWidth.toNat * slots.toNat - 1 := by
    rw [toNat_sub_one (by rw [toNat_frame hs' hw']; exact Nat.mul_pos hw hs), toNat_frame hs' hw']
  have hwidth := toNat_sub_one hw
  have hzero : ¬ (slots = 0 ∨ physicalWidth = 0 ∨ dataSize = 0) := by
    rintro (rfl | rfl | rfl)
    · exact absurd hs (by decide)
    · exact absurd hw (by decide)
    · exact absurd hd (by decide)
  have hmax : ¬ (16 < slots ∨ 64 < physicalWidth ∨ 32 < dataSize) := by
    rintro (hlt | hlt | hlt)
    · exact absurd hs' (Nat.not_le.mpr hlt)
    · exact absurd hw' (Nat.not_le.mpr hlt)
    · exact absurd hd' (Nat.not_le.mpr hlt)
  have hfits : ¬ (511 < physicalWidth * slots - 1 ∨ 255 < physicalWidth - 1) := by
    rintro (hlt | hlt)
    · have hlt' : 511 < (physicalWidth * slots - 1).toNat := hlt
      omega
    · have hlt' : 255 < (physicalWidth - 1).toNat := hlt
      omega
  dsimp only [cv1800bSetSlotSettings]
  rw [if_neg hzero, if_neg hmax, if_neg hfits]

/-- A stream that is not valid is refused with nothing written. -/
theorem hwParams_of_not {i2s : I2s} {p : PcmParams} (clk : Int) (h : ¬ StreamValid p) :
    (cv1800bI2sHwParams i2s p clk).1 = i2s := by
  dsimp only [cv1800bI2sHwParams]
  split
  · rfl
  rename_i hnonneg
  split
  · rfl
  rename_i hzero
  have hslots : ¬ SlotsValid p.channels p.physicalWidth (BitVec.ofInt 32 p.dataWidth) :=
    fun hv => h ⟨Int.not_lt.mp hnonneg, fun h0 => hzero (.inr (.inl h0)), hv⟩
  have hinval : (-EINVAL : Int) ≠ 0 := by decide
  rw [setSlotSettings_of_not hslots, andThen_fail hinval]

/-- A valid stream gets as far as the clock. -/
theorem hwParams_of_valid (i2s : I2s) {p : PcmParams} (clk : Int) (h : StreamValid p) :
    ∃ b : I2s, b.clkCtrl0 = i2s.clkCtrl0 ∧ b.clkCtrl1 = i2s.clkCtrl1 ∧ BclkStart i2s b ∧
      cv1800bI2sHwParams i2s p clk =
        if i2s.mclkRate ≠ 0 then hwParamsBclk b p i2s.mclkRate
        else
          andThen (cv1800bI2sSetRateForMclk b (p.rate * CV1800B_DEF_MCLK_FS_RATIO) clk)
            fun c => hwParamsBclk c p (p.rate * CV1800B_DEF_MCLK_FS_RATIO) := by
  obtain ⟨hnonneg, hrate, hslots⟩ := h
  have hok := setSlotSettings_of_valid i2s hslots
  obtain ⟨-, hst⟩ := setSlotSettings_ok hok
  have hzero : ¬ (p.channels = 0 ∨ p.rate = 0 ∨ p.physicalWidth = 0) := by
    rintro (h0 | h0 | h0)
    · have hs := hslots.1.1
      rw [h0] at hs
      exact absurd hs (by decide)
    · exact hrate h0
    · have hw := hslots.2.1.1
      rw [h0] at hw
      exact absurd hw (by decide)
  refine ⟨(cv1800bSetSlotSettings i2s p.channels p.physicalWidth
    (BitVec.ofInt 32 p.dataWidth)).1, ?_, ?_, ?_, ?_⟩
  · rw [hst]
  · rw [hst]
  · rw [hst]
    exact ⟨rfl, rfl, rfl, rfl, rfl⟩
  · dsimp only [cv1800bI2sHwParams]
    rw [if_neg (Int.not_lt.mpr hnonneg), if_neg hzero, andThen_ok hok, hst]

/-- The condition for `hw_params`. It is about the stream, the machine's master clock,
what the clock framework answers and the clock registers before the call. -/
def HwParamsClean (i2s : I2s) (p : PcmParams) (clk : Int) : Prop :=
  StreamValid p →
    (i2s.mclkRate ≠ 0 → BclkClean i2s p i2s.mclkRate) ∧
    (i2s.mclkRate = 0 →
      MclkClean i2s (p.rate * CV1800B_DEF_MCLK_FS_RATIO) clk ∧
      (clk = 0 → ∀ mclkDiv,
        cv1800bCalcMclkDiv (p.rate * CV1800B_DEF_MCLK_FS_RATIO) = .ok mclkDiv →
        BclkRefused i2s p (p.rate * CV1800B_DEF_MCLK_FS_RATIO) →
        (CLK_AUD_EN.get i2s.clkCtrl0 = 1 ∧ CLK_MCLK_DIV.get i2s.clkCtrl1 = mclkDiv) ∧
          BclkClean i2s p (p.rate * CV1800B_DEF_MCLK_FS_RATIO)))

/-- A granted master clock leaves the rest of the clock to the bit clock part. -/
theorem setRateForMclk_start {i2s b : I2s} (hb : BclkStart i2s b) {targetMclk mclkDiv : BitVec 32}
    (hcalc : cv1800bCalcMclkDiv targetMclk = .ok mclkDiv) :
    BclkStart i2s (cv1800bI2sSetRateForMclk b targetMclk 0).1 := by
  rw [setRateForMclk_granted b hcalc]
  refine ⟨?_, ?_, hb.mclkRate, hb.fixed, hb.ratio⟩
  · apply (mclkOutEn_enableClocks _ true).trans
    exact (mclkOutEn_enableClocks b false).trans hb.mclkOutEn
  · exact (BitField.get_replace_of_apart (f := CLK_MCLK_DIV) (by decide) _ _).trans hb.bclkDiv

/-- It keeps the master clock if that was on with the same divider. -/
theorem setRateForMclk_mclkKept (i2s b : I2s) {targetMclk mclkDiv : BitVec 32}
    (hcalc : cv1800bCalcMclkDiv targetMclk = .ok mclkDiv) :
    MclkKept i2s (cv1800bI2sSetRateForMclk b targetMclk 0).1 ↔
      CLK_AUD_EN.get i2s.clkCtrl0 = 1 ∧ CLK_MCLK_DIV.get i2s.clkCtrl1 = mclkDiv := by
  obtain ⟨-, -, -, hmax⟩ := calcMclkDiv_ok hcalc
  rw [setRateForMclk_granted b hcalc, MclkKept]
  have haud := audEn_enableClocks (cv1800bSetMclkDiv { cv1800bEnableClocks b false with
    sysclkRate := targetMclk.setWidth 64 * mclkDiv.setWidth 64 } mclkDiv) true
  have hdiv : CLK_MCLK_DIV.get (CLK_MCLK_DIV.replace b.clkCtrl1 mclkDiv) = mclkDiv :=
    BitField.get_replace_of_lt (Nat.lt_succ_of_le hmax) _
  rw [haud]
  constructor
  · rintro ⟨h₁, h₂⟩
    exact ⟨h₁.symm, h₂.symm.trans hdiv⟩
  · rintro ⟨h₁, h₂⟩
    exact ⟨h₁.symm, hdiv.trans h₂.symm⟩

theorem bclkClean_of_not_refused {i2s : I2s} {p : PcmParams} {mclkRate : BitVec 32}
    (h : ¬ BclkRefused i2s p mclkRate) : BclkClean i2s p mclkRate := by
  rw [BclkRefused, not_or] at h
  exact .inl (Option.isSome_iff_ne_none.mpr h.2)

/-- The machine supplies the master clock, which is left alone. -/
theorem hwParams_failsClean_supplied {i2s b : I2s} {p : PcmParams} {clk : Int}
    (hvalid : StreamValid p) (hb : BclkStart i2s b) (hkept : MclkKept i2s b)
    (hm : i2s.mclkRate ≠ 0) :
    FailsClean i2s (hwParamsBclk b p i2s.mclkRate) ↔ HwParamsClean i2s p clk := by
  rw [hwParamsBclk_failsClean hb]
  constructor
  · intro h _
    refine ⟨fun _ => ?_, fun h0 => absurd h0 hm⟩
    by_cases href : BclkRefused i2s p i2s.mclkRate
    · exact (h href).2
    · exact bclkClean_of_not_refused href
  · exact fun h _ => ⟨hkept, (h hvalid).1 hm⟩

/-- The driver asks for a master clock of its own. -/
theorem hwParams_failsClean_own {i2s b : I2s} {p : PcmParams} {clk : Int}
    (hvalid : StreamValid p) (hb : BclkStart i2s b) (hctrl0 : b.clkCtrl0 = i2s.clkCtrl0)
    (hctrl1 : b.clkCtrl1 = i2s.clkCtrl1) (hm : i2s.mclkRate = 0) :
    FailsClean i2s (andThen (cv1800bI2sSetRateForMclk b (p.rate * CV1800B_DEF_MCLK_FS_RATIO) clk)
        fun c => hwParamsBclk c p (p.rate * CV1800B_DEF_MCLK_FS_RATIO)) ↔
      HwParamsClean i2s p clk := by
  have hsame : ClockKept i2s b := by
    refine ⟨?_, ?_, ?_, ?_, hb.mclkRate⟩
    · rw [hctrl0]
    · rw [hctrl0]
    · rw [hctrl1]
    · rw [hctrl1]
  have hclean : MclkClean b (p.rate * CV1800B_DEF_MCLK_FS_RATIO) clk ↔
      MclkClean i2s (p.rate * CV1800B_DEF_MCLK_FS_RATIO) clk := by
    rw [MclkClean, MclkClean, hctrl0]
  have hown : HwParamsClean i2s p clk ↔
      MclkClean i2s (p.rate * CV1800B_DEF_MCLK_FS_RATIO) clk ∧
      (clk = 0 → ∀ mclkDiv,
        cv1800bCalcMclkDiv (p.rate * CV1800B_DEF_MCLK_FS_RATIO) = .ok mclkDiv →
        BclkRefused i2s p (p.rate * CV1800B_DEF_MCLK_FS_RATIO) →
        (CLK_AUD_EN.get i2s.clkCtrl0 = 1 ∧ CLK_MCLK_DIV.get i2s.clkCtrl1 = mclkDiv) ∧
          BclkClean i2s p (p.rate * CV1800B_DEF_MCLK_FS_RATIO)) :=
    ⟨fun h => (h hvalid).2 hm, fun h _ => ⟨fun h0 => absurd hm h0, fun _ => h⟩⟩
  rw [hown]
  generalize p.rate * CV1800B_DEF_MCLK_FS_RATIO = target at hclean ⊢
  by_cases hzero : (cv1800bI2sSetRateForMclk b target clk).2 = 0
  · obtain ⟨mclkDiv, hcalc, rfl⟩ := setRateForMclk_eq_zero hzero
    rw [andThen_ok hzero, hwParamsBclk_failsClean (setRateForMclk_start hb hcalc),
      setRateForMclk_mclkKept i2s b hcalc]
    constructor
    · intro h
      refine ⟨.inl rfl, fun _ mclkDiv' hcalc' href => ?_⟩
      obtain rfl := Except.ok.inj (hcalc.symm.trans hcalc')
      exact h href
    · exact fun h href => h.2 rfl mclkDiv hcalc href
  · rw [andThen_fail hzero, hsame.failsClean_iff, setRateForMclk_failsClean, hclean]
    refine ⟨fun h => ⟨h, ?_⟩, fun h => h.1⟩
    -- the clock framework was not asked
    rintro rfl mclkDiv hcalc
    rw [setRateForMclk_granted b hcalc] at hzero
    exact absurd rfl hzero

theorem hwParams_failsClean (i2s : I2s) (p : PcmParams) (clk : Int) :
    FailsClean i2s (cv1800bI2sHwParams i2s p clk) ↔ HwParamsClean i2s p clk := by
  by_cases hvalid : StreamValid p
  · obtain ⟨b, hctrl0, hctrl1, hb, heq⟩ := hwParams_of_valid i2s clk hvalid
    rw [heq]
    by_cases hm : i2s.mclkRate = 0
    · rw [if_neg (not_not.mpr hm)]
      exact hwParams_failsClean_own hvalid hb hctrl0 hctrl1 hm
    · have hkept : MclkKept i2s b := by
        rw [MclkKept, hctrl0, hctrl1]
        exact ⟨rfl, rfl⟩
      rw [if_pos hm]
      exact hwParams_failsClean_supplied hvalid hb hkept hm
  · have hsame : ClockKept i2s (cv1800bI2sHwParams i2s p clk).1 := by
      rw [hwParams_of_not clk hvalid]
      exact ClockKept.refl i2s
    exact iff_of_true hsame.failsClean fun h => absurd h hvalid

/-- **When a failed clock request leaves the clock as it was.** For every state, every
request and every answer of the clock framework. -/
theorem failed_request_keeps_clock_iff (i2s : I2s) (freq : BitVec 32) (clockOut : Bool)
    (p : PcmParams) (clk : Int) :
    (FailsClean i2s (cv1800bI2sDaiSetSysclk i2s freq clockOut clk) ↔ MclkClean i2s freq clk) ∧
      (FailsClean i2s (cv1800bI2sHwParams i2s p clk) ↔ HwParamsClean i2s p clk) :=
  ⟨setSysclk_failsClean i2s freq clockOut clk, hwParams_failsClean i2s p clk⟩

/-- A controller with a stream set up. -/
def streamSetUp : I2s := (cv1800bI2sHwParams afterReset ⟨48000, 2, 16, 16, false⟩ 0).1

/-- A clock framework that refuses 12.288 MHz leaves a stream with its clock off. -/
theorem failed_request_keeps_clock_refused :
    CLK_AUD_EN.get streamSetUp.clkCtrl0 = 1 ∧
      ¬ (∀ (i2s : I2s) (freq : BitVec 32) (clockOut : Bool) (clk : Int),
        FailsClean i2s (cv1800bI2sDaiSetSysclk i2s freq clockOut clk)) := by
  refine ⟨by decide, fun h => ?_⟩
  have hkept := (h streamSetUp 12288000 false (-EINVAL) (by decide)).audEn
  exact absurd hkept (by decide)

end LicheeRvNano
