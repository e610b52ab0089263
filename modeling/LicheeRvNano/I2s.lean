import LicheeRvNano.BitField
import LicheeRvNano.Kernel
import LicheeRvNano.Machine

/-!
# I2S controller

`cv1800b-tdm.c` with the capture patch applied. The registers are memory that the
driver reads, modifies in fields and writes back. The clock framework is outside:
what `clk_set_rate` returns is an argument of the operations that call it.

A function that can fail returns the state it leaves and its return value, so the
writes made before an early return are there.
-/

namespace LicheeRvNano

/-! ## Register fields -/

abbrev CV1800B_DEF_FREQ : BitVec 32 := 24576000
abbrev CV1800B_DEF_MCLK_FS_RATIO : BitVec 32 := 256

def BLK_TX_MODE : BitField 32 := .bit 0
def BLK_MASTER_MODE : BitField 32 := .bit 1
def BLK_DMA_MODE : BitField 32 := .bit 7
def CLK_MCLK_DIV : BitField 32 := .genmask 15 0
def CLK_BCLK_DIV : BitField 32 := .genmask 31 16
def CLK_AUD_CLK_SEL : BitField 32 := .bit 0
def CLK_BCLK_OUT_CLK_FORCE_EN : BitField 32 := .bit 6
def CLK_MCLK_OUT_EN : BitField 32 := .bit 7
def CLK_AUD_EN : BitField 32 := .bit 8
def RST_I2S_RESET_RX : BitField 32 := .bit 0
def RST_I2S_RESET_TX : BitField 32 := .bit 1
def FIFO_RX_RESET : BitField 32 := .bit 0
def FIFO_TX_RESET : BitField 32 := .bit 16
def I2S_ENABLE : BitField 32 := .bit 0
def FRAME_LENGTH : BitField 32 := .genmask 8 0
def FS_ACTIVE_LENGTH : BitField 32 := .genmask 23 16
def DF_WORD_LENGTH : BitField 32 := .genmask 2 1
def FIFO_RX_THRESHOLD : BitField 32 := .genmask 4 0
def FIFO_TX_THRESHOLD : BitField 32 := .genmask 20 16
def FIFO_TX_HIGH_THRESHOLD : BitField 32 := .genmask 28 24
def SLOT_NUM : BitField 32 := .genmask 3 0
def SLOT_SIZE : BitField 32 := .genmask 13 8
def DATA_SIZE : BitField 32 := .genmask 20 16

/-- The controller's registers and the fields of `struct cv1800b_i2s` that its
operations use. -/
structure I2s where
  blkModeSetting : BitVec 32
  frameSetting : BitVec 32
  slotSetting1 : BitVec 32
  dataFormat : BitVec 32
  i2sEnable : BitVec 32
  i2sReset : BitVec 32
  fifoThreshold : BitVec 32
  fifoReset : BitVec 32
  clkCtrl0 : BitVec 32
  clkCtrl1 : BitVec 32
  /-- the rate last asked of the `mclk` clock -/
  sysclkRate : BitVec 64
  mclkRate : BitVec 32
  bclkRatioFixed : Bool
  bclkRatio : BitVec 32

/-! ## The helpers -/

/-- `cv1800b_reset_fifo`. -/
def cv1800bResetFifo (i2s : I2s) : I2s :=
  let i2s :=
    { i2s with fifoReset := FIFO_TX_RESET.replace (FIFO_RX_RESET.replace i2s.fifoReset 1) 1 }
  { i2s with fifoReset := FIFO_TX_RESET.replace (FIFO_RX_RESET.replace i2s.fifoReset 0) 0 }

/-- `cv1800b_reset_i2s`. -/
def cv1800bResetI2s (i2s : I2s) : I2s :=
  let i2s :=
    { i2s with
      i2sReset := RST_I2S_RESET_TX.replace (RST_I2S_RESET_RX.replace i2s.i2sReset 1) 1 }
  { i2s with
    i2sReset := RST_I2S_RESET_TX.replace (RST_I2S_RESET_RX.replace i2s.i2sReset 0) 0 }

/-- `cv1800b_set_mclk_div`. -/
def cv1800bSetMclkDiv (i2s : I2s) (mclkDiv : BitVec 32) : I2s :=
  { i2s with clkCtrl1 := CLK_MCLK_DIV.replace i2s.clkCtrl1 mclkDiv }

/-- A C `bool` where a `u32` is expected. -/
def boolVal (b : Bool) : BitVec 32 := if b then 1 else 0

/-- `cv1800b_set_tx_mode`. -/
def cv1800bSetTxMode (i2s : I2s) (isTx : Bool) : I2s :=
  { i2s with blkModeSetting := BLK_TX_MODE.replace i2s.blkModeSetting (boolVal isTx) }

/-- `cv1800b_set_bclk_div`. -/
def cv1800bSetBclkDiv (i2s : I2s) (bclkDiv : BitVec 32) : I2s × Int :=
  if bclkDiv = 0 ∨ 0xFFFF < bclkDiv then (i2s, -EINVAL)
  else ({ i2s with clkCtrl1 := CLK_BCLK_DIV.replace i2s.clkCtrl1 bclkDiv }, 0)

/-- The word length code of a physical width, `enum cv1800b_tdm_word_length`. -/
def wordLengthVal (physicalWidth : BitVec 32) : Option (BitVec 32) :=
  if physicalWidth = 8 then some 0
  else if physicalWidth = 16 then some 1
  else if physicalWidth = 32 then some 2
  else none

/-- `cv1800b_set_word_length`. -/
def cv1800bSetWordLength (i2s : I2s) (physicalWidth : BitVec 32) : I2s × Int :=
  match wordLengthVal physicalWidth with
  | none => (i2s, -EINVAL)
  | some val => ({ i2s with dataFormat := DF_WORD_LENGTH.replace i2s.dataFormat val }, 0)

/-- `cv1800b_enable_clocks`. -/
def cv1800bEnableClocks (i2s : I2s) (enabled : Bool) : I2s :=
  { i2s with clkCtrl0 := CLK_AUD_EN.replace i2s.clkCtrl0 (boolVal enabled) }

/-- `cv1800b_set_slot_settings`. -/
def cv1800bSetSlotSettings (i2s : I2s) (slots physicalWidth dataSize : BitVec 32) : I2s × Int :=
  if slots = 0 ∨ physicalWidth = 0 ∨ dataSize = 0 then (i2s, -EINVAL)
  else if 16 < slots ∨ 64 < physicalWidth ∨ 32 < dataSize then (i2s, -EINVAL)
  else
    let slotNum := slots - 1
    let slotSize := physicalWidth - 1
    let frameLength := physicalWidth * slots - 1
    let frameActiveLength := physicalWidth - 1
    if 511 < frameLength ∨ 255 < frameActiveLength then (i2s, -EINVAL)
    else
      let slotSetting1 := SLOT_NUM.replace
        (DATA_SIZE.replace (SLOT_SIZE.replace i2s.slotSetting1 slotSize) (dataSize - 1)) slotNum
      let frameSetting := FS_ACTIVE_LENGTH.replace
        (FRAME_LENGTH.replace i2s.frameSetting frameLength) frameActiveLength
      ({ i2s with slotSetting1 := slotSetting1, frameSetting := frameSetting }, 0)

/-- `DIV_ROUND_CLOSEST` of unsigned numbers. -/
def divRoundClosest (x divisor : BitVec 32) : BitVec 32 := (x + divisor / 2) / divisor

/-- `cv1800b_calc_mclk_div`: the divider, or the error it returns. -/
def cv1800bCalcMclkDiv (targetMclk : BitVec 32) : Except Int (BitVec 32) :=
  if targetMclk = 0 then .error (-EINVAL)
  else if targetMclk < CV1800B_DEF_FREQ then
    let mclkDiv := divRoundClosest CV1800B_DEF_FREQ targetMclk
    if mclkDiv = 0 ∨ 0xFFFF < mclkDiv then .error (-EINVAL) else .ok mclkDiv
  else .ok 1

/-- `cv1800b_i2s_set_rate_for_mclk`; `clk` is what `clk_set_rate` returns. The
product is compared with `ULONG_MAX`, which no 64-bit product exceeds. -/
def cv1800bI2sSetRateForMclk (i2s : I2s) (targetMclk : BitVec 32) (clk : Int) : I2s × Int :=
  match cv1800bCalcMclkDiv targetMclk with
  | .error ret => (i2s, ret)
  | .ok mclkDiv =>
    let tmp := targetMclk.setWidth 64 * mclkDiv.setWidth 64
    if BitVec.allOnes 64 < tmp then (i2s, -ERANGE)
    else
      let i2s := cv1800bEnableClocks i2s false
      let i2s := { i2s with sysclkRate := tmp }
      if clk ≠ 0 then (i2s, clk)
      else (cv1800bEnableClocks (cv1800bSetMclkDiv i2s mclkDiv) true, 0)

/-! ## The operations -/

/-- What `hw_params` takes from its `snd_pcm_hw_params` and its substream. -/
structure PcmParams where
  rate : BitVec 32
  channels : BitVec 32
  physicalWidth : BitVec 32
  /-- `params_width`, negative for a format without one -/
  dataWidth : Int
  playback : Bool

/-- The `bclk_ratio` of `cv1800b_i2s_hw_params`. -/
def hwParamsBclkRatio (i2s : I2s) (p : PcmParams) : BitVec 32 :=
  if i2s.bclkRatioFixed then i2s.bclkRatio else p.physicalWidth * p.channels

/-- The tail of `cv1800b_i2s_hw_params`, from the choice of `bclk_ratio` on. -/
def hwParamsBclk (i2s : I2s) (p : PcmParams) (mclkRate : BitVec 32) : I2s × Int :=
  let bclkRatio := hwParamsBclkRatio i2s p
  if 2 ^ 32 ≤ p.rate.toNat * bclkRatio.toNat then (i2s, -EOVERFLOW)
  else
    let tmp := p.rate * bclkRatio
    if tmp = 0 then (i2s, -EINVAL)
    else
      andThen (cv1800bSetBclkDiv i2s (divRoundClosest mclkRate tmp)) fun i2s =>
        andThen (cv1800bSetWordLength i2s p.physicalWidth) fun i2s =>
          let i2s := cv1800bSetTxMode i2s p.playback
          let i2s := cv1800bEnableClocks i2s true
          (cv1800bResetI2s (cv1800bResetFifo i2s), 0)

/-- `cv1800b_i2s_hw_params`. -/
def cv1800bI2sHwParams (i2s : I2s) (p : PcmParams) (clk : Int) : I2s × Int :=
  if p.dataWidth < 0 then (i2s, p.dataWidth)
  else if p.channels = 0 ∨ p.rate = 0 ∨ p.physicalWidth = 0 then (i2s, -EINVAL)
  else
    andThen (cv1800bSetSlotSettings i2s p.channels p.physicalWidth
        (BitVec.ofInt 32 p.dataWidth)) fun i2s =>
      if i2s.mclkRate ≠ 0 then hwParamsBclk i2s p i2s.mclkRate
      else
        andThen (cv1800bI2sSetRateForMclk i2s (p.rate * CV1800B_DEF_MCLK_FS_RATIO) clk)
          fun i2s => hwParamsBclk i2s p (p.rate * CV1800B_DEF_MCLK_FS_RATIO)

/-- The trigger commands. -/
inductive TriggerCmd where
  | start
  | stop
  | pausePush
  | pauseRelease
  | suspend
  | resume
  /-- a command the driver does not know -/
  | other
  deriving DecidableEq, Repr

/-- `cv1800b_i2s_trigger`. -/
def cv1800bI2sTrigger (i2s : I2s) : TriggerCmd → I2s × Int
  | .start | .resume | .pauseRelease =>
    ({ i2s with i2sEnable := I2S_ENABLE.replace i2s.i2sEnable 1 }, 0)
  | .stop | .suspend | .pausePush =>
    ({ i2s with i2sEnable := I2S_ENABLE.replace i2s.i2sEnable 0 }, 0)
  | .other => (i2s, -EINVAL)

abbrev SND_SOC_DAIFMT_FORMAT_MASK : BitVec 32 := 0x000f
abbrev SND_SOC_DAIFMT_MASTER_MASK : BitVec 32 := 0xf000
abbrev SND_SOC_DAIFMT_I2S : BitVec 32 := 1
abbrev SND_SOC_DAIFMT_CBP_CFP : BitVec 32 := 0x1000
abbrev SND_SOC_DAIFMT_CBC_CFC : BitVec 32 := 0x4000

/-- The `master` value `set_fmt` computes, `none` where it returns `-EINVAL`. -/
def fmtMaster (fmt : BitVec 32) : Option (BitVec 32) :=
  if fmt &&& SND_SOC_DAIFMT_FORMAT_MASK ≠ SND_SOC_DAIFMT_I2S then none
  else if fmt &&& SND_SOC_DAIFMT_MASTER_MASK = SND_SOC_DAIFMT_CBP_CFP then some 1
  else if fmt &&& SND_SOC_DAIFMT_MASTER_MASK = SND_SOC_DAIFMT_CBC_CFC then some 0
  else none

/-- `cv1800b_i2s_dai_set_fmt`. -/
def cv1800bI2sDaiSetFmt (i2s : I2s) (fmt : BitVec 32) : I2s × Int :=
  match fmtMaster fmt with
  | none => (i2s, -EINVAL)
  | some master =>
    ({ i2s with
       blkModeSetting := BLK_MASTER_MODE.replace i2s.blkModeSetting master,
       clkCtrl0 := CLK_BCLK_OUT_CLK_FORCE_EN.replace i2s.clkCtrl0 master }, 0)

/-- `cv1800b_i2s_dai_set_bclk_ratio`. -/
def cv1800bI2sDaiSetBclkRatio (i2s : I2s) (ratio : BitVec 32) : I2s × Int :=
  if ratio = 0 then (i2s, -EINVAL)
  else ({ i2s with bclkRatio := ratio, bclkRatioFixed := true }, 0)

/-- `cv1800b_i2s_dai_set_sysclk`; `clockOut` says that `dir` is
`SND_SOC_CLOCK_OUT`. -/
def cv1800bI2sDaiSetSysclk (i2s : I2s) (freq : BitVec 32) (clockOut : Bool) (clk : Int) :
    I2s × Int :=
  andThen (cv1800bI2sSetRateForMclk i2s freq clk) fun i2s =>
    ({ i2s with clkCtrl0 := CLK_MCLK_OUT_EN.replace i2s.clkCtrl0 (boolVal clockOut),
                mclkRate := freq }, 0)

/-- `cv1800b_i2s_hw_disable`. -/
def cv1800bI2sHwDisable (i2s : I2s) : I2s :=
  { i2s with
    i2sEnable := I2S_ENABLE.replace i2s.i2sEnable 0,
    clkCtrl0 := CLK_MCLK_OUT_EN.replace (CLK_AUD_EN.replace i2s.clkCtrl0 0) 0,
    i2sReset := RST_I2S_RESET_TX.replace (RST_I2S_RESET_RX.replace i2s.i2sReset 1) 1,
    fifoReset := FIFO_TX_RESET.replace (FIFO_RX_RESET.replace i2s.fifoReset 1) 1 }

/-- `cv1800b_i2s_setup_tdm`. -/
def cv1800bI2sSetupTdm (i2s : I2s) : I2s :=
  { i2s with
    blkModeSetting := BLK_DMA_MODE.replace i2s.blkModeSetting 1,
    clkCtrl0 := CLK_AUD_EN.replace
      (CLK_MCLK_OUT_EN.replace (CLK_AUD_CLK_SEL.replace i2s.clkCtrl0 0) 0) 0,
    fifoThreshold := FIFO_TX_HIGH_THRESHOLD.replace
      (FIFO_TX_THRESHOLD.replace (FIFO_RX_THRESHOLD.replace i2s.fifoThreshold 4) 4) 4,
    i2sEnable := I2S_ENABLE.replace i2s.i2sEnable 0 }

end LicheeRvNano
