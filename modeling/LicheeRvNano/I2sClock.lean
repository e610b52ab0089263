import LicheeRvNano.I2s

/-!
# I2S controller: who drives the bit clock

On the capture link the internal ADC is the only clock source. The controller
drives the bit clock when `BLK_MASTER_MODE` or `BCLK_OUT_CLK_FORCE_EN` is set, two
bits in registers that most operations read, modify and write back.

The controller's operations are a machine, and the result is about its runs:
after a `set_fmt` that selects the clock consumer both bits stay clear until one
selects the provider. It rests on what one operation does to the two bits
(`i2sOp_drive`): only `set_fmt` changes them, and it changes nothing else in
their registers.
-/

namespace LicheeRvNano

/-! ## The machine -/

/-- The controller's operations, each with what the clock framework answers. -/
inductive I2sOp where
  | hwParams (p : PcmParams) (clk : Int)
  | trigger (cmd : TriggerCmd)
  | setSysclk (freq : BitVec 32) (clockOut : Bool) (clk : Int)
  | setBclkRatio (ratio : BitVec 32)
  | hwDisable
  | setupTdm
  | setFmt (fmt : BitVec 32)

/-- The state an operation leaves and its return value. -/
def i2sOp (i2s : I2s) : I2sOp → I2s × Int
  | .hwParams p clk => cv1800bI2sHwParams i2s p clk
  | .trigger cmd => cv1800bI2sTrigger i2s cmd
  | .setSysclk freq clockOut clk => cv1800bI2sDaiSetSysclk i2s freq clockOut clk
  | .setBclkRatio ratio => cv1800bI2sDaiSetBclkRatio i2s ratio
  | .hwDisable => (cv1800bI2sHwDisable i2s, 0)
  | .setupTdm => (cv1800bI2sSetupTdm i2s, 0)
  | .setFmt fmt => cv1800bI2sDaiSetFmt i2s fmt

/-- The controller as a machine; the log is the return values. -/
def i2sController : Machine I2s I2sOp Int where
  step i2s op := some ((i2sOp i2s op).1, [(i2sOp i2s op).2])

/-- A `set_fmt` that succeeds and selects the clock provider. -/
def Provides (i2s : I2s) : I2sOp → Prop
  | .setFmt fmt =>
    (cv1800bI2sDaiSetFmt i2s fmt).2 = 0 ∧
      fmt &&& SND_SOC_DAIFMT_MASTER_MASK = SND_SOC_DAIFMT_CBP_CFP
  | _ => False

/-- Neither of the two bits is set. -/
def Slave (i2s : I2s) : Prop :=
  i2s.blkModeSetting.getLsbD 1 = false ∧ i2s.clkCtrl0.getLsbD 6 = false

/-! ## The two bits -/

/-- Both bits are the same in two states. -/
structure SameDrive (i2s i2s' : I2s) : Prop where
  master : i2s'.blkModeSetting.getLsbD 1 = i2s.blkModeSetting.getLsbD 1
  force : i2s'.clkCtrl0.getLsbD 6 = i2s.clkCtrl0.getLsbD 6

theorem SameDrive.trans {a b c : I2s} (h : SameDrive a b) (h' : SameDrive b c) :
    SameDrive a c :=
  ⟨h'.master.trans h.master, h'.force.trans h.force⟩

theorem SameDrive.slave {a b : I2s} (h : SameDrive a b) (hs : Slave a) : Slave b :=
  ⟨h.master.trans hs.1, h.force.trans hs.2⟩

theorem enableClocks_drive (i2s : I2s) (enabled : Bool) :
    SameDrive i2s (cv1800bEnableClocks i2s enabled) :=
  ⟨rfl, BitField.getLsbD_replace_of_not (by decide) _ _⟩

theorem setTxMode_drive (i2s : I2s) (isTx : Bool) : SameDrive i2s (cv1800bSetTxMode i2s isTx) :=
  ⟨BitField.getLsbD_replace_of_not (by decide) _ _, rfl⟩

theorem setSlotSettings_drive (i2s : I2s) (slots physicalWidth dataSize : BitVec 32) :
    SameDrive i2s (cv1800bSetSlotSettings i2s slots physicalWidth dataSize).1 := by
  simp only [cv1800bSetSlotSettings]
  split_ifs
  · exact ⟨rfl, rfl⟩
  · exact ⟨rfl, rfl⟩
  · exact ⟨rfl, rfl⟩
  · exact ⟨rfl, rfl⟩

theorem setRateForMclk_drive (i2s : I2s) (targetMclk : BitVec 32) (clk : Int) :
    SameDrive i2s (cv1800bI2sSetRateForMclk i2s targetMclk clk).1 := by
  rw [cv1800bI2sSetRateForMclk]
  rcases cv1800bCalcMclkDiv targetMclk with ret | mclkDiv
  · exact ⟨rfl, rfl⟩
  · have hoff := enableClocks_drive i2s false
    dsimp only
    split_ifs
    · exact ⟨rfl, rfl⟩
    · exact ⟨hoff.master, hoff.force⟩
    · -- the clock is gated off and on again, the divider lies in another register
      have hset : SameDrive i2s (cv1800bSetMclkDiv
          { cv1800bEnableClocks i2s false with
            sysclkRate := targetMclk.setWidth 64 * mclkDiv.setWidth 64 } mclkDiv) :=
        ⟨hoff.master, hoff.force⟩
      exact hset.trans (enableClocks_drive _ true)

theorem setBclkDiv_drive (i2s : I2s) (bclkDiv : BitVec 32) :
    SameDrive i2s (cv1800bSetBclkDiv i2s bclkDiv).1 := by
  rw [cv1800bSetBclkDiv]
  split_ifs
  · exact ⟨rfl, rfl⟩
  · exact ⟨rfl, rfl⟩

theorem setWordLength_drive (i2s : I2s) (physicalWidth : BitVec 32) :
    SameDrive i2s (cv1800bSetWordLength i2s physicalWidth).1 := by
  rw [cv1800bSetWordLength]
  rcases wordLengthVal physicalWidth with _ | val
  · exact ⟨rfl, rfl⟩
  · exact ⟨rfl, rfl⟩

theorem hwParamsBclk_drive (i2s : I2s) (p : PcmParams) (mclkRate : BitVec 32) :
    SameDrive i2s (hwParamsBclk i2s p mclkRate).1 := by
  dsimp only [hwParamsBclk]
  split
  · exact ⟨rfl, rfl⟩
  · split
    · exact ⟨rfl, rfl⟩
    · refine andThen_inv (setBclkDiv_drive i2s _) fun b hb => ?_
      refine andThen_inv (hb.trans (setWordLength_drive b p.physicalWidth)) fun c hc => ?_
      have hmode := (hc.trans (setTxMode_drive c p.playback)).trans (enableClocks_drive _ true)
      exact ⟨hmode.master, hmode.force⟩

theorem hwParams_drive (i2s : I2s) (p : PcmParams) (clk : Int) :
    SameDrive i2s (cv1800bI2sHwParams i2s p clk).1 := by
  dsimp only [cv1800bI2sHwParams]
  split
  · exact ⟨rfl, rfl⟩
  · split
    · exact ⟨rfl, rfl⟩
    · refine andThen_inv (setSlotSettings_drive i2s _ _ _) fun b hb => ?_
      split
      · exact hb.trans (hwParamsBclk_drive b p _)
      · refine andThen_inv (hb.trans (setRateForMclk_drive b _ clk)) fun c hc => ?_
        exact hc.trans (hwParamsBclk_drive c p _)

theorem setSysclk_drive (i2s : I2s) (freq : BitVec 32) (clockOut : Bool) (clk : Int) :
    SameDrive i2s (cv1800bI2sDaiSetSysclk i2s freq clockOut clk).1 := by
  dsimp only [cv1800bI2sDaiSetSysclk]
  refine andThen_inv (setRateForMclk_drive i2s freq clk) fun b hb => ?_
  exact hb.trans ⟨rfl, BitField.getLsbD_replace_of_not (by decide) _ _⟩

theorem trigger_drive (i2s : I2s) (cmd : TriggerCmd) :
    SameDrive i2s (cv1800bI2sTrigger i2s cmd).1 := by
  cases cmd <;> exact ⟨rfl, rfl⟩

theorem setBclkRatio_drive (i2s : I2s) (ratio : BitVec 32) :
    SameDrive i2s (cv1800bI2sDaiSetBclkRatio i2s ratio).1 := by
  rw [cv1800bI2sDaiSetBclkRatio]
  split_ifs
  · exact ⟨rfl, rfl⟩
  · exact ⟨rfl, rfl⟩

/-- Clearing other bits of `CLK_CTRL0` one after the other. -/
theorem hwDisable_drive (i2s : I2s) : SameDrive i2s (cv1800bI2sHwDisable i2s) := by
  refine ⟨rfl, ?_⟩
  apply (BitField.getLsbD_replace_of_not (by decide) _ _).trans
  exact BitField.getLsbD_replace_of_not (by decide) _ _

theorem setupTdm_drive (i2s : I2s) : SameDrive i2s (cv1800bI2sSetupTdm i2s) := by
  refine ⟨BitField.getLsbD_replace_of_not (by decide) _ _, ?_⟩
  apply (BitField.getLsbD_replace_of_not (by decide) _ _).trans
  apply (BitField.getLsbD_replace_of_not (by decide) _ _).trans
  exact BitField.getLsbD_replace_of_not (by decide) _ _

/-- No operation but `set_fmt` changes either bit. -/
theorem i2sOp_drive (i2s : I2s) {op : I2sOp} (h : ∀ fmt, op ≠ .setFmt fmt) :
    SameDrive i2s (i2sOp i2s op).1 := by
  cases op with
  | hwParams p clk => exact hwParams_drive i2s p clk
  | trigger cmd => exact trigger_drive i2s cmd
  | setSysclk freq clockOut clk => exact setSysclk_drive i2s freq clockOut clk
  | setBclkRatio ratio => exact setBclkRatio_drive i2s ratio
  | hwDisable => exact hwDisable_drive i2s
  | setupTdm => exact setupTdm_drive i2s
  | setFmt fmt => exact absurd rfl (h fmt)

/-! ## `set_fmt` -/

theorem setFmt_none {i2s : I2s} {fmt : BitVec 32} (h : fmtMaster fmt = none) :
    cv1800bI2sDaiSetFmt i2s fmt = (i2s, -EINVAL) := by
  simp only [cv1800bI2sDaiSetFmt, h]

theorem setFmt_some {i2s : I2s} {fmt master : BitVec 32} (h : fmtMaster fmt = some master) :
    cv1800bI2sDaiSetFmt i2s fmt =
      ({ i2s with
         blkModeSetting := BLK_MASTER_MODE.replace i2s.blkModeSetting master,
         clkCtrl0 := CLK_BCLK_OUT_CLK_FORCE_EN.replace i2s.clkCtrl0 master }, 0) := by
  simp only [cv1800bI2sDaiSetFmt, h]

theorem not_provides_of_none {i2s : I2s} {fmt : BitVec 32} (h : fmtMaster fmt = none) :
    ¬ Provides i2s (.setFmt fmt) := by
  rintro ⟨hok, -⟩
  rw [setFmt_none h] at hok
  simp at hok

/-- A failed `set_fmt` changes nothing. -/
theorem setFmt_error {i2s : I2s} {fmt : BitVec 32} (h : (cv1800bI2sDaiSetFmt i2s fmt).2 ≠ 0) :
    (cv1800bI2sDaiSetFmt i2s fmt).1 = i2s := by
  rcases hm : fmtMaster fmt with _ | master
  · rw [setFmt_none hm]
  · rw [setFmt_some hm] at h
    exact absurd rfl h

/-- `set_fmt` changes no other bit of the two registers. -/
theorem setFmt_others (i2s : I2s) (fmt : BitVec 32) (i : Nat) :
    (i ≠ 1 → (cv1800bI2sDaiSetFmt i2s fmt).1.blkModeSetting.getLsbD i =
        i2s.blkModeSetting.getLsbD i) ∧
      (i ≠ 6 → (cv1800bI2sDaiSetFmt i2s fmt).1.clkCtrl0.getLsbD i = i2s.clkCtrl0.getLsbD i) := by
  rcases hm : fmtMaster fmt with _ | master
  · rw [setFmt_none hm]
    exact ⟨fun _ => rfl, fun _ => rfl⟩
  · rw [setFmt_some hm]
    constructor
    · intro hi
      apply BitField.getLsbD_replace_of_not
      exact fun h => hi ((BitField.has_bit 1 i rfl).mp h).symm
    · intro hi
      apply BitField.getLsbD_replace_of_not
      exact fun h => hi ((BitField.has_bit 6 i rfl).mp h).symm

/-- A `set_fmt` that computes `master = 0` clears both bits. -/
theorem setFmt_slave (i2s : I2s) {fmt : BitVec 32} (h : fmtMaster fmt = some 0) :
    Slave (cv1800bI2sDaiSetFmt i2s fmt).1 := by
  rw [setFmt_some h]
  refine ⟨?_, ?_⟩
  · apply (BitField.getLsbD_replace ..).trans
    rw [if_pos (by decide)]
    decide
  · apply (BitField.getLsbD_replace ..).trans
    rw [if_pos (by decide)]
    decide

/-- The three ways through `set_fmt`. -/
theorem fmtMaster_cases (fmt : BitVec 32) :
    fmtMaster fmt = none ∨
      (fmtMaster fmt = some 1 ∧
        fmt &&& SND_SOC_DAIFMT_MASTER_MASK = SND_SOC_DAIFMT_CBP_CFP) ∨
      (fmtMaster fmt = some 0 ∧
        fmt &&& SND_SOC_DAIFMT_MASTER_MASK = SND_SOC_DAIFMT_CBC_CFC) := by
  rw [fmtMaster]
  split_ifs with h₁ h₂ h₃
  · exact .inl rfl
  · exact .inr (.inl ⟨rfl, h₂⟩)
  · exact .inr (.inr ⟨rfl, h₃⟩)
  · exact .inl rfl

/-- A `set_fmt` that succeeds with the consumer role clears both bits. -/
theorem setFmt_consumer (i2s : I2s) {fmt : BitVec 32}
    (hok : (cv1800bI2sDaiSetFmt i2s fmt).2 = 0)
    (hcfc : fmt &&& SND_SOC_DAIFMT_MASTER_MASK = SND_SOC_DAIFMT_CBC_CFC) :
    Slave (cv1800bI2sDaiSetFmt i2s fmt).1 := by
  rcases fmtMaster_cases fmt with hn | ⟨-, hcfp⟩ | ⟨h0, -⟩
  · rw [setFmt_none hn] at hok
    simp at hok
  · rw [hcfp] at hcfc
    exact absurd hcfc (by decide)
  · exact setFmt_slave i2s h0

/-- An operation that does not select the provider keeps both bits clear. -/
theorem Slave.step {i2s : I2s} {op : I2sOp} (hs : Slave i2s) (hp : ¬ Provides i2s op) :
    Slave (i2sOp i2s op).1 := by
  by_cases hop : ∃ fmt, op = .setFmt fmt
  · obtain ⟨fmt, rfl⟩ := hop
    change Slave (cv1800bI2sDaiSetFmt i2s fmt).1
    rcases fmtMaster_cases fmt with hn | ⟨h1, hcfp⟩ | ⟨h0, -⟩
    · rw [setFmt_none hn]
      exact hs
    · refine absurd ⟨?_, hcfp⟩ hp
      rw [setFmt_some h1]
    · exact setFmt_slave i2s h0
  · refine (i2sOp_drive i2s ?_).slave hs
    exact fun fmt h => hop ⟨fmt, h⟩

/-- **A clock slave never drives the bit clock.** After a successful `set_fmt` for
the clock consumer, and until a successful one for the provider, both bits read
zero, whatever operations come in between and however they end; a failed
`set_fmt` changes neither; no other operation changes either; and `set_fmt` leaves
the other bits of the two registers alone. -/
theorem slave_never_drives_bclk :
    (∀ (i2s i2s' : I2s) (fmt : BitVec 32) (ops : List I2sOp) (log : List Int),
      (cv1800bI2sDaiSetFmt i2s fmt).2 = 0 →
      fmt &&& SND_SOC_DAIFMT_MASTER_MASK = SND_SOC_DAIFMT_CBC_CFC →
      i2sController.Meets (fun i2s op => ¬ Provides i2s op) (cv1800bI2sDaiSetFmt i2s fmt).1 ops →
      i2sController.exec (cv1800bI2sDaiSetFmt i2s fmt).1 ops = some (i2s', log) →
      BLK_MASTER_MODE.get i2s'.blkModeSetting = 0 ∧
        CLK_BCLK_OUT_CLK_FORCE_EN.get i2s'.clkCtrl0 = 0) ∧
    (∀ (i2s : I2s) (fmt : BitVec 32), (cv1800bI2sDaiSetFmt i2s fmt).2 ≠ 0 →
      SameDrive i2s (cv1800bI2sDaiSetFmt i2s fmt).1) ∧
    (∀ (i2s : I2s) (op : I2sOp), (∀ fmt, op ≠ .setFmt fmt) →
      SameDrive i2s (i2sOp i2s op).1) ∧
    (∀ (i2s : I2s) (fmt : BitVec 32) (i : Nat),
      (i ≠ 1 → (cv1800bI2sDaiSetFmt i2s fmt).1.blkModeSetting.getLsbD i =
        i2s.blkModeSetting.getLsbD i) ∧
      (i ≠ 6 → (cv1800bI2sDaiSetFmt i2s fmt).1.clkCtrl0.getLsbD i =
        i2s.clkCtrl0.getLsbD i)) := by
  refine ⟨?_, ?_, fun i2s op h => i2sOp_drive i2s h, setFmt_others⟩
  · intro i2s i2s' fmt ops log hok hcfc hm he
    have hslave : Slave i2s' := by
      refine Machine.exec_invariant_start (I := fun i2s _ => Slave i2s)
        (setFmt_consumer i2s hok hcfc) ?_ hm he
      intro s s' log ev op hs hp hstep
      obtain ⟨rfl, -⟩ := Prod.mk.inj (Option.some.inj hstep)
      exact hs.step hp
    exact ⟨BitField.get_bit_eq_zero hslave.1, BitField.get_bit_eq_zero hslave.2⟩
  · intro i2s fmt h
    rw [setFmt_error h]
    exact ⟨rfl, rfl⟩

/-- A controller whose bit clock output is forced on, as it is after reset. -/
def afterReset : I2s where
  blkModeSetting := 0x82
  frameSetting := 0
  slotSetting1 := 0
  dataFormat := 0
  i2sEnable := 0
  i2sReset := 0
  fifoThreshold := 0
  fifoReset := 0
  clkCtrl0 := 0x40
  clkCtrl1 := 0
  sysclkRate := 0
  mclkRate := 0
  bclkRatioFixed := false
  bclkRatio := 0

/-- A capture whose first clock request fails. -/
def captureOps : List I2sOp :=
  [.setSysclk 12288000 false (-EINVAL), .setSysclk 12288000 false 0,
    .hwParams ⟨48000, 2, 16, 16, false⟩ 0, .setFmt 0x1002, .trigger .start]

theorem slave_never_drives_bclk_capture :
    ∃ i2s' log, i2sController.exec (cv1800bI2sDaiSetFmt afterReset 0x4001).1 captureOps =
        some (i2s', log) ∧ log = [-EINVAL, 0, 0, -EINVAL, 0] ∧
      BLK_MASTER_MODE.get i2s'.blkModeSetting = 0 ∧
        CLK_BCLK_OUT_CLK_FORCE_EN.get i2s'.clkCtrl0 = 0 := by
  refine ⟨_, _, rfl, by decide, ?_⟩
  refine slave_never_drives_bclk.1 afterReset _ 0x4001 captureOps _ (by decide) (by decide) ?_ rfl
  -- the `set_fmt` in the middle asks for a format the driver refuses
  exact ⟨id, id, id, not_provides_of_none (by decide), id, trivial⟩

end LicheeRvNano
