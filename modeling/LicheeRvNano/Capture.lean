import LicheeRvNano.I2s

/-!
# Audio capture: the ADC codec and the order of its bring-up

`cv1800b-sound-adc.c` with the two capture patches applied, and the capture link
it forms with the I2S controller. ALSA decides which callbacks may come when. Its
stream states are the states of the link's machine, and one step is one stage:
every driver callback of the stage, in either order where there are two.

The events are what the order of the bring-up is about: the reset pulse with the
ADC's enable bits at that moment, and the bits the two drivers share nothing of
but depend on, after each callback.

The machine driver is `simple-audio-card`, which passes the system clock on at the
head of `hw_params`. The ADC is off when the first stream is opened; nothing else
is assumed of the registers.
-/

namespace LicheeRvNano

/-! ## The ADC -/

def REG_RXADC_EN : BitField 32 := .bit 0
def REG_I2S_TX_EN : BitField 32 := .bit 1
def REG_RXADC_CIC_OPT : BitField 32 := .genmask 1 0
def REG_RXADC_IGR_INIT : BitField 32 := .bit 8
def REG_RXADC_SCK_DIV : BitField 32 := .genmask 15 8
def REG_RXADC_DLYEN : BitField 32 := .genmask 23 16
abbrev CV1800B_RXADC_WORD_LEN : Nat := 16
abbrev CV1800B_RXADC_CHANNELS : Nat := 2
abbrev CV1800B_ADC_RESET_BIT : BitVec 32 := 0x20000000

/-- The ADC's registers, the shared reset register, the register of the gain-ratio
bit, and `mclk_rate`. -/
structure Adc where
  ctrl0 : BitVec 32
  ctrl1 : BitVec 32
  clk : BitVec 32
  ana0 : BitVec 32
  ana2 : BitVec 32
  rst : BitVec 32
  eco : BitVec 32
  mclkRate : BitVec 32

/-- `cv1800b_adc_setbclk_div`. -/
def cv1800bAdcSetbclkDiv (priv : Adc) (rate : BitVec 32) : Adc × Int :=
  if priv.mclkRate = 0 ∨ rate = 0 then (priv, -EINVAL)
  else
    let tmp := priv.mclkRate.toNat / CV1800B_RXADC_WORD_LEN / CV1800B_RXADC_CHANNELS /
      rate.toNat / 2
    if tmp = 0 then (priv, -EINVAL)
    else if 256 < tmp then (priv, -EINVAL)
    else
      let val := REG_RXADC_SCK_DIV.replace priv.clk (BitVec.ofNat 32 (tmp - 1))
      ({ priv with clk := REG_RXADC_DLYEN.replace val 0x19 }, 0)

/-- `cv1800b_adc_enable`. -/
def cv1800bAdcEnable (priv : Adc) (enable : Bool) : Adc :=
  { priv with
    ctrl0 := REG_I2S_TX_EN.replace (REG_RXADC_EN.replace priv.ctrl0 (boolVal enable))
      (boolVal enable) }

/-- The pulse on bit 29 of the shared reset register, active low. -/
def adcSoftReset (priv : Adc) : Adc :=
  let r := priv.rst
  let priv := { priv with rst := r &&& ~~~CV1800B_ADC_RESET_BIT }
  { priv with rst := r ||| CV1800B_ADC_RESET_BIT }

/-- `cv1800b_adc_hw_params`; `eco` says that the `ioremap` of the gain-ratio register
succeeds. The analog registers are written back as they are read. -/
def cv1800bAdcHwParams (priv : Adc) (rate : BitVec 32) (eco : Bool) : Adc × Int :=
  let priv := adcSoftReset priv
  let priv := { priv with ana2 := priv.ana2 }
  let priv := { priv with ana0 := priv.ana0 }
  andThen (cv1800bAdcSetbclkDiv priv rate) fun priv =>
    let val := REG_RXADC_CIC_OPT.replace (REG_RXADC_IGR_INIT.replace priv.ctrl1 1) 0
    let priv := { priv with ctrl1 := val }
    (if eco then { priv with eco := priv.eco &&& ~~~1 } else priv, 0)

/-- `cv1800b_adc_prepare`. -/
def cv1800bAdcPrepare (priv : Adc) : Adc := cv1800bAdcEnable priv true

/-- `cv1800b_adc_shutdown`. -/
def cv1800bAdcShutdown (priv : Adc) : Adc := cv1800bAdcEnable priv false

/-- `cv1800b_adc_dai_set_sysclk`. -/
def cv1800bAdcDaiSetSysclk (priv : Adc) (freq : BitVec 32) : Adc :=
  { priv with mclkRate := freq }

/-! ## The link -/

/-- The states of a capture stream. -/
inductive PcmState where
  | closed
  | opened
  | setup
  | prepared
  | running
  | xrun
  | draining
  | paused
  | suspended
  deriving DecidableEq, Repr

/-- The states a stream reaches only through `prepare`. -/
def PcmState.Ready : PcmState → Prop
  | prepared | running | xrun | draining | paused => True
  | _ => False

instance : ∀ p, Decidable (PcmState.Ready p)
  | .prepared | .running | .xrun | .draining | .paused => isTrue trivial
  | .closed | .opened | .setup | .suspended => isFalse id

/-- The capture link. -/
structure Capture where
  pcm : PcmState
  /-- `suspended_state` of the runtime -/
  suspendedState : PcmState
  /-- `prepare` was called and the stream not closed since -/
  preparedSinceOpen : Bool
  i2s : I2s
  adc : Adc

/-- What a callback makes visible. -/
inductive CaptureEvent where
  /-- the ADC's reset pulse, with `RXADC_EN` and `I2S_TX_EN` at that moment -/
  | softReset (rxadcEn i2sTxEn : Bool)
  /-- the bits after a callback -/
  | seen (i2sEnable rxadcEn i2sTxEn audEn : Bool)
  /-- the ADC's bits after its `shutdown` -/
  | shutdown (rxadcEn i2sTxEn : Bool)
  deriving DecidableEq

def Capture.seen (s : Capture) : CaptureEvent :=
  .seen (s.i2s.i2sEnable.getLsbD 0) (s.adc.ctrl0.getLsbD 0) (s.adc.ctrl0.getLsbD 1)
    (s.i2s.clkCtrl0.getLsbD 8)

/-- A callback, or several: the state and the log they leave, and the return value
of the last one that ran. -/
abbrev Stage : Type := Capture × List CaptureEvent → (Capture × List CaptureEvent) × Int

/-- One callback after the other, unless the first one fails. -/
def Stage.seq (f g : Stage) : Stage := fun s => andThen (f s) g

/-- The controller's `hw_params`. -/
def Stage.i2sHwParams (p : PcmParams) (clk : Int) : Stage := fun (s, log) =>
  let (i2s, ret) := cv1800bI2sHwParams s.i2s { p with playback := false } clk
  let s := { s with i2s := i2s }
  ((s, log ++ [s.seen]), ret)

/-- The codec's `hw_params`. -/
def Stage.adcHwParams (p : PcmParams) (eco : Bool) : Stage := fun (s, log) =>
  let pulse := CaptureEvent.softReset (s.adc.ctrl0.getLsbD 0) (s.adc.ctrl0.getLsbD 1)
  let (adc, ret) := cv1800bAdcHwParams s.adc p.rate eco
  let s := { s with adc := adc }
  ((s, log ++ [pulse, s.seen]), ret)

/-- What `simple-audio-card` does first: the system clock to the codec and to the
controller, when it has one to pass on. -/
def Stage.setSysclk (mclk : Option (BitVec 32)) (clockOut : Bool) (clk : Int) : Stage :=
  fun (s, log) =>
    match mclk with
    | none => ((s, log), 0)
    | some freq =>
      let (i2s, ret) := cv1800bI2sDaiSetSysclk s.i2s freq clockOut clk
      let s := { s with adc := cv1800bAdcDaiSetSysclk s.adc freq, i2s := i2s }
      ((s, log ++ [s.seen]), ret)

/-- The arguments of one `hw_params` stage: the stream parameters, what the clock
framework and `ioremap` answer, and which DAI comes first. -/
structure HwParamsArgs where
  p : PcmParams
  mclk : Option (BitVec 32)
  clockOut : Bool
  /-- what `clk_set_rate` returns to `set_sysclk` and to the controller's `hw_params` -/
  clkSysclk : Int
  clkParams : Int
  eco : Bool
  codecFirst : Bool

/-- The `hw_params` stage. -/
def Stage.hwParams (a : HwParamsArgs) : Stage :=
  (Stage.setSysclk a.mclk a.clockOut a.clkSysclk).seq
    (if a.codecFirst then (Stage.adcHwParams a.p a.eco).seq (Stage.i2sHwParams a.p a.clkParams)
     else (Stage.i2sHwParams a.p a.clkParams).seq (Stage.adcHwParams a.p a.eco))

/-- The controller's `trigger`. -/
def Capture.trigger (s : Capture) (cmd : TriggerCmd) : Capture :=
  { s with i2s := (cv1800bI2sTrigger s.i2s cmd).1 }

/-- What ALSA may do next with the stream. -/
inductive CaptureAction where
  | openStream
  | hwParams (a : HwParamsArgs)
  | hwFree
  | prepare
  | start
  /-- an xrun, a drain or a drop of the running stream -/
  | stop (dest : PcmState)
  /-- a drop of a stream that is not running -/
  | drop
  | pausePush
  | pauseRelease
  | suspend
  | resume
  | closeStream

/-- The stream is brought to `SETUP` before it is prepared or closed: a paused one is
released and stopped, a running one stopped, and the others have nothing to stop. -/
def Capture.drop (s : Capture) : Capture × List CaptureEvent :=
  match s.pcm with
  | .paused =>
    let s := s.trigger .pauseRelease
    let s' := { s.trigger .stop with pcm := .setup }
    (s', [s.seen, s'.seen])
  | .running =>
    let s' := { s.trigger .stop with pcm := .setup }
    (s', [s'.seen])
  | .opened | .closed => (s, [])
  | _ => ({ s with pcm := .setup }, [])

/-- One stage. A failed `hw_params` leaves the stream in `OPEN`. -/
def captureStep (s : Capture) : CaptureAction → Option (Capture × List CaptureEvent)
  | .openStream =>
    if s.pcm = .closed then
      some ({ s with pcm := .opened }, [s.seen])
    else none
  | .hwParams a =>
    if s.pcm = .opened ∨ s.pcm = .setup ∨ s.pcm = .prepared then
      match Stage.hwParams a (s, []) with
      | ((s', log), ret) => some ({ s' with pcm := if ret = 0 then .setup else .opened }, log)
    else none
  | .hwFree =>
    if s.pcm = .setup ∨ s.pcm = .prepared then some ({ s with pcm := .opened }, [s.seen])
    else none
  | .prepare =>
    if s.pcm = .closed ∨ s.pcm = .opened ∨ s.pcm = .running then none
    else
      let (s, log) := if s.pcm = .paused ∨ s.pcm = .suspended then s.drop else (s, [])
      let s := { s with adc := cv1800bAdcPrepare s.adc, preparedSinceOpen := true,
                        pcm := .prepared }
      some (s, log ++ [s.seen])
  | .start =>
    if s.pcm = .prepared then
      let s := { s.trigger .start with pcm := .running }
      some (s, [s.seen])
    else none
  | .stop dest =>
    if s.pcm = .running ∧ (dest = .setup ∨ dest = .xrun ∨ dest = .draining) then
      let s := { s.trigger .stop with pcm := dest }
      some (s, [s.seen])
    else none
  | .drop => if s.pcm = .closed ∨ s.pcm = .opened then none else some s.drop
  | .pausePush =>
    if s.pcm = .running then
      let s := { s.trigger .pausePush with pcm := .paused }
      some (s, [s.seen])
    else none
  | .pauseRelease =>
    if s.pcm = .paused then
      let s := { s.trigger .pauseRelease with pcm := .running }
      some (s, [s.seen])
    else none
  | .suspend =>
    if s.pcm.Ready then
      -- only a running stream is triggered
      let s' := if s.pcm = .running then s.trigger .suspend else s
      let s' := { s' with suspendedState := s.pcm, pcm := .suspended }
      some (s', [s'.seen])
    else none
  | .resume =>
    if s.pcm = .suspended then
      let s' := if s.suspendedState = .running then s.trigger .resume else s
      let s' := { s' with pcm := s.suspendedState }
      some (s', [s'.seen])
    else none
  | .closeStream =>
    if s.pcm = .closed then none
    else
      let (s, log) := s.drop
      let s := { s with adc := cv1800bAdcShutdown s.adc, preparedSinceOpen := false,
                        pcm := .closed }
      some (s, log ++ [s.seen, .shutdown (s.adc.ctrl0.getLsbD 0) (s.adc.ctrl0.getLsbD 1)])

/-- The capture link as a machine. -/
def captureLink : Machine Capture CaptureAction CaptureEvent where
  step := captureStep

/-! ## The contract -/

/-- What an event may show. -/
def CaptureOk : CaptureEvent → Prop
  | .softReset rxadcEn i2sTxEn => rxadcEn = false ∧ i2sTxEn = false
  | .seen i2sEnable rxadcEn i2sTxEn audEn =>
    i2sEnable = true → rxadcEn = true ∧ i2sTxEn = true ∧ audEn = true
  | .shutdown rxadcEn i2sTxEn => rxadcEn = false ∧ i2sTxEn = false

/-- The codec's `hw_params` is called: the system clock is set and, if the controller
comes first, its `hw_params` succeeds. -/
def ReachesCodec (s : Capture) (a : HwParamsArgs) : Prop :=
  ((Stage.setSysclk a.mclk a.clockOut a.clkSysclk) (s, [])).2 = 0 ∧
    (a.codecFirst = true ∨
      (Stage.i2sHwParams a.p a.clkParams
        ((Stage.setSysclk a.mclk a.clockOut a.clkSysclk) (s, [])).1).2 = 0)

/-- The condition: `hw_params` does not reach the codec once the stream was prepared
and until it is closed. -/
def CaptureCond (s : Capture) : CaptureAction → Prop
  | .hwParams a => ReachesCodec s a → s.preparedSinceOpen = false
  | _ => True

/-- The link after both drivers were probed: the controller is set up, the ADC is
off and no stream is open. -/
structure Capture.AtProbe (s : Capture) : Prop where
  closed : s.pcm = .closed
  fresh : s.preparedSinceOpen = false
  setup : ∃ i2s, s.i2s = cv1800bI2sSetupTdm i2s
  off : s.adc.ctrl0.getLsbD 0 = false ∧ s.adc.ctrl0.getLsbD 1 = false

/-! ## The callbacks -/

theorem getLsbD_adcEnable (priv : Adc) (enable : Bool) :
    (cv1800bAdcEnable priv enable).ctrl0.getLsbD 0 = enable ∧
      (cv1800bAdcEnable priv enable).ctrl0.getLsbD 1 = enable := by
  constructor
  · apply (BitField.getLsbD_replace_of_not (by decide) _ _).trans
    apply (BitField.getLsbD_replace ..).trans
    rw [if_pos (by decide)]
    cases enable <;> rfl
  · apply (BitField.getLsbD_replace ..).trans
    rw [if_pos (by decide)]
    cases enable <;> rfl

theorem adcSetbclkDiv_ctrl0 (priv : Adc) (rate : BitVec 32) :
    (cv1800bAdcSetbclkDiv priv rate).1.ctrl0 = priv.ctrl0 := by
  simp only [cv1800bAdcSetbclkDiv]
  split_ifs <;> rfl

/-- The codec's `hw_params` leaves the enable bits alone. -/
theorem adcHwParams_ctrl0 (priv : Adc) (rate : BitVec 32) (eco : Bool) :
    (cv1800bAdcHwParams priv rate eco).1.ctrl0 = priv.ctrl0 := by
  have h := adcSetbclkDiv_ctrl0 (adcSoftReset priv) rate
  simp only [cv1800bAdcHwParams, andThen]
  split_ifs
  · exact h
  · exact h
  · exact h

/-- The controller's enable bit after a trigger that stops it. -/
theorem getLsbD_trigger_off (i2s : I2s) {cmd : TriggerCmd}
    (h : cmd = .stop ∨ cmd = .suspend ∨ cmd = .pausePush) :
    (cv1800bI2sTrigger i2s cmd).1.i2sEnable.getLsbD 0 = false := by
  rcases h with rfl | rfl | rfl <;>
  · apply (BitField.getLsbD_replace ..).trans
    rw [if_pos (by decide)]
    decide

theorem trigger_clkCtrl0 (i2s : I2s) (cmd : TriggerCmd) :
    (cv1800bI2sTrigger i2s cmd).1.clkCtrl0 = i2s.clkCtrl0 := by
  cases cmd <;> rfl

theorem setSlotSettings_i2sEnable (i2s : I2s) (slots physicalWidth dataSize : BitVec 32) :
    (cv1800bSetSlotSettings i2s slots physicalWidth dataSize).1.i2sEnable = i2s.i2sEnable := by
  simp only [cv1800bSetSlotSettings]
  split_ifs <;> rfl

theorem setRateForMclk_i2sEnable (i2s : I2s) (targetMclk : BitVec 32) (clk : Int) :
    (cv1800bI2sSetRateForMclk i2s targetMclk clk).1.i2sEnable = i2s.i2sEnable := by
  rw [cv1800bI2sSetRateForMclk]
  rcases cv1800bCalcMclkDiv targetMclk with ret | mclkDiv
  · rfl
  · dsimp only
    split_ifs <;> rfl

theorem setSysclk_i2sEnable (i2s : I2s) (freq : BitVec 32) (clockOut : Bool) (clk : Int) :
    (cv1800bI2sDaiSetSysclk i2s freq clockOut clk).1.i2sEnable = i2s.i2sEnable :=
  andThen_inv (P := fun s : I2s => s.i2sEnable = i2s.i2sEnable)
    (setRateForMclk_i2sEnable i2s freq clk) fun _ hb => hb

theorem hwParamsBclk_i2sEnable (i2s : I2s) (p : PcmParams) (mclkRate : BitVec 32) :
    (hwParamsBclk i2s p mclkRate).1.i2sEnable = i2s.i2sEnable := by
  dsimp only [hwParamsBclk]
  split
  · rfl
  · split
    · rfl
    · refine andThen_inv (P := fun s : I2s => s.i2sEnable = i2s.i2sEnable) ?_ fun b hb => ?_
      · rw [cv1800bSetBclkDiv]
        split_ifs <;> rfl
      · refine andThen_inv (P := fun s : I2s => s.i2sEnable = i2s.i2sEnable) ?_ fun c hc => hc
        rw [cv1800bSetWordLength]
        rcases wordLengthVal p.physicalWidth with _ | val <;> exact hb

/-- The controller's `hw_params` leaves its enable bit alone. -/
theorem hwParams_i2sEnable (i2s : I2s) (p : PcmParams) (clk : Int) :
    (cv1800bI2sHwParams i2s p clk).1.i2sEnable = i2s.i2sEnable := by
  dsimp only [cv1800bI2sHwParams]
  split
  · rfl
  · split
    · rfl
    · refine andThen_inv (P := fun s : I2s => s.i2sEnable = i2s.i2sEnable)
        (setSlotSettings_i2sEnable i2s _ _ _) fun b hb => ?_
      split
      · exact (hwParamsBclk_i2sEnable b p _).trans hb
      · refine andThen_inv (P := fun s : I2s => s.i2sEnable = i2s.i2sEnable)
          ((setRateForMclk_i2sEnable b _ clk).trans hb) fun c hc => ?_
        exact (hwParamsBclk_i2sEnable c p _).trans hc

theorem hwParamsBclk_audEn {i2s : I2s} {p : PcmParams} {mclkRate : BitVec 32}
    (h : (hwParamsBclk i2s p mclkRate).2 = 0) :
    (hwParamsBclk i2s p mclkRate).1.clkCtrl0.getLsbD 8 = true := by
  dsimp only [hwParamsBclk] at h ⊢
  split at h
  · exact absurd h (by simp)
  · rename_i h₁
    split at h
    · exact absurd h (by simp)
    · rename_i h₂
      rw [if_neg h₁, if_neg h₂]
      obtain ⟨-, heq⟩ := andThen_eq_zero h
      rw [heq] at h ⊢
      obtain ⟨-, heq'⟩ := andThen_eq_zero h
      rw [heq']
      -- the clock is enabled last, and the two resets are in other registers
      apply (BitField.getLsbD_replace ..).trans
      rw [if_pos (by decide)]
      decide

/-- A successful `hw_params` of the controller leaves the audio clock on. -/
theorem hwParams_audEn {i2s : I2s} {p : PcmParams} {clk : Int}
    (h : (cv1800bI2sHwParams i2s p clk).2 = 0) :
    (cv1800bI2sHwParams i2s p clk).1.clkCtrl0.getLsbD 8 = true := by
  dsimp only [cv1800bI2sHwParams] at h ⊢
  split at h
  · rename_i hneg
    have h' : p.dataWidth = 0 := h
    omega
  · rename_i h₁
    split at h
    · exact absurd h (by simp)
    · rename_i h₂
      rw [if_neg h₁, if_neg h₂]
      obtain ⟨-, heq⟩ := andThen_eq_zero h
      rw [heq] at h ⊢
      split at h
      · rename_i h₃
        rw [if_pos h₃]
        exact hwParamsBclk_audEn h
      · rename_i h₃
        rw [if_neg h₃]
        obtain ⟨-, heq'⟩ := andThen_eq_zero h
        rw [heq'] at h ⊢
        exact hwParamsBclk_audEn h

/-! ## The `hw_params` stage -/

/-- What the stage leaves alone. -/
structure Kept (s s' : Capture) : Prop where
  pcm : s'.pcm = s.pcm
  suspendedState : s'.suspendedState = s.suspendedState
  prepared : s'.preparedSinceOpen = s.preparedSinceOpen
  ctrl0 : s'.adc.ctrl0 = s.adc.ctrl0
  i2sEnable : s'.i2s.i2sEnable = s.i2s.i2sEnable

theorem Kept.trans {a b c : Capture} (h : Kept a b) (h' : Kept b c) : Kept a c :=
  ⟨h'.pcm.trans h.pcm, h'.suspendedState.trans h.suspendedState, h'.prepared.trans h.prepared,
    h'.ctrl0.trans h.ctrl0, h'.i2sEnable.trans h.i2sEnable⟩

/-- With the controller off, what a callback shows is acceptable. -/
theorem Kept.seen_ok {s s' : Capture} (h : Kept s s') (hoff : s.i2s.i2sEnable.getLsbD 0 = false) :
    CaptureOk s'.seen := by
  intro hen
  rw [h.i2sEnable, hoff] at hen
  cases hen

theorem setSysclk_kept (mclk : Option (BitVec 32)) (clockOut : Bool) (clk : Int) (s : Capture) :
    ∃ s' ev ret, Stage.setSysclk mclk clockOut clk (s, []) = ((s', ev), ret) ∧ Kept s s' ∧
      (s.i2s.i2sEnable.getLsbD 0 = false → ∀ e ∈ ev, CaptureOk e) := by
  rcases mclk with _ | freq
  · exact ⟨s, [], 0, rfl, ⟨rfl, rfl, rfl, rfl, rfl⟩, by simp⟩
  · have hk : Kept s { s with adc := cv1800bAdcDaiSetSysclk s.adc freq,
                              i2s := (cv1800bI2sDaiSetSysclk s.i2s freq clockOut clk).1 } :=
      ⟨rfl, rfl, rfl, rfl, setSysclk_i2sEnable ..⟩
    refine ⟨_, _, _, rfl, hk, ?_⟩
    intro hoff e he
    obtain rfl := List.mem_singleton.mp he
    exact hk.seen_ok hoff

theorem i2sHwParams_kept (p : PcmParams) (clk : Int) (s : Capture) (log : List CaptureEvent) :
    ∃ s' ret, Stage.i2sHwParams p clk (s, log) = ((s', log ++ [s'.seen]), ret) ∧ Kept s s' ∧
      s'.adc = s.adc ∧ (ret = 0 → s'.i2s.clkCtrl0.getLsbD 8 = true) :=
  ⟨_, _, rfl, ⟨rfl, rfl, rfl, rfl, hwParams_i2sEnable ..⟩, rfl, fun h => hwParams_audEn h⟩

theorem adcHwParams_kept (p : PcmParams) (eco : Bool) (s : Capture) (log : List CaptureEvent) :
    ∃ s' ret, Stage.adcHwParams p eco (s, log) =
        ((s', log ++ [.softReset (s.adc.ctrl0.getLsbD 0) (s.adc.ctrl0.getLsbD 1), s'.seen]), ret) ∧
      Kept s s' ∧ s'.i2s = s.i2s :=
  ⟨_, _, rfl, ⟨rfl, rfl, rfl, adcHwParams_ctrl0 .., rfl⟩, rfl⟩

/-- **The stage.** It keeps the states and the enable bits, its success leaves the
audio clock on, and what it shows is acceptable exactly if it does not pulse the
reset of an enabled ADC. -/
theorem hwParamsStage (a : HwParamsArgs) (s : Capture)
    (hoff : s.i2s.i2sEnable.getLsbD 0 = false) :
    ∃ s' ev ret, Stage.hwParams a (s, []) = ((s', ev), ret) ∧ Kept s s' ∧
      (ret = 0 → s'.i2s.clkCtrl0.getLsbD 8 = true) ∧
      ((∀ e ∈ ev, CaptureOk e) ↔
        (ReachesCodec s a → s.adc.ctrl0.getLsbD 0 = false ∧ s.adc.ctrl0.getLsbD 1 = false)) := by
  obtain ⟨s₁, ev₁, ret₁, h₁, hk₁, hok₁⟩ := setSysclk_kept a.mclk a.clockOut a.clkSysclk s
  have hok₁ := hok₁ hoff
  by_cases hr₁ : ret₁ = 0
  · -- the clock is set, so the two DAIs are called in the order of the arguments
    have hoff₁ : s₁.i2s.i2sEnable.getLsbD 0 = false := by rw [hk₁.i2sEnable, hoff]
    have hstage : Stage.hwParams a (s, []) =
        (if a.codecFirst then
            (Stage.adcHwParams a.p a.eco).seq (Stage.i2sHwParams a.p a.clkParams)
          else (Stage.i2sHwParams a.p a.clkParams).seq (Stage.adcHwParams a.p a.eco))
          (s₁, ev₁) := by
      rw [Stage.hwParams, Stage.seq, h₁, andThen_ok hr₁]
    have hbits : s₁.adc.ctrl0 = s.adc.ctrl0 := hk₁.ctrl0
    rcases hcf : a.codecFirst with _ | _
    · rw [hcf, if_neg (by simp)] at hstage
      obtain ⟨s₂, ret₂, h₂, hk₂, hadc₂, haud₂⟩ := i2sHwParams_kept a.p a.clkParams s₁ ev₁
      have hseen₂ := hk₂.seen_ok hoff₁
      have hreach : ReachesCodec s a ↔ ret₂ = 0 := by
        rw [ReachesCodec, h₁, h₂, hcf]
        simp [hr₁]
      by_cases hr₂ : ret₂ = 0
      · obtain ⟨s₃, ret₃, h₃, hk₃, hi2s₃⟩ :=
          adcHwParams_kept a.p a.eco s₂ (ev₁ ++ [s₂.seen])
        rw [Stage.seq, h₂, andThen_ok hr₂, h₃] at hstage
        refine ⟨s₃, _, ret₃, hstage, (hk₁.trans hk₂).trans hk₃, ?_, ?_⟩
        · intro _
          rw [hi2s₃]
          exact haud₂ hr₂
        · have hseen₃ := (hk₂.trans hk₃).seen_ok hoff₁
          rw [hadc₂, hbits]
          simp only [List.forall_mem_append, List.forall_mem_cons, List.not_mem_nil,
            false_imp_iff, implies_true, and_true, hseen₂, hseen₃, hreach, hr₂, true_imp_iff]
          exact ⟨fun h => h.2, fun h => ⟨hok₁, h⟩⟩
      · rw [Stage.seq, h₂, andThen_fail hr₂] at hstage
        refine ⟨s₂, _, ret₂, hstage, hk₁.trans hk₂, fun h => absurd h hr₂, ?_⟩
        refine iff_of_true ?_ (fun h => absurd (hreach.mp h) hr₂)
        intro e he
        rcases List.mem_append.mp he with he | he
        · exact hok₁ e he
        · obtain rfl := List.mem_singleton.mp he
          exact hseen₂
    · rw [hcf, if_pos rfl] at hstage
      obtain ⟨s₂, ret₂, h₂, hk₂, -⟩ := adcHwParams_kept a.p a.eco s₁ ev₁
      have hseen₂ := hk₂.seen_ok hoff₁
      have hreach : ReachesCodec s a := by
        rw [ReachesCodec, h₁, hcf]
        simp [hr₁]
      by_cases hr₂ : ret₂ = 0
      · obtain ⟨s₃, ret₃, h₃, hk₃, -, haud₃⟩ := i2sHwParams_kept a.p a.clkParams s₂
          (ev₁ ++ [.softReset (s₁.adc.ctrl0.getLsbD 0) (s₁.adc.ctrl0.getLsbD 1), s₂.seen])
        rw [Stage.seq, h₂, andThen_ok hr₂, h₃] at hstage
        have hseen₃ := (hk₂.trans hk₃).seen_ok hoff₁
        refine ⟨s₃, _, ret₃, hstage, (hk₁.trans hk₂).trans hk₃, haud₃, ?_⟩
        rw [hbits]
        simp only [List.forall_mem_append, List.forall_mem_cons, List.not_mem_nil,
          false_imp_iff, implies_true, and_true, hseen₂, hseen₃, hreach, true_imp_iff]
        exact ⟨fun h => h.2, fun h => ⟨hok₁, h⟩⟩
      · rw [Stage.seq, h₂, andThen_fail hr₂] at hstage
        refine ⟨s₂, _, ret₂, hstage, hk₁.trans hk₂, fun h => absurd h hr₂, ?_⟩
        rw [hbits]
        simp only [List.forall_mem_append, List.forall_mem_cons, List.not_mem_nil,
          false_imp_iff, implies_true, and_true, hseen₂, hreach, true_imp_iff]
        exact ⟨fun h => h.2, fun h => ⟨hok₁, h⟩⟩
  · -- the clock could not be set, so neither DAI is called
    refine ⟨s₁, ev₁, ret₁, ?_, hk₁, fun h => absurd h hr₁, iff_of_true hok₁ ?_⟩
    · rw [Stage.hwParams, Stage.seq, h₁, andThen_fail hr₁]
    · rintro ⟨hz, -⟩
      rw [h₁] at hz
      exact absurd hz hr₁

/-! ## The invariant -/

/-- What holds in every state of the link, whatever the order of the callbacks: the
ADC is on from `prepare` to `shutdown`, the controller only while the stream runs,
and a stream that is set up has the audio clock. -/
structure CapInv (s : Capture) : Prop where
  bits : s.adc.ctrl0.getLsbD 0 = s.preparedSinceOpen ∧
    s.adc.ctrl0.getLsbD 1 = s.preparedSinceOpen
  enabled : s.i2s.i2sEnable.getLsbD 0 = true → s.pcm = .running
  ready : s.pcm.Ready → s.preparedSinceOpen = true
  audEn : s.pcm ≠ .closed → s.pcm ≠ .opened → s.i2s.clkCtrl0.getLsbD 8 = true
  saved : s.pcm = .suspended → s.suspendedState.Ready ∧ s.preparedSinceOpen = true
  closed : s.pcm = .closed → s.preparedSinceOpen = false

theorem CapInv.off {s : Capture} (hI : CapInv s) (h : s.pcm ≠ .running) :
    s.i2s.i2sEnable.getLsbD 0 = false := by
  by_contra hen
  exact h (hI.enabled (by simpa using hen))

/-- In a state of the link the bits are as they may be. -/
theorem CapInv.seen_ok {s : Capture} (hI : CapInv s) : CaptureOk s.seen := by
  intro hen
  have hrun := hI.enabled hen
  have hprep := hI.ready (by rw [hrun]; trivial)
  refine ⟨by rw [hI.bits.1, hprep], by rw [hI.bits.2, hprep], ?_⟩
  exact hI.audEn (by rw [hrun]; decide) (by rw [hrun]; decide)

/-- A trigger that stops the controller, to any state that needs no more than the
one before. -/
theorem CapInv.stop {s : Capture} (hI : CapInv s) {cmd : TriggerCmd} {q : PcmState}
    (hcmd : cmd = .stop ∨ cmd = .suspend ∨ cmd = .pausePush) (hs : s.pcm.Ready)
    (hq : q = .setup ∨ q = .xrun ∨ q = .draining ∨ q = .paused) :
    CapInv { s.trigger cmd with pcm := q } := by
  have hoff := getLsbD_trigger_off s.i2s hcmd
  refine ⟨hI.bits, ?_, fun _ => hI.ready hs, ?_, ?_, ?_⟩
  · intro hen
    rw [Capture.trigger] at hen
    rw [hoff] at hen
    cases hen
  · intro _ _
    change (cv1800bI2sTrigger s.i2s cmd).1.clkCtrl0.getLsbD 8 = true
    rw [trigger_clkCtrl0]
    refine hI.audEn ?_ ?_ <;> rintro h <;> rw [h] at hs <;> exact hs
  · rintro (h : q = .suspended)
    rcases hq with rfl | rfl | rfl | rfl <;> cases h
  · rintro (h : q = .closed)
    rcases hq with rfl | rfl | rfl | rfl <;> cases h

/-- A trigger that starts the controller. -/
theorem CapInv.start {s : Capture} (hI : CapInv s) (cmd : TriggerCmd) (hs : s.pcm.Ready) :
    CapInv { s.trigger cmd with pcm := .running } := by
  refine ⟨hI.bits, fun _ => rfl, fun _ => hI.ready hs, ?_, ?_, ?_⟩
  · intro _ _
    change (cv1800bI2sTrigger s.i2s cmd).1.clkCtrl0.getLsbD 8 = true
    rw [trigger_clkCtrl0]
    refine hI.audEn ?_ ?_ <;> rintro h <;> rw [h] at hs <;> exact hs
  · rintro h
    cases h
  · rintro h
    cases h

/-- Bringing the stream to `SETUP`. -/
theorem CapInv.drop {s : Capture} (hI : CapInv s) (hc : s.pcm ≠ .closed) (ho : s.pcm ≠ .opened) :
    CapInv s.drop.1 ∧ s.drop.1.pcm = .setup ∧ ∀ e ∈ s.drop.2, CaptureOk e := by
  have idle : s.pcm ≠ .running → CapInv { s with pcm := .setup } := by
    intro hrun
    refine ⟨hI.bits, ?_, fun h => absurd h id, fun _ _ => hI.audEn hc ho, ?_, ?_⟩
    · intro hen
      exact absurd (hI.enabled hen) hrun
    · rintro h
      cases h
    · rintro h
      cases h
  cases hp : s.pcm with
  | closed => exact absurd hp hc
  | opened => exact absurd hp ho
  | paused =>
    have hready : s.pcm.Ready := by rw [hp]; trivial
    have hrel := hI.start .pauseRelease hready
    have hstop := hrel.stop (q := .setup) (.inl rfl) trivial (.inl rfl)
    simp only [Capture.drop, hp]
    refine ⟨hstop, trivial, ?_⟩
    intro e he
    simp only [List.mem_cons, List.not_mem_nil, or_false] at he
    rcases he with rfl | rfl
    · exact hrel.seen_ok
    · exact hstop.seen_ok
  | running =>
    have hready : s.pcm.Ready := by rw [hp]; trivial
    have hstop := hI.stop (q := .setup) (.inl rfl) hready (.inl rfl)
    simp only [Capture.drop, hp]
    refine ⟨hstop, trivial, ?_⟩
    intro e he
    obtain rfl := List.mem_singleton.mp he
    exact hstop.seen_ok
  | setup | prepared | xrun | draining | suspended =>
    have hidle := idle (by rw [hp]; decide)
    simp only [Capture.drop, hp]
    exact ⟨hidle, by simp⟩

/-- The codec's `prepare`, in any state but a running or unset one. -/
theorem CapInv.prepare {s : Capture} (hI : CapInv s) (hc : s.pcm ≠ .closed)
    (ho : s.pcm ≠ .opened) (hrun : s.pcm ≠ .running) :
    CapInv { s with adc := cv1800bAdcPrepare s.adc, preparedSinceOpen := true,
                    pcm := .prepared } := by
  have hoff := hI.off hrun
  refine ⟨getLsbD_adcEnable s.adc true, ?_, fun _ => rfl, fun _ _ => hI.audEn hc ho, ?_, ?_⟩
  · intro hen
    exact absurd (hoff.symm.trans hen) (by simp)
  · rintro h
    cases h
  · rintro h
    cases h

/-- The codec's `shutdown`, once the stream does not run. -/
theorem CapInv.shutdown {s : Capture} (hI : CapInv s) (hrun : s.pcm ≠ .running) :
    CapInv { s with adc := cv1800bAdcShutdown s.adc, preparedSinceOpen := false,
                    pcm := .closed } := by
  have hoff := hI.off hrun
  refine ⟨getLsbD_adcEnable s.adc false, ?_, fun h => absurd h id, ?_, ?_, fun _ => rfl⟩
  · intro hen
    exact absurd (hoff.symm.trans hen) (by simp)
  · intro h
    exact absurd rfl h
  · rintro h
    cases h

/-- What is acceptable in the events of a step that is not `hw_params`. -/
def Fine (r : Capture × List CaptureEvent) : Prop := CapInv r.1 ∧ ∀ e ∈ r.2, CaptureOk e

/-- A step whose last event shows the state it leaves. -/
theorem CapInv.fine {s : Capture} (hI : CapInv s) {log : List CaptureEvent}
    (hlog : ∀ e ∈ log, CaptureOk e) : Fine (s, log ++ [s.seen]) := by
  refine ⟨hI, ?_⟩
  intro e he
  rcases List.mem_append.mp he with he | he
  · exact hlog e he
  · obtain rfl := List.mem_singleton.mp he
    exact hI.seen_ok

theorem CapInv.fine_seen {s : Capture} (hI : CapInv s) : Fine (s, [s.seen]) := by
  change Fine (s, [] ++ [s.seen])
  exact hI.fine (by simp)

/-- The state `OPEN`, from `startup` or back from `hw_free`. -/
theorem CapInv.toOpened {s : Capture} (hI : CapInv s) (hrun : s.pcm ≠ .running) :
    CapInv { s with pcm := .opened } := by
  have hoff := hI.off hrun
  refine ⟨hI.bits, ?_, fun h => absurd h id, fun _ h => absurd rfl h, ?_, ?_⟩
  · intro hen
    exact absurd (hoff.symm.trans hen) (by simp)
  · rintro h
    cases h
  · rintro h
    cases h

/-- Suspending a stream that was prepared. -/
theorem CapInv.suspend {s : Capture} (hI : CapInv s) (hs : s.pcm.Ready) :
    CapInv { (if s.pcm = .running then s.trigger .suspend else s) with
      suspendedState := s.pcm, pcm := .suspended } := by
  have haud : s.i2s.clkCtrl0.getLsbD 8 = true := by
    apply hI.audEn <;> rintro h <;> rw [h] at hs <;> exact hs
  by_cases hrun : s.pcm = .running
  · rw [if_pos hrun]
    have hoff := getLsbD_trigger_off s.i2s (.inr (.inl rfl) : TriggerCmd.suspend = .stop ∨ _)
    refine ⟨hI.bits, ?_, fun h => absurd h id, fun _ _ => haud, fun _ => ⟨hs, hI.ready hs⟩, ?_⟩
    · intro hen
      exact absurd (hoff.symm.trans hen) (by simp)
    · rintro h
      cases h
  · rw [if_neg hrun]
    have hoff := hI.off hrun
    refine ⟨hI.bits, ?_, fun h => absurd h id, fun _ _ => haud, fun _ => ⟨hs, hI.ready hs⟩, ?_⟩
    · intro hen
      exact absurd (hoff.symm.trans hen) (by simp)
    · rintro h
      cases h

/-- Resuming it, back to the state it was suspended in. -/
theorem CapInv.resume {s : Capture} (hI : CapInv s) (hs : s.pcm = .suspended) :
    CapInv { (if s.suspendedState = .running then s.trigger .resume else s) with
      pcm := s.suspendedState } := by
  obtain ⟨hready, hprep⟩ := hI.saved hs
  have haud := hI.audEn (by rw [hs]; decide) (by rw [hs]; decide)
  have hoff := hI.off (by rw [hs]; decide)
  have not_suspended : s.suspendedState ≠ .suspended := by
    rintro h
    rw [h] at hready
    exact hready
  have not_closed : s.suspendedState ≠ .closed := by
    rintro h
    rw [h] at hready
    exact hready
  by_cases hrun : s.suspendedState = .running
  · rw [if_pos hrun]
    exact ⟨hI.bits, fun _ => hrun, fun _ => hprep, fun _ _ => haud,
      fun h => absurd h not_suspended, fun h => absurd h not_closed⟩
  · rw [if_neg hrun]
    refine ⟨hI.bits, ?_, fun _ => hprep, fun _ _ => haud,
      fun h => absurd h not_suspended, fun h => absurd h not_closed⟩
    intro hen
    exact absurd (hoff.symm.trans hen) (by simp)

/-- The `hw_params` stage, whatever it returns. -/
theorem CapInv.hwParams {s s' : Capture} {ret : Int} (hI : CapInv s) (hk : Kept s s')
    (haud : ret = 0 → s'.i2s.clkCtrl0.getLsbD 8 = true) (hrun : s.pcm ≠ .running) :
    CapInv { s' with pcm := if ret = 0 then .setup else .opened } := by
  have hoff : s'.i2s.i2sEnable.getLsbD 0 = false := by rw [hk.i2sEnable, hI.off hrun]
  have hbits : s'.adc.ctrl0.getLsbD 0 = s'.preparedSinceOpen ∧
      s'.adc.ctrl0.getLsbD 1 = s'.preparedSinceOpen := by
    rw [hk.ctrl0, hk.prepared]
    exact hI.bits
  refine ⟨hbits, ?_, ?_, ?_, ?_, ?_⟩
  · intro hen
    exact absurd (hoff.symm.trans hen) (by simp)
  · split <;> rintro h <;> exact absurd h id
  · split
    · rename_i h
      exact fun _ _ => haud h
    · exact fun _ h => absurd rfl h
  · split <;> rintro h <;> cases h
  · split <;> rintro h <;> cases h

/-- Every step that is not `hw_params`, whatever came before. -/
theorem CapInv.step_fine {s : Capture} (hI : CapInv s) {a : CaptureAction}
    (ha : ∀ args, a ≠ .hwParams args) {r : Capture × List CaptureEvent}
    (h : captureStep s a = some r) : Fine r := by
  cases a with
  | hwParams args => exact absurd rfl (ha args)
  | openStream =>
    simp only [captureStep, Option.ite_none_right_eq_some, Option.some.injEq] at h
    obtain ⟨hc, rfl⟩ := h
    exact (hI.toOpened (by rw [hc]; decide)).fine_seen
  | hwFree =>
    simp only [captureStep, Option.ite_none_right_eq_some, Option.some.injEq] at h
    obtain ⟨hp, rfl⟩ := h
    refine (hI.toOpened ?_).fine_seen
    rcases hp with hp | hp <;> rw [hp] <;> decide
  | prepare =>
    simp only [captureStep] at h
    split at h
    · cases h
    · rename_i hp
      rw [not_or, not_or] at hp
      obtain ⟨hc, ho, hrun⟩ := hp
      split at h
      · obtain rfl := Option.some.inj h
        obtain ⟨hI', hset, hev⟩ := hI.drop hc ho
        apply CapInv.fine _ hev
        apply hI'.prepare <;> rw [hset] <;> decide
      · obtain rfl := Option.some.inj h
        exact (hI.prepare hc ho hrun).fine (by simp)
  | start =>
    simp only [captureStep, Option.ite_none_right_eq_some, Option.some.injEq] at h
    obtain ⟨hp, rfl⟩ := h
    exact (hI.start .start (by rw [hp]; trivial)).fine_seen
  | stop dest =>
    simp only [captureStep, Option.ite_none_right_eq_some, Option.some.injEq] at h
    obtain ⟨⟨hp, hd⟩, rfl⟩ := h
    refine (hI.stop (.inl rfl) (by rw [hp]; trivial) ?_).fine_seen
    rcases hd with rfl | rfl | rfl <;> simp
  | drop =>
    simp only [captureStep] at h
    split at h
    · cases h
    · rename_i hp
      rw [not_or] at hp
      obtain rfl := Option.some.inj h
      obtain ⟨hI', -, hev⟩ := hI.drop hp.1 hp.2
      exact ⟨hI', hev⟩
  | pausePush =>
    simp only [captureStep, Option.ite_none_right_eq_some, Option.some.injEq] at h
    obtain ⟨hp, rfl⟩ := h
    exact (hI.stop (.inr (.inr rfl)) (by rw [hp]; trivial) (by simp)).fine_seen
  | pauseRelease =>
    simp only [captureStep, Option.ite_none_right_eq_some, Option.some.injEq] at h
    obtain ⟨hp, rfl⟩ := h
    exact (hI.start .pauseRelease (by rw [hp]; trivial)).fine_seen
  | suspend =>
    simp only [captureStep, Option.ite_none_right_eq_some, Option.some.injEq] at h
    obtain ⟨hp, rfl⟩ := h
    exact (hI.suspend hp).fine_seen
  | resume =>
    simp only [captureStep, Option.ite_none_right_eq_some, Option.some.injEq] at h
    obtain ⟨hp, rfl⟩ := h
    exact (hI.resume hp).fine_seen
  | closeStream =>
    simp only [captureStep] at h
    split at h
    · cases h
    · rename_i hc
      obtain rfl := Option.some.inj h
      have hdrop : CapInv s.drop.1 ∧ s.drop.1.pcm ≠ .running ∧ ∀ e ∈ s.drop.2, CaptureOk e := by
        by_cases ho : s.pcm = .opened
        · rw [show s.drop = (s, []) by simp only [Capture.drop, ho]]
          exact ⟨hI, by rw [ho]; decide, by simp⟩
        · obtain ⟨hI', hset, hev⟩ := hI.drop hc ho
          exact ⟨hI', by rw [hset]; decide, hev⟩
      obtain ⟨hI', hrun, hev⟩ := hdrop
      have hclosed := hI'.shutdown hrun
      refine ⟨hclosed, ?_⟩
      intro e he
      rcases List.mem_append.mp he with he | he
      · exact hev e he
      · simp only [List.mem_cons, List.not_mem_nil, or_false] at he
        rcases he with rfl | rfl
        · exact hclosed.seen_ok
        · exact getLsbD_adcEnable _ false

/-- **One step.** It keeps the invariant, and what it shows is acceptable exactly under
the condition. -/
theorem CapInv.step {s s' : Capture} {ev : List CaptureEvent} {a : CaptureAction}
    (hI : CapInv s) (h : captureStep s a = some (s', ev)) :
    CapInv s' ∧ ((∀ e ∈ ev, CaptureOk e) ↔ CaptureCond s a) := by
  by_cases ha : ∃ args, a = .hwParams args
  · obtain ⟨args, rfl⟩ := ha
    simp only [captureStep, Option.ite_none_right_eq_some, Option.some.injEq] at h
    obtain ⟨hp, h⟩ := h
    have hrun : s.pcm ≠ .running := by
      rcases hp with hp | hp | hp <;> rw [hp] <;> decide
    obtain ⟨s₁, ev₁, ret, hstage, hk, haud, hiff⟩ := hwParamsStage args s (hI.off hrun)
    rw [hstage] at h
    obtain ⟨rfl, rfl⟩ := Prod.mk.inj h
    refine ⟨hI.hwParams hk haud hrun, hiff.trans ?_⟩
    rw [hI.bits.1, hI.bits.2, and_self, CaptureCond]
  · have ha' : ∀ args, a ≠ .hwParams args := fun args hargs => ha ⟨args, hargs⟩
    obtain ⟨hI', hok⟩ := hI.step_fine ha' h
    refine ⟨hI', iff_of_true hok ?_⟩
    cases a with
    | hwParams args => exact absurd rfl (ha' args)
    | _ => trivial

/-- The link starts in the invariant: `cv1800b_i2s_setup_tdm` switches the controller
off. -/
theorem Capture.AtProbe.capInv {s : Capture} (h : s.AtProbe) : CapInv s := by
  obtain ⟨i2s, hi⟩ := h.setup
  have hoff : s.i2s.i2sEnable.getLsbD 0 = false := by
    rw [hi]
    apply (BitField.getLsbD_replace ..).trans
    rw [if_pos (by decide)]
    decide
  refine ⟨?_, ?_, ?_, fun hc => absurd h.closed hc, ?_, fun _ => h.fresh⟩
  · rw [h.fresh]
    exact h.off
  · intro hen
    exact absurd (hoff.symm.trans hen) (by simp)
  · rw [h.closed]
    exact fun hr => absurd hr id
  · rw [h.closed]
    rintro hs
    cases hs

/-! ## Every run -/

/-- **The order of the capture bring-up.** Over every sequence of stages that ALSA
allows, the reset pulse finds the ADC off, the controller is never on without the ADC
and the audio clock, and `shutdown` leaves the ADC off, exactly if the codec's
`hw_params` is never called between a `prepare` and the next `shutdown`. -/
theorem capture_bring_up {s₀ s : Capture} {as : List CaptureAction} {log : List CaptureEvent}
    (h₀ : s₀.AtProbe) (he : captureLink.exec s₀ as = some (s, log)) :
    (∀ e ∈ log, CaptureOk e) ↔ captureLink.Meets CaptureCond s₀ as := by
  rw [← @Judged.forall_iff _ CaptureOk log []]
  refine Machine.exec_judged_iff (M := captureLink) (I := fun s _ => CapInv s)
    (P := fun _ => CaptureOk) ?_ ?_ h₀.capInv he
  · intro s s' log ev a hI _ hs
    exact (hI.step hs).1
  · intro s s' log ev a hI hs
    rw [Judged.forall_iff]
    exact (hI.step hs).2

/-- Both drivers after their probe. -/
def probedLink : Capture where
  pcm := .closed
  suspendedState := .closed
  preparedSinceOpen := false
  i2s := cv1800bI2sSetupTdm ⟨0, 0, 0, 0, 0, 0, 0, 0, 0, 0, 0, 0, false, 0⟩
  adc := ⟨0, 0, 0, 0, 0, 0, 0, 0⟩

theorem probedLink_atProbe : probedLink.AtProbe :=
  ⟨rfl, rfl, ⟨_, rfl⟩, rfl, rfl⟩

/-- Two channels of 16 bits at 48 kHz, with the system clock of 256 times the rate. -/
def stereo48k (codecFirst : Bool) : CaptureAction :=
  .hwParams ⟨⟨48000, 2, 16, 16, false⟩, some 12288000, false, 0, 0, true, codecFirst⟩

/-- A capture with an xrun and a suspend, closed and set up again. -/
def captureRun : List CaptureAction :=
  [.openStream, stereo48k false, .prepare, .start, .stop .xrun, .prepare, .start, .suspend,
    .resume, .closeStream, .openStream, stereo48k true]

theorem capture_bring_up_captureRun :
    ∃ s log, captureLink.exec probedLink captureRun = some (s, log) ∧
      CaptureEvent.softReset false false ∈ log ∧ CaptureEvent.seen true true true true ∈ log ∧
      ∀ e ∈ log, CaptureOk e := by
  refine ⟨_, _, rfl, by decide, by decide, ?_⟩
  refine (@capture_bring_up _ _ captureRun _ probedLink_atProbe rfl).mpr ?_
  -- both `hw_params` come while no `prepare` is outstanding
  exact ⟨trivial, fun _ => rfl, trivial, trivial, trivial, trivial, trivial, trivial, trivial,
    trivial, trivial, fun _ => rfl, trivial⟩

/-- Parameters set again after `prepare`: the pulse resets the running ADC. -/
def reconfigureRun : List CaptureAction :=
  [.openStream, stereo48k false, .prepare, stereo48k false]

theorem not_capture_bring_up :
    ¬ ∀ (s₀ s : Capture) (as : List CaptureAction) (log : List CaptureEvent), s₀.AtProbe →
      captureLink.exec s₀ as = some (s, log) → ∀ e ∈ log, CaptureOk e := by
  intro h
  have := h probedLink _ reconfigureRun _ probedLink_atProbe rfl (.softReset true true) (by decide)
  exact absurd this.1 (by decide)

end LicheeRvNano
