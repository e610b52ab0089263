import LicheeRvNano.BitField
import LicheeRvNano.Kernel

/-!
# TPU registers

The two engines as the driver sees them, and the functions of `tpu_platform.c` and
`tpu_pmu.c` that read and write their registers.

Of the engines only what the driver relies on is modelled. A register holds what was
last written to it, but for five places: the upper half of `TDMA_SYNC_STATUS` counts
the TDMA commands done and is reset through `TDMA_CTRL`; the upper half of
`TDMA_INT_MASK` is the interrupt status, where writing a one clears; the command id
of `BD_CTRL_BASE_ADDR` counts the TIU commands done, cannot be written and is reset
through the fourth word; bit 1 of that register is the TIU's done flag, where
writing a one clears; and starting the TDMA or stopping the PMU makes an interrupt
due.
-/

namespace LicheeRvNano

/-- The registers the driver uses, under the names of `reg_tdma.h`, `reg_tiu.h` and
`tpu_pmu.c`. -/
inductive TpuReg where
  | TDMA_CTRL
  | TDMA_DES_BASE
  | TDMA_INT_MASK
  | TDMA_SYNC_STATUS
  | TDMA_CMD_ACCP (i : Fin 16)
  | TDMA_ARRAYBASE_L (i : Fin 8)
  | TDMA_ARRAYBASE_H (i : Fin 2)
  | TDMA_DEBUG_MODE
  | TDMA_DCM_DISABLE
  | TPUPMU_CTRL
  | TPUPMU_BUFBASE
  | TPUPMU_BUFSIZE
  /-- `BD_CTRL_BASE_ADDR`, and the three words after it -/
  | BD_CTRL
  | BD_CTRL_4
  | BD_CTRL_8
  | BD_CTRL_C
  deriving DecidableEq

def BD_CMD_ID : BitField 32 := .genmask 21 6
def BD_INTR : BitField 32 := .bit 1

/-- The engines. -/
structure TpuHw where
  reg : TpuReg → BitVec 32
  /-- the upper half of `TDMA_SYNC_STATUS` -/
  syncId : BitVec 16
  /-- the upper half of `TDMA_INT_MASK` -/
  intStatus : BitVec 16
  /-- the command id in `BD_CTRL_BASE_ADDR` -/
  tiuId : BitVec 16
  /-- the done flag in `BD_CTRL_BASE_ADDR` -/
  tiuDone : Bool
  /-- the TDMA was started and has not reported its end -/
  tdmaDue : Bool
  /-- the PMU was stopped and has not reported its end -/
  pmuDue : Bool

/-- The engines out of reset. -/
def TpuHw.reset : TpuHw := ⟨fun _ => 0, 0, 0, 0, false, false, false⟩

/-- `RAW_READ32`. -/
def rawRead32 (hw : TpuHw) : TpuReg → BitVec 32
  | .TDMA_SYNC_STATUS => hw.syncId ++ (hw.reg .TDMA_SYNC_STATUS).setWidth 16
  | .TDMA_INT_MASK => hw.intStatus ++ (hw.reg .TDMA_INT_MASK).setWidth 16
  | .BD_CTRL =>
    BD_CMD_ID.replace (BD_INTR.replace (hw.reg .BD_CTRL) ((BitVec.ofBool hw.tiuDone).setWidth 32))
      (hw.tiuId.setWidth 32)
  | r => hw.reg r

/-- `RAW_WRITE32`. -/
def rawWrite32 (hw : TpuHw) (r : TpuReg) (v : BitVec 32) : TpuHw :=
  let hw' := { hw with reg := Function.update hw.reg r v }
  match r with
  | .TDMA_CTRL =>
    { hw' with syncId := if v.getLsbD 2 then 0 else hw.syncId, tdmaDue := v.getLsbD 0 }
  | .TDMA_SYNC_STATUS => { hw' with syncId := v.extractLsb' 16 16 }
  | .TDMA_INT_MASK => { hw' with intStatus := hw.intStatus &&& ~~~(v.extractLsb' 16 16) }
  | .TPUPMU_CTRL => { hw' with pmuDue := (hw.reg .TPUPMU_CTRL).getLsbD 0 && !v.getLsbD 0 }
  | .BD_CTRL => { hw' with tiuDone := hw.tiuDone && !v.getLsbD 1 }
  | .BD_CTRL_C => { hw' with tiuId := if v.getLsbD 0 then 0 else hw.tiuId }
  | _ => hw'

theorem reg_rawWrite32_self {hw : TpuHw} {r : TpuReg} {v : BitVec 32} :
    (rawWrite32 hw r v).reg r = v := by
  have hupdate : Function.update hw.reg r v r = v := Function.update_self r v hw.reg
  unfold rawWrite32
  split <;> exact hupdate

theorem reg_rawWrite32_of_ne {hw : TpuHw} {r r' : TpuReg} {v : BitVec 32} (h : r' ≠ r) :
    (rawWrite32 hw r v).reg r' = hw.reg r' := by
  have hupdate : Function.update hw.reg r v r' = hw.reg r' := Function.update_of_ne h v hw.reg
  unfold rawWrite32
  split <;> exact hupdate

/-- Whether the TDMA holds its interrupt line high. -/
def TpuHw.line (hw : TpuHw) : Bool :=
  hw.intStatus &&& ~~~(hw.reg .TDMA_INT_MASK).setWidth 16 ≠ 0

def TpuHw.tdmaEnabled (hw : TpuHw) : Bool := (hw.reg .TDMA_CTRL).getLsbD 0

def TpuHw.tiuEnabled (hw : TpuHw) : Bool := (hw.reg .BD_CTRL).getLsbD 0

/-! ## The command buffer -/

abbrev TPU_DMABUF_HEADER_M : BitVec 16 := 0xB5B5
abbrev TDMA_MASK_INIT : BitVec 32 := 0x20
abbrev TDMA_CTRL_ENABLE_BIT : Nat := 0
abbrev TDMA_CTRL_MODESEL_BIT : Nat := 1
abbrev TDMA_CTRL_RESET_SYNCID_BIT : Nat := 2
abbrev TDMA_CTRL_FORCE_1ARRAY : Nat := 5
abbrev TDMA_CTRL_BURSTLEN_BIT : Nat := 8
abbrev TDMA_CTRL_64BYTE_ALIGN_EN : Nat := 10
abbrev TDMA_CTRL_INTRA_CMD_OFF : Nat := 13
abbrev TDMA_CTRL_DESNUM_BIT : Nat := 16
abbrev BD_TPU_EN : Nat := 0
abbrev BD_DES_ADDR_VLD : Nat := 30
abbrev BD_INTR_ENABLE : Nat := 31
abbrev BDC_ENGINE_CMD_ALIGNED_BIT : Nat := 8
abbrev TPU_PMUEVENT_TDMABW : BitVec 32 := 2

/-- `struct cvi_cpu_sync_desc_t`. -/
structure CpuSyncDesc where
  num_bd : BitVec 32
  num_gdma : BitVec 32
  offset_bd : BitVec 32
  offset_gdma : BitVec 32
  deriving DecidableEq

/-- `struct dma_hdr_t` with the physical address of the buffer and the
`cpu_desc_count` descriptors after the header. -/
structure CmdBuf where
  dmabuf_magic_m : BitVec 16
  pmubuf_size : BitVec 32
  pmubuf_offset : BitVec 32
  arraybase_L : Fin 8 → BitVec 32
  dmabuf_p : BitVec 64
  descs : List CpuSyncDesc

/-- The `bd_num` of the descriptor loop. -/
def CpuSyncDesc.bdNum (d : CpuSyncDesc) : BitVec 32 := d.num_bd &&& 0xFFFF

/-- The `tdma_num` of the descriptor loop. -/
def CpuSyncDesc.tdmaNum (d : CpuSyncDesc) : BitVec 32 := d.num_gdma &&& 0xFFFF

/-- `u8pmu_enable`. -/
def CmdBuf.pmuEnable (b : CmdBuf) : Bool := b.pmubuf_offset ≠ 0 ∧ b.pmubuf_size ≠ 0

/-! ## The register functions -/

/-- `set_tdma_descriptor_Fire` without its flag. -/
def setTdmaDescriptorFire (hw : TpuHw) (descOffset numTdma : BitVec 32) : TpuHw :=
  let hw := rawWrite32 hw .TDMA_DES_BASE descOffset
  let hw := rawWrite32 hw .TDMA_DEBUG_MODE 0
  let hw := rawWrite32 hw .TDMA_DCM_DISABLE 0
  let hw := rawWrite32 hw .TDMA_INT_MASK TDMA_MASK_INIT
  rawWrite32 hw .TDMA_CTRL
    (1#32 <<< TDMA_CTRL_ENABLE_BIT ||| 1#32 <<< TDMA_CTRL_MODESEL_BIT |||
      numTdma <<< TDMA_CTRL_DESNUM_BIT ||| 3#32 <<< TDMA_CTRL_BURSTLEN_BIT |||
      1#32 <<< TDMA_CTRL_FORCE_1ARRAY ||| 1#32 <<< TDMA_CTRL_INTRA_CMD_OFF |||
      1#32 <<< TDMA_CTRL_64BYTE_ALIGN_EN)

/-- `set_tiu_descriptor`. -/
def setTiuDescriptor (hw : TpuHw) (descOffset : BitVec 32) : TpuHw :=
  let descAddr : BitVec 64 := descOffset.setWidth 64 <<< BDC_ENGINE_CMD_ALIGNED_BIT
  let hw := rawWrite32 hw .BD_CTRL_4 (descAddr.setWidth 32)
  let regVal := rawRead32 hw .BD_CTRL_8
  let hw := rawWrite32 hw .BD_CTRL_8
    (regVal &&& 0xFFFFFF00 ||| ((descAddr >>> 32).setWidth 32 &&& 0xFF))
  let regVal := rawRead32 hw .BD_CTRL_C
  let hw := rawWrite32 hw .BD_CTRL_C (regVal ||| 1#32 <<< 11)
  let regVal := rawRead32 hw .BD_CTRL &&& ~~~0x3FC00000
  let hw := rawWrite32 hw .BD_CTRL (regVal ||| 3#32 <<< 22)
  let regVal := rawRead32 hw .BD_CTRL
  rawWrite32 hw .BD_CTRL
    (regVal ||| 1#32 <<< BD_DES_ADDR_VLD ||| 1#32 <<< BD_INTR_ENABLE ||| 1#32 <<< BD_TPU_EN)

/-- `resync_cmd_id`. -/
def resyncCmdId (hw : TpuHw) : TpuHw :=
  let regVal := rawRead32 hw .BD_CTRL_C
  let hw := rawWrite32 hw .BD_CTRL_C (regVal ||| 1)
  let hw := rawWrite32 hw .BD_CTRL_C (regVal &&& ~~~1)
  let regVal := rawRead32 hw .BD_CTRL
  let hw := rawWrite32 hw .BD_CTRL (regVal &&& ~~~(1#32 <<< BD_TPU_EN ||| 1#32 <<< BD_DES_ADDR_VLD))
  let regVal := rawRead32 hw .BD_CTRL
  let hw := rawWrite32 hw .BD_CTRL (regVal ||| 1#32 <<< 1)
  let hw := rawWrite32 hw .TDMA_CTRL (1#32 <<< TDMA_CTRL_RESET_SYNCID_BIT)
  let hw := rawWrite32 hw .TDMA_CTRL 0
  rawWrite32 hw .TDMA_INT_MASK 0xFFFF0000

/-- Where the worker stands in `resync_cmd_id`, with the value it has read into `regVal`. -/
inductive Resync where
  | entered
  | tiuIdRead (regVal : BitVec 32)
  | tiuIdHeld (regVal : BitVec 32)
  | tiuIdReset
  | ctrlRead (regVal : BitVec 32)
  | tiuStopped
  | statusRead (regVal : BitVec 32)
  | tiuCleared
  /-- after the write of `TDMA_CTRL_RESET_SYNCID_BIT` -/
  | syncIdReset
  | tdmaStopped
  deriving DecidableEq

/-- One access of `resync_cmd_id`, and where the worker stands after it; the last one is
the write that clears the interrupt status. -/
def Resync.access (hw : TpuHw) : Resync → TpuHw × Option Resync
  | entered => (hw, some (tiuIdRead (rawRead32 hw .BD_CTRL_C)))
  | tiuIdRead regVal => (rawWrite32 hw .BD_CTRL_C (regVal ||| 1), some (tiuIdHeld regVal))
  | tiuIdHeld regVal => (rawWrite32 hw .BD_CTRL_C (regVal &&& ~~~1), some tiuIdReset)
  | tiuIdReset => (hw, some (ctrlRead (rawRead32 hw .BD_CTRL)))
  | ctrlRead regVal =>
    (rawWrite32 hw .BD_CTRL (regVal &&& ~~~(1#32 <<< BD_TPU_EN ||| 1#32 <<< BD_DES_ADDR_VLD)),
      some tiuStopped)
  | tiuStopped => (hw, some (statusRead (rawRead32 hw .BD_CTRL)))
  | statusRead regVal => (rawWrite32 hw .BD_CTRL (regVal ||| 1#32 <<< 1), some tiuCleared)
  | tiuCleared =>
    (rawWrite32 hw .TDMA_CTRL (1#32 <<< TDMA_CTRL_RESET_SYNCID_BIT), some syncIdReset)
  | syncIdReset => (rawWrite32 hw .TDMA_CTRL 0, some tdmaStopped)
  | tdmaStopped => (rawWrite32 hw .TDMA_INT_MASK 0xFFFF0000, none)

/-- Whether the sync id is still the one of the descriptor before. -/
def Resync.Stale : Resync → Bool
  | syncIdReset | tdmaStopped => false
  | _ => true

/-- The rest of `resync_cmd_id`, undisturbed; the recursion is on the accesses left. -/
def Resync.finish : Nat → TpuHw → Resync → Option TpuHw
  | 0, _, _ => none
  | n + 1, hw, r =>
    match r.access hw with
    | (hw, none) => some hw
    | (hw, some r) => finish n hw r

/-- The ten accesses are `resync_cmd_id`. -/
theorem Resync.finish_entered (hw : TpuHw) :
    Resync.finish 10 hw .entered = some (resyncCmdId hw) := rfl

/-- `platform_run_dmabuf_setArrayBase`. -/
def platformRunDmabufSetArrayBase (hw : TpuHw) (arraybase_L : Fin 8 → BitVec 32) : TpuHw :=
  let hw := (List.finRange 8).foldl
    (fun hw i => rawWrite32 hw (.TDMA_ARRAYBASE_L i) (arraybase_L i)) hw
  (List.finRange 2).foldl (fun hw i => rawWrite32 hw (.TDMA_ARRAYBASE_H i) 0) hw

/-- `TPUPMU_Enable` with `TPUPMU_Config`. -/
def tpupmuEnable (hw : TpuHw) (enable : Bool) (pmubufAddr : BitVec 64) (pmubufSize : BitVec 32)
    (event : BitVec 32) : TpuHw :=
  if enable then
    let hw := rawWrite32 hw .TPUPMU_BUFBASE ((pmubufAddr >>> 4).setWidth 32)
    let hw := rawWrite32 hw .TPUPMU_BUFSIZE (pmubufSize >>> 4)
    rawWrite32 hw .TPUPMU_CTRL
      ((0x1#32 ||| 0x8 ||| 0x10 ||| event <<< 5 ||| 3#32 <<< 8 ||| 1#32 <<< 10) &&& ~~~0xFFFF0000)
  else
    let regValue := rawRead32 hw .TPUPMU_CTRL
    rawWrite32 hw .TPUPMU_CTRL (regValue &&& ~~~1)

/-- `set_tdma_pio`; the array holds the sixteen command words. -/
def setTdmaPio (hw : TpuHw) (pioArray : Fin 16 → BitVec 32) : TpuHw :=
  let hw := resyncCmdId hw
  let hw := (List.finRange 16).foldl
    (fun hw i => rawWrite32 hw (.TDMA_CMD_ACCP i) (pioArray i)) hw
  let hw := rawWrite32 hw .TDMA_DEBUG_MODE 0
  let hw := rawWrite32 hw .TDMA_DCM_DISABLE 0
  let hw := rawWrite32 hw .TDMA_INT_MASK TDMA_MASK_INIT
  rawWrite32 hw .TDMA_CTRL
    (1#32 <<< TDMA_CTRL_ENABLE_BIT ||| 1#32 <<< TDMA_CTRL_DESNUM_BIT |||
      3#32 <<< TDMA_CTRL_BURSTLEN_BIT ||| 1#32 <<< TDMA_CTRL_FORCE_1ARRAY |||
      1#32 <<< TDMA_CTRL_INTRA_CMD_OFF ||| 1#32 <<< TDMA_CTRL_64BYTE_ALIGN_EN)

/-- The first check of `poll_cmdbuf_done`, on the backed up `TDMA_SYNC_STATUS`. -/
def tdmaIdShort (syncStatus : BitVec 32) (d : CpuSyncDesc) : Bool :=
  0 < d.tdmaNum ∧ syncStatus >>> 16 < d.tdmaNum

/-- What one reading of its polling loop waits for. -/
def bdFinished (regVal : BitVec 32) (d : CpuSyncDesc) : Bool :=
  d.bdNum ≤ ((regVal >>> 6) &&& 0xFFFF) ∧ regVal &&& (1#32 <<< 1) ≠ 0

/-! ## Save and restore -/

/-- The registers of `struct tpu_reg_backup_info` that `platform_tpu_resume` writes
back, in its order. -/
def restored : List TpuReg :=
  [.TDMA_INT_MASK, .TDMA_SYNC_STATUS, .BD_CTRL] ++
    (List.finRange 8).map .TDMA_ARRAYBASE_L ++ (List.finRange 2).map .TDMA_ARRAYBASE_H ++
    [.TDMA_DES_BASE, .TDMA_DEBUG_MODE, .TDMA_DCM_DISABLE]

/-- The registers `platform_tpu_suspend` saves: `TDMA_CTRL` too, which is only looked
at. -/
def saved : List TpuReg := restored ++ [.TDMA_CTRL]

/-- The three registers the interrupt handler saves. -/
def intSaved : List TpuReg := [.TDMA_INT_MASK, .TDMA_SYNC_STATUS, .BD_CTRL]

/-- Read the listed registers into the backup. -/
def backUp (hw : TpuHw) (rs : List TpuReg) (backup : TpuReg → BitVec 32) : TpuReg → BitVec 32 :=
  fun r => if r ∈ rs then rawRead32 hw r else backup r

/-- The register writes of `platform_tpu_resume`. -/
def writeBack (hw : TpuHw) (backup : TpuReg → BitVec 32) : TpuHw :=
  restored.foldl (fun hw r => rawWrite32 hw r (backup r)) hw

/-! ## What the driver reads -/

/-- The sync id in a value of `TDMA_SYNC_STATUS`. -/
theorem syncStatus_id (hw : TpuHw) :
    (rawRead32 hw .TDMA_SYNC_STATUS >>> 16).toNat = hw.syncId.toNat := by
  simp only [rawRead32, BitVec.toNat_ushiftRight, BitVec.toNat_append]
  have hlo : ((hw.reg .TDMA_SYNC_STATUS).setWidth 16).toNat < 2 ^ 16 := BitVec.isLt _
  rw [← Nat.shiftLeft_add_eq_or_of_lt hlo, Nat.shiftLeft_eq, Nat.shiftRight_eq_div_pow]
  omega

theorem bdCtrl_id (hw : TpuHw) :
    ((rawRead32 hw .BD_CTRL >>> 6) &&& 0xFFFF).toNat = hw.tiuId.toNat := by
  have hmask : (0xFFFF : BitVec 32) = BitField.mask ⟨15, 0, by decide, by decide⟩ := by decide
  have h : (rawRead32 hw .BD_CTRL >>> 6) &&& 0xFFFF = hw.tiuId.setWidth 32 := by
    apply BitVec.eq_of_getLsbD_eq
    intro i hi
    rw [BitVec.getLsbD_and, BitVec.getLsbD_ushiftRight, rawRead32, BitField.getLsbD_replace,
      hmask, BitField.getLsbD_mask]
    by_cases h : i < 16
    · have hlo : BD_CMD_ID.lo = 6 := rfl
      have hhi : BD_CMD_ID.hi = 21 := rfl
      have hhas : BD_CMD_ID.Has (6 + i) := by
        rw [BitField.Has, hlo, hhi]
        omega
      have hlow : i ≤ 15 := by omega
      rw [if_pos hhas]
      simp [hlo, BitField.Has, hlow]
    · have hlow : ¬ i ≤ 15 := by omega
      simp [BitField.Has, hlow, BitVec.getLsbD_of_ge _ i (Nat.le_of_not_lt h)]
  rw [h]
  simp
  omega

theorem bdCtrl_done (hw : TpuHw) :
    rawRead32 hw .BD_CTRL &&& 1#32 <<< 1 ≠ 0 ↔ hw.tiuDone = true := by
  have hbit : (rawRead32 hw .BD_CTRL).getLsbD 1 = hw.tiuDone := by
    rw [rawRead32, BitField.getLsbD_replace_of_not (by decide), BitField.getLsbD_replace,
      if_pos (by decide)]
    cases hw.tiuDone <;> rfl
  rw [← hbit, show 1#32 <<< 1 = BD_INTR.mask by decide]
  constructor
  · intro hne
    by_contra hf
    apply hne
    apply BitVec.eq_of_getLsbD_eq
    intro i _
    rw [BitVec.getLsbD_and, BitField.getLsbD_mask]
    by_cases hi : i = 1
    · rw [hi, Bool.eq_false_iff.mpr hf]
      rfl
    · have : ¬ BD_INTR.Has i := by simp [BD_INTR, eq_comm, hi]
      simp [this]
  · intro ht hz
    have h1 := congrArg (fun x : BitVec 32 => x.getLsbD 1) hz
    rw [BitVec.getLsbD_and, ht] at h1
    exact absurd h1 (by decide)

/-- The enable bit reads as it was written. -/
theorem bdCtrl_enable (hw : TpuHw) :
    (rawRead32 hw .BD_CTRL).getLsbD 0 = (hw.reg .BD_CTRL).getLsbD 0 := by
  rw [rawRead32, BitField.getLsbD_replace_of_not (by decide),
    BitField.getLsbD_replace_of_not (by decide)]

/-- A check passed: the id read is the count at least. -/
theorem tdmaNum_le_of_not_short {syncStatus : BitVec 32} {d : CpuSyncDesc}
    (h : tdmaIdShort syncStatus d = false) : d.tdmaNum.toNat ≤ (syncStatus >>> 16).toNat := by
  simp only [tdmaIdShort, decide_eq_false_iff_not, not_and, BitVec.lt_def] at h
  by_cases h0 : 0 < d.tdmaNum.toNat
  · exact Nat.le_of_not_lt (h (by simpa using h0))
  · omega

/-- A poll ends when the TIU shows the count at least, and its done flag. -/
theorem bdFinished_iff {hw : TpuHw} {d : CpuSyncDesc} :
    bdFinished (rawRead32 hw .BD_CTRL) d = true ↔
      d.bdNum.toNat ≤ hw.tiuId.toNat ∧ hw.tiuDone = true := by
  rw [bdFinished, decide_eq_true_eq, BitVec.le_def, bdCtrl_id, bdCtrl_done]

/-- The loop counts modulo `2 ^ 16`. -/
theorem CpuSyncDesc.toNat_num (d : CpuSyncDesc) :
    d.bdNum.toNat = d.num_bd.toNat % 65536 ∧ d.tdmaNum.toNat = d.num_gdma.toNat % 65536 := by
  constructor
  · simp only [CpuSyncDesc.bdNum, BitVec.toNat_and]
    exact Nat.and_two_pow_sub_one_eq_mod _ 16
  · simp only [CpuSyncDesc.tdmaNum, BitVec.toNat_and]
    exact Nat.and_two_pow_sub_one_eq_mod _ 16

/-! ## What the driver writes -/

/-- The engines' counters do not grow, and the done flag is not set. -/
structure Quiet (hw hw' : TpuHw) : Prop where
  syncId : hw'.syncId.toNat ≤ hw.syncId.toNat
  tiuId : hw'.tiuId.toNat ≤ hw.tiuId.toNat
  tiuDone : hw'.tiuDone = true → hw.tiuDone = true

theorem Quiet.refl (hw : TpuHw) : Quiet hw hw := ⟨le_refl _, le_refl _, id⟩

theorem Quiet.trans {a b c : TpuHw} (h : Quiet a b) (h' : Quiet b c) : Quiet a c :=
  ⟨h'.syncId.trans h.syncId, h'.tiuId.trans h.tiuId, fun hc => h.tiuDone (h'.tiuDone hc)⟩

/-- Only `TDMA_SYNC_STATUS` can set a counter. -/
theorem rawWrite32_quiet (hw : TpuHw) {r : TpuReg} (hr : r ≠ .TDMA_SYNC_STATUS) (v : BitVec 32) :
    Quiet hw (rawWrite32 hw r v) := by
  cases r with
  | TDMA_SYNC_STATUS => exact absurd rfl hr
  | TDMA_CTRL =>
    refine ⟨?_, le_refl _, id⟩
    simp only [rawWrite32]
    split
    · simp
    · exact le_refl _
  | BD_CTRL =>
    refine ⟨le_refl _, le_refl _, ?_⟩
    simp only [rawWrite32, Bool.and_eq_true]
    exact And.left
  | BD_CTRL_C =>
    refine ⟨le_refl _, ?_, id⟩
    simp only [rawWrite32]
    split
    · simp
    · exact le_refl _
  | _ => exact ⟨le_refl _, le_refl _, id⟩

theorem setTiuDescriptor_quiet (hw : TpuHw) (descOffset : BitVec 32) :
    Quiet hw (setTiuDescriptor hw descOffset) := by
  dsimp only [setTiuDescriptor]
  refine Quiet.trans ?_ (rawWrite32_quiet _ (by simp) _)
  refine Quiet.trans ?_ (rawWrite32_quiet _ (by simp) _)
  refine Quiet.trans ?_ (rawWrite32_quiet _ (by simp) _)
  refine Quiet.trans ?_ (rawWrite32_quiet _ (by simp) _)
  apply rawWrite32_quiet
  simp

theorem setTdmaDescriptorFire_quiet (hw : TpuHw) (descOffset numTdma : BitVec 32) :
    Quiet hw (setTdmaDescriptorFire hw descOffset numTdma) := by
  dsimp only [setTdmaDescriptorFire]
  refine Quiet.trans ?_ (rawWrite32_quiet _ (by simp) _)
  refine Quiet.trans ?_ (rawWrite32_quiet _ (by simp) _)
  refine Quiet.trans ?_ (rawWrite32_quiet _ (by simp) _)
  refine Quiet.trans ?_ (rawWrite32_quiet _ (by simp) _)
  apply rawWrite32_quiet
  simp

/-- The write of `TDMA_CTRL_RESET_SYNCID_BIT`. -/
theorem resetSyncId (hw : TpuHw) :
    (rawWrite32 hw .TDMA_CTRL (1#32 <<< TDMA_CTRL_RESET_SYNCID_BIT)).syncId = 0 := by
  simp [rawWrite32]

/-- What `platform_tpu_resume` restores of the counters. -/
theorem writeBack_syncId (hw : TpuHw) (backup : TpuReg → BitVec 32) :
    (writeBack hw backup).syncId.toNat = (backup .TDMA_SYNC_STATUS >>> 16).toNat := by
  have h : (writeBack hw backup).syncId = (backup .TDMA_SYNC_STATUS).extractLsb' 16 16 := rfl
  rw [h]
  simp
  omega

/-- And of the TIU's enable bit. -/
theorem writeBack_tiuEnabled (hw : TpuHw) (backup : TpuReg → BitVec 32) :
    (writeBack hw backup).tiuEnabled = (backup .BD_CTRL).getLsbD 0 := rfl

theorem writeBack_tiu (hw : TpuHw) (backup : TpuReg → BitVec 32) :
    (writeBack hw backup).tiuId = hw.tiuId ∧
      ((writeBack hw backup).tiuDone = true → hw.tiuDone = true) := by
  have h : (writeBack hw backup).tiuDone = (hw.tiuDone && !(backup .BD_CTRL).getLsbD 1) := rfl
  refine ⟨rfl, ?_⟩
  rw [h, Bool.and_eq_true]
  exact And.left

end LicheeRvNano
