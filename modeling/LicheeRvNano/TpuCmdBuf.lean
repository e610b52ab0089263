import LicheeRvNano.ByteImage
import LicheeRvNano.TpuPlatform
import LicheeRvNano.TpuQueue

/-!
# TPU driver: the command buffer in memory

A command buffer is a dma-buf that user space has written: a header of 128 bytes and
descriptors of 224 bytes each. `platform_run_dmabuf` takes the number of descriptors and
the place of the PMU buffer from the header. What it reads is logged here with its offset,
and `cmdbuf_bounded_iff` says for which buffers every read stays inside and the PMU gets
the range that the header asks for. The size of the buffer is in no test of the driver,
and the tests of `cvi_tpu_prepare_buffer` only print.
-/

namespace LicheeRvNano

/-! ## The structs -/

inductive DmaHdrMember where
  | dmabufMagicM | dmabufMagicS | dmabufSize | cpuDescCount | bdDescCount | tdmaDescCount
  | tpuClkRate | pmubufSize | pmubufOffset
  | arraybaseL (i : Fin 8) | arraybaseH (i : Fin 8)
  | reserve
  deriving DecidableEq

/-- `struct dma_hdr_t`. -/
def dmaHdrLayout : Layout DmaHdrMember :=
  [(.dmabufMagicM, 2), (.dmabufMagicS, 2), (.dmabufSize, 4), (.cpuDescCount, 4),
   (.bdDescCount, 4), (.tdmaDescCount, 4), (.tpuClkRate, 4), (.pmubufSize, 4),
   (.pmubufOffset, 4)] ++
    (List.finRange 8).flatMap (fun i => [(.arraybaseL i, 4), (.arraybaseH i, 4)]) ++
    [(.reserve, 32)]

inductive CpuSyncDescMember where
  | opType | numBd | numGdma | offsetBd | offsetGdma | reserved | str
  deriving DecidableEq

/-- `struct cvi_cpu_sync_desc_t`. -/
def cpuSyncDescLayout : Layout CpuSyncDescMember :=
  [(.opType, 4), (.numBd, 4), (.numGdma, 4), (.offsetBd, 4), (.offsetGdma, 4), (.reserved, 8),
   (.str, (56 - 7) * 4)]

abbrev DMA_HDR_SIZE : Nat := 128

abbrev CPU_SYNC_DESC_SIZE : Nat := 224

theorem size_dmaHdrLayout : dmaHdrLayout.size = DMA_HDR_SIZE := by decide

theorem size_cpuSyncDescLayout : cpuSyncDescLayout.size = CPU_SYNC_DESC_SIZE := by decide

/-- A member of the header of the buffer that is mapped at `v`. -/
def dmaHdr (m : Mem) (v : Nat) (f : DmaHdrMember) : Nat := dmaHdrLayout.get f (m.read v DMA_HDR_SIZE)

def cpuDescCount (m : Mem) (v : Nat) : BitVec 32 := BitVec.ofNat 32 (dmaHdr m v .cpuDescCount)

/-- Descriptor `i`: the pointer `desc` after `i` increments. -/
def readCpuSyncDesc (m : Mem) (v i : Nat) : CpuSyncDesc :=
  let b := m.read (v + DMA_HDR_SIZE + CPU_SYNC_DESC_SIZE * i) CPU_SYNC_DESC_SIZE
  { num_bd := BitVec.ofNat 32 (cpuSyncDescLayout.get .numBd b)
    num_gdma := BitVec.ofNat 32 (cpuSyncDescLayout.get .numGdma b)
    offset_bd := BitVec.ofNat 32 (cpuSyncDescLayout.get .offsetBd b)
    offset_gdma := BitVec.ofNat 32 (cpuSyncDescLayout.get .offsetGdma b) }

/-- The command buffer, as `platform_run_dmabuf` finds it in memory. -/
def readCmdBuf (m : Mem) (v : Nat) (dmabufP : BitVec 64) : CmdBuf where
  dmabuf_magic_m := BitVec.ofNat 16 (dmaHdr m v .dmabufMagicM)
  pmubuf_size := BitVec.ofNat 32 (dmaHdr m v .pmubufSize)
  pmubuf_offset := BitVec.ofNat 32 (dmaHdr m v .pmubufOffset)
  arraybase_L := fun i => BitVec.ofNat 32 (dmaHdr m v (.arraybaseL i))
  dmabuf_p := dmabufP
  descs := (List.range (cpuDescCount m v).toNat).map (readCpuSyncDesc m v)

/-! ## platform_run_dmabuf -/

/-- What a run does to the buffer and to the engines. -/
inductive BufEvent where
  /-- bytes of the buffer are read -/
  | read (off len : Nat)
  | regWrite
  deriving DecidableEq

/-- The descriptor loop from descriptor `i` on. `outcome` is how the waits and the polls of
each descriptor end. -/
def descLoop (outcome : Nat → Int) : (left i : Nat) → List BufEvent × Int
  | 0, _ => ([], 0)
  | left + 1, i =>
    let log := [.read (DMA_HDR_SIZE + CPU_SYNC_DESC_SIZE * i) CPU_SYNC_DESC_SIZE, .regWrite]
    if outcome i < 0 then (log, outcome i)
    else
      let rest := descLoop outcome left (i + 1)
      (log ++ rest.1, rest.2)

/-- One run: its log, the registers at the head of the descriptor loop and the return
value. -/
structure DmabufRun where
  log : List BufEvent
  hw : TpuHw
  ret : Int

/-- `platform_run_dmabuf` on the buffer that is mapped at `v`. -/
def runDmabufBytes (m : Mem) (v : Nat) (dmabufP : BitVec 64) (hw : TpuHw) (outcome : Nat → Int) :
    DmabufRun :=
  let b := readCmdBuf m v dmabufP
  if b.dmabuf_magic_m ≠ TPU_DMABUF_HEADER_M then
    { log := [.read 0 DMA_HDR_SIZE], hw := hw, ret := -1 }
  else
    let hw := platformRunDmabufSetArrayBase hw b.arraybase_L
    let hw :=
      if b.pmuEnable then
        tpupmuEnable hw true (b.dmabuf_p + b.pmubuf_offset.setWidth 64) b.pmubuf_size
          TPU_PMUEVENT_TDMABW
      else hw
    let loop := descLoop outcome (cpuDescCount m v).toNat 0
    { log := .read 0 DMA_HDR_SIZE :: .regWrite :: loop.1, hw := hw, ret := loop.2 }

/-- The machine of `TpuPlatform` starts its loop with the registers of this run. -/
theorem platformRunDmabuf_readCmdBuf (s : Tpu) (m : Mem) (v : Nat) (dmabufP : BitVec 64)
    (outcome : Nat → Int) :
    (platformRunDmabuf s (readCmdBuf m v dmabufP)).1.hw =
      (runDmabufBytes m v dmabufP s.hw outcome).hw := by
  rw [platformRunDmabuf, runDmabufBytes]
  split_ifs <;> rfl

/-! ## Bounds -/

/-- The buffer is turned down before any register is written. -/
def DmabufRun.Rejected (r : DmabufRun) : Prop := .regWrite ∉ r.log ∧ r.ret < 0

/-- Every read is inside a buffer of `size` bytes. -/
def InBuffer (size : Nat) (log : List BufEvent) : Prop :=
  ∀ off len, .read off len ∈ log → off + len ≤ size

/-- If the PMU is enabled, its range is inside the buffer and the shifted registers stand
for it exactly. -/
def PmuExact (size : Nat) (b : CmdBuf) (hw : TpuHw) : Prop :=
  b.pmuEnable = true → b.pmubuf_offset.toNat + b.pmubuf_size.toNat ≤ size ∧
    (hw.reg .TPUPMU_BUFBASE).toNat * 16 = b.dmabuf_p.toNat + b.pmubuf_offset.toNat ∧
    (hw.reg .TPUPMU_BUFSIZE).toNat * 16 = b.pmubuf_size.toNat

/-- No run of the buffer goes outside of it. -/
def CmdBufBounded (size : Nat) (m : Mem) (v : Nat) (dmabufP : BitVec 64) (hw : TpuHw) : Prop :=
  ∀ outcome, (runDmabufBytes m v dmabufP hw outcome).Rejected ∨
    InBuffer size (runDmabufBytes m v dmabufP hw outcome).log ∧
      PmuExact size (readCmdBuf m v dmabufP) (runDmabufBytes m v dmabufP hw outcome).hw

/-- The header has the wrong magic; or header and descriptors fit, and so does the PMU
buffer, which is aligned to sixteen bytes and below 64 GiB. -/
def CmdBufFits (size : Nat) (b : CmdBuf) : Prop :=
  b.dmabuf_magic_m ≠ TPU_DMABUF_HEADER_M ∨
    DMA_HDR_SIZE + CPU_SYNC_DESC_SIZE * b.descs.length ≤ size ∧
      (b.pmuEnable = true → b.pmubuf_offset.toNat + b.pmubuf_size.toNat ≤ size ∧
        16 ∣ b.dmabuf_p.toNat + b.pmubuf_offset.toNat ∧ 16 ∣ b.pmubuf_size.toNat ∧
        b.dmabuf_p.toNat + b.pmubuf_offset.toNat < 2 ^ 36)

/-- The loop reads descriptors only, one after the other. -/
theorem inBuffer_descLoop {outcome : Nat → Int} {size left i : Nat}
    (h : DMA_HDR_SIZE + CPU_SYNC_DESC_SIZE * (i + left) ≤ size) :
    InBuffer size (descLoop outcome left i).1 := by
  induction left generalizing i with
  | zero => exact fun _ _ hmem => absurd hmem List.not_mem_nil
  | succ left ih =>
    simp only [DMA_HDR_SIZE, CPU_SYNC_DESC_SIZE] at h ih
    have hrest := @ih (i + 1) (by omega)
    have hhead : DMA_HDR_SIZE + CPU_SYNC_DESC_SIZE * i + CPU_SYNC_DESC_SIZE ≤ size := by
      simp only [DMA_HDR_SIZE, CPU_SYNC_DESC_SIZE]
      omega
    intro off len hmem
    rw [descLoop] at hmem
    split_ifs at hmem with hret
    · simp only [List.mem_cons, BufEvent.read.injEq, reduceCtorEq, List.not_mem_nil, or_false] at hmem
      rw [hmem.1, hmem.2]
      exact hhead
    · simp only [List.mem_append, List.mem_cons, BufEvent.read.injEq, reduceCtorEq, List.not_mem_nil,
        or_false] at hmem
      obtain ⟨rfl, rfl⟩ | hmem := hmem
      · exact hhead
      · exact hrest off len hmem

/-- A loop whose waits all succeed reads every descriptor. -/
theorem mem_descLoop {left i j : Nat} (hij : i ≤ j) (hj : j < i + left) :
    .read (DMA_HDR_SIZE + CPU_SYNC_DESC_SIZE * j) CPU_SYNC_DESC_SIZE ∈
      (descLoop (fun _ => 0) left i).1 := by
  induction left generalizing i with
  | zero => omega
  | succ left ih =>
    rw [descLoop, if_neg (by omega)]
    simp only [List.mem_append, List.mem_cons]
    by_cases heq : j = i
    · exact .inl (.inl (by rw [heq]))
    · exact .inr (@ih (i + 1) (by omega) (by omega))

/-- The PMU registers that a run leaves. -/
theorem reg_tpupmuEnable (hw : TpuHw) (addr : BitVec 64) (size event : BitVec 32) :
    (tpupmuEnable hw true addr size event).reg .TPUPMU_BUFBASE = (addr >>> 4).setWidth 32 ∧
      (tpupmuEnable hw true addr size event).reg .TPUPMU_BUFSIZE = size >>> 4 := by
  simp only [tpupmuEnable, if_true, reg_rawWrite32_of_ne, reg_rawWrite32_self, ne_eq, reduceCtorEq,
    not_false_eq_true, and_self]

/-- An address shifted into 32 bits and back. -/
theorem bufBase_exact_iff (p : BitVec 64) (off : BitVec 32) :
    (((p + off.setWidth 64) >>> 4).setWidth 32).toNat * 16 = p.toNat + off.toNat ↔
      16 ∣ p.toNat + off.toNat ∧ p.toNat + off.toNat < 2 ^ 36 := by
  have hp := p.isLt
  have hoff := off.isLt
  rw [BitVec.toNat_setWidth, BitVec.toNat_ushiftRight, BitVec.toNat_add, BitVec.toNat_setWidth,
    Nat.shiftRight_eq_div_pow, Nat.mod_eq_of_lt (show off.toNat < 2 ^ 64 by omega)]
  omega

theorem bufSize_exact_iff (size : BitVec 32) :
    (size >>> 4).toNat * 16 = size.toNat ↔ 16 ∣ size.toNat := by
  rw [BitVec.toNat_ushiftRight, Nat.shiftRight_eq_div_pow]
  omega

theorem pmuExact_iff {size : Nat} {m : Mem} {v : Nat} {dmabufP : BitVec 64} {hw : TpuHw}
    {outcome : Nat → Int} (hmagic : (readCmdBuf m v dmabufP).dmabuf_magic_m = TPU_DMABUF_HEADER_M) :
    PmuExact size (readCmdBuf m v dmabufP) (runDmabufBytes m v dmabufP hw outcome).hw ↔
      ((readCmdBuf m v dmabufP).pmuEnable = true →
        (readCmdBuf m v dmabufP).pmubuf_offset.toNat + (readCmdBuf m v dmabufP).pmubuf_size.toNat ≤ size ∧
        16 ∣ dmabufP.toNat + (readCmdBuf m v dmabufP).pmubuf_offset.toNat ∧
        16 ∣ (readCmdBuf m v dmabufP).pmubuf_size.toNat ∧
        dmabufP.toNat + (readCmdBuf m v dmabufP).pmubuf_offset.toNat < 2 ^ 36) := by
  refine forall_congr' fun hpmu => ?_
  have hrun : (runDmabufBytes m v dmabufP hw outcome).hw =
      tpupmuEnable (platformRunDmabufSetArrayBase hw (readCmdBuf m v dmabufP).arraybase_L) true
        (dmabufP + (readCmdBuf m v dmabufP).pmubuf_offset.setWidth 64)
        (readCmdBuf m v dmabufP).pmubuf_size TPU_PMUEVENT_TDMABW := by
    rw [runDmabufBytes, if_neg (not_not.mpr hmagic)]
    exact if_pos hpmu
  rw [hrun, (reg_tpupmuEnable _ _ _ _).1, (reg_tpupmuEnable _ _ _ _).2, bufSize_exact_iff]
  have hbase := bufBase_exact_iff dmabufP (readCmdBuf m v dmabufP).pmubuf_offset
  constructor
  · rintro ⟨hin, h1, h2⟩
    obtain ⟨h16, h36⟩ := hbase.mp h1
    exact ⟨hin, h16, h2, h36⟩
  · rintro ⟨hin, h16, h2, h36⟩
    exact ⟨hin, hbase.mpr ⟨h16, h36⟩, h2⟩

theorem length_descs (m : Mem) (v : Nat) (dmabufP : BitVec 64) :
    (readCmdBuf m v dmabufP).descs.length = (cpuDescCount m v).toNat := by
  rw [readCmdBuf, List.length_map, List.length_range]

/-- The reads of all runs of a buffer with the right magic are inside it exactly if the
header and all its descriptors are. -/
theorem forall_inBuffer_iff {size : Nat} {m : Mem} {v : Nat} {dmabufP : BitVec 64} {hw : TpuHw}
    (hmagic : (readCmdBuf m v dmabufP).dmabuf_magic_m = TPU_DMABUF_HEADER_M) :
    (∀ outcome, InBuffer size (runDmabufBytes m v dmabufP hw outcome).log) ↔
      DMA_HDR_SIZE + CPU_SYNC_DESC_SIZE * (cpuDescCount m v).toNat ≤ size := by
  have hlog (outcome : Nat → Int) : (runDmabufBytes m v dmabufP hw outcome).log =
      .read 0 DMA_HDR_SIZE :: .regWrite :: (descLoop outcome (cpuDescCount m v).toNat 0).1 := by
    rw [runDmabufBytes, if_neg (not_not.mpr hmagic)]
  simp only [hlog]
  constructor
  · intro h
    have hhdr := h (fun _ => 0) 0 DMA_HDR_SIZE List.mem_cons_self
    by_cases hcount : (cpuDescCount m v).toNat = 0
    · rw [hcount]
      omega
    · have hlast := h (fun _ => 0) _ _ (List.mem_cons_of_mem _ (List.mem_cons_of_mem _
        (@mem_descLoop (cpuDescCount m v).toNat 0 ((cpuDescCount m v).toNat - 1) (by omega) (by omega))))
      simp only [DMA_HDR_SIZE, CPU_SYNC_DESC_SIZE] at hlast ⊢
      omega
  · intro hfit outcome off len hmem
    simp only [List.mem_cons, BufEvent.read.injEq, reduceCtorEq, false_or] at hmem
    obtain ⟨rfl, rfl⟩ | hmem := hmem
    · simp only [DMA_HDR_SIZE, CPU_SYNC_DESC_SIZE] at hfit ⊢
      omega
    · exact inBuffer_descLoop (by rwa [Nat.zero_add]) off len hmem

/-- **All runs of a buffer.** -/
theorem cmdBufBounded_iff (size : Nat) (m : Mem) (v : Nat) (dmabufP : BitVec 64) (hw : TpuHw) :
    CmdBufBounded size m v dmabufP hw ↔ CmdBufFits size (readCmdBuf m v dmabufP) := by
  by_cases hmagic : (readCmdBuf m v dmabufP).dmabuf_magic_m = TPU_DMABUF_HEADER_M
  · have hrejected (outcome : Nat → Int) : ¬ (runDmabufBytes m v dmabufP hw outcome).Rejected := by
      intro h
      apply h.1
      rw [runDmabufBytes, if_neg (not_not.mpr hmagic)]
      exact List.mem_cons_of_mem _ List.mem_cons_self
    have hbounded : CmdBufBounded size m v dmabufP hw ↔ ∀ outcome,
        InBuffer size (runDmabufBytes m v dmabufP hw outcome).log ∧
          PmuExact size (readCmdBuf m v dmabufP) (runDmabufBytes m v dmabufP hw outcome).hw :=
      forall_congr' fun outcome => or_iff_right (hrejected outcome)
    rw [hbounded, forall_and, forall_inBuffer_iff hmagic, CmdBufFits, or_iff_right (not_not.mpr hmagic),
      length_descs]
    refine and_congr_right fun _ =>
      ⟨fun h => (pmuExact_iff hmagic).mp (h fun _ => 0), fun h outcome => ?_⟩
    exact (pmuExact_iff hmagic).mpr h
  · refine iff_of_true (fun outcome => .inl ?_) (.inl hmagic)
    rw [runDmabufBytes, if_pos hmagic]
    exact ⟨by simp, Int.negSucc_lt_zero 0⟩

/-- An accepted submit whose buffer could be prepared queues a node with its addresses. -/
theorem addresses_of_submit {current addr : Nat} {env : SubmitEnv} {arg : SubmitDmaArg}
    {answers : DmaAnswers} {node : Node} {holds : List (Entry Hold)} (ha : answers.Succeed)
    (h : cviTpuSubmit current addr env arg answers = some (0, some (node, holds))) :
    node.dmabufVaddr = some answers.vmapVaddr ∧ node.dmabufPaddr = answers.sgDmaAddress := by
  rw [cviTpuSubmit, prepareBuffer_succeed ha] at h
  have hmade := made_of_submitNode h
  rw [Prod.mk.injEq] at hmade
  rw [← hmade.1]
  exact ⟨rfl, rfl⟩

/-- An accepted command buffer is run inside its bounds, or turned down before any register
is written, exactly if what its header asks for fits it. -/
theorem cmdbuf_bounded_iff (size : Nat) (m : Mem) (hw : TpuHw) (current addr : Nat)
    (env : SubmitEnv) (arg : SubmitDmaArg) (answers : DmaAnswers) (node : Node)
    (holds : List (Entry Hold)) (ha : answers.Succeed)
    (h : cviTpuSubmit current addr env arg answers = some (0, some (node, holds))) :
    (∀ v, node.dmabufVaddr = some v → CmdBufBounded size m v node.dmabufPaddr hw) ↔
      CmdBufFits size (readCmdBuf m answers.vmapVaddr answers.sgDmaAddress) := by
  obtain ⟨hv, hp⟩ := addresses_of_submit ha h
  rw [hv, hp, ← cmdBufBounded_iff size m _ _ hw]
  exact ⟨fun h => h _ rfl, fun h v heq => Option.some.inj heq ▸ h⟩

/-- A buffer at address zero with the right magic, `count` descriptors and no PMU. -/
def plainCmdBuf (count : UInt8) : Mem := fun x =>
  if x = 0 ∨ x = 1 then 0xb5 else if x = 8 then count else 0

def mappedFd : DmaAnswers := ⟨true, true, true, 1, 0x80000000, 0, 0, 0⟩

theorem plainCmdBuf_header : ∀ count ∈ ([1, 200] : List UInt8),
    (readCmdBuf (plainCmdBuf count) 0 0x80000000).dmabuf_magic_m = TPU_DMABUF_HEADER_M ∧
      (cpuDescCount (plainCmdBuf count) 0).toNat = count.toNat ∧
      (readCmdBuf (plainCmdBuf count) 0 0x80000000).pmuEnable = false := by
  decide +kernel

/-- One descriptor in a page. -/
theorem cmdbuf_bounded_page : CmdBufBounded 4096 (plainCmdBuf 1) 0 0x80000000 .reset := by
  refine (cmdbuf_bounded_iff 4096 (plainCmdBuf 1) .reset 1 0 ⟨0, [0], true⟩ ⟨3, 1⟩ mappedFd _ _
    (by decide) rfl).mpr (.inr ?_) 0 rfl
  obtain ⟨-, hcount, hpmu⟩ := plainCmdBuf_header 1 List.mem_cons_self
  refine ⟨?_, fun h => absurd (hpmu.symm.trans h) nofun⟩
  rw [length_descs]
  show 128 + 224 * (cpuDescCount (plainCmdBuf 1) 0).toNat ≤ 4096
  rw [hcount]
  decide

/-- A page whose header asks for two hundred descriptors is accepted and run. -/
theorem not_cmdbuf_bounded :
    ¬ ∀ (size : Nat) (m : Mem) (hw : TpuHw) (current addr : Nat) (env : SubmitEnv) (arg : SubmitDmaArg)
      (answers : DmaAnswers) (node : Node) (holds : List (Entry Hold)), answers.Succeed →
      cviTpuSubmit current addr env arg answers = some (0, some (node, holds)) →
        ∀ v, node.dmabufVaddr = some v → CmdBufBounded size m v node.dmabufPaddr hw := by
  intro h
  have hbounded := h 4096 (plainCmdBuf 200) .reset 1 0 ⟨0, [0], true⟩ ⟨3, 1⟩ mappedFd _ _
    (by decide) rfl 0 rfl
  obtain ⟨hmagic, hcount, -⟩ := plainCmdBuf_header 200 (by decide)
  obtain hbad | ⟨hfit, -⟩ := (cmdBufBounded_iff 4096 (plainCmdBuf 200) 0 0x80000000 .reset).mp hbounded
  · exact hbad hmagic
  · rw [length_descs, hcount] at hfit
    exact absurd hfit (by decide)

end LicheeRvNano
