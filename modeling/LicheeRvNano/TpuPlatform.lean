import LicheeRvNano.Machine
import LicheeRvNano.TpuRegs

/-!
# The TPU at work

The worker thread of `cvi_tpu_interface.c` running tasks through `tpu_platform.c`, the
two engines, the TDMA interrupt, the power management callbacks and the open files,
as one machine. In the descriptor loop every access of `resync_cmd_id`, which resets
what the checks look at, and every other register function is a step of its own, so the
interrupt and the callbacks may come between any two of them.

The engines move by themselves, only while they are enabled. Of time only the timeouts
are left, which an outcome of the worker's step stands for. An interrupt whose line is
high is taken before a wait gives up: sixty seconds are long.

The clocks are there, so `en` counts the enables of both. The done list is the
subject of `TpuQueue`.
-/

namespace LicheeRvNano

abbrev TDMA_INT_EOD : BitVec 16 := 0x1
abbrev TDMA_INT_EOPMU : BitVec 16 := 0x8000

/-- A queued task: the path of its node and what the path needs. -/
inductive TpuTask where
  | desNormal (b : CmdBuf)
  | desSec
  | pioTdma (pioArray : Fin 16 → BitVec 32)

/-- Where the worker stands in one descriptor. -/
inductive DescStage where
  /-- `tdma_done` is armed, and the worker is in `resync_cmd_id` -/
  | resync (r : Resync)
  /-- the command ids are reset -/
  | resynced
  /-- the TIU is set up -/
  | tiuSet
  /-- the TDMA is started and the worker waits for it -/
  | waiting
  /-- the wait is over, or there was nothing to wait for -/
  | waited
  /-- the TIU is polled -/
  | polling
  deriving DecidableEq

/-- Where the worker stands. -/
inductive WorkerPc where
  | idle
  | taken (t : TpuTask)
  /-- `running_cnt` is one -/
  | marked (t : TpuTask)
  /-- after `platform_tpu_init` -/
  | inited (t : TpuTask)
  /-- at the head of the descriptor loop -/
  | loopHead (pmu : Bool) (rest : List CpuSyncDesc)
  | desc (stage : DescStage) (pmu : Bool) (d : CpuSyncDesc) (rest : List CpuSyncDesc)
  | pmuArmed
  | pmuStopped
  | pmuWaiting
  | pioArmed (pioArray : Fin 16 → BitVec 32)
  | pioWaiting
  /-- the platform function has returned -/
  | returned (ret : Int)
  /-- after `platform_tpu_deinit` or `platform_tpu_reset` -/
  | ended (ret : Int)

/-- Whether the worker is between `platform_tpu_init` and the end of the task. -/
def WorkerPc.InTask : WorkerPc → Bool
  | idle | taken _ | marked _ | ended _ => false
  | _ => true

/-- Whether the worker waits for the interrupt, or is about to. -/
def WorkerPc.Waits : WorkerPc → Bool
  | desc .waiting _ _ _ | pmuStopped | pmuWaiting | pioWaiting => true
  | _ => false

/-- The system's power state, as the device sees it. -/
inductive PmState where
  | awake
  /-- in the polling loop of `platform_tpu_suspend` -/
  | polling
  | suspended
  deriving DecidableEq

/-- The device. -/
structure Tpu where
  pc : WorkerPc
  tasks : List TpuTask
  /-- `tpu_suspend.running_cnt` -/
  runningCnt : Bool
  useCount : Int
  /-- who has the device open, once for each file -/
  files : List Nat
  /-- the count of the completion `tdma_done` -/
  tdmaDone : Nat
  /-- `tpu_sync_backup` -/
  syncBackup : Bool
  /-- `tpu_suspend_handle_int` -/
  suspendHandleInt : Bool
  /-- `tpu_reg_backup` -/
  backup : TpuReg → BitVec 32
  /-- the enable count of the clocks -/
  en : Int
  pm : PmState
  hw : TpuHw
  /-- the interrupt was raised and the handler has not run since -/
  irqPending : Bool

/-- What can be observed. -/
inductive TpuEvent where
  /-- a platform function is entered, for this list of descriptors -/
  | enter (descs : List CpuSyncDesc)
  /-- a descriptor is started: the last of the command ids, the TDMA's, is reset for it -/
  | start (d : CpuSyncDesc)
  | pmuStop
  | returned (ret : Int)
  /-- the worker touches registers, at this enable count -/
  | touch (en : Int)
  /-- the TDMA's sync id -/
  | tdma (id : Nat)
  /-- the TIU's command id and done flag -/
  | tiu (id : Nat) (done : Bool)
  | raise
  /-- the interrupt handler: whether the worker waits for the interrupt, and whether
  it is acknowledged and `tdma_done` completed -/
  | irq (waits acked : Bool)
  deriving DecidableEq

/-- How a wait or a poll of the worker goes on. -/
inductive Outcome where
  | go
  | timeout
  | interrupted
  deriving DecidableEq

/-! ## The worker -/

/-- The platform function returns. -/
def Tpu.ret (s : Tpu) (ret : Int) : Tpu × List TpuEvent :=
  ({ s with pc := .returned ret }, [.returned ret])

/-- `wait_for_completion_interruptible_timeout` on `tdma_done` with what the driver
makes of its result; `none` while it blocks. -/
def Tpu.waitTdmaDone (s : Tpu) (k : Tpu → Tpu × List TpuEvent) :
    Outcome → Option (Tpu × List TpuEvent)
  | .go => if 0 < s.tdmaDone then some (k { s with tdmaDone := s.tdmaDone - 1 }) else none
  | .timeout =>
    if s.tdmaDone = 0 ∧ ¬ (s.irqPending ∧ s.hw.line) then some (s.ret (-ETIMEDOUT)) else none
  | .interrupted => if s.tdmaDone = 0 then some (s.ret (-ERESTARTSYS)) else none

/-- **The wait.** It is over when `tdma_done` was completed, and gives up only before
that, and with no interrupt left to serve. -/
theorem Tpu.waitTdmaDone_cases {s : Tpu} {k : Tpu → Tpu × List TpuEvent} {o : Outcome}
    {r : Tpu × List TpuEvent} (h : s.waitTdmaDone k o = some r) :
    (0 < s.tdmaDone ∧ r = k { s with tdmaDone := s.tdmaDone - 1 }) ∨
      ∃ ret, ret < 0 ∧ r = s.ret ret ∧ s.tdmaDone = 0 ∧
        (ret = -ETIMEDOUT → ¬ (s.irqPending ∧ s.hw.line)) := by
  cases o with
  | go =>
    simp only [waitTdmaDone, Option.ite_none_right_eq_some, Option.some.injEq] at h
    exact .inl ⟨h.1, h.2.symm⟩
  | timeout =>
    simp only [waitTdmaDone, Option.ite_none_right_eq_some, Option.some.injEq] at h
    exact .inr ⟨_, by decide, h.2.symm, h.1.1, fun _ => h.1.2⟩
  | interrupted =>
    simp only [waitTdmaDone, Option.ite_none_right_eq_some, Option.some.injEq] at h
    exact .inr ⟨_, by decide, h.2.symm, h.1, fun heq => absurd heq (by decide)⟩

/-- `platform_run_dmabuf` up to its loop. -/
def platformRunDmabuf (s : Tpu) (b : CmdBuf) : Tpu × List TpuEvent :=
  if b.dmabuf_magic_m ≠ TPU_DMABUF_HEADER_M then
    ({ s with pc := .returned (-1) }, [.enter [], .returned (-1)])
  else
    let hw := platformRunDmabufSetArrayBase s.hw b.arraybase_L
    let hw :=
      if b.pmuEnable then
        tpupmuEnable hw true (b.dmabuf_p + b.pmubuf_offset.setWidth 64) b.pmubuf_size
          TPU_PMUEVENT_TDMABW
      else hw
    ({ s with syncBackup := false, suspendHandleInt := false, hw := hw,
              pc := .loopHead b.pmuEnable b.descs },
      [.enter b.descs, .touch s.en])

/-- One stage of the loop's body. -/
def descStep (s : Tpu) (pmu : Bool) (d : CpuSyncDesc) (rest : List CpuSyncDesc) (o : Outcome) :
    DescStage → Option (Tpu × List TpuEvent)
  | .resync r =>
    let next := r.access s.hw
    some ({ s with hw := next.1, pc := .desc (next.2.elim .resynced .resync) pmu d rest },
      if r = .tiuCleared then [.start d, .touch s.en] else [.touch s.en])
  | .resynced =>
    if 0 < d.bdNum then
      some ({ s with hw := setTiuDescriptor s.hw d.offset_bd, pc := .desc .tiuSet pmu d rest },
        [.touch s.en])
    else some ({ s with pc := .desc .tiuSet pmu d rest }, [])
  | .tiuSet =>
    if 0 < d.tdmaNum then
      some ({ s with hw := setTdmaDescriptorFire s.hw d.offset_gdma d.tdmaNum,
                     syncBackup := false, pc := .desc .waiting pmu d rest },
        [.touch s.en])
    else some ({ s with pc := .desc .waited pmu d rest }, [])
  | .waiting => s.waitTdmaDone (fun s => ({ s with pc := .desc .waited pmu d rest }, [])) o
  | .waited =>
    -- the checks of `poll_cmdbuf_done`, unless a suspend has taken over
    if s.suspendHandleInt then some ({ s with pc := .loopHead pmu rest }, [])
    else if tdmaIdShort (s.backup .TDMA_SYNC_STATUS) d then some (s.ret (-ETIMEDOUT))
    else if 0 < d.bdNum then some ({ s with pc := .desc .polling pmu d rest }, [])
    else some ({ s with pc := .loopHead pmu rest }, [])
  | .polling =>
    let regVal := rawRead32 s.hw .BD_CTRL
    if bdFinished regVal d then
      some ({ s with hw := rawWrite32 s.hw .BD_CTRL (regVal ||| 1#32 <<< 1),
                     pc := .loopHead pmu rest },
        [.touch s.en])
    else if o = .timeout then
      some ({ s with pc := .returned (-ETIMEDOUT) }, [.touch s.en, .returned (-ETIMEDOUT)])
    else some (s, [.touch s.en])

/-- The worker's next step. -/
def workStep (s : Tpu) (o : Outcome) : Option (Tpu × List TpuEvent) :=
  match s.pc with
  | .idle =>
    match s.tasks with
    | [] => none
    | t :: tasks => some ({ s with tasks := tasks, pc := .taken t }, [])
  | .taken t => some ({ s with runningCnt := true, pc := .marked t }, [])
  | .marked t =>
    -- `platform_tpu_init`
    some ({ s with en := s.en + 1, hw := .reset, pc := .inited t }, [])
  | .inited (.desNormal b) => some (platformRunDmabuf s b)
  | .inited .desSec => some ({ s with pc := .returned 0 }, [.enter [], .returned 0])
  | .inited (.pioTdma pioArray) =>
    some ({ s with tdmaDone := 0, pc := .pioArmed pioArray }, [.enter []])
  | .loopHead pmu (d :: rest) =>
    some ({ s with tdmaDone := 0, pc := .desc (.resync .entered) pmu d rest }, [])
  | .loopHead true [] => some ({ s with tdmaDone := 0, pc := .pmuArmed }, [])
  | .loopHead false [] => some (s.ret 0)
  | .desc stage pmu d rest => descStep s pmu d rest o stage
  | .pmuArmed =>
    some ({ s with hw := tpupmuEnable s.hw false 0 0 TPU_PMUEVENT_TDMABW, pc := .pmuStopped },
      [.pmuStop, .touch s.en])
  | .pmuStopped =>
    if s.suspendHandleInt then some (s.ret 0) else some ({ s with pc := .pmuWaiting }, [])
  | .pmuWaiting => s.waitTdmaDone (fun s => s.ret 0) o
  | .pioArmed pioArray =>
    some ({ s with hw := setTdmaPio s.hw pioArray, pc := .pioWaiting }, [.touch s.en])
  | .pioWaiting => s.waitTdmaDone (fun s => s.ret 0) o
  | .returned ret =>
    if ret = -ETIMEDOUT then some ({ s with hw := .reset, pc := .ended ret }, [])
    else some ({ s with en := s.en - 1, pc := .ended ret }, [])
  | .ended _ => some ({ s with runningCnt := false, pc := .idle }, [])

/-! ## The interrupt -/

/-- `cvi_tpu_tdma_irq`, with `platform_tdma_irq` and `platform_clear_int`. -/
def cviTpuTdmaIrq (s : Tpu) : Tpu × List TpuEvent :=
  if s.useCount = 0 then ({ s with irqPending := false }, [.irq s.pc.Waits false])
  else
    let hw := rawWrite32 s.hw .TDMA_INT_MASK 0xFFFF0000
    ({ s with hw := hw, backup := backUp hw intSaved s.backup, syncBackup := true,
              tdmaDone := s.tdmaDone + 1, irqPending := false },
      [.irq s.pc.Waits true])

/-- The handler acknowledges exactly if the device is open. -/
theorem cviTpuTdmaIrq_event (s : Tpu) :
    (cviTpuTdmaIrq s).2 = [.irq s.pc.Waits (decide (s.useCount ≠ 0))] := by
  by_cases h : s.useCount = 0
  · rw [cviTpuTdmaIrq, if_pos h]
    simp [h]
  · rw [cviTpuTdmaIrq, if_neg h]
    simp [h]

/-! ## Power management -/

/-- `cvi_tpu_suspend` with `platform_tpu_suspend`, to the end or to the polling loop. -/
def cviTpuSuspend (s : Tpu) : Tpu :=
  if s.runningCnt then
    let s := { s with backup := backUp s.hw saved s.backup }
    if (s.backup .TDMA_CTRL).getLsbD TDMA_CTRL_ENABLE_BIT ∧ ¬ s.syncBackup then
      { s with pm := .polling }
    else { s with en := s.en - 1, pm := .suspended }
  else { s with pm := .suspended }

/-- The rest of `platform_tpu_suspend` when its polling loop has expired, the only way
out of it. -/
def platformTpuSuspendExpired (s : Tpu) : Tpu :=
  { s with backup := backUp s.hw intSaved s.backup, syncBackup := true, suspendHandleInt := true,
           en := s.en - 1, pm := .suspended }

/-- `cvi_tpu_resume` with `platform_tpu_resume`. -/
def cviTpuResume (s : Tpu) : Tpu :=
  if s.runningCnt then
    { s with en := s.en + 1, hw := writeBack s.hw s.backup, pm := .awake }
  else { s with pm := .awake }

/-! ## The machine -/

/-- Who moves. -/
inductive TpuAction where
  | work (o : Outcome)
  /-- the TDMA reaches a sync id -/
  | tdma (id : BitVec 16)
  /-- the TIU reaches a command id -/
  | tiu (id : BitVec 16) (done : Bool)
  /-- the TDMA raises interrupts -/
  | raise (status : BitVec 16)
  | irq
  | suspend
  | suspendExpired
  | resume
  | openFile (pid : Nat)
  | closeFile (pid : Nat)
  | submit (pid : Nat) (t : TpuTask)

/-- One step. -/
def tpuStep (s : Tpu) : TpuAction → Option (Tpu × List TpuEvent)
  | .work o => workStep s o
  | .tdma id =>
    if s.hw.tdmaEnabled then some ({ s with hw.syncId := id }, [.tdma id.toNat]) else none
  | .tiu id done =>
    if s.hw.tiuEnabled then
      some ({ s with hw.tiuId := id, hw.tiuDone := done }, [.tiu id.toNat done])
    else none
  | .raise status =>
    some ({ s with hw.intStatus := s.hw.intStatus ||| status,
                   hw.tdmaDue := s.hw.tdmaDue && !status.getLsbD 0,
                   hw.pmuDue := s.hw.pmuDue && !status.getLsbD 15, irqPending := true },
      [.raise])
  | .irq => if s.hw.line then some (cviTpuTdmaIrq s) else none
  | .suspend => if s.pm = .awake then some (cviTpuSuspend s, []) else none
  | .suspendExpired => if s.pm = .polling then some (platformTpuSuspendExpired s, []) else none
  | .resume => if s.pm = .suspended then some (cviTpuResume s, []) else none
  | .openFile pid =>
    some ({ s with files := pid :: s.files, useCount := s.useCount + 1 }, [])
  | .closeFile pid =>
    if pid ∈ s.files then
      some ({ s with files := s.files.erase pid, useCount := s.useCount - 1 }, [])
    else none
  | .submit pid t =>
    if pid ∈ s.files then some ({ s with tasks := s.tasks ++ [t] }, []) else none

/-- The device as a machine. -/
def tpuDevice : Machine Tpu TpuAction TpuEvent where
  step := tpuStep

/-- The device after its probe. The engines, the backup and the interrupt line are as
they happen to be. -/
structure Tpu.AtProbe (s : Tpu) : Prop where
  pc : s.pc = .idle
  tasks : s.tasks = []
  runningCnt : s.runningCnt = false
  useCount : s.useCount = 0
  files : s.files = []
  en : s.en = 0
  pm : s.pm = .awake

/-- The device right after its probe, out of reset. -/
def probedTpu : Tpu where
  pc := .idle
  tasks := []
  runningCnt := false
  useCount := 0
  files := []
  tdmaDone := 0
  syncBackup := false
  suspendHandleInt := false
  backup := fun _ => 0
  en := 0
  pm := .awake
  hw := .reset
  irqPending := false

theorem probedTpu_atProbe : probedTpu.AtProbe := ⟨rfl, rfl, rfl, rfl, rfl, rfl, rfl⟩

end LicheeRvNano
