import LicheeRvNano.TpuRun

/-!
# The TDMA interrupt

Whether the interrupt that the worker waits for gets through. The handler looks at the
count of open files first, and the tasks outlive the files they were submitted through:
after the last close it neither acknowledges the interrupt nor completes `tdma_done`.

What the engines do by themselves is assumed here to be what they are for: their
counters go up, the TIU keeps its done flag, and the TDMA interrupts once for each
start, when its commands are done, or once for a stop of the PMU. The system is not
suspended.
-/

namespace LicheeRvNano

/-! ## What the log says -/

/-- What the log says about the engines since they were last given work. -/
structure Progress where
  /-- the descriptor they were given; none for a copy or a stop of the PMU -/
  desc : Option CpuSyncDesc
  /-- the highest command id the TIU reached with its done flag -/
  tiu : Nat
  /-- the TDMA raised its interrupt -/
  raised : Bool

def Progress.next (w : Progress) : TpuEvent → Progress
  | .enter _ | .pmuStop => ⟨none, 0, false⟩
  | .start d => ⟨some d, 0, false⟩
  | .tiu id true => { w with tiu := max w.tiu id }
  | .raise => { w with raised := true }
  | _ => w

def progress (log : List TpuEvent) : Progress := log.foldl Progress.next ⟨none, 0, false⟩

theorem progress_append (log ev : List TpuEvent) :
    progress (log ++ ev) = ev.foldl Progress.next (progress log) := List.foldl_append

/-- The engines have finished: the TDMA has said so if it was started, and the TIU shows
it if it was. -/
def Progress.Finished (w : Progress) : Prop :=
  match w.desc with
  | some d => (d.tdmaNum ≠ 0 → w.raised = true) ∧ d.bdNum.toNat ≤ w.tiu
  | none => w.raised = true

/-- The interrupt the worker waits for is acknowledged and completes `tdma_done`, and a
task times out only when the engines have not finished. -/
def IrqOk (past : List TpuEvent) : TpuEvent → Prop
  | .irq waits acked => waits = true → acked = true
  | .returned ret => ret = -ETIMEDOUT → ¬ (progress past).Finished
  | _ => True

/-! ## The engines and the condition -/

/-- The number of commands the TDMA was started with. -/
def TpuHw.desNum (hw : TpuHw) : Nat := (hw.reg .TDMA_CTRL >>> TDMA_CTRL_DESNUM_BIT).toNat

/-- What the engines do, and that the system is not suspended. -/
def EnginesOk (s : Tpu) : TpuAction → Prop
  | .tdma id => s.hw.syncId.toNat ≤ id.toNat
  | .tiu id done => s.hw.tiuId.toNat ≤ id.toNat ∧ (s.hw.tiuDone = true → done = true)
  | .raise status =>
    (status = TDMA_INT_EOD ∧ s.hw.tdmaDue = true ∧ s.hw.desNum ≤ s.hw.syncId.toNat) ∨
      (status = TDMA_INT_EOPMU ∧ s.hw.pmuDue = true)
  | .suspend => False
  | _ => True

/-- The condition: the device is open whenever the handler runs for a waiting worker. -/
def IrqCond (s : Tpu) : TpuAction → Prop
  | .irq => s.pc.Waits = true → s.useCount ≠ 0
  | _ => True

/-! ## Nothing due -/

/-- The masks the driver sets. -/
def MaskOk (hw : TpuHw) : Prop :=
  (hw.reg .TDMA_INT_MASK).setWidth 16 = 0#16 ∨ (hw.reg .TDMA_INT_MASK).setWidth 16 = 0x20#16

/-- No interrupt is up and none is due. -/
structure Calm (hw : TpuHw) : Prop where
  status : hw.intStatus = 0
  tdma : hw.tdmaDue = false
  pmu : hw.pmuDue = false
  mask : MaskOk hw

theorem line_eq_false {hw : TpuHw} (h : hw.intStatus = 0) : hw.line = false := by
  simp [TpuHw.line, h]

/-- Neither of the two interrupts is masked. -/
theorem line_eq_true {hw : TpuHw} (hm : MaskOk hw)
    (hs : hw.intStatus = TDMA_INT_EOD ∨ hw.intStatus = TDMA_INT_EOPMU) : hw.line = true := by
  rw [TpuHw.line]
  rcases hm with hm | hm <;> rcases hs with hs | hs <;> rw [hm, hs] <;> decide

/-- Most registers have nothing to do with interrupts. -/
theorem Calm.write {hw : TpuHw} (h : Calm hw) {r : TpuReg} (h₁ : r ≠ .TDMA_CTRL)
    (h₂ : r ≠ .TDMA_INT_MASK) (h₃ : r ≠ .TPUPMU_CTRL) (v : BitVec 32) :
    Calm (rawWrite32 hw r v) := by
  have hreg : (rawWrite32 hw r v).reg .TDMA_INT_MASK = hw.reg .TDMA_INT_MASK := by
    have : (rawWrite32 hw r v).reg = Function.update hw.reg r v := by
      cases r <;> rfl
    rw [this, Function.update_of_ne h₂.symm]
  have hmask : MaskOk (rawWrite32 hw r v) := by
    rw [MaskOk, hreg]
    exact h.mask
  cases r with
  | TDMA_CTRL => exact absurd rfl h₁
  | TDMA_INT_MASK => exact absurd rfl h₂
  | TPUPMU_CTRL => exact absurd rfl h₃
  | _ => exact ⟨h.status, h.tdma, h.pmu, hmask⟩

theorem Calm.writes {ι : Type*} (reg : ι → TpuReg) (val : ι → BitVec 32)
    (hreg : ∀ i, reg i ≠ .TDMA_CTRL ∧ reg i ≠ .TDMA_INT_MASK ∧ reg i ≠ .TPUPMU_CTRL) (l : List ι) :
    ∀ {hw : TpuHw}, Calm hw → Calm (l.foldl (fun hw i => rawWrite32 hw (reg i) (val i)) hw) := by
  induction l with
  | nil => exact fun h => h
  | cons i l ih =>
    intro hw h
    obtain ⟨h₁, h₂, h₃⟩ := hreg i
    exact ih (h.write h₁ h₂ h₃ (val i))

theorem Calm.setArrayBase {hw : TpuHw} (h : Calm hw) (arraybase_L : Fin 8 → BitVec 32) :
    Calm (platformRunDmabufSetArrayBase hw arraybase_L) := by
  rw [platformRunDmabufSetArrayBase]
  apply Calm.writes _ (fun _ => 0)
  · simp
  · apply Calm.writes _ arraybase_L
    · simp
    · exact h

theorem Calm.pmuEnable {hw : TpuHw} (h : Calm hw) (addr : BitVec 64) (size : BitVec 32) :
    Calm (tpupmuEnable hw true addr size TPU_PMUEVENT_TDMABW) := by
  have h' := (h.write (r := .TPUPMU_BUFBASE) (by simp) (by simp) (by simp)
    ((addr >>> 4).setWidth 32)).write (r := .TPUPMU_BUFSIZE) (by simp) (by simp) (by simp)
    (size >>> 4)
  refine ⟨h'.status, h'.tdma, ?_, h'.mask⟩
  simp [tpupmuEnable, rawWrite32]

theorem Calm.setTiu {hw : TpuHw} (h : Calm hw) (descOffset : BitVec 32) :
    Calm (setTiuDescriptor hw descOffset) := by
  dsimp only [setTiuDescriptor]
  apply Calm.write _ (by simp) (by simp) (by simp)
  apply Calm.write _ (by simp) (by simp) (by simp)
  apply Calm.write _ (by simp) (by simp) (by simp)
  apply Calm.write _ (by simp) (by simp) (by simp)
  exact h.write (by simp) (by simp) (by simp) _

/-- Clearing the status clears the mask too. -/
theorem ack_calm {hw : TpuHw} (htdma : hw.tdmaDue = false) (hpmu : hw.pmuDue = false) :
    Calm (rawWrite32 hw .TDMA_INT_MASK 0xFFFF0000) := by
  refine ⟨?_, htdma, hpmu, .inl ?_⟩
  · have hones : (0xFFFF0000#32).extractLsb' 16 16 = BitVec.allOnes 16 := by decide
    change _ &&& ~~~((0xFFFF0000#32).extractLsb' 16 16) = _
    rw [hones]
    simp
  · have hreg : (rawWrite32 hw .TDMA_INT_MASK 0xFFFF0000).reg .TDMA_INT_MASK = 0xFFFF0000 := rfl
    rw [hreg]
    decide

/-- Writes of `TDMA_CTRL` that start nothing. -/
theorem Calm.resetTdma {hw : TpuHw} (h : Calm hw) {v : BitVec 32} (hv : v.getLsbD 0 = false) :
    Calm (rawWrite32 hw .TDMA_CTRL v) :=
  ⟨h.status, hv, h.pmu, h.mask⟩

theorem Calm.resync {hw : TpuHw} (h : Calm hw) : Calm (resyncCmdId hw) := ack_calm rfl h.pmu

theorem reset_calm : Calm TpuHw.reset := ⟨rfl, rfl, rfl, .inl rfl⟩

/-! ## Something due -/

/-- The number of commands is in the upper half of `TDMA_CTRL`. -/
theorem ctrl_desNum {n : BitVec 32} (hn : n.toNat < 65536) :
    ((1#32 <<< TDMA_CTRL_ENABLE_BIT ||| 1#32 <<< TDMA_CTRL_MODESEL_BIT |||
      n <<< TDMA_CTRL_DESNUM_BIT ||| 3#32 <<< TDMA_CTRL_BURSTLEN_BIT |||
      1#32 <<< TDMA_CTRL_FORCE_1ARRAY ||| 1#32 <<< TDMA_CTRL_INTRA_CMD_OFF |||
      1#32 <<< TDMA_CTRL_64BYTE_ALIGN_EN) >>> TDMA_CTRL_DESNUM_BIT).toNat = n.toNat := by
  have hshift : (n <<< 16 >>> 16).toNat = n.toNat := by
    rw [BitVec.toNat_ushiftRight, BitVec.toNat_shiftLeft, Nat.shiftLeft_eq,
      Nat.shiftRight_eq_div_pow]
    omega
  change ((1#32 <<< 0 ||| 1#32 <<< 1 ||| n <<< 16 ||| 3#32 <<< 8 ||| 1#32 <<< 5 |||
    1#32 <<< 13 ||| 1#32 <<< 10) >>> 16).toNat = n.toNat
  simp only [BitVec.ushiftRight_or_distrib]
  simpa using hshift

/-- The TDMA started: an interrupt is due for the number of commands given. -/
theorem Calm.fire {hw : TpuHw} (h : Calm hw) (descOffset : BitVec 32) {n : BitVec 32}
    (hn : n.toNat < 65536) :
    (setTdmaDescriptorFire hw descOffset n).intStatus = 0 ∧
      (setTdmaDescriptorFire hw descOffset n).pmuDue = false ∧
      (setTdmaDescriptorFire hw descOffset n).desNum = n.toNat ∧
      MaskOk (setTdmaDescriptorFire hw descOffset n) := by
  refine ⟨?_, h.pmu, ?_, .inr ?_⟩
  · change hw.intStatus &&& _ = 0
    rw [h.status]
    simp
  · rw [TpuHw.desNum, ← ctrl_desNum hn]
    rfl
  · have hreg : (setTdmaDescriptorFire hw descOffset n).reg .TDMA_INT_MASK = TDMA_MASK_INIT := by
      simp [setTdmaDescriptorFire, rawWrite32]
    rw [hreg]
    decide

/-- The same of a copy. -/
theorem Calm.pio {hw : TpuHw} (h : Calm hw) (pioArray : Fin 16 → BitVec 32) :
    (setTdmaPio hw pioArray).intStatus = 0 ∧ (setTdmaPio hw pioArray).pmuDue = false ∧
      MaskOk (setTdmaPio hw pioArray) := by
  have h' : Calm ((List.finRange 16).foldl
      (fun hw i => rawWrite32 hw (.TDMA_CMD_ACCP i) (pioArray i)) (resyncCmdId hw)) := by
    apply Calm.writes _ pioArray
    · simp
    · exact h.resync
  refine ⟨?_, ?_, .inr ?_⟩
  · change TpuHw.intStatus (List.foldl _ _ _) &&& _ = 0
    rw [h'.status]
    simp
  · exact h'.pmu
  · have hreg : (setTdmaPio hw pioArray).reg .TDMA_INT_MASK = TDMA_MASK_INIT := by
      simp [setTdmaPio, rawWrite32]
    rw [hreg]
    decide

/-- The PMU stopped: only its interrupt can be due. -/
theorem Calm.pmuStop {hw : TpuHw} (h : Calm hw) :
    (tpupmuEnable hw false 0 0 TPU_PMUEVENT_TDMABW).intStatus = 0 ∧
      (tpupmuEnable hw false 0 0 TPU_PMUEVENT_TDMABW).tdmaDue = false ∧
      MaskOk (tpupmuEnable hw false 0 0 TPU_PMUEVENT_TDMABW) := by
  refine ⟨h.status, h.tdma, ?_⟩
  have hreg : (tpupmuEnable hw false 0 0 TPU_PMUEVENT_TDMABW).reg .TDMA_INT_MASK =
      hw.reg .TDMA_INT_MASK := by
    simp [tpupmuEnable, rawWrite32]
  rw [MaskOk, hreg]
  exact h.mask

/-- Where an interrupt is on its way, while the worker waits for it: not raised yet;
raised, and the handler still to run; or acknowledged, with `tdma_done` completed and
a snapshot that has the commands the worker needs. -/
inductive Phase (s : Tpu) (w : Progress) (need : Nat) : Prop where
  | running (status : s.hw.intStatus = 0) (mask : MaskOk s.hw) (notRaised : w.raised = false)
      (done : s.tdmaDone = 0) (one : s.hw.tdmaDue = false ∨ s.hw.pmuDue = false)
      (tdma : s.hw.tdmaDue = true → need ≤ s.hw.desNum) (pmu : s.hw.pmuDue = true → need = 0)
  | raised (status : s.hw.intStatus = TDMA_INT_EOD ∨ s.hw.intStatus = TDMA_INT_EOPMU)
      (mask : MaskOk s.hw) (pending : s.irqPending = true) (done : s.tdmaDone = 0)
      (tdma : s.hw.tdmaDue = false) (pmu : s.hw.pmuDue = false) (sync : need ≤ s.hw.syncId.toNat)
  | served (calm : Calm s.hw) (done : 0 < s.tdmaDone) (snap : need ≤ s.snap)

/-- A wait that is over. -/
theorem Phase.over {s : Tpu} {w : Progress} {need : Nat} (h : Phase s w need)
    (hpos : 0 < s.tdmaDone) : Calm s.hw ∧ need ≤ s.snap := by
  cases h with
  | running _ _ _ done => omega
  | raised _ _ _ done => omega
  | served calm done snap => exact ⟨calm, snap⟩

/-- A wait that gives up with no interrupt to serve: there was none. -/
theorem Phase.timeout {s : Tpu} {w : Progress} {need : Nat} (h : Phase s w need)
    (hzero : s.tdmaDone = 0) (hnone : ¬ (s.irqPending ∧ s.hw.line)) : w.raised = false := by
  cases h with
  | running _ _ notRaised => exact notRaised
  | raised status mask pending => exact absurd ⟨pending, line_eq_true mask status⟩ hnone
  | served _ done => omega

/-! ## The invariant -/

/-- The TIU shows what it has reached. -/
def TiuSeen (hw : TpuHw) (w : Progress) : Prop :=
  w.tiu ≠ 0 → w.tiu ≤ hw.tiuId.toNat ∧ hw.tiuDone = true

/-- Whether `resync_cmd_id` has stopped the TIU. -/
def Resync.TiuStopped (hw : TpuHw) : Resync → Prop
  | tiuStopped | tiuCleared => hw.tiuEnabled = false
  | statusRead regVal => hw.tiuEnabled = false ∧ regVal.getLsbD 0 = false
  | _ => True

/-- What holds where the worker stands. -/
def IrqAt (s : Tpu) (w : Progress) : WorkerPc → Prop
  | .inited _ | .loopHead .. => Calm s.hw
  | .pmuArmed => Calm s.hw ∧ s.tdmaDone = 0
  | .desc (.resync .syncIdReset) _ d _ | .desc (.resync .tdmaStopped) _ d _
  | .desc .resynced _ d _ =>
    Calm s.hw ∧ s.tdmaDone = 0 ∧ w.raised = false ∧ w.desc = some d ∧
      w.tiu = 0 ∧ s.hw.tiuEnabled = false
  | .desc (.resync r) .. => Calm s.hw ∧ s.tdmaDone = 0 ∧ r.TiuStopped s.hw
  | .desc .tiuSet _ d _ =>
    Calm s.hw ∧ s.tdmaDone = 0 ∧ w.raised = false ∧ w.desc = some d ∧ TiuSeen s.hw w
  | .desc .waiting _ d _ =>
    Phase s w d.tdmaNum.toNat ∧ d.tdmaNum ≠ 0 ∧ w.desc = some d ∧ TiuSeen s.hw w
  | .desc .waited _ d _ =>
    Calm s.hw ∧ (d.tdmaNum ≠ 0 → d.tdmaNum.toNat ≤ s.snap) ∧ w.desc = some d ∧ TiuSeen s.hw w
  | .desc .polling _ d _ => Calm s.hw ∧ d.bdNum ≠ 0 ∧ w.desc = some d ∧ TiuSeen s.hw w
  | .pmuStopped | .pmuWaiting | .pioWaiting => Phase s w 0 ∧ w.desc = none
  | .pioArmed _ => Calm s.hw ∧ s.tdmaDone = 0 ∧ w.raised = false ∧ w.desc = none
  | _ => True

structure IrqInv (s : Tpu) (w : Progress) : Prop where
  awake : s.pm = .awake
  at_ : IrqAt s w s.pc

/-- A step of the environment that leaves a TIU that is off alone. -/
theorem Resync.TiuStopped.env {hw hw' : TpuHw} {r : Resync} (h : r.TiuStopped hw)
    (hoff : hw.tiuEnabled = false → hw'.tiuEnabled = false) : r.TiuStopped hw' := by
  cases r with
  | tiuStopped | tiuCleared => exact hoff h
  | statusRead regVal => exact ⟨hoff h.1, h.2⟩
  | _ => trivial

/-- **The environment.** A step that leaves the worker where it is keeps what holds
there when it disturbs nothing as long as no interrupt is up or due, and takes a due
one only forward. -/
theorem IrqAt.env {s s' : Tpu} {w w' : Progress} {pc : WorkerPc} (h : IrqAt s w pc)
    (hcalm : Calm s.hw → Calm s'.hw ∧ s'.tdmaDone = s.tdmaDone ∧ w'.raised = w.raised ∧
      s'.snap = s.snap)
    (hphase : ∀ need, pc.Waits = true → Phase s w need → Phase s' w' need)
    (hdesc : w'.desc = w.desc) (htiu : TiuSeen s.hw w → TiuSeen s'.hw w')
    (hoff : s.hw.tiuEnabled = false → s'.hw.tiuEnabled = false ∧ w'.tiu = w.tiu) :
    IrqAt s' w' pc := by
  have started : ∀ {d : CpuSyncDesc},
      (Calm s.hw ∧ s.tdmaDone = 0 ∧ w.raised = false ∧ w.desc = some d ∧ w.tiu = 0 ∧
        s.hw.tiuEnabled = false) →
      Calm s'.hw ∧ s'.tdmaDone = 0 ∧ w'.raised = false ∧ w'.desc = some d ∧ w'.tiu = 0 ∧
        s'.hw.tiuEnabled = false := by
    rintro d ⟨hc, hd, hr, hw, ht, hen⟩
    obtain ⟨hc', hd', hr', -⟩ := hcalm hc
    obtain ⟨hen', ht'⟩ := hoff hen
    exact ⟨hc', hd'.trans hd, hr'.trans hr, hdesc.trans hw, ht'.trans ht, hen'⟩
  cases pc with
  | inited _ | loopHead _ _ => exact (hcalm h).1
  | pmuArmed =>
    obtain ⟨hc, hd⟩ := h
    obtain ⟨hc', hd', -⟩ := hcalm hc
    exact ⟨hc', hd'.trans hd⟩
  | desc stage pmu d rest =>
    cases stage with
    | resync r =>
      cases r with
      | syncIdReset | tdmaStopped => exact started h
      | _ =>
        obtain ⟨hc, hd, hr⟩ := h
        obtain ⟨hc', hd', -⟩ := hcalm hc
        exact ⟨hc', hd'.trans hd, hr.env fun h => (hoff h).1⟩
    | resynced => exact started h
    | tiuSet =>
      obtain ⟨hc, hd, hr, hw, ht⟩ := h
      obtain ⟨hc', hd', hr', -⟩ := hcalm hc
      exact ⟨hc', hd'.trans hd, hr'.trans hr, hdesc.trans hw, htiu ht⟩
    | waiting =>
      obtain ⟨hp, hn, hw, ht⟩ := h
      exact ⟨hphase _ rfl hp, hn, hdesc.trans hw, htiu ht⟩
    | waited =>
      obtain ⟨hc, hs, hw, ht⟩ := h
      obtain ⟨hc', -, -, hs'⟩ := hcalm hc
      refine ⟨hc', ?_, hdesc.trans hw, htiu ht⟩
      rw [hs']
      exact hs
    | polling =>
      obtain ⟨hc, hn, hw, ht⟩ := h
      exact ⟨(hcalm hc).1, hn, hdesc.trans hw, htiu ht⟩
  | pmuStopped | pmuWaiting | pioWaiting => exact ⟨hphase 0 rfl h.1, hdesc.trans h.2⟩
  | pioArmed _ =>
    obtain ⟨hc, hd, hr, hw⟩ := h
    obtain ⟨hc', hd', hr', -⟩ := hcalm hc
    exact ⟨hc', hd'.trans hd, hr'.trans hr, hdesc.trans hw⟩
  | _ => trivial

/-! ## The environment's steps -/

theorem IrqInv.tdma {s : Tpu} {w : Progress} {id : BitVec 16} (hI : IrqInv s w)
    (hc : EnginesOk s (.tdma id)) : IrqInv { s with hw.syncId := id } w := by
  refine ⟨hI.awake, hI.at_.env ?_ ?_ rfl (fun h => h) fun h => ⟨h, rfl⟩⟩
  · exact fun h => ⟨⟨h.status, h.tdma, h.pmu, h.mask⟩, rfl, rfl, rfl⟩
  · intro need _ hp
    cases hp with
    | running status mask notRaised done one tdma pmu =>
      exact .running status mask notRaised done one tdma pmu
    | raised status mask pending done tdma pmu sync =>
      exact .raised status mask pending done tdma pmu (sync.trans hc)
    | served calm done snap =>
      exact .served ⟨calm.status, calm.tdma, calm.pmu, calm.mask⟩ done snap

theorem IrqInv.tiu {s : Tpu} {w : Progress} {id : BitVec 16} {done : Bool} (hI : IrqInv s w)
    (hc : EnginesOk s (.tiu id done)) (hen : s.hw.tiuEnabled = true) :
    IrqInv { s with hw.tiuId := id, hw.tiuDone := done } (w.next (.tiu id.toNat done)) := by
  obtain ⟨hid, hdone⟩ := hc
  have hraised : (w.next (.tiu id.toNat done)).raised = w.raised := by cases done <;> rfl
  have hdesc : (w.next (.tiu id.toNat done)).desc = w.desc := by cases done <;> rfl
  refine ⟨hI.awake, hI.at_.env ?_ ?_ hdesc ?_ ?_⟩
  · exact fun h => ⟨⟨h.status, h.tdma, h.pmu, h.mask⟩, rfl, hraised, rfl⟩
  · intro need _ hp
    cases hp with
    | running status mask notRaised done one tdma pmu =>
      exact .running status mask (hraised.trans notRaised) done one tdma pmu
    | raised status mask pending done tdma pmu sync =>
      exact .raised status mask pending done tdma pmu sync
    | served calm done snap =>
      exact .served ⟨calm.status, calm.tdma, calm.pmu, calm.mask⟩ done snap
  · intro hs
    cases done with
    | true =>
      intro _
      refine ⟨max_le ?_ (le_refl _), rfl⟩
      by_cases h0 : w.tiu = 0
      · rw [h0]
        exact Nat.zero_le _
      · exact (hs h0).1.trans hid
    | false =>
      -- the TIU keeps its flag, so it was not set before either
      intro hne
      exact nomatch hdone (hs hne).2
  · intro hoff
    rw [hen] at hoff
    cases hoff

theorem IrqInv.raise {s : Tpu} {w : Progress} {status : BitVec 16} (hI : IrqInv s w)
    (hc : EnginesOk s (.raise status)) :
    IrqInv { s with hw.intStatus := s.hw.intStatus ||| status,
                    hw.tdmaDue := s.hw.tdmaDue && !status.getLsbD 0,
                    hw.pmuDue := s.hw.pmuDue && !status.getLsbD 15, irqPending := true }
      (w.next .raise) := by
  refine ⟨hI.awake, hI.at_.env ?_ ?_ rfl (fun h => h) fun h => ⟨h, rfl⟩⟩
  · -- nothing is raised that is not due
    intro h
    rcases hc with ⟨-, hdue, -⟩ | ⟨-, hdue⟩
    · rw [h.tdma] at hdue
      cases hdue
    · rw [h.pmu] at hdue
      cases hdue
  · intro need _ hp
    cases hp with
    | running st mask notRaised done one tdma pmu =>
      rcases hc with ⟨rfl, hdue, hnum⟩ | ⟨rfl, hdue⟩
      · have hpmu : s.hw.pmuDue = false := one.resolve_left (by rw [hdue]; decide)
        refine .raised (.inl ?_) mask rfl done (by simp) (by simp [hpmu]) ((tdma hdue).trans hnum)
        simp [st]
      · have htdma : s.hw.tdmaDue = false := one.resolve_right (by rw [hdue]; decide)
        refine .raised (.inr ?_) mask rfl done (by simp [htdma]) (by simp) ?_
        · simp [st]
        · rw [pmu hdue]
          exact Nat.zero_le _
    | raised st mask pending done tdma pmu sync =>
      rcases hc with ⟨-, hdue, -⟩ | ⟨-, hdue⟩
      · rw [tdma] at hdue
        cases hdue
      · rw [pmu] at hdue
        cases hdue
    | served calm done snap =>
      rcases hc with ⟨-, hdue, -⟩ | ⟨-, hdue⟩
      · rw [calm.tdma] at hdue
        cases hdue
      · rw [calm.pmu] at hdue
        cases hdue

/-- The handler, which runs only for an interrupt that is up. -/
theorem IrqInv.irq {s : Tpu} {w : Progress} (hI : IrqInv s w) (hc : IrqCond s .irq)
    (hline : s.hw.line = true) : IrqInv (cviTpuTdmaIrq s).1 w := by
  have hcalm : ¬ Calm s.hw := by
    intro h
    rw [line_eq_false h.status] at hline
    cases hline
  have hat : IrqAt (cviTpuTdmaIrq s).1 w s.pc := by
    refine hI.at_.env (fun h => absurd h hcalm) ?_ rfl ?_ ?_
    · intro need hwaits hp
      have huse := hc hwaits
      rw [cviTpuTdmaIrq, if_neg huse]
      cases hp with
      | running status =>
        rw [line_eq_false status] at hline
        cases hline
      | raised status mask pending done tdma pmu sync =>
        refine .served (ack_calm tdma pmu) (Nat.succ_pos _) ?_
        exact sync.trans_eq (backUp_snap (by decide) s.backup).symm
      | served calm => exact absurd calm hcalm
    · intro ht
      rw [cviTpuTdmaIrq]
      split <;> exact ht
    · intro h
      rw [cviTpuTdmaIrq]
      split <;> exact ⟨h, rfl⟩
  have hpc : (cviTpuTdmaIrq s).1.pc = s.pc := by
    rw [cviTpuTdmaIrq]
    split <;> rfl
  have hpm : (cviTpuTdmaIrq s).1.pm = s.pm := by
    rw [cviTpuTdmaIrq]
    split <;> rfl
  refine ⟨hpm.trans hI.awake, ?_⟩
  rw [hpc]
  exact hat

theorem IrqInv.other {s s' : Tpu} {w : Progress} (hI : IrqInv s w) (hpc : s'.pc = s.pc)
    (hpm : s'.pm = s.pm) (hhw : s'.hw = s.hw) (hdone : s'.tdmaDone = s.tdmaDone)
    (hback : s'.backup = s.backup) (hpend : s'.irqPending = s.irqPending) : IrqInv s' w := by
  have hsnap : s'.snap = s.snap := by rw [Tpu.snap, hback, Tpu.snap]
  refine ⟨hpm.trans hI.awake, ?_⟩
  rw [hpc]
  refine hI.at_.env ?_ ?_ rfl ?_ ?_
  · rw [hhw]
    exact fun h => ⟨h, hdone, rfl, hsnap⟩
  · intro need _ hp
    cases hp with
    | running status mask notRaised done one tdma pmu =>
      rw [← hhw] at status mask one tdma pmu
      exact .running status mask notRaised (hdone.trans done) one tdma pmu
    | raised status mask pending done tdma pmu sync =>
      rw [← hhw] at status mask tdma pmu sync
      exact .raised status mask (hpend.trans pending) (hdone.trans done) tdma pmu sync
    | served calm done snap =>
      rw [← hhw] at calm
      rw [← hdone] at done
      rw [← hsnap] at snap
      exact .served calm done snap
  · rw [hhw]
    exact id
  · rw [hhw]
    exact fun h => ⟨h, rfl⟩

/-! ## The worker's steps -/

/-- What a step of the worker leaves, at the place it goes to. -/
structure WorkIrq (s' : Tpu) (log ev : List TpuEvent) : Prop where
  at_ : IrqAt s' (progress (log ++ ev)) s'.pc
  judged : Judged IrqOk log ev

/-- A return without a timeout needs no argument. -/
theorem WorkIrq.ret {s : Tpu} {log : List TpuEvent} {ret : Int} (h : ret ≠ -ETIMEDOUT) :
    WorkIrq (s.ret ret).1 log (s.ret ret).2 :=
  ⟨trivial, fun heq => absurd heq h, trivial⟩

/-- A wait for an interrupt on its way. When it times out there was none, so the engines
have not finished. -/
theorem WorkIrq.wait {s s' : Tpu} {log ev : List TpuEvent} {o : Outcome} {need : Nat}
    {k : Tpu → Tpu × List TpuEvent} (hp : Phase s (progress log) need)
    (hfin : (progress log).raised = false → ¬ (progress log).Finished)
    (hk : Calm s.hw → need ≤ s.snap → WorkIrq (k { s with tdmaDone := s.tdmaDone - 1 }).1 log
      (k { s with tdmaDone := s.tdmaDone - 1 }).2)
    (h : s.waitTdmaDone k o = some (s', ev)) : WorkIrq s' log ev := by
  rcases s.waitTdmaDone_cases h with ⟨hpos, hr⟩ | ⟨ret, -, hr, hzero, hnone⟩
  · obtain ⟨hcalm, hsnap⟩ := hp.over hpos
    have := hk hcalm hsnap
    rwa [← hr] at this
  · obtain ⟨rfl, rfl⟩ := Prod.mk.inj hr
    refine ⟨trivial, ?_, trivial⟩
    intro heq
    exact hfin (hp.timeout hzero (hnone heq))

/-- The end of the wait of a copy or of the PMU. -/
theorem WorkIrq.wait_ret {s s' : Tpu} {log ev : List TpuEvent} {o : Outcome}
    (hp : Phase s (progress log) 0) (hdesc : (progress log).desc = none)
    (h : s.waitTdmaDone (fun s => s.ret 0) o = some (s', ev)) : WorkIrq s' log ev := by
  refine WorkIrq.wait hp ?_ (fun _ _ => WorkIrq.ret (by decide)) h
  intro hr hf
  rw [Progress.Finished, hdesc] at hf
  exact absurd (hr.symm.trans hf) (by decide)

theorem progress_touch (log : List TpuEvent) (en : Int) :
    progress (log ++ [.touch en]) = progress log := by
  rw [progress_append]
  rfl

/-- An access of `resync_cmd_id`. Its TIU is off before the descriptor starts, and stays
off until it is set up. -/
theorem IrqAt.access {s : Tpu} {log : List TpuEvent} {r : Resync} {pmu : Bool} {d : CpuSyncDesc}
    {rest : List CpuSyncDesc} (hat : IrqAt s (progress log) (.desc (.resync r) pmu d rest)) :
    WorkIrq { s with hw := (r.access s.hw).1,
                     pc := .desc ((r.access s.hw).2.elim .resynced .resync) pmu d rest } log
      (if r = .tiuCleared then [.start d, .touch s.en] else [.touch s.en]) := by
  cases r with
  | entered | tiuIdReset =>
    obtain ⟨hcalm, hzero, -⟩ := hat
    exact ⟨⟨hcalm, hzero, trivial⟩, trivial, trivial⟩
  | tiuIdRead regVal | tiuIdHeld regVal =>
    obtain ⟨hcalm, hzero, -⟩ := hat
    exact ⟨⟨hcalm.write (r := .BD_CTRL_C) (by simp) (by simp) (by simp) _, hzero, trivial⟩, trivial,
      trivial⟩
  | ctrlRead regVal =>
    obtain ⟨hcalm, hzero, -⟩ := hat
    refine ⟨⟨hcalm.write (r := .BD_CTRL) (by simp) (by simp) (by simp) _, hzero, ?_⟩, trivial,
      trivial⟩
    change TpuHw.tiuEnabled _ = false
    rw [Resync.access, TpuHw.tiuEnabled, reg_rawWrite32_self]
    simp
  | tiuStopped =>
    obtain ⟨hcalm, hzero, hoff⟩ := hat
    exact ⟨⟨hcalm, hzero, hoff, (bdCtrl_enable s.hw).trans hoff⟩, trivial, trivial⟩
  | statusRead regVal =>
    obtain ⟨hcalm, hzero, -, hval⟩ := hat
    refine ⟨⟨hcalm.write (r := .BD_CTRL) (by simp) (by simp) (by simp) _, hzero, ?_⟩, trivial,
      trivial⟩
    change TpuHw.tiuEnabled _ = false
    rw [Resync.access, TpuHw.tiuEnabled, reg_rawWrite32_self, BitVec.getLsbD_or, hval]
    decide
  | tiuCleared =>
    obtain ⟨hcalm, hzero, hoff⟩ := hat
    rw [if_pos rfl]
    refine ⟨?_, trivial, trivial, trivial⟩
    rw [progress_append]
    exact ⟨hcalm.resetTdma (by decide), hzero, rfl, rfl, rfl, hoff⟩
  | syncIdReset =>
    obtain ⟨hcalm, hzero, hraised, hdesc, htiu, hoff⟩ := hat
    refine ⟨?_, trivial, trivial⟩
    rw [if_neg (by simp), progress_touch]
    exact ⟨hcalm.resetTdma (by decide), hzero, hraised, hdesc, htiu, hoff⟩
  | tdmaStopped =>
    obtain ⟨hcalm, hzero, hraised, hdesc, htiu, hoff⟩ := hat
    refine ⟨?_, trivial, trivial⟩
    rw [if_neg (by simp), progress_touch]
    exact ⟨ack_calm hcalm.tdma hcalm.pmu, hzero, hraised, hdesc, htiu, hoff⟩

/-- The stages of a descriptor. -/
theorem IrqInv.descStep {s s' : Tpu} {log ev : List TpuEvent} {o : Outcome} {stage : DescStage}
    {pmu : Bool} {d : CpuSyncDesc} {rest : List CpuSyncDesc} (hI : IrqInv s (progress log))
    (hpc : s.pc = .desc stage pmu d rest)
    (h : descStep s pmu d rest o stage = some (s', ev)) : WorkIrq s' log ev := by
  have hat := hI.at_
  rw [hpc] at hat
  cases stage with
  | resync r =>
    simp only [LicheeRvNano.descStep] at h
    obtain ⟨rfl, rfl⟩ := Prod.mk.inj (Option.some.inj h)
    exact IrqAt.access hat
  | resynced =>
    obtain ⟨hcalm, hzero, hraised, hdesc, htiu, -⟩ := hat
    simp only [LicheeRvNano.descStep] at h
    split at h
    · obtain ⟨rfl, rfl⟩ := Prod.mk.inj (Option.some.inj h)
      refine ⟨?_, trivial, trivial⟩
      rw [progress_touch]
      exact ⟨hcalm.setTiu _, hzero, hraised, hdesc, fun hne => absurd htiu hne⟩
    · obtain ⟨rfl, rfl⟩ := Prod.mk.inj (Option.some.inj h)
      refine ⟨?_, trivial⟩
      rw [List.append_nil]
      exact ⟨hcalm, hzero, hraised, hdesc, fun hne => absurd htiu hne⟩
  | tiuSet =>
    obtain ⟨hcalm, hzero, hraised, hdesc, htiu⟩ := hat
    simp only [LicheeRvNano.descStep] at h
    split at h
    · rename_i hnum
      have hlt : d.tdmaNum.toNat < 65536 := by
        rw [d.toNat_num.2]
        exact Nat.mod_lt _ (by decide)
      obtain ⟨rfl, rfl⟩ := Prod.mk.inj (Option.some.inj h)
      obtain ⟨hst, hpmu, hdes, hmask⟩ := hcalm.fire d.offset_gdma hlt
      refine ⟨?_, trivial, trivial⟩
      rw [progress_touch]
      refine ⟨?_, by bv_omega, hdesc, htiu⟩
      refine Phase.running hst hmask hraised hzero (.inr hpmu) ?_ ?_
      · exact fun _ => hdes.ge
      · intro hp
        exact absurd (hpmu.symm.trans hp) (by decide)
    · rename_i hnum
      obtain ⟨rfl, rfl⟩ := Prod.mk.inj (Option.some.inj h)
      refine ⟨?_, trivial⟩
      rw [List.append_nil]
      exact ⟨hcalm, fun hne => absurd (by bv_omega) hnum, hdesc, htiu⟩
  | waiting =>
    obtain ⟨hphase, hnum, hdesc, htiu⟩ := hat
    simp only [LicheeRvNano.descStep] at h
    refine WorkIrq.wait hphase ?_ (fun hcalm hsnap => ?_) h
    · intro hr hf
      rw [Progress.Finished, hdesc] at hf
      exact absurd (hr.symm.trans (hf.1 hnum)) (by decide)
    · refine ⟨?_, trivial⟩
      rw [List.append_nil]
      exact ⟨hcalm, fun _ => hsnap, hdesc, htiu⟩
  | waited =>
    obtain ⟨hcalm, hsnap, hdesc, htiu⟩ := hat
    -- the snapshot has the full count, so the check does not fail
    have hshort : tdmaIdShort (s.backup .TDMA_SYNC_STATUS) d = false := by
      simp only [tdmaIdShort, decide_eq_false_iff_not, not_and]
      intro hpos hlt
      have := hsnap (by bv_omega)
      rw [Tpu.snap] at this
      bv_omega
    simp only [LicheeRvNano.descStep, hshort] at h
    have hloop : WorkIrq { s with pc := .loopHead pmu rest } log [] := by
      refine ⟨?_, trivial⟩
      rw [List.append_nil]
      exact hcalm
    split at h
    · obtain ⟨rfl, rfl⟩ := Prod.mk.inj (Option.some.inj h)
      exact hloop
    · rw [if_neg (by decide)] at h
      split at h
      · rename_i hbd
        obtain ⟨rfl, rfl⟩ := Prod.mk.inj (Option.some.inj h)
        refine ⟨?_, trivial⟩
        rw [List.append_nil]
        exact ⟨hcalm, by bv_omega, hdesc, htiu⟩
      · obtain ⟨rfl, rfl⟩ := Prod.mk.inj (Option.some.inj h)
        exact hloop
  | polling =>
    obtain ⟨hcalm, hbd, hdesc, htiu⟩ := hat
    simp only [LicheeRvNano.descStep] at h
    split at h
    · obtain ⟨rfl, rfl⟩ := Prod.mk.inj (Option.some.inj h)
      refine ⟨?_, trivial, trivial⟩
      rw [progress_touch]
      exact hcalm.write (r := .BD_CTRL) (by simp) (by simp) (by simp) _
    · rename_i hfin
      split at h
      · obtain ⟨rfl, rfl⟩ := Prod.mk.inj (Option.some.inj h)
        refine ⟨trivial, trivial, ?_, trivial⟩
        -- what the TIU had reached the poll would have seen
        intro _ hf
        rw [progress_touch, Progress.Finished, hdesc] at hf
        have hpos : (progress log).tiu ≠ 0 := by
          have hle := hf.2
          bv_omega
        obtain ⟨hid, hdone⟩ := htiu hpos
        exact hfin (bdFinished_iff.mpr ⟨hf.2.trans hid, hdone⟩)
      · obtain ⟨rfl, rfl⟩ := Prod.mk.inj (Option.some.inj h)
        refine ⟨?_, trivial, trivial⟩
        rw [progress_touch]
        exact hI.at_

/-- **The worker's step.** -/
theorem IrqInv.work {s s' : Tpu} {log ev : List TpuEvent} {o : Outcome}
    (hI : IrqInv s (progress log)) (h : workStep s o = some (s', ev)) : WorkIrq s' log ev := by
  have hat := hI.at_
  cases hpc : s.pc with
  | desc stage pmu d rest =>
    simp only [workStep, hpc] at h
    exact hI.descStep hpc h
  | idle =>
    simp only [workStep, hpc] at h
    split at h
    · cases h
    · obtain ⟨rfl, rfl⟩ := Prod.mk.inj (Option.some.inj h)
      exact ⟨trivial, trivial⟩
  | taken t | ended ret =>
    simp only [workStep, hpc] at h
    obtain ⟨rfl, rfl⟩ := Prod.mk.inj (Option.some.inj h)
    exact ⟨trivial, trivial⟩
  | marked t =>
    -- whatever the last task left behind is gone with the reset
    simp only [workStep, hpc] at h
    obtain ⟨rfl, rfl⟩ := Prod.mk.inj (Option.some.inj h)
    exact ⟨reset_calm, trivial⟩
  | returned ret =>
    simp only [workStep, hpc] at h
    split at h
    all_goals
      obtain ⟨rfl, rfl⟩ := Prod.mk.inj (Option.some.inj h)
      exact ⟨trivial, trivial⟩
  | inited t =>
    rw [hpc] at hat
    cases t with
    | desNormal b =>
      simp only [workStep, hpc, platformRunDmabuf] at h
      split at h
      · obtain ⟨rfl, rfl⟩ := Prod.mk.inj (Option.some.inj h)
        exact ⟨trivial, trivial, fun heq => absurd heq (by decide), trivial⟩
      · obtain ⟨rfl, rfl⟩ := Prod.mk.inj (Option.some.inj h)
        refine ⟨?_, trivial, trivial, trivial⟩
        have hcalm := Calm.setArrayBase hat b.arraybase_L
        change Calm (if _ then _ else _)
        split
        · exact hcalm.pmuEnable _ _
        · exact hcalm
    | desSec =>
      simp only [workStep, hpc] at h
      obtain ⟨rfl, rfl⟩ := Prod.mk.inj (Option.some.inj h)
      exact ⟨trivial, trivial, fun heq => absurd heq (by decide), trivial⟩
    | pioTdma pioArray =>
      simp only [workStep, hpc] at h
      obtain ⟨rfl, rfl⟩ := Prod.mk.inj (Option.some.inj h)
      refine ⟨?_, trivial, trivial⟩
      rw [progress_append]
      exact ⟨hat, rfl, rfl, rfl⟩
  | loopHead pmu rest =>
    rw [hpc] at hat
    rcases rest with _ | ⟨d, rest⟩
    · cases pmu with
      | true =>
        simp only [workStep, hpc] at h
        obtain ⟨rfl, rfl⟩ := Prod.mk.inj (Option.some.inj h)
        exact ⟨⟨hat, rfl⟩, trivial⟩
      | false =>
        simp only [workStep, hpc] at h
        obtain ⟨rfl, rfl⟩ := Prod.mk.inj (Option.some.inj h)
        exact WorkIrq.ret (by decide)
    · simp only [workStep, hpc] at h
      obtain ⟨rfl, rfl⟩ := Prod.mk.inj (Option.some.inj h)
      exact ⟨⟨hat, rfl, trivial⟩, trivial⟩
  | pmuArmed =>
    rw [hpc] at hat
    obtain ⟨hcalm, hzero⟩ := hat
    simp only [workStep, hpc] at h
    obtain ⟨rfl, rfl⟩ := Prod.mk.inj (Option.some.inj h)
    obtain ⟨hst, htdma, hmask⟩ := hcalm.pmuStop
    refine ⟨?_, trivial, trivial, trivial⟩
    rw [progress_append]
    refine ⟨Phase.running hst hmask rfl hzero (.inl htdma) ?_ fun _ => rfl, rfl⟩
    exact fun _ => Nat.zero_le _
  | pmuStopped =>
    rw [hpc] at hat
    simp only [workStep, hpc] at h
    split at h
    · obtain ⟨rfl, rfl⟩ := Prod.mk.inj (Option.some.inj h)
      exact WorkIrq.ret (by decide)
    · obtain ⟨rfl, rfl⟩ := Prod.mk.inj (Option.some.inj h)
      refine ⟨?_, trivial⟩
      rw [List.append_nil]
      obtain ⟨hphase, hdesc⟩ := hat
      refine ⟨?_, hdesc⟩
      cases hphase with
      | running status mask notRaised done one tdma pmu =>
        exact .running status mask notRaised done one tdma pmu
      | raised status mask pending done tdma pmu sync =>
        exact .raised status mask pending done tdma pmu sync
      | served calm done snap => exact .served calm done snap
  | pioArmed pioArray =>
    rw [hpc] at hat
    obtain ⟨hcalm, hzero, hraised, hdesc⟩ := hat
    simp only [workStep, hpc] at h
    obtain ⟨rfl, rfl⟩ := Prod.mk.inj (Option.some.inj h)
    obtain ⟨hst, hpmu, hmask⟩ := hcalm.pio pioArray
    refine ⟨?_, trivial, trivial⟩
    rw [progress_touch]
    refine ⟨Phase.running hst hmask hraised hzero (.inr hpmu) (fun _ => Nat.zero_le _) ?_, hdesc⟩
    exact fun _ => rfl
  | pmuWaiting | pioWaiting =>
    rw [hpc] at hat
    simp only [workStep, hpc] at h
    exact WorkIrq.wait_ret hat.1 hat.2 h

/-! ## Every run -/

/-- **One step**, of engines that do what they are for, under the condition. -/
theorem IrqInv.step {s s' : Tpu} {log ev : List TpuEvent} {a : TpuAction}
    (hI : IrqInv s (progress log)) (he : EnginesOk s a) (hc : IrqCond s a)
    (h : tpuStep s a = some (s', ev)) :
    IrqInv s' (progress (log ++ ev)) ∧ Judged IrqOk log ev := by
  cases a with
  | work o =>
    have hw := hI.work h
    exact ⟨⟨(workStep_clock h).2.1.pm.trans hI.awake, hw.at_⟩, hw.judged⟩
  | tdma id =>
    simp only [tpuStep, Option.ite_none_right_eq_some, Option.some.injEq, Prod.mk.injEq] at h
    obtain ⟨-, rfl, rfl⟩ := h
    rw [progress_append]
    exact ⟨hI.tdma he, trivial, trivial⟩
  | tiu id done =>
    simp only [tpuStep, Option.ite_none_right_eq_some, Option.some.injEq, Prod.mk.injEq] at h
    obtain ⟨hen, rfl, rfl⟩ := h
    rw [progress_append]
    exact ⟨hI.tiu he hen, trivial, trivial⟩
  | raise status =>
    simp only [tpuStep, Option.some.injEq, Prod.mk.injEq] at h
    obtain ⟨rfl, rfl⟩ := h
    rw [progress_append]
    exact ⟨hI.raise he, trivial, trivial⟩
  | irq =>
    simp only [tpuStep, Option.ite_none_right_eq_some, Option.some.injEq] at h
    obtain ⟨hline, h⟩ := h
    have hI' := hI.irq hc hline
    have hev := cviTpuTdmaIrq_event s
    rw [h] at hI' hev
    obtain rfl := hev
    rw [progress_append]
    refine ⟨hI', ?_, trivial⟩
    intro hwaits
    exact decide_eq_true (hc hwaits)
  | suspend => exact absurd he id
  | suspendExpired =>
    simp only [tpuStep, hI.awake, reduceCtorEq, if_false] at h
  | resume =>
    simp only [tpuStep, hI.awake, reduceCtorEq, if_false] at h
  | openFile pid =>
    simp only [tpuStep, Option.some.injEq, Prod.mk.injEq] at h
    obtain ⟨rfl, rfl⟩ := h
    rw [List.append_nil]
    exact ⟨hI.other rfl rfl rfl rfl rfl rfl, trivial⟩
  | closeFile pid | submit pid t =>
    simp only [tpuStep, Option.ite_none_right_eq_some, Option.some.injEq, Prod.mk.injEq] at h
    obtain ⟨-, rfl, rfl⟩ := h
    rw [List.append_nil]
    exact ⟨hI.other rfl rfl rfl rfl rfl rfl, trivial⟩

/-- `use_count` is the number of open files. -/
theorem useCount_step {s s' : Tpu} {ev : List TpuEvent} {a : TpuAction}
    (hI : s.useCount = s.files.length) (h : tpuStep s a = some (s', ev)) :
    s'.useCount = s'.files.length := by
  cases a with
  | work o =>
    obtain ⟨-, hk, -⟩ := workStep_clock h
    rw [hk.useCount, hk.files, hI]
  | openFile pid =>
    simp only [tpuStep, Option.some.injEq, Prod.mk.injEq] at h
    obtain ⟨rfl, -⟩ := h
    simp [hI]
  | closeFile pid =>
    simp only [tpuStep, Option.ite_none_right_eq_some, Option.some.injEq, Prod.mk.injEq] at h
    obtain ⟨hmem, rfl, -⟩ := h
    have hpos := List.length_pos_of_mem hmem
    have hlen := List.length_erase_of_mem hmem
    dsimp only
    omega
  | raise status =>
    simp only [tpuStep, Option.some.injEq, Prod.mk.injEq] at h
    obtain ⟨rfl, -⟩ := h
    exact hI
  | irq =>
    simp only [tpuStep, cviTpuTdmaIrq, Option.ite_none_right_eq_some, Option.some.injEq] at h
    obtain ⟨-, h⟩ := h
    split at h
    all_goals
      obtain ⟨rfl, -⟩ := Prod.mk.inj h
      exact hI
  | suspend =>
    simp only [tpuStep, cviTpuSuspend, Option.ite_none_right_eq_some, Option.some.injEq,
      Prod.mk.injEq] at h
    obtain ⟨-, rfl, -⟩ := h
    repeat' split
    all_goals exact hI
  | resume =>
    simp only [tpuStep, cviTpuResume, Option.ite_none_right_eq_some, Option.some.injEq,
      Prod.mk.injEq] at h
    obtain ⟨-, rfl, -⟩ := h
    split
    all_goals exact hI
  | tdma id | tiu id done | suspendExpired | submit pid t =>
    simp only [tpuStep, platformTpuSuspendExpired, Option.ite_none_right_eq_some,
      Option.some.injEq, Prod.mk.injEq] at h
    obtain ⟨-, rfl, -⟩ := h
    exact hI

theorem Tpu.AtProbe.irqInv {s : Tpu} (h : s.AtProbe) : IrqInv s (progress []) := by
  refine ⟨h.pm, ?_⟩
  rw [h.pc]
  trivial

/-- **No interrupt is lost to a close.** `use_count` is never negative. And with engines
that do what they are for, in a run without a suspend, every interrupt for a waiting
worker is acknowledged and completes `tdma_done`, and no task times out whose engines
have finished, exactly if the device is open each time the handler runs for a waiting
worker. -/
theorem interrupt_not_lost {s₀ s : Tpu} {as : List TpuAction} {log : List TpuEvent}
    (h₀ : s₀.AtProbe) (he : tpuDevice.exec s₀ as = some (s, log)) :
    0 ≤ s.useCount ∧ (tpuDevice.Meets EnginesOk s₀ as →
      (Judged IrqOk [] log ↔ tpuDevice.Meets IrqCond s₀ as)) := by
  constructor
  · have hlen : s.useCount = s.files.length := by
      refine Machine.exec_invariant_start (I := fun s _ => s.useCount = s.files.length)
        (by rw [h₀.useCount, h₀.files]; rfl) ?_ Machine.Meets.trivial he
      intro s s' log ev a hI _ hs
      exact useCount_step hI hs
    rw [hlen]
    exact Int.natCast_nonneg _
  · intro heng
    constructor
    · -- the handler's own event tells whether the device was open
      refine Machine.meets_of_judged ?_ he
      intro s s' log ev a hs hj
      cases a with
      | irq =>
        intro hwaits
        replace hs : tpuStep s .irq = some (s', ev) := hs
        simp only [tpuStep, Option.ite_none_right_eq_some, Option.some.injEq] at hs
        have hev := cviTpuTdmaIrq_event s
        rw [hs.2] at hev
        obtain rfl := hev
        exact of_decide_eq_true (hj.1 hwaits)
      | _ => trivial
    · intro hc
      have hinv : IrqInv s (progress log) ∧ Judged IrqOk [] log := by
        refine Machine.exec_invariant_start
          (I := fun s log => IrqInv s (progress log) ∧ Judged IrqOk [] log)
          ⟨h₀.irqInv, trivial⟩ ?_ (heng.and hc) he
        rintro s s' log ev a ⟨hI, hlog⟩ ⟨hok, hcond⟩ hs
        obtain ⟨hI', hev⟩ := hI.step hok hcond hs
        refine ⟨hI', Judged.append_iff.mpr ⟨hlog, ?_⟩⟩
        rwa [List.nil_append]
      exact hinv.2

/-- A process queues a copy and closes the device, which another one has open; the TDMA
ends and interrupts. -/
def closedByOneRun : List TpuAction :=
  [.openFile 1, .openFile 2, .submit 1 (.pioTdma fun _ => 0), .closeFile 1, .work .go, .work .go,
    .work .go, .work .go, .work .go, .tdma 1, .raise TDMA_INT_EOD, .irq, .work .go]

theorem interrupt_not_lost_closedByOneRun :
    ∃ s log, tpuDevice.exec probedTpu closedByOneRun = some (s, log) ∧
      TpuEvent.irq true true ∈ log ∧ TpuEvent.returned 0 ∈ log ∧ 0 ≤ s.useCount ∧
      Judged IrqOk [] log := by
  refine ⟨_, _, rfl, by decide, by decide, ?_⟩
  refine ⟨(@interrupt_not_lost _ _ closedByOneRun _ probedTpu_atProbe rfl).1,
    ((@interrupt_not_lost _ _ closedByOneRun _ probedTpu_atProbe rfl).2 ?_).mpr ?_⟩
  · refine ⟨trivial, trivial, trivial, trivial, trivial, trivial, trivial, trivial, trivial, ?_,
      .inl ⟨rfl, rfl, ?_⟩, trivial, trivial, trivial⟩
    · exact Nat.zero_le _
    · decide
  · refine ⟨trivial, trivial, trivial, trivial, trivial, trivial, trivial, trivial, trivial,
      trivial, trivial, ?_, trivial, trivial⟩
    exact fun _ => by decide

/-- The same when nobody else has the device open. -/
def closedByAllRun : List TpuAction :=
  [.openFile 1, .submit 1 (.pioTdma fun _ => 0), .closeFile 1, .work .go, .work .go,
    .work .go, .work .go, .work .go, .tdma 1, .raise TDMA_INT_EOD, .irq, .work .timeout]

theorem not_interrupt_not_lost :
    ¬ ∀ (s₀ s : Tpu) (as : List TpuAction) (log : List TpuEvent), s₀.AtProbe →
      tpuDevice.exec s₀ as = some (s, log) → tpuDevice.Meets EnginesOk s₀ as →
      0 ≤ s.useCount ∧ Judged IrqOk [] log := by
  intro h
  have hj := (h probedTpu _ closedByAllRun _ probedTpu_atProbe rfl ?_).2
  · -- the handler runs for the waiting worker and does not acknowledge
    exact absurd (hj.2.2.2.2.1 rfl) (by decide)
  · refine ⟨trivial, trivial, trivial, trivial, trivial, trivial, trivial, trivial, Nat.zero_le _,
      .inl ⟨rfl, rfl, ?_⟩, trivial, trivial, trivial⟩
    decide

end LicheeRvNano
