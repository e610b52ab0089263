import LicheeRvNano.TpuClock

/-!
# TPU runs

When `platform_run_dmabuf` returns zero, the work is done: every descriptor was started
in its turn, and before the next one, or before the return, its TDMA and TIU commands
had all completed. What completed is read off the log: the ids the engines reached
since the descriptor was started.

The driver does not look at the engines for that but at a snapshot, which the
interrupt handler and the suspend callback take. So the invariant follows two things
through the stages of a descriptor: that the engine's counters, reset at the start,
show no more than was reached since, and from where on the same holds of the snapshot.
-/

namespace LicheeRvNano

/-! ## What the log says -/

/-- What the log says about the run of the last task. -/
structure Watch where
  /-- the descriptors not started yet -/
  left : List CpuSyncDesc
  /-- the descriptor started last -/
  desc : Option CpuSyncDesc
  /-- the highest sync id the TDMA reached since -/
  tdma : Nat
  /-- the highest command id the TIU reached since with its done flag -/
  tiu : Nat

def Watch.next (w : Watch) : TpuEvent → Watch
  | .enter descs => ⟨descs, none, 0, 0⟩
  | .start d => ⟨w.left.tail, some d, 0, 0⟩
  | .tdma id => { w with tdma := max w.tdma id }
  | .tiu id true => { w with tiu := max w.tiu id }
  | _ => w

def watch (log : List TpuEvent) : Watch := log.foldl Watch.next ⟨[], none, 0, 0⟩

theorem watch_append (log ev : List TpuEvent) : watch (log ++ ev) = ev.foldl Watch.next (watch log) :=
  List.foldl_append

/-- All commands of the descriptor started last have completed. -/
def Watch.Done (w : Watch) : Prop :=
  ∀ d, w.desc = some d → d.num_gdma.toNat ≤ w.tdma ∧ d.num_bd.toNat ≤ w.tiu

instance (w : Watch) : Decidable w.Done :=
  inferInstanceAs (Decidable (∀ d ∈ w.desc, d.num_gdma.toNat ≤ w.tdma ∧ d.num_bd.toNat ≤ w.tiu))

/-- A descriptor is started in its turn and after the one before has completed, and a
run returns zero after all of them have. -/
def StartOk (past : List TpuEvent) : TpuEvent → Prop
  | .start d => (watch past).left.head? = some d ∧ (watch past).Done
  | .returned ret => ret = 0 → (watch past).left = [] ∧ (watch past).Done
  | _ => True

instance (past : List TpuEvent) : ∀ e, Decidable (StartOk past e)
  | .start d => inferInstanceAs (Decidable ((watch past).left.head? = some d ∧ _))
  | .returned ret => inferInstanceAs (Decidable (ret = 0 → (watch past).left = [] ∧ _))
  | .enter _ | .pmuStop | .touch _ | .tdma _ | .tiu _ _ | .raise | .irq _ _ => isTrue trivial

/-! ## The condition -/

/-- The counts fit the sixteen bits the loop takes of them. -/
def CpuSyncDesc.Small (d : CpuSyncDesc) : Prop :=
  d.num_gdma.toNat < 65536 ∧ d.num_bd.toNat < 65536

instance (d : CpuSyncDesc) : Decidable d.Small := inferInstanceAs (Decidable (_ ∧ _))

/-- Whether the worker still has a check of `poll_cmdbuf_done` before it. -/
def WorkerPc.ChecksLeft : WorkerPc → Prop
  | loopHead _ rest | desc .polling _ _ rest => rest ≠ []
  | desc .. => True
  | _ => False

instance : ∀ pc, Decidable (WorkerPc.ChecksLeft pc)
  | .loopHead _ rest | .desc .polling _ _ rest => inferInstanceAs (Decidable (rest ≠ []))
  | .desc (.resync _) _ _ _ | .desc .resynced _ _ _ | .desc .tiuSet _ _ _ | .desc .waiting _ _ _
  | .desc .waited _ _ _ => isTrue trivial
  | .idle | .taken _ | .marked _ | .inited _ | .pmuArmed | .pmuStopped | .pmuWaiting
  | .pioArmed _ | .pioWaiting | .returned _ | .ended _ => isFalse id

/-- What a step of the worker needs. -/
def WorkCond (s : Tpu) : WorkerPc → Prop
  | .inited (.desNormal b) => b.dmabuf_magic_m = TPU_DMABUF_HEADER_M → ∀ d ∈ b.descs, d.Small
  | .desc (.resync r) _ _ _ => r.Stale → s.pm = .awake
  | _ => True

instance (s : Tpu) : ∀ pc, Decidable (WorkCond s pc)
  | .inited (.desNormal b) =>
    inferInstanceAs (Decidable (b.dmabuf_magic_m = _ → ∀ d ∈ b.descs, d.Small))
  | .desc (.resync r) _ _ _ => inferInstanceAs (Decidable (r.Stale → s.pm = .awake))
  | .idle | .taken _ | .marked _ | .inited .desSec | .inited (.pioTdma _) | .loopHead _ _
  | .desc .resynced _ _ _ | .desc .tiuSet _ _ _ | .desc .waiting _ _ _ | .desc .waited _ _ _
  | .desc .polling _ _ _ | .pmuArmed | .pmuStopped | .pmuWaiting | .pioArmed _ | .pioWaiting
  | .returned _ | .ended _ => isTrue trivial

/-- What the interrupt handler needs. -/
def HandlerCond (s : Tpu) : WorkerPc → Prop
  | .desc (.resync r) _ d _ => r.Stale → s.useCount ≠ 0 → d.tdmaNum = 0
  | _ => True

instance (s : Tpu) : ∀ pc, Decidable (HandlerCond s pc)
  | .desc (.resync r) _ d _ =>
    inferInstanceAs (Decidable (r.Stale → s.useCount ≠ 0 → d.tdmaNum = 0))
  | .idle | .taken _ | .marked _ | .inited _ | .loopHead _ _
  | .desc .resynced _ _ _ | .desc .tiuSet _ _ _ | .desc .waiting _ _ _ | .desc .waited _ _ _
  | .desc .polling _ _ _ | .pmuArmed | .pmuStopped | .pmuWaiting | .pioArmed _ | .pioWaiting
  | .returned _ | .ended _ => isTrue trivial

/-- The condition: the counts of a buffer that is run fit sixteen bits; between
`reinit_completion` and the write of `TDMA_CTRL_RESET_SYNCID_BIT` the worker makes no step
while the system is suspended, and no interrupt is handled when the descriptor has TDMA
commands; and no suspend callback runs into its polling loop while a check is left. -/
def RunCond (s : Tpu) : TpuAction → Prop
  | .work _ => WorkCond s s.pc
  | .irq => HandlerCond s s.pc
  | .suspendExpired => ¬ s.pc.ChecksLeft
  | _ => True

instance (s : Tpu) : ∀ a, Decidable (RunCond s a)
  | .work _ => inferInstanceAs (Decidable (WorkCond s s.pc))
  | .irq => inferInstanceAs (Decidable (HandlerCond s s.pc))
  | .suspendExpired => inferInstanceAs (Decidable (¬ s.pc.ChecksLeft))
  | .tdma _ | .tiu _ _ | .raise _ | .suspend | .resume | .openFile _ | .closeFile _
  | .submit _ _ => isTrue trivial

/-! ## The invariant -/

/-- The sync id of the snapshot. -/
def Tpu.snap (s : Tpu) : Nat := (s.backup .TDMA_SYNC_STATUS >>> 16).toNat

/-- From the start of a descriptor to the end of its checks: the counters show no more
than was reached since the start, and so does the snapshot that a resume callback
would restore. -/
structure Window (s : Tpu) (w : Watch) (d : CpuSyncDesc) (rest : List CpuSyncDesc) : Prop where
  left : w.left = rest
  desc : w.desc = some d
  small : ∀ d' ∈ d :: rest, d'.Small
  sync : s.hw.syncId.toNat ≤ w.tdma
  tiu : s.hw.tiuDone = true → s.hw.tiuId.toNat ≤ w.tiu
  pm : s.pm ≠ .awake → s.snap ≤ w.tdma

/-- The TIU is off, and a resume callback would leave it off. -/
structure Tpu.TiuOff (s : Tpu) : Prop where
  off : s.hw.tiuEnabled = false
  pm : s.pm ≠ .awake → (s.backup .BD_CTRL).getLsbD 0 = false

/-- What `resync_cmd_id` has done to the TIU before it comes to the TDMA. -/
def Resync.TiuAt (s : Tpu) : Resync → Prop
  | tiuStopped => s.TiuOff
  | statusRead regVal => s.TiuOff ∧ regVal.getLsbD 0 = false
  | tiuCleared => s.TiuOff ∧ s.hw.tiuDone = false
  | _ => True

/-- What holds where the worker stands. -/
def RunAt (s : Tpu) (w : Watch) : WorkerPc → Prop
  | .loopHead _ rest => w.left = rest ∧ w.Done ∧ ∀ d ∈ rest, d.Small
  | .desc (.resync .syncIdReset) _ d rest | .desc (.resync .tdmaStopped) _ d rest =>
    Window s w d rest ∧ (d.tdmaNum ≠ 0 → 0 < s.tdmaDone → s.snap ≤ w.tdma)
  | .desc (.resync r) _ d rest =>
    w.left = d :: rest ∧ w.Done ∧ (∀ d' ∈ d :: rest, d'.Small) ∧
      (d.tdmaNum ≠ 0 → s.tdmaDone = 0) ∧ r.TiuAt s
  | .desc .waited _ d rest => Window s w d rest ∧ (d.tdmaNum ≠ 0 → s.snap ≤ w.tdma)
  | .desc .polling _ d rest => Window s w d rest ∧ d.num_gdma.toNat ≤ w.tdma
  -- an interrupt that came since the start has taken its snapshot since the start
  | .desc _ _ d rest => Window s w d rest ∧ (d.tdmaNum ≠ 0 → 0 < s.tdmaDone → s.snap ≤ w.tdma)
  | .pmuArmed | .pmuStopped | .pmuWaiting | .pioArmed _ | .pioWaiting => w.left = [] ∧ w.Done
  | _ => True

structure RunInv (s : Tpu) (w : Watch) : Prop where
  running : s.runningCnt = s.pc.Running
  /-- while a check is left, no suspend has taken it over -/
  checks : s.pc.ChecksLeft → s.suspendHandleInt = false
  at_ : RunAt s w s.pc

/-- The log goes on without a new descriptor or task. -/
structure Watch.Grows (w w' : Watch) : Prop where
  left : w'.left = w.left
  desc : w'.desc = w.desc
  tdma : w.tdma ≤ w'.tdma
  tiu : w.tiu ≤ w'.tiu

theorem Watch.Grows.refl (w : Watch) : w.Grows w := ⟨rfl, rfl, le_refl _, le_refl _⟩

theorem Watch.Done.grows {w w' : Watch} (h : w.Done) (hg : w.Grows w') : w'.Done := by
  intro d hd
  rw [hg.desc] at hd
  obtain ⟨h₁, h₂⟩ := h d hd
  exact ⟨h₁.trans hg.tdma, h₂.trans hg.tiu⟩

/-- A step of the environment that leaves a TIU that is off alone. -/
theorem Resync.TiuAt.env {s s' : Tpu} {r : Resync} (h : r.TiuAt s)
    (hoff : s.TiuOff → s'.TiuOff ∧ (s'.hw.tiuDone = true → s.hw.tiuDone = true)) :
    r.TiuAt s' := by
  cases r with
  | tiuStopped => exact (hoff h).1
  | statusRead regVal => exact ⟨(hoff h.1).1, h.2⟩
  | tiuCleared =>
    obtain ⟨hs, hd⟩ := hoff h.1
    exact ⟨hs, Bool.eq_false_iff.mpr fun ht => absurd (hd ht) (Bool.eq_false_iff.mp h.2)⟩
  | _ => trivial

/-- **The environment.** A step that leaves the worker where it is keeps what holds
there when it keeps the window, takes its snapshot from the engine or not at all,
completes `tdma_done` only with a snapshot and not before the start, and leaves a TIU that
is off alone. -/
theorem RunAt.env {s s' : Tpu} {w w' : Watch} {pc : WorkerPc} (h : RunAt s w pc)
    (hg : w.Grows w')
    (hwin : pc.Running = true → ∀ d rest, Window s w d rest → Window s' w' d rest)
    (hsnap : s'.snap = s.snap ∨ s'.snap = s.hw.syncId.toNat)
    (hdone : s'.tdmaDone = s.tdmaDone ∨ s'.snap = s.hw.syncId.toNat)
    (harmed : ∀ r pmu d rest, pc = .desc (.resync r) pmu d rest → r.Stale → d.tdmaNum ≠ 0 →
      s'.tdmaDone = s.tdmaDone)
    (hoff : s.TiuOff → s'.TiuOff ∧ (s'.hw.tiuDone = true → s.hw.tiuDone = true)) :
    RunAt s' w' pc := by
  have snap_le : ∀ d rest, Window s w d rest → s.snap ≤ w.tdma → s'.snap ≤ w'.tdma := by
    intro d rest hw hs
    rcases hsnap with h | h
    · exact h.trans_le (hs.trans hg.tdma)
    · exact h.trans_le (hw.sync.trans hg.tdma)
  have armed_le : ∀ d rest, Window s w d rest →
      (d.tdmaNum ≠ 0 → 0 < s.tdmaDone → s.snap ≤ w.tdma) →
      d.tdmaNum ≠ 0 → 0 < s'.tdmaDone → s'.snap ≤ w'.tdma := by
    intro d rest hw hs hd hpos
    rcases hdone with h | h
    · exact snap_le d rest hw (hs hd (h ▸ hpos))
    · exact h.trans_le (hw.sync.trans hg.tdma)
  cases pc with
  | loopHead pmu rest => exact ⟨hg.left.trans h.1, h.2.1.grows hg, h.2.2⟩
  | desc stage pmu d rest =>
    cases stage with
    | resync r =>
      cases r with
      | syncIdReset | tdmaStopped => exact ⟨hwin rfl d rest h.1, armed_le d rest h.1 h.2⟩
      | _ =>
        obtain ⟨hl, hd, hs, h0, hr⟩ := h
        refine ⟨hg.left.trans hl, hd.grows hg, hs, ?_, hr.env hoff⟩
        intro hnum
        exact (harmed _ pmu d rest rfl rfl hnum).trans (h0 hnum)
    | resynced | tiuSet | waiting => exact ⟨hwin rfl d rest h.1, armed_le d rest h.1 h.2⟩
    | waited => exact ⟨hwin rfl d rest h.1, fun hnum => snap_le d rest h.1 (h.2 hnum)⟩
    | polling => exact ⟨hwin rfl d rest h.1, h.2.trans hg.tdma⟩
  | pmuArmed | pmuStopped | pmuWaiting | pioArmed _ | pioWaiting =>
    exact ⟨hg.left.trans h.1, h.2.grows hg⟩
  | _ => trivial

/-! ## The environment's steps -/

theorem backUp_snap {hw : TpuHw} {rs : List TpuReg} (hr : .TDMA_SYNC_STATUS ∈ rs)
    (backup : TpuReg → BitVec 32) :
    (backUp hw rs backup .TDMA_SYNC_STATUS >>> 16).toNat = hw.syncId.toNat := by
  rw [backUp, if_pos hr, syncStatus_id]

theorem backUp_enable {hw : TpuHw} {rs : List TpuReg} (hr : .BD_CTRL ∈ rs)
    (backup : TpuReg → BitVec 32) :
    (backUp hw rs backup .BD_CTRL).getLsbD 0 = hw.tiuEnabled := by
  rw [backUp, if_pos hr, bdCtrl_enable, TpuHw.tiuEnabled]

/-- A TIU that is off stays off when a backup is taken of it. -/
theorem Tpu.TiuOff.backUp {s s' : Tpu} (h : s.TiuOff) {rs : List TpuReg} (hr : .BD_CTRL ∈ rs)
    (hoff : s'.hw.tiuEnabled = s.hw.tiuEnabled)
    (hback : s'.backup = LicheeRvNano.backUp s'.hw rs s.backup) : s'.TiuOff := by
  refine ⟨hoff.trans h.off, fun _ => ?_⟩
  rw [hback, backUp_enable hr, hoff, h.off]

/-- The interrupt handler. -/
theorem RunInv.irq {s : Tpu} {w : Watch} (hI : RunInv s w) (hc : RunCond s .irq) :
    RunInv (cviTpuTdmaIrq s).1 w := by
  rw [cviTpuTdmaIrq]
  split
  · exact ⟨hI.running, hI.checks, hI.at_.env (.refl w)
      (fun _ _ _ hw => ⟨hw.left, hw.desc, hw.small, hw.sync, hw.tiu, hw.pm⟩)
      (.inl rfl) (.inl rfl) (fun _ _ _ _ _ _ _ => rfl) fun h => ⟨⟨h.off, h.pm⟩, id⟩⟩
  · rename_i huse
    refine ⟨hI.running, hI.checks, hI.at_.env (.refl w) ?_ (.inr ?_) (.inr ?_) ?_ ?_⟩
    · intro _ d rest hw
      refine ⟨hw.left, hw.desc, hw.small, hw.sync, hw.tiu, fun _ => ?_⟩
      exact (backUp_snap (by decide) s.backup).trans_le hw.sync
    · exact backUp_snap (by decide) s.backup
    · exact backUp_snap (by decide) s.backup
    · intro r pmu d rest hpc hstale hnum
      simp only [RunCond, HandlerCond, hpc] at hc
      exact absurd (hc hstale huse) hnum
    · exact fun h => ⟨h.backUp (by decide : TpuReg.BD_CTRL ∈ intSaved) rfl rfl, id⟩

/-- The suspend callback. -/
theorem RunInv.suspend {s : Tpu} {w : Watch} (hI : RunInv s w) : RunInv (cviTpuSuspend s) w := by
  have hsaved : TpuReg.TDMA_SYNC_STATUS ∈ saved := by decide
  rw [cviTpuSuspend]
  split
  · -- whether it polls or not, it has taken its snapshot
    have hwin : ∀ d rest, Window s w d rest → (backUp s.hw saved s.backup .TDMA_SYNC_STATUS >>>
        16).toNat ≤ w.tdma := by
      intro d rest hw
      exact (backUp_snap hsaved s.backup).trans_le hw.sync
    dsimp only
    split
    all_goals
      refine ⟨hI.running, hI.checks, hI.at_.env (.refl w) ?_ (.inr ?_) (.inl rfl)
        (fun _ _ _ _ _ _ _ => rfl) ?_⟩
      · intro _ d rest hw
        exact ⟨hw.left, hw.desc, hw.small, hw.sync, hw.tiu, fun _ => hwin d rest hw⟩
      · exact backUp_snap hsaved s.backup
      · exact fun h => ⟨h.backUp (by decide : TpuReg.BD_CTRL ∈ saved) rfl rfl, id⟩
  · rename_i hrun
    -- outside a run there is no descriptor to keep
    have hout : ∀ pmu d rest stage, s.pc ≠ .desc stage pmu d rest := by
      rintro pmu d rest stage hpc
      rw [hI.running, hpc] at hrun
      exact hrun rfl
    refine ⟨hI.running, hI.checks, ?_⟩
    have hat := hI.at_
    cases hpc : s.pc with
    | desc stage pmu d rest => exact absurd hpc (hout pmu d rest stage)
    | _ =>
      rw [hpc] at hat
      exact hat

/-- The end of its polling loop, under the condition. -/
theorem RunInv.suspendExpired {s : Tpu} {w : Watch} (hI : RunInv s w)
    (hc : RunCond s .suspendExpired) : RunInv (platformTpuSuspendExpired s) w := by
  refine ⟨hI.running, fun h => absurd h hc, hI.at_.env (.refl w) ?_ (.inr ?_) (.inl rfl)
    (fun _ _ _ _ _ _ _ => rfl) fun h => ⟨h.backUp (by decide : TpuReg.BD_CTRL ∈ intSaved) rfl rfl, id⟩⟩
  · intro _ d rest hw
    refine ⟨hw.left, hw.desc, hw.small, hw.sync, hw.tiu, fun _ => ?_⟩
    exact (backUp_snap (by decide) s.backup).trans_le hw.sync
  · exact backUp_snap (by decide) s.backup

/-- The resume callback restores the sync id of the same descriptor. -/
theorem RunInv.resume {s : Tpu} {w : Watch} (hI : RunInv s w) (hp : s.pm = .suspended) :
    RunInv (cviTpuResume s) w := by
  have hsusp : s.pm ≠ .awake := by rw [hp]; decide
  rw [cviTpuResume]
  split
  · refine ⟨hI.running, hI.checks, hI.at_.env (.refl w) ?_ (.inl rfl) (.inl rfl)
      (fun _ _ _ _ _ _ _ => rfl) fun h => ⟨⟨?_, fun h => absurd rfl h⟩, ?_⟩⟩
    · intro _ d rest hw
      obtain ⟨hid, hdone⟩ := writeBack_tiu s.hw s.backup
      refine ⟨hw.left, hw.desc, hw.small, ?_, ?_, fun h => absurd rfl h⟩
      · exact (writeBack_syncId s.hw s.backup).trans_le (hw.pm hsusp)
      · intro h
        exact (congrArg BitVec.toNat hid).trans_le (hw.tiu (hdone h))
    · exact (writeBack_tiuEnabled s.hw s.backup).trans (h.pm hsusp)
    · exact (writeBack_tiu s.hw s.backup).2
  · refine ⟨hI.running, hI.checks, hI.at_.env (.refl w) ?_ (.inl rfl) (.inl rfl)
      (fun _ _ _ _ _ _ _ => rfl) fun h => ⟨⟨h.off, fun h => absurd rfl h⟩, id⟩⟩
    intro _ d rest hw
    exact ⟨hw.left, hw.desc, hw.small, hw.sync, hw.tiu, fun h => absurd rfl h⟩

/-- The TDMA moves on. -/
theorem RunInv.tdma {s : Tpu} {w : Watch} (hI : RunInv s w) (id : BitVec 16) :
    RunInv { s with hw.syncId := id } (w.next (.tdma id.toNat)) := by
  refine ⟨hI.running, hI.checks, hI.at_.env ⟨rfl, rfl, le_max_left _ _, le_refl _⟩ ?_ (.inl rfl)
    (.inl rfl) (fun _ _ _ _ _ _ _ => rfl) fun h => ⟨⟨h.off, h.pm⟩, fun h => h⟩⟩
  intro _ d rest hw
  exact ⟨hw.left, hw.desc, hw.small, le_max_right _ _, hw.tiu,
    fun h => (hw.pm h).trans (le_max_left _ _)⟩

/-- The TIU moves on, when it is on. -/
theorem RunInv.tiu {s : Tpu} {w : Watch} (hI : RunInv s w) (hen : s.hw.tiuEnabled = true)
    (id : BitVec 16) (done : Bool) :
    RunInv { s with hw.tiuId := id, hw.tiuDone := done } (w.next (.tiu id.toNat done)) := by
  have hon : ¬ s.TiuOff := fun h => absurd (hen.symm.trans h.off) (by decide)
  cases done with
  | true =>
    refine ⟨hI.running, hI.checks, hI.at_.env ⟨rfl, rfl, le_refl _, le_max_left _ _⟩ ?_ (.inl rfl)
      (.inl rfl) (fun _ _ _ _ _ _ _ => rfl) fun h => absurd h hon⟩
    intro _ d rest hw
    exact ⟨hw.left, hw.desc, hw.small, hw.sync, fun _ => le_max_right _ _, hw.pm⟩
  | false =>
    refine ⟨hI.running, hI.checks, hI.at_.env (.refl w) ?_ (.inl rfl) (.inl rfl)
      (fun _ _ _ _ _ _ _ => rfl) fun h => absurd h hon⟩
    intro _ d rest hw
    exact ⟨hw.left, hw.desc, hw.small, hw.sync, (fun h => nomatch h), hw.pm⟩

/-- A step that touches nothing the run depends on. -/
theorem RunInv.other {s s' : Tpu} {w : Watch} (hI : RunInv s w) (hpc : s'.pc = s.pc)
    (hrun : s'.runningCnt = s.runningCnt) (hflag : s'.suspendHandleInt = s.suspendHandleInt)
    (hback : s'.backup = s.backup) (hdone : s'.tdmaDone = s.tdmaDone) (hpm : s'.pm = s.pm)
    (hen : s'.hw.tiuEnabled = s.hw.tiuEnabled) (hq : Quiet s.hw s'.hw) : RunInv s' w := by
  have hsnap : s'.snap = s.snap := by rw [Tpu.snap, hback, Tpu.snap]
  refine ⟨by rw [hrun, hI.running, hpc], ?_, ?_⟩
  · rw [hpc, hflag]
    exact hI.checks
  · rw [hpc]
    refine hI.at_.env (.refl w) ?_ (.inl hsnap) (.inl hdone) (fun _ _ _ _ _ _ _ => hdone) ?_
    · intro _ d rest hw
      refine ⟨hw.left, hw.desc, hw.small, hq.syncId.trans hw.sync, ?_, ?_⟩
      · intro h
        exact hq.tiuId.trans (hw.tiu (hq.tiuDone h))
      · rw [hpm, hsnap]
        exact hw.pm
    · intro h
      refine ⟨⟨hen.trans h.off, ?_⟩, hq.tiuDone⟩
      rw [hpm, hback]
      exact h.pm

/-! ## The worker's steps -/

/-- What a step of the worker leaves, at the place it goes to. -/
structure WorkRun (s' : Tpu) (log ev : List TpuEvent) : Prop where
  checks : s'.pc.ChecksLeft → s'.suspendHandleInt = false
  at_ : RunAt s' (watch (log ++ ev)) s'.pc
  judged : Judged StartOk log ev

/-- A step that only touches registers shows the log nothing. -/
theorem watch_touch (log : List TpuEvent) (en : Int) : watch (log ++ [.touch en]) = watch log := by
  rw [watch_append]
  rfl

/-- The platform function returns: an error, or zero with the work done. -/
theorem WorkRun.ret {s : Tpu} {log : List TpuEvent} {ret : Int}
    (h : ret = 0 → (watch log).left = [] ∧ (watch log).Done) :
    WorkRun (s.ret ret).1 log (s.ret ret).2 :=
  ⟨fun h => absurd h id, trivial, h, trivial⟩

/-- A wait: over with the continuation, given up with an error. -/
theorem WorkRun.wait {s s' : Tpu} {log ev : List TpuEvent} {o : Outcome}
    {k : Tpu → Tpu × List TpuEvent}
    (hk : 0 < s.tdmaDone → WorkRun (k { s with tdmaDone := s.tdmaDone - 1 }).1 log
      (k { s with tdmaDone := s.tdmaDone - 1 }).2)
    (h : s.waitTdmaDone k o = some (s', ev)) : WorkRun s' log ev := by
  rcases s.waitTdmaDone_cases h with ⟨hpos, hr⟩ | ⟨ret, hneg, hr, -⟩
  · have := hk hpos
    rwa [← hr] at this
  · obtain ⟨rfl, rfl⟩ := Prod.mk.inj hr
    apply WorkRun.ret
    rintro rfl
    exact absurd hneg (by decide)

theorem CpuSyncDesc.Small.tdmaNum {d : CpuSyncDesc} (h : d.Small) :
    d.tdmaNum.toNat = d.num_gdma.toNat := by
  rw [d.toNat_num.2, Nat.mod_eq_of_lt h.1]

theorem CpuSyncDesc.Small.bdNum {d : CpuSyncDesc} (h : d.Small) :
    d.bdNum.toNat = d.num_bd.toNat := by
  rw [d.toNat_num.1, Nat.mod_eq_of_lt h.2]

/-- Register writes of the worker keep the window. -/
theorem Window.quiet {s s' : Tpu} {w : Watch} {d : CpuSyncDesc} {rest : List CpuSyncDesc}
    (hw : Window s w d rest) (hq : Quiet s.hw s'.hw) (hback : s'.backup = s.backup)
    (hpm : s'.pm = s.pm) : Window s' w d rest := by
  refine ⟨hw.left, hw.desc, hw.small, hq.syncId.trans hw.sync, ?_, ?_⟩
  · intro h
    exact hq.tiuId.trans (hw.tiu (hq.tiuDone h))
  · rw [hpm, Tpu.snap, hback]
    exact hw.pm

/-- A descriptor whose commands have completed. -/
theorem Window.done {s : Tpu} {w : Watch} {d : CpuSyncDesc} {rest : List CpuSyncDesc}
    (hw : Window s w d rest) (htdma : d.num_gdma.toNat ≤ w.tdma) (htiu : d.num_bd.toNat ≤ w.tiu) :
    w.Done := by
  intro d' hd
  rw [hw.desc] at hd
  obtain rfl := Option.some.inj hd
  exact ⟨htdma, htiu⟩

/-- An access of `resync_cmd_id`: the TIU is stopped and its done flag cleared before the
sync id is reset, which starts the descriptor. -/
theorem RunAt.access {s : Tpu} {log : List TpuEvent} {r : Resync} {pmu : Bool} {d : CpuSyncDesc}
    {rest : List CpuSyncDesc} (hat : RunAt s (watch log) (.desc (.resync r) pmu d rest))
    (hchecks : s.suspendHandleInt = false) (hc : r.Stale → s.pm = .awake) :
    WorkRun { s with hw := (r.access s.hw).1,
                     pc := .desc ((r.access s.hw).2.elim .resynced .resync) pmu d rest } log
      (if r = .tiuCleared then [.start d, .touch s.en] else [.touch s.en]) := by
  have hawake : r.Stale → s.pm ≠ .awake → (s.backup .BD_CTRL).getLsbD 0 = false :=
    fun hs hp => absurd (hc hs) hp
  cases r with
  | entered | tiuIdRead regVal | tiuIdHeld regVal | tiuIdReset =>
    obtain ⟨hleft, hdone, hsmall, hzero, -⟩ := hat
    refine ⟨fun _ => hchecks, ?_, trivial, trivial⟩
    rw [if_neg (by simp), watch_touch]
    exact ⟨hleft, hdone, hsmall, hzero, trivial⟩
  | ctrlRead regVal =>
    obtain ⟨hleft, hdone, hsmall, hzero, -⟩ := hat
    refine ⟨fun _ => hchecks, ?_, trivial, trivial⟩
    rw [if_neg (by simp), watch_touch]
    refine ⟨hleft, hdone, hsmall, hzero, ?_, hawake rfl⟩
    rw [Resync.access, TpuHw.tiuEnabled, reg_rawWrite32_self]
    simp
  | tiuStopped =>
    obtain ⟨hleft, hdone, hsmall, hzero, hoff⟩ := hat
    refine ⟨fun _ => hchecks, ?_, trivial, trivial⟩
    rw [if_neg (by simp), watch_touch]
    exact ⟨hleft, hdone, hsmall, hzero, ⟨hoff.off, hawake rfl⟩, (bdCtrl_enable s.hw).trans hoff.off⟩
  | statusRead regVal =>
    obtain ⟨hleft, hdone, hsmall, hzero, hoff, hval⟩ := hat
    refine ⟨fun _ => hchecks, ?_, trivial, trivial⟩
    rw [if_neg (by simp), watch_touch]
    refine ⟨hleft, hdone, hsmall, hzero, ⟨?_, hawake rfl⟩, ?_⟩
    · rw [Resync.access, TpuHw.tiuEnabled, reg_rawWrite32_self]
      rw [BitVec.getLsbD_or, hval]
      decide
    · simp [Resync.access, rawWrite32]
  | tiuCleared =>
    obtain ⟨hleft, hdone, hsmall, hzero, -, htiu⟩ := hat
    have hw : watch (log ++ [.start d, .touch s.en]) = ⟨rest, some d, 0, 0⟩ := by
      rw [watch_append]
      change Watch.mk (watch log).left.tail (some d) 0 0 = _
      rw [hleft]
      rfl
    rw [if_pos rfl]
    refine ⟨fun _ => hchecks, ?_, ⟨?_, hdone⟩, trivial, trivial⟩
    · rw [hw]
      refine ⟨⟨rfl, rfl, hsmall, ?_, ?_, fun hp => absurd (hc rfl) hp⟩, ?_⟩
      · exact (congrArg BitVec.toNat (resetSyncId s.hw)).le
      · exact fun ht => absurd (htiu.symm.trans ht) (by decide)
      · exact fun hnum hpos => absurd (hzero hnum) (Nat.pos_iff_ne_zero.mp hpos)
    · rw [hleft]
      rfl
  | syncIdReset =>
    obtain ⟨hwin, hsnap⟩ := hat
    refine ⟨fun _ => hchecks, ?_, trivial, trivial⟩
    rw [if_neg (by simp), watch_touch]
    have hq : Quiet s.hw (rawWrite32 s.hw .TDMA_CTRL 0) := rawWrite32_quiet _ (by simp) _
    exact ⟨hwin.quiet hq rfl rfl, hsnap⟩
  | tdmaStopped =>
    obtain ⟨hwin, hsnap⟩ := hat
    refine ⟨fun _ => hchecks, ?_, trivial, trivial⟩
    rw [if_neg (by simp), watch_touch]
    have hq : Quiet s.hw (rawWrite32 s.hw .TDMA_INT_MASK 0xFFFF0000) :=
      rawWrite32_quiet _ (by simp) _
    exact ⟨hwin.quiet hq rfl rfl, hsnap⟩

/-- The stages of a descriptor. -/
theorem RunInv.descStep {s s' : Tpu} {log ev : List TpuEvent} {o : Outcome} {stage : DescStage}
    {pmu : Bool} {d : CpuSyncDesc} {rest : List CpuSyncDesc} (hI : RunInv s (watch log))
    (hpc : s.pc = .desc stage pmu d rest) (hc : RunCond s (.work o))
    (h : descStep s pmu d rest o stage = some (s', ev)) : WorkRun s' log ev := by
  have hat := hI.at_
  have hchecks := hI.checks
  rw [hpc] at hat hchecks
  cases stage with
  | resync r =>
    simp only [LicheeRvNano.descStep] at h
    obtain ⟨rfl, rfl⟩ := Prod.mk.inj (Option.some.inj h)
    simp only [RunCond, hpc] at hc
    exact RunAt.access hat (hchecks trivial) hc
  | resynced =>
    obtain ⟨hwin, hsnap⟩ := hat
    simp only [LicheeRvNano.descStep] at h
    split at h
    · obtain ⟨rfl, rfl⟩ := Prod.mk.inj (Option.some.inj h)
      refine ⟨fun _ => hchecks trivial, ?_, trivial, trivial⟩
      rw [watch_touch]
      exact ⟨hwin.quiet (setTiuDescriptor_quiet _ _) rfl rfl, hsnap⟩
    · obtain ⟨rfl, rfl⟩ := Prod.mk.inj (Option.some.inj h)
      refine ⟨fun _ => hchecks trivial, ?_, trivial⟩
      rw [List.append_nil]
      exact ⟨hwin.quiet (.refl _) rfl rfl, hsnap⟩
  | tiuSet =>
    obtain ⟨hwin, hsnap⟩ := hat
    simp only [LicheeRvNano.descStep] at h
    split at h
    · obtain ⟨rfl, rfl⟩ := Prod.mk.inj (Option.some.inj h)
      refine ⟨fun _ => hchecks trivial, ?_, trivial, trivial⟩
      rw [watch_touch]
      exact ⟨hwin.quiet (setTdmaDescriptorFire_quiet _ _ _) rfl rfl, hsnap⟩
    · rename_i hnum
      obtain ⟨rfl, rfl⟩ := Prod.mk.inj (Option.some.inj h)
      refine ⟨fun _ => hchecks trivial, ?_, trivial⟩
      rw [List.append_nil]
      refine ⟨hwin.quiet (.refl _) rfl rfl, fun hne => absurd ?_ hnum⟩
      bv_omega
  | waiting =>
    obtain ⟨hwin, hsnap⟩ := hat
    simp only [LicheeRvNano.descStep] at h
    refine WorkRun.wait (fun hpos => ?_) h
    refine ⟨fun _ => hchecks trivial, ?_, trivial⟩
    rw [List.append_nil]
    exact ⟨hwin.quiet (.refl _) rfl rfl, fun hnum => hsnap hnum hpos⟩
  | waited =>
    obtain ⟨hwin, hsnap⟩ := hat
    have hsmall := hwin.small d (List.mem_cons_self ..)
    have hflag := hchecks trivial
    simp only [LicheeRvNano.descStep] at h
    rw [if_neg (by rw [hflag]; decide)] at h
    split at h
    · obtain ⟨rfl, rfl⟩ := Prod.mk.inj (Option.some.inj h)
      apply WorkRun.ret
      rintro ⟨⟩
    · rename_i hshort
      -- the snapshot has the full count, so the engine has reached it
      have htdma : d.num_gdma.toNat ≤ (watch log).tdma := by
        rw [← hsmall.tdmaNum]
        by_cases hnum : d.tdmaNum = 0
        · simp [hnum]
        · exact (tdmaNum_le_of_not_short (by simpa using hshort)).trans (hsnap hnum)
      split at h
      · obtain ⟨rfl, rfl⟩ := Prod.mk.inj (Option.some.inj h)
        refine ⟨fun _ => hflag, ?_, trivial⟩
        rw [List.append_nil]
        exact ⟨hwin.quiet (.refl _) rfl rfl, htdma⟩
      · rename_i hbd
        obtain ⟨rfl, rfl⟩ := Prod.mk.inj (Option.some.inj h)
        refine ⟨fun _ => hflag, ?_, trivial⟩
        rw [List.append_nil]
        have hbd0 : d.num_bd.toNat = 0 := by
          rw [← hsmall.bdNum]
          bv_omega
        exact ⟨hwin.left, hwin.done htdma (by omega),
          fun d' hd' => hwin.small d' (List.mem_cons_of_mem _ hd')⟩
  | polling =>
    obtain ⟨hwin, htdma⟩ := hat
    have hsmall := hwin.small d (List.mem_cons_self ..)
    simp only [LicheeRvNano.descStep] at h
    split at h
    · rename_i hfin
      obtain ⟨rfl, rfl⟩ := Prod.mk.inj (Option.some.inj h)
      obtain ⟨hid, hdone⟩ := bdFinished_iff.mp hfin
      refine ⟨hchecks, ?_, trivial, trivial⟩
      rw [watch_touch]
      refine ⟨hwin.left, hwin.done htdma ?_,
        fun d' hd' => hwin.small d' (List.mem_cons_of_mem _ hd')⟩
      rw [← hsmall.bdNum]
      exact hid.trans (hwin.tiu hdone)
    · split at h
      · obtain ⟨rfl, rfl⟩ := Prod.mk.inj (Option.some.inj h)
        refine ⟨fun h => absurd h id, trivial, trivial, ?_, trivial⟩
        rintro ⟨⟩
      · obtain ⟨rfl, rfl⟩ := Prod.mk.inj (Option.some.inj h)
        refine ⟨hI.checks, ?_, trivial, trivial⟩
        rw [watch_touch]
        exact hI.at_

/-- **The worker's step** under the condition. -/
theorem RunInv.work {s s' : Tpu} {log ev : List TpuEvent} {o : Outcome}
    (hI : RunInv s (watch log)) (hc : RunCond s (.work o)) (h : workStep s o = some (s', ev)) :
    WorkRun s' log ev := by
  have hat := hI.at_
  cases hpc : s.pc with
  | desc stage pmu d rest =>
    simp only [workStep, hpc] at h
    exact hI.descStep hpc hc h
  | idle =>
    simp only [workStep, hpc] at h
    split at h
    · cases h
    · obtain ⟨rfl, rfl⟩ := Prod.mk.inj (Option.some.inj h)
      exact ⟨fun h => absurd h id, trivial, trivial⟩
  | taken t | marked t | ended ret =>
    simp only [workStep, hpc] at h
    obtain ⟨rfl, rfl⟩ := Prod.mk.inj (Option.some.inj h)
    exact ⟨fun h => absurd h id, trivial, trivial⟩
  | returned ret =>
    simp only [workStep, hpc] at h
    split at h
    all_goals
      obtain ⟨rfl, rfl⟩ := Prod.mk.inj (Option.some.inj h)
      exact ⟨fun h => absurd h id, trivial, trivial⟩
  | inited t =>
    cases t with
    | desNormal b =>
      simp only [workStep, hpc, platformRunDmabuf] at h
      split at h
      · obtain ⟨rfl, rfl⟩ := Prod.mk.inj (Option.some.inj h)
        refine ⟨fun h => absurd h id, trivial, trivial, ?_, trivial⟩
        rintro ⟨⟩
      · rename_i hmagic
        obtain ⟨rfl, rfl⟩ := Prod.mk.inj (Option.some.inj h)
        refine ⟨fun _ => rfl, ?_, trivial, trivial, trivial⟩
        rw [watch_append]
        simp only [RunCond, WorkCond, hpc] at hc
        exact ⟨rfl, fun d hd => absurd hd.symm (Option.some_ne_none d), hc (not_not.mp hmagic)⟩
    | desSec =>
      simp only [workStep, hpc] at h
      obtain ⟨rfl, rfl⟩ := Prod.mk.inj (Option.some.inj h)
      refine ⟨fun h => absurd h id, trivial, trivial, ?_, trivial⟩
      intro _
      rw [watch_append]
      exact ⟨rfl, fun d hd => absurd hd.symm (Option.some_ne_none d)⟩
    | pioTdma pioArray =>
      simp only [workStep, hpc] at h
      obtain ⟨rfl, rfl⟩ := Prod.mk.inj (Option.some.inj h)
      refine ⟨fun h => absurd h id, ?_, trivial, trivial⟩
      rw [watch_append]
      exact ⟨rfl, fun d hd => absurd hd.symm (Option.some_ne_none d)⟩
  | loopHead pmu rest =>
    rw [hpc] at hat
    obtain ⟨hleft, hdone, hsmall⟩ := hat
    rcases rest with _ | ⟨d, rest⟩
    · cases pmu with
      | true =>
        simp only [workStep, hpc] at h
        obtain ⟨rfl, rfl⟩ := Prod.mk.inj (Option.some.inj h)
        refine ⟨fun h => absurd h id, ?_, trivial⟩
        rw [List.append_nil]
        exact ⟨hleft, hdone⟩
      | false =>
        simp only [workStep, hpc] at h
        obtain ⟨rfl, rfl⟩ := Prod.mk.inj (Option.some.inj h)
        exact WorkRun.ret fun _ => ⟨hleft, hdone⟩
    · simp only [workStep, hpc] at h
      obtain ⟨rfl, rfl⟩ := Prod.mk.inj (Option.some.inj h)
      have hflag := hI.checks (by rw [hpc]; exact List.cons_ne_nil d rest)
      refine ⟨fun _ => hflag, ?_, trivial⟩
      rw [List.append_nil]
      exact ⟨hleft, hdone, hsmall, fun _ => rfl, trivial⟩
  | pmuArmed =>
    rw [hpc] at hat
    simp only [workStep, hpc] at h
    obtain ⟨rfl, rfl⟩ := Prod.mk.inj (Option.some.inj h)
    refine ⟨fun h => absurd h id, ?_, trivial, trivial, trivial⟩
    rw [watch_append]
    exact hat
  | pmuStopped =>
    rw [hpc] at hat
    simp only [workStep, hpc] at h
    split at h
    · obtain ⟨rfl, rfl⟩ := Prod.mk.inj (Option.some.inj h)
      exact WorkRun.ret fun _ => hat
    · obtain ⟨rfl, rfl⟩ := Prod.mk.inj (Option.some.inj h)
      refine ⟨fun h => absurd h id, ?_, trivial⟩
      rw [List.append_nil]
      exact hat
  | pioArmed pioArray =>
    rw [hpc] at hat
    simp only [workStep, hpc] at h
    obtain ⟨rfl, rfl⟩ := Prod.mk.inj (Option.some.inj h)
    refine ⟨fun h => absurd h id, ?_, trivial, trivial⟩
    rw [watch_touch]
    exact hat
  | pmuWaiting | pioWaiting =>
    rw [hpc] at hat
    simp only [workStep, hpc] at h
    exact WorkRun.wait (fun _ => WorkRun.ret fun _ => hat) h

/-! ## Every run -/

/-- **One step** under the condition. -/
theorem RunInv.step {s s' : Tpu} {log ev : List TpuEvent} {a : TpuAction}
    (hI : RunInv s (watch log)) (hc : RunCond s a) (h : tpuStep s a = some (s', ev)) :
    RunInv s' (watch (log ++ ev)) ∧ Judged StartOk log ev := by
  cases a with
  | work o =>
    have hw := hI.work hc h
    exact ⟨⟨(workStep_clock h).1.running hI.running, hw.checks, hw.at_⟩, hw.judged⟩
  | tdma id =>
    simp only [tpuStep, Option.ite_none_right_eq_some, Option.some.injEq, Prod.mk.injEq] at h
    obtain ⟨-, rfl, rfl⟩ := h
    rw [watch_append]
    exact ⟨hI.tdma id, trivial, trivial⟩
  | tiu id done =>
    simp only [tpuStep, Option.ite_none_right_eq_some, Option.some.injEq, Prod.mk.injEq] at h
    obtain ⟨hen, rfl, rfl⟩ := h
    rw [watch_append]
    exact ⟨hI.tiu hen id done, trivial, trivial⟩
  | raise status =>
    simp only [tpuStep, Option.some.injEq, Prod.mk.injEq] at h
    obtain ⟨rfl, rfl⟩ := h
    rw [watch_append]
    exact ⟨hI.other rfl rfl rfl rfl rfl rfl rfl ⟨le_refl _, le_refl _, id⟩, trivial, trivial⟩
  | irq =>
    simp only [tpuStep, Option.ite_none_right_eq_some, Option.some.injEq] at h
    obtain ⟨-, h⟩ := h
    have hI' := hI.irq hc
    have hev := cviTpuTdmaIrq_event s
    rw [h] at hI' hev
    obtain rfl := hev
    rw [watch_append]
    exact ⟨hI', trivial, trivial⟩
  | suspend =>
    simp only [tpuStep, Option.ite_none_right_eq_some, Option.some.injEq, Prod.mk.injEq] at h
    obtain ⟨-, rfl, rfl⟩ := h
    rw [List.append_nil]
    exact ⟨hI.suspend, trivial⟩
  | suspendExpired =>
    simp only [tpuStep, Option.ite_none_right_eq_some, Option.some.injEq, Prod.mk.injEq] at h
    obtain ⟨-, rfl, rfl⟩ := h
    rw [List.append_nil]
    exact ⟨hI.suspendExpired hc, trivial⟩
  | resume =>
    simp only [tpuStep, Option.ite_none_right_eq_some, Option.some.injEq, Prod.mk.injEq] at h
    obtain ⟨hp, rfl, rfl⟩ := h
    rw [List.append_nil]
    exact ⟨hI.resume hp, trivial⟩
  | openFile pid =>
    simp only [tpuStep, Option.some.injEq, Prod.mk.injEq] at h
    obtain ⟨rfl, rfl⟩ := h
    rw [List.append_nil]
    exact ⟨hI.other rfl rfl rfl rfl rfl rfl rfl (.refl _), trivial⟩
  | closeFile pid | submit pid t =>
    simp only [tpuStep, Option.ite_none_right_eq_some, Option.some.injEq, Prod.mk.injEq] at h
    obtain ⟨-, rfl, rfl⟩ := h
    rw [List.append_nil]
    exact ⟨hI.other rfl rfl rfl rfl rfl rfl rfl (.refl _), trivial⟩

theorem Tpu.AtProbe.runInv {s : Tpu} (h : s.AtProbe) : RunInv s (watch []) := by
  refine ⟨?_, ?_, ?_⟩
  · rw [h.runningCnt, h.pc]
    rfl
  · rw [h.pc]
    exact fun hc => absurd hc id
  · rw [h.pc]
    trivial

/-- **A run reports success only when its work is done.** In every run of the device
whose steps meet the condition, each descriptor of a buffer is started in its turn
after all commands of the one before have completed, and zero is returned after all
commands of the last one have. -/
theorem run_reports_done {s₀ s : Tpu} {as : List TpuAction} {log : List TpuEvent}
    (h₀ : s₀.AtProbe) (hm : tpuDevice.Meets RunCond s₀ as)
    (he : tpuDevice.exec s₀ as = some (s, log)) : Judged StartOk [] log := by
  have hinv : RunInv s (watch log) ∧ Judged StartOk [] log := by
    refine Machine.exec_invariant_start
      (I := fun s log => RunInv s (watch log) ∧ Judged StartOk [] log)
      ⟨h₀.runInv, trivial⟩ ?_ hm he
    rintro s s' log ev a ⟨hI, hlog⟩ hc hs
    obtain ⟨hI', hev⟩ := hI.step hc hs
    refine ⟨hI', Judged.append_iff.mpr ⟨hlog, ?_⟩⟩
    rwa [List.nil_append]
  exact hinv.2

/-- A buffer of two descriptors: a TDMA command, then a TIU command. -/
def twoDescs : CmdBuf where
  dmabuf_magic_m := TPU_DMABUF_HEADER_M
  pmubuf_size := 0
  pmubuf_offset := 0
  arraybase_L := fun _ => 0
  dmabuf_p := 0
  descs := [⟨0, 1, 0, 0⟩, ⟨1, 0, 0, 0⟩]

/-- The buffer is queued, and the worker waits for the TDMA of its first descriptor. -/
def twoDescsStart : List TpuAction :=
  [.openFile 1, .submit 1 (.desNormal twoDescs)] ++ List.replicate 17 (.work .go)

/-- The whole run. In the `resync_cmd_id` of the second descriptor, which has no TDMA
commands, an interrupt is handled and the system suspended and resumed. -/
def twoDescsRun : List TpuAction :=
  twoDescsStart ++ [.tdma 1, .raise TDMA_INT_EOD, .irq, .suspend, .resume] ++
    List.replicate 7 (.work .go) ++ [.raise TDMA_INT_EOD, .irq, .suspend, .resume] ++
    List.replicate 9 (.work .go) ++ [.tiu 1 true] ++ List.replicate 4 (.work .go)

theorem run_reports_done_twoDescsRun :
    ∃ s log, tpuDevice.exec probedTpu twoDescsRun = some (s, log) ∧
      TpuEvent.returned 0 ∈ log ∧ Judged StartOk [] log :=
  ⟨_, _, rfl, by decide,
    @run_reports_done _ _ twoDescsRun _ probedTpu_atProbe (by decide) rfl⟩

/-- The system suspended while the first descriptor runs: the flag that its callback
sets turns off the check of the second one, whose command never completes. -/
def suspendedRun : List TpuAction :=
  twoDescsStart ++ [.suspend, .tdma 1, .raise TDMA_INT_EOD, .irq, .suspendExpired, .resume] ++
    List.replicate 17 (.work .go)

theorem not_run_reports_done :
    ¬ ∀ (s₀ s : Tpu) (as : List TpuAction) (log : List TpuEvent), s₀.AtProbe →
      tpuDevice.exec s₀ as = some (s, log) → Judged StartOk [] log := by
  intro h
  have hj := h probedTpu _ suspendedRun _ probedTpu_atProbe rfl
  exact absurd hj (by decide)

end LicheeRvNano
