import LicheeRvNano.TpuPlatform

/-!
# TPU clocks

The enable count of the TPU's clocks over whole runs: it is one from
`platform_tpu_init` to `platform_tpu_deinit` and zero outside, but for the time the
system is suspended in between. Three things break that. A task that returns
`-ETIMEDOUT` is followed by `platform_tpu_reset` and not by `platform_tpu_deinit`. The
flag `running_cnt`, which decides whether the callbacks move the count, is set before
the clocks are on and cleared after they are off. And nothing stops the worker while
the callbacks run.
-/

namespace LicheeRvNano

/-- The worker touches registers only at the enable count one. -/
def TouchOk : TpuEvent → Prop
  | .touch en => en = 1
  | _ => True

/-- The condition: the worker does not end a task that timed out; while the suspend
callback polls it does not end a task, and from there to the resume callback it does
no more than take a node off the list; and the suspend callback does not come between
the two places where `running_cnt` is one and the clocks are off. -/
def ClockCond (s : Tpu) : TpuAction → Prop
  | .work _ =>
    s.pc ≠ .returned (-ETIMEDOUT) ∧ (s.pm = .polling → ∀ ret, s.pc ≠ .returned ret) ∧
      (s.pm = .suspended → s.pc = .idle)
  | .suspend => (∀ t, s.pc ≠ .marked t) ∧ ∀ ret, s.pc ≠ .ended ret
  | _ => True

/-- While the system is awake only a timed out task is left to exclude. -/
theorem ClockCond.of_awake {s : Tpu} {o : Outcome} (hp : s.pm = .awake)
    (hpc : s.pc ≠ .returned (-ETIMEDOUT)) : ClockCond s (.work o) := by
  refine ⟨hpc, ?_, ?_⟩
  · rw [hp]
    rintro ⟨⟩
  · rw [hp]
    rintro ⟨⟩

/-- Whether `running_cnt` is one. -/
def WorkerPc.Running : WorkerPc → Bool
  | idle | taken _ => false
  | _ => true

theorem WorkerPc.running_of_inTask {pc : WorkerPc} (h : pc.InTask) : pc.Running = true := by
  cases pc <;> first | rfl | cases h

theorem WorkerPc.not_inTask_of_not_running {pc : WorkerPc} (h : pc.Running = false) :
    pc.InTask = false := by
  cases pc <;> first | rfl | cases h

/-- What the worker's step does to the clocks and the flag. -/
inductive WorkClock (s s' : Tpu) : Prop where
  | take (t : TpuTask) (before : s.pc = .idle) (after : s'.pc = .taken t)
      (en : s'.en = s.en) (running : s'.runningCnt = s.runningCnt)
  | mark (t : TpuTask) (before : s.pc = .taken t) (after : s'.pc = .marked t)
      (en : s'.en = s.en) (running : s'.runningCnt = true)
  | init (t : TpuTask) (before : s.pc = .marked t) (after : s'.pc = .inited t)
      (en : s'.en = s.en + 1) (running : s'.runningCnt = s.runningCnt)
  | inside (before : s.pc.InTask) (after : s'.pc.InTask)
      (en : s'.en = s.en) (running : s'.runningCnt = s.runningCnt)
  | finish (ret : Int) (before : s.pc = .returned ret) (after : s'.pc = .ended ret)
      (en : s'.en = if ret = -ETIMEDOUT then s.en else s.en - 1)
      (running : s'.runningCnt = s.runningCnt)
  | unmark (ret : Int) (before : s.pc = .ended ret) (after : s'.pc = .idle)
      (en : s'.en = s.en) (running : s'.runningCnt = false)

/-- The touches among the events of a step are inside a task, at the count before the
step. -/
def Touches (s : Tpu) (ev : List TpuEvent) : Prop :=
  ∀ en, TpuEvent.touch en ∈ ev → en = s.en ∧ s.pc.InTask

/-- `running_cnt` follows the worker. -/
theorem WorkClock.running {s s' : Tpu} (h : WorkClock s s') (hr : s.runningCnt = s.pc.Running) :
    s'.runningCnt = s'.pc.Running := by
  cases h with
  | take t before after en running =>
    rw [running, hr, before, after]
    rfl
  | mark t before after en running | unmark t before after en running =>
    rw [running, after]
    rfl
  | init t before after en running =>
    rw [running, hr, before, after]
    rfl
  | inside before after en running =>
    rw [running, hr, WorkerPc.running_of_inTask before, WorkerPc.running_of_inTask after]
  | finish ret before after en running =>
    rw [running, hr, before, after]
    rfl

/-- What the worker does not change. -/
structure WorkKeeps (s s' : Tpu) : Prop where
  pm : s'.pm = s.pm
  files : s'.files = s.files
  useCount : s'.useCount = s.useCount

/-- A step inside a task. -/
structure Inside (s s' : Tpu) (ev : List TpuEvent) : Prop where
  after : s'.pc.InTask
  en : s'.en = s.en
  running : s'.runningCnt = s.runningCnt
  keeps : WorkKeeps s s'
  touches : Touches s ev

theorem Inside.clock {s s' : Tpu} {ev : List TpuEvent} (h : Inside s s' ev) (hs : s.pc.InTask) :
    WorkClock s s' ∧ WorkKeeps s s' ∧ Touches s ev :=
  ⟨.inside hs h.after h.en h.running, h.keeps, h.touches⟩

theorem waitTdmaDone_inside {s s' : Tpu} {ev : List TpuEvent} {o : Outcome}
    {k : Tpu → Tpu × List TpuEvent}
    (hk : ∀ n, Inside s (k { s with tdmaDone := n }).1 (k { s with tdmaDone := n }).2)
    (h : s.waitTdmaDone k o = some (s', ev)) : Inside s s' ev := by
  rcases s.waitTdmaDone_cases h with ⟨-, hr⟩ | ⟨ret, -, hr, -⟩
  · have := hk (s.tdmaDone - 1)
    rwa [← hr] at this
  · obtain ⟨rfl, rfl⟩ := Prod.mk.inj hr
    exact ⟨rfl, rfl, rfl, ⟨rfl, rfl, rfl⟩, by simp [Touches]⟩

theorem descStep_inside {s s' : Tpu} {ev : List TpuEvent} {o : Outcome} {stage : DescStage}
    {pmu : Bool} {d : CpuSyncDesc} {rest : List CpuSyncDesc} (hs : s.pc.InTask)
    (h : descStep s pmu d rest o stage = some (s', ev)) : Inside s s' ev := by
  cases stage with
  | waiting =>
    simp only [descStep] at h
    refine waitTdmaDone_inside (fun n => ?_) h
    exact ⟨rfl, rfl, rfl, ⟨rfl, rfl, rfl⟩, by simp [Touches, hs]⟩
  | resync r =>
    simp only [descStep] at h
    obtain ⟨rfl, rfl⟩ := Prod.mk.inj (Option.some.inj h)
    refine ⟨rfl, rfl, rfl, ⟨rfl, rfl, rfl⟩, fun en he => ?_⟩
    split at he <;> simpa [hs] using he
  | resynced | tiuSet | waited | polling =>
    simp only [descStep, Tpu.ret] at h
    repeat' split at h
    all_goals
      obtain ⟨rfl, rfl⟩ := Prod.mk.inj (Option.some.inj h)
      refine ⟨?_, rfl, rfl, ⟨rfl, rfl, rfl⟩, ?_⟩
      · first | rfl | exact hs
      · simp [Touches, hs]

/-- **The worker's step**, as far as the clocks are concerned. -/
theorem workStep_clock {s s' : Tpu} {ev : List TpuEvent} {o : Outcome}
    (h : workStep s o = some (s', ev)) :
    WorkClock s s' ∧ WorkKeeps s s' ∧ Touches s ev := by
  cases hpc : s.pc with
  | idle =>
    simp only [workStep, hpc] at h
    split at h
    · cases h
    · obtain ⟨rfl, rfl⟩ := Prod.mk.inj (Option.some.inj h)
      exact ⟨.take _ hpc rfl rfl rfl, ⟨rfl, rfl, rfl⟩, by simp [Touches]⟩
  | taken t =>
    simp only [workStep, hpc] at h
    obtain ⟨rfl, rfl⟩ := Prod.mk.inj (Option.some.inj h)
    exact ⟨.mark t hpc rfl rfl rfl, ⟨rfl, rfl, rfl⟩, by simp [Touches]⟩
  | marked t =>
    simp only [workStep, hpc] at h
    obtain ⟨rfl, rfl⟩ := Prod.mk.inj (Option.some.inj h)
    exact ⟨.init t hpc rfl rfl rfl, ⟨rfl, rfl, rfl⟩, by simp [Touches]⟩
  | returned ret =>
    simp only [workStep, hpc] at h
    by_cases hret : ret = -ETIMEDOUT
    · rw [if_pos hret] at h
      obtain ⟨rfl, rfl⟩ := Prod.mk.inj (Option.some.inj h)
      exact ⟨.finish ret hpc rfl (by rw [if_pos hret]) rfl, ⟨rfl, rfl, rfl⟩, by simp [Touches]⟩
    · rw [if_neg hret] at h
      obtain ⟨rfl, rfl⟩ := Prod.mk.inj (Option.some.inj h)
      exact ⟨.finish ret hpc rfl (by rw [if_neg hret]) rfl, ⟨rfl, rfl, rfl⟩, by simp [Touches]⟩
  | ended ret =>
    simp only [workStep, hpc] at h
    obtain ⟨rfl, rfl⟩ := Prod.mk.inj (Option.some.inj h)
    exact ⟨.unmark ret hpc rfl rfl rfl, ⟨rfl, rfl, rfl⟩, by simp [Touches]⟩
  | desc stage pmu d rest =>
    simp only [workStep, hpc] at h
    have hs : s.pc.InTask := by rw [hpc]; rfl
    exact (descStep_inside hs h).clock hs
  | pmuWaiting | pioWaiting =>
    simp only [workStep, hpc] at h
    have hs : s.pc.InTask := by rw [hpc]; rfl
    apply (waitTdmaDone_inside _ h).clock hs
    exact fun n => ⟨rfl, rfl, rfl, ⟨rfl, rfl, rfl⟩, by simp [Touches, Tpu.ret]⟩
  | inited t =>
    have hs : s.pc.InTask := by rw [hpc]; rfl
    cases t with
    | desNormal b =>
      simp only [workStep, hpc, platformRunDmabuf] at h
      split at h
      all_goals
        obtain ⟨rfl, rfl⟩ := Prod.mk.inj (Option.some.inj h)
        exact ⟨.inside hs rfl rfl rfl, ⟨rfl, rfl, rfl⟩, by simp [Touches, hs]⟩
    | desSec | pioTdma pioArray =>
      simp only [workStep, hpc] at h
      obtain ⟨rfl, rfl⟩ := Prod.mk.inj (Option.some.inj h)
      exact ⟨.inside hs rfl rfl rfl, ⟨rfl, rfl, rfl⟩, by simp [Touches, hs]⟩
  | loopHead pmu rest =>
    have hs : s.pc.InTask := by rw [hpc]; rfl
    rcases rest with _ | ⟨d, rest⟩
    · cases pmu <;>
      · simp only [workStep, hpc, Tpu.ret] at h
        obtain ⟨rfl, rfl⟩ := Prod.mk.inj (Option.some.inj h)
        exact ⟨.inside hs rfl rfl rfl, ⟨rfl, rfl, rfl⟩, by simp [Touches, hs]⟩
    · simp only [workStep, hpc] at h
      obtain ⟨rfl, rfl⟩ := Prod.mk.inj (Option.some.inj h)
      exact ⟨.inside hs rfl rfl rfl, ⟨rfl, rfl, rfl⟩, by simp [Touches, hs]⟩
  | pmuArmed | pioArmed pioArray =>
    have hs : s.pc.InTask := by rw [hpc]; rfl
    simp only [workStep, hpc] at h
    obtain ⟨rfl, rfl⟩ := Prod.mk.inj (Option.some.inj h)
    exact ⟨.inside hs rfl rfl rfl, ⟨rfl, rfl, rfl⟩, by simp [Touches, hs]⟩
  | pmuStopped =>
    have hs : s.pc.InTask := by rw [hpc]; rfl
    simp only [workStep, hpc, Tpu.ret] at h
    split at h
    all_goals
      obtain ⟨rfl, rfl⟩ := Prod.mk.inj (Option.some.inj h)
      exact ⟨.inside hs rfl rfl rfl, ⟨rfl, rfl, rfl⟩, by simp [Touches, hs]⟩

/-! ## The invariant -/

/-- The count the clocks should have. -/
def Tpu.clockOn (s : Tpu) : Int := if s.pc.InTask ∧ s.pm ≠ .suspended then 1 else 0

structure ClockInv (s : Tpu) : Prop where
  running : s.runningCnt = s.pc.Running
  en : s.en = s.clockOn
  /-- the suspend callback polls only inside a task -/
  polling : s.pm = .polling → s.pc.InTask
  /-- and the system is suspended inside a task or where `running_cnt` is zero -/
  suspended : s.pm = .suspended → s.pc.InTask ∨ s.pc.Running = false

theorem ClockInv.of_awake {s : Tpu} (hpm : s.pm = .awake) (hr : s.runningCnt = s.pc.Running)
    (hen : s.en = if s.pc.InTask then 1 else 0) : ClockInv s := by
  refine ⟨hr, ?_, ?_, ?_⟩
  · rw [hen, Tpu.clockOn, hpm]
    simp
  · rw [hpm]
    rintro ⟨⟩
  · rw [hpm]
    rintro ⟨⟩

/-- Under the condition the system is awake when the worker moves outside a task, but
for taking a node. -/
theorem ClockInv.awake {s : Tpu} {o : Outcome} (hI : ClockInv s) (hc : ClockCond s (.work o))
    (hout : s.pc.InTask = false) (hidle : s.pc ≠ .idle) : s.pm = .awake := by
  cases hp : s.pm with
  | awake => rfl
  | polling =>
    have hin := hI.polling hp
    rw [hout] at hin
    cases hin
  | suspended => exact absurd (hc.2.2 hp) hidle

/-- And inside a task it is not suspended. -/
theorem ClockInv.not_suspended {s : Tpu} {o : Outcome} (hc : ClockCond s (.work o))
    (hin : s.pc.InTask) : s.pm ≠ .suspended := by
  intro hp
  rw [hc.2.2 hp] at hin
  cases hin

/-- A step of the worker under the condition. -/
theorem ClockInv.work {s s' : Tpu} {ev : List TpuEvent} {o : Outcome} (hI : ClockInv s)
    (hc : ClockCond s (.work o)) (h : workStep s o = some (s', ev)) :
    ClockInv s' ∧ ∀ e ∈ ev, TouchOk e := by
  obtain ⟨hw, ⟨hpm, -, -⟩, ht⟩ := workStep_clock h
  have hen := hI.en
  have hrun := hw.running hI.running
  rw [Tpu.clockOn] at hen
  have hok : ∀ e ∈ ev, TouchOk e := by
    intro e he
    cases e with
    | touch en =>
      obtain ⟨rfl, hin⟩ := ht en he
      exact hen.trans (if_pos ⟨hin, ClockInv.not_suspended hc hin⟩)
    | _ => trivial
  refine ⟨?_, hok⟩
  cases hw with
  | take t before after en running =>
    -- the one step that may come while the system is suspended
    refine ⟨hrun, ?_, ?_, ?_⟩
    · rw [Tpu.clockOn, en, hen, before, after]
      rfl
    · rw [hpm, after]
      intro hp
      have hin := hI.polling hp
      rw [before] at hin
      cases hin
    · rw [after]
      exact fun _ => .inr rfl
  | mark t before after en running =>
    have hawake := hI.awake hc (by rw [before]; rfl) (by simp [before])
    apply ClockInv.of_awake (hpm.trans hawake) hrun
    rw [en, hen, before, after]
    rfl
  | init t before after en running =>
    have hawake := hI.awake hc (by rw [before]; rfl) (by simp [before])
    apply ClockInv.of_awake (hpm.trans hawake) hrun
    rw [en, hen, before, after]
    rfl
  | inside before after en running =>
    have hns := ClockInv.not_suspended hc before
    refine ⟨hrun, ?_, fun _ => after, fun _ => .inl after⟩
    rw [Tpu.clockOn, en, hen, hpm, if_pos ⟨before, hns⟩, if_pos ⟨after, hns⟩]
  | finish ret before after en running =>
    have hin : s.pc.InTask := by
      rw [before]
      rfl
    have hret : ret ≠ -ETIMEDOUT := by
      rintro rfl
      exact hc.1 before
    have hns := ClockInv.not_suspended hc hin
    have hawake : s.pm = .awake := by
      cases hp : s.pm with
      | awake => rfl
      | polling => exact absurd before (hc.2.1 hp ret)
      | suspended => exact absurd hp hns
    apply ClockInv.of_awake (hpm.trans hawake) hrun
    rw [en, if_neg hret, hen, if_pos ⟨hin, hns⟩, after]
    rfl
  | unmark ret before after en running =>
    have hawake := hI.awake hc (by rw [before]; rfl) (by simp [before])
    apply ClockInv.of_awake (hpm.trans hawake) hrun
    rw [en, hen, before, after]
    rfl

/-- The suspend callback under the condition. -/
theorem ClockInv.suspend {s : Tpu} (hI : ClockInv s) (hc : ClockCond s .suspend)
    (hp : s.pm = .awake) : ClockInv (cviTpuSuspend s) := by
  have hen := hI.en
  rw [Tpu.clockOn, hp] at hen
  rw [cviTpuSuspend]
  by_cases hr : s.runningCnt
  · have hin : s.pc.InTask := by
      have hrun := hI.running.symm.trans hr
      cases hpc : s.pc with
      | idle | taken t =>
        rw [hpc] at hrun
        cases hrun
      | marked t => exact absurd hpc (hc.1 t)
      | ended ret => exact absurd hpc (hc.2 ret)
      | _ => rfl
    rw [if_pos ⟨hin, by decide⟩] at hen
    rw [if_pos hr]
    dsimp only
    split
    · refine ⟨hI.running, ?_, fun _ => hin, fun _ => .inl hin⟩
      exact hen.trans (if_pos ⟨hin, by simp⟩).symm
    · refine ⟨hI.running, ?_, fun _ => hin, fun _ => .inl hin⟩
      simp [Tpu.clockOn, hen]
  · rw [if_neg hr]
    have hrun : s.pc.Running = false := by
      rw [← hI.running]
      simpa using hr
    rw [WorkerPc.not_inTask_of_not_running hrun] at hen
    exact ⟨hI.running, by simpa [Tpu.clockOn] using hen, by rintro ⟨⟩, fun _ => .inr hrun⟩

theorem ClockInv.suspendExpired {s : Tpu} (hI : ClockInv s) (hp : s.pm = .polling) :
    ClockInv (platformTpuSuspendExpired s) := by
  have hin := hI.polling hp
  have hen := hI.en
  rw [Tpu.clockOn, hp, if_pos ⟨hin, by decide⟩] at hen
  refine ⟨hI.running, ?_, fun _ => hin, fun _ => .inl hin⟩
  simp [Tpu.clockOn, platformTpuSuspendExpired, hen]

theorem ClockInv.resume {s : Tpu} (hI : ClockInv s) (hp : s.pm = .suspended) :
    ClockInv (cviTpuResume s) := by
  have hen := hI.en
  rw [Tpu.clockOn, hp, if_neg (by simp)] at hen
  rw [cviTpuResume]
  rcases hI.suspended hp with hin | hrun
  · rw [if_pos (hI.running.trans (WorkerPc.running_of_inTask hin))]
    refine ClockInv.of_awake rfl hI.running ?_
    simp [hen, hin]
  · rw [if_neg (by rw [hI.running, hrun]; simp)]
    refine ClockInv.of_awake rfl hI.running ?_
    simp [hen, WorkerPc.not_inTask_of_not_running hrun]

/-- **One step** under the condition. -/
theorem ClockInv.step {s s' : Tpu} {ev : List TpuEvent} {a : TpuAction} (hI : ClockInv s)
    (hc : ClockCond s a) (h : tpuStep s a = some (s', ev)) :
    ClockInv s' ∧ ∀ e ∈ ev, TouchOk e := by
  cases a with
  | work o => exact hI.work hc h
  | suspend =>
    simp only [tpuStep, Option.ite_none_right_eq_some, Option.some.injEq, Prod.mk.injEq] at h
    obtain ⟨hp, rfl, rfl⟩ := h
    exact ⟨hI.suspend hc hp, by simp⟩
  | suspendExpired =>
    simp only [tpuStep, Option.ite_none_right_eq_some, Option.some.injEq, Prod.mk.injEq] at h
    obtain ⟨hp, rfl, rfl⟩ := h
    exact ⟨hI.suspendExpired hp, by simp⟩
  | resume =>
    simp only [tpuStep, Option.ite_none_right_eq_some, Option.some.injEq, Prod.mk.injEq] at h
    obtain ⟨hp, rfl, rfl⟩ := h
    exact ⟨hI.resume hp, by simp⟩
  | irq =>
    simp only [tpuStep, cviTpuTdmaIrq, Option.ite_none_right_eq_some, Option.some.injEq] at h
    obtain ⟨-, h⟩ := h
    split at h
    all_goals
      obtain ⟨rfl, rfl⟩ := Prod.mk.inj h
      exact ⟨⟨hI.running, hI.en, hI.polling, hI.suspended⟩, by simp [TouchOk]⟩
  | raise status | openFile pid =>
    simp only [tpuStep, Option.some.injEq, Prod.mk.injEq] at h
    obtain ⟨rfl, rfl⟩ := h
    exact ⟨⟨hI.running, hI.en, hI.polling, hI.suspended⟩, by simp [TouchOk]⟩
  | tdma id | tiu id done | closeFile pid | submit pid t =>
    simp only [tpuStep, Option.ite_none_right_eq_some, Option.some.injEq, Prod.mk.injEq] at h
    obtain ⟨-, rfl, rfl⟩ := h
    exact ⟨⟨hI.running, hI.en, hI.polling, hI.suspended⟩, by simp [TouchOk]⟩

theorem Tpu.AtProbe.clockInv {s : Tpu} (h : s.AtProbe) : ClockInv s := by
  apply ClockInv.of_awake h.pm
  · rw [h.runningCnt, h.pc]
    rfl
  · rw [h.en, h.pc]
    rfl

/-! ## Every run -/

/-- **The clocks are balanced.** In every run whose steps meet the condition, the count
is never negative, the worker touches registers only at one, and it is zero whenever
no task runs and the system is not suspended. -/
theorem clock_balance {s₀ s : Tpu} {as : List TpuAction} {log : List TpuEvent}
    (h₀ : s₀.AtProbe) (hm : tpuDevice.Meets ClockCond s₀ as)
    (he : tpuDevice.exec s₀ as = some (s, log)) :
    0 ≤ s.en ∧ (∀ e ∈ log, TouchOk e) ∧ (s.pc.InTask = false → s.pm ≠ .suspended → s.en = 0) := by
  have hinv : ClockInv s ∧ ∀ e ∈ log, TouchOk e := by
    refine Machine.exec_invariant_start (I := fun s log => ClockInv s ∧ ∀ e ∈ log, TouchOk e)
      ⟨h₀.clockInv, by simp⟩ ?_ hm he
    rintro s s' log ev a ⟨hI, hlog⟩ hc hs
    obtain ⟨hI', hev⟩ := hI.step hc hs
    refine ⟨hI', ?_⟩
    intro e he
    rcases List.mem_append.mp he with he | he
    · exact hlog e he
    · exact hev e he
  obtain ⟨hI, hlog⟩ := hinv
  refine ⟨?_, hlog, ?_⟩
  · rw [hI.en, Tpu.clockOn]
    split <;> decide
  · intro hout _
    rw [hI.en, Tpu.clockOn, if_neg]
    rintro ⟨hin, -⟩
    rw [hout] at hin
    cases hin

/-- A process queues a copy, and the worker starts it and waits. -/
def pioStart : List TpuAction :=
  [.openFile 1, .submit 1 (.pioTdma fun _ => 0), .work .go, .work .go, .work .go, .work .go,
    .work .go]

/-- The copy with the system suspended during its wait, after the interrupt. -/
def pioSuspendRun : List TpuAction :=
  pioStart ++ [.raise TDMA_INT_EOD, .irq, .suspend, .resume, .work .go, .work .go, .work .go]

theorem clock_balance_pioSuspendRun :
    ∃ s log, tpuDevice.exec probedTpu pioSuspendRun = some (s, log) ∧
      TpuEvent.touch 1 ∈ log ∧ TpuEvent.returned 0 ∈ log ∧ s.en = 0 := by
  refine ⟨_, _, rfl, by decide, by decide, ?_⟩
  refine (@clock_balance _ _ pioSuspendRun _ probedTpu_atProbe ?_ rfl).2.2 rfl ?_
  · refine ⟨trivial, trivial, ?_, ?_, ?_, ?_, ?_, trivial, trivial, ⟨?_, ?_⟩, trivial, ?_, ?_, ?_,
      trivial⟩
    case refine_6 | refine_7 => rintro _ ⟨⟩
    case refine_9 => exact .of_awake rfl (fun h => absurd (WorkerPc.returned.inj h) (by decide))
    all_goals exact .of_awake rfl WorkerPc.noConfusion
  · exact PmState.noConfusion

/-- The copy when the TDMA never answers: the worker is idle again with the clocks on. -/
def pioTimeoutRun : List TpuAction := pioStart ++ [.work .timeout, .work .go, .work .go]

theorem not_clock_balance :
    ¬ ∀ (s₀ s : Tpu) (as : List TpuAction) (log : List TpuEvent), s₀.AtProbe →
      tpuDevice.exec s₀ as = some (s, log) →
      0 ≤ s.en ∧ (∀ e ∈ log, TouchOk e) ∧
        (s.pc.InTask = false → s.pm ≠ .suspended → s.en = 0) := by
  intro h
  have hen := (h probedTpu _ pioTimeoutRun _ probedTpu_atProbe rfl).2.2 rfl PmState.noConfusion
  exact absurd hen (by decide)

end LicheeRvNano
