import LicheeRvNano.TpuDelivery

/-!
# TPU driver: what the ioctls return

`cvi_tpu_ioctl` with its twelve commands, over the queues of `TpuQueue`. A call reads user
memory and may write it back; either can fault. `dev_lock` is taken by the worker for each
task and by the two TEE ioctls.

`IoctlReturn.Contract` is what a caller may rely on: the lock is released, the status is
zero or negative as it should be, and a wait that cannot hand its result over leaves it on
the done list. The result of a wait is a node its own thread queued, on a path the wait is
for, with the number asked for (`Node.Answers`); `get_from_done_list` compares less than
that. `ioctl_contract_iff` says in which runs every call keeps the contract.
-/

namespace LicheeRvNano

/-! ## The commands that do not queue -/

/-- `cvi_tpu_cache_flush`: the return value, and whether the range was synced. -/
def cviTpuCacheFlush (uncopied : Nat) : Int × Bool :=
  if uncopied ≠ 0 then (uncopied, false) else (0, true)

/-- `cvi_tpu_cache_invalidate`. -/
def cviTpuCacheInvalidate (uncopied : Nat) : Int × Bool := cviTpuCacheFlush uncopied

/-- `platform_unload_tee` is a stub, as is `platform_loadcmdbuf_tee`. -/
def platformUnloadTee : Int := 0

/-- `cvi_tpu_load_tee`: the return value, whether `dev_lock` is released, and whether the
result was copied out. `platform_loadcmdbuf_tee` is called between the two copies, and what
it returns is overwritten by the second one. -/
def cviTpuLoadTee (uncopiedIn uncopiedOut : Nat) : Int × Bool × Bool :=
  if uncopiedIn ≠ 0 then (uncopiedIn, false, false)
  else if uncopiedOut ≠ 0 then (uncopiedOut, false, false)
  else (0, true, true)

/-- `cvi_tpu_unload_tee`: the return value, whether `dev_lock` is released, and whether the
platform function was called. -/
def cviTpuUnloadTee (uncopied : Nat) : Int × Bool × Bool :=
  if uncopied ≠ 0 then (uncopied, false, false) else (platformUnloadTee, true, true)

/-! ## The result of a wait -/

/-- The result the wait `io` of thread `t` for `seqNo` is for. -/
def Node.Answers (t : Nat) (io : WaitIoctl) (seqNo : BitVec 32) (n : Node) : Prop :=
  n.pid = t ∧ io.Serves n.tpuPath ∧ n.key = seqNo

instance (t : Nat) (io : WaitIoctl) (seqNo : BitVec 32) (n : Node) :
    Decidable (n.Answers t io seqNo) :=
  inferInstanceAs (Decidable (_ ∧ _))

/-- Such a result is on the done list. -/
def QueueState.HasResult (q : QueueState) (t : Nat) (io : WaitIoctl) (seqNo : BitVec 32) : Prop :=
  ∃ n ∈ q.doneList, n.Answers t io seqNo

instance (q : QueueState) (t : Nat) (io : WaitIoctl) (seqNo : BitVec 32) :
    Decidable (q.HasResult t io seqNo) :=
  inferInstanceAs (Decidable (∃ n ∈ _, _))

/-- The wait a thread is in and the number it asks for. -/
def WaitPhase.request : WaitPhase → Option (WaitIoctl × BitVec 32)
  | user => none
  | waiting io seqNo => some (io, seqNo)
  | woken io seqNo => some (io, seqNo)
  | found io seqNo _ => some (io, seqNo)
  | read io seqNo _ _ _ => some (io, seqNo)

/-! ## The machine -/

/-- The driver as its callers see it. The last three fields are not the driver's: they
record of each wait what its caller would have to know. -/
structure IoctlState where
  queue : QueueState := {}
  /-- the thread that left the driver with `dev_lock`; the worker takes it within a step -/
  devLock : Option Nat := none
  /-- the thread has read `node->ret` of a node that was already freed -/
  stale : Nat → Bool := fun _ => false
  /-- the lookup has given the thread the node of another request -/
  shadowed : Nat → Bool := fun _ => false
  /-- the result of the wait has been on the done list since the call -/
  seen : Nat → Bool := fun _ => false

/-- What a call comes back with. -/
structure IoctlReturn where
  current : Nat
  ret : Int
  /-- the request was carried out and its result is in user memory -/
  performed : Bool
  holdsDevLock : Bool
  /-- a result that was there for the call is neither delivered nor on the done list -/
  lost : Bool
  deriving DecidableEq

/-- The calls and their parts, the worker, and the threads' ends. -/
inductive IoctlAction where
  | submit (current : Nat) (env : SubmitEnv) (arg : SubmitDmaArg) (a : DmaAnswers)
  | submitTee (current : Nat) (env : SubmitEnv) (arg : SubmitTeeArg)
  | submitPio (current : Nat) (env : SubmitEnv) (arg : TdmaCopyArg)
  /-- `CVITPU_DMABUF_FLUSH_FD` and `CVITPU_DMABUF_INVLD_FD`; `fault` is that of `get_user` -/
  | mapDmabuf (current : Nat) (fault : Bool) (a : DmaAnswers)
  | cacheFlush (current uncopied : Nat)
  | cacheInvalidate (current uncopied : Nat)
  | getPaddr (current : Nat) (copyIn copyOut : Bool) (a : DmaAnswers)
  | loadTee (current uncopiedIn uncopiedOut : Nat)
  | unloadTee (current uncopied : Nat)
  /-- any other command -/
  | unknown (current : Nat)
  | waitCall (current : Nat) (io : WaitIoctl) (seqNo : BitVec 32) (uncopied : Nat)
  | waitTest (current : Nat)
  | waitSignal (current : Nat)
  | waitLookup (current : Nat)
  | waitRead (current uncopied : Nat) (garbage : Int)
  | waitRemove (current : Nat)
  | workTake
  | workRun (ret : Int)
  | workAppend
  | workPurge
  | threadExit (t : Nat)
  | reap (p : Nat)
  | remove

/-- A call by `t` that comes back. -/
def IoctlState.returns (s : IoctlState) (t : Nat) (ret : Int) (performed lost : Bool) :
    IoctlReturn :=
  ⟨t, ret, performed, decide (s.devLock = some t), lost⟩

/-- Which of the waits that are under way with queues `q` have had their result there. -/
def IoctlState.seenWith (s : IoctlState) (q : QueueState) (t : Nat) : Bool :=
  match (q.waiter t).request with
  | some (io, seqNo) => s.seen t || decide (q.HasResult t io seqNo)
  | none => false

/-- The queues move on; `rs` is what comes back, given the queues after the step. -/
def IoctlState.lift (s : IoctlState) (r : Option (QueueState × List QueueEvent))
    (rs : QueueState → List IoctlReturn) : Option (IoctlState × List IoctlReturn) :=
  r.map fun q => ({ s with queue := q.1, seen := s.seenWith q.1 }, rs q.1)

/-- With queues `q`, a result that was there for the wait is not there any more. -/
def IoctlState.Dropped (s : IoctlState) (q : QueueState) (t : Nat) (io : WaitIoctl)
    (seqNo : BitVec 32) : Prop :=
  s.seen t = true ∧ ¬ q.HasResult t io seqNo

instance (s : IoctlState) (q : QueueState) (t : Nat) (io : WaitIoctl) (seqNo : BitVec 32) :
    Decidable (s.Dropped q t io seqNo) :=
  inferInstanceAs (Decidable (_ ∧ _))

/-- No node at this address is on the done list. -/
def QueueState.gone (q : QueueState) (addr : Nat) : Bool :=
  decide (∀ n ∈ q.doneList, n.addr ≠ addr)

/-- A submit has done its work when a node is queued and, for a command buffer, the buffer
is mapped. -/
def queuedReady : Option (Node × List (Entry Hold)) → Bool
  | none => false
  | some (node, _) => node.tpuPath ≠ .desNormal || node.dmabufVaddr.isSome

/-- A submit that leaves its throttle loop. -/
def IoctlState.submitted (s : IoctlState) (P : ProcTable) (t : Nat) (a : QueueAction) :
    Option (Int × Option (Node × List (Entry Hold))) → Option (IoctlState × List IoctlReturn)
  | none => none
  | some (ret, made) =>
    s.lift (queueStep P s.queue a) fun _ => [s.returns t ret (queuedReady made) false]

/-- A call under `dev_lock`, from its `mutex_lock` to its return. -/
def IoctlState.locked (s : IoctlState) (P : ProcTable) (t : Nat) (r : Int × Bool × Bool) :
    Option (IoctlState × List IoctlReturn) :=
  if s.queue.CanCall P t ∧ s.devLock = none then
    let s := { s with devLock := if r.2.1 then none else some t }
    some (s, [s.returns t r.1 r.2.2 false])
  else none

/-- A call that touches neither queue nor lock. -/
def IoctlState.plain (s : IoctlState) (P : ProcTable) (t : Nat) (r : Int × Bool) :
    Option (IoctlState × List IoctlReturn) :=
  if s.queue.CanCall P t then some (s, [s.returns t r.1 r.2 false]) else none

/-- One step. -/
def ioctlStep (P : ProcTable) (s : IoctlState) :
    IoctlAction → Option (IoctlState × List IoctlReturn)
  | .submit t env arg a =>
    s.submitted P t (.submit t env arg a) (cviTpuSubmit t s.queue.nextAddr env arg a)
  | .submitTee t env arg =>
    s.submitted P t (.submitTee t env arg) (cviTpuSubmitTee t s.queue.nextAddr env arg)
  | .submitPio t env arg =>
    s.submitted P t (.submitPio t env arg) (cviTpuSubmitPio t s.queue.nextAddr env arg)
  | .mapDmabuf t fault a =>
    let getUser := if fault then -EFAULT else 0
    s.lift (queueStep P s.queue (.mapDmabuf t getUser a)) fun _ =>
      [s.returns t (cviTpuMapDmabuf getUser a).1 (!fault && a.get && a.attach && a.map) false]
  | .cacheFlush t uncopied => s.plain P t (cviTpuCacheFlush uncopied)
  | .cacheInvalidate t uncopied => s.plain P t (cviTpuCacheInvalidate uncopied)
  | .getPaddr t copyIn copyOut a =>
    s.lift (queueStep P s.queue (.getPaddr t copyIn copyOut a)) fun _ =>
      [s.returns t (cviTpuGetPaddr copyIn copyOut a).1 (cviTpuGetPaddr copyIn copyOut a).2.1.isSome
        false]
  | .loadTee t uncopiedIn uncopiedOut => s.locked P t (cviTpuLoadTee uncopiedIn uncopiedOut)
  | .unloadTee t uncopied => s.locked P t (cviTpuUnloadTee uncopied)
  | .unknown t => s.plain P t (-ENOTTY, false)
  | .waitCall t io seqNo uncopied =>
    if uncopied ≠ 0 then s.plain P t (uncopied, false)
    else s.lift (queueStep P s.queue (.waitCall t io seqNo)) fun _ => []
  | .waitTest t => s.lift (queueStep P s.queue (.waitTest t)) fun _ => []
  | .waitSignal t =>
    match s.queue.waiter t with
    | .waiting io seqNo =>
      s.lift (queueStep P s.queue (.waitSignal t)) fun q =>
        [s.returns t (-EINTR) false (s.Dropped q t io seqNo)]
    | _ => none
  | .waitLookup t =>
    match s.queue.waiter t with
    | .woken io seqNo =>
      match getFromDoneList t seqNo io.path s.queue.doneList with
      -- the node is taken as it is; is it the one that was asked for?
      | some n =>
        let shadowed := Function.update s.shadowed t (!decide (n.Answers t io seqNo))
        ({ s with shadowed := shadowed }).lift (queueStep P s.queue (.waitLookup t)) fun _ => []
      | none =>
        s.lift (queueStep P s.queue (.waitLookup t)) fun q =>
          [s.returns t (-EINVAL) false (s.Dropped q t io seqNo)]
    | _ => none
  | .waitRead t uncopied garbage =>
    match s.queue.waiter t with
    | .found _ _ addr =>
      ({ s with stale := Function.update s.stale t (s.queue.gone addr) }).lift
        (queueStep P s.queue (.waitRead t uncopied garbage)) fun _ => []
    | _ => none
  | .waitRemove t =>
    match s.queue.waiter t with
    | .read io seqNo _ _ uncopied =>
      let delivered := uncopied = 0 && !s.stale t && !s.shadowed t
      s.lift (queueStep P s.queue (.waitRemove t)) fun q =>
        [s.returns t uncopied delivered (!delivered && decide (s.Dropped q t io seqNo))]
    | _ => none
  | .workTake => s.lift (queueStep P s.queue .workTake) fun _ => []
  -- `cvi_tpu_run_dmabuf` takes `dev_lock`
  | .workRun ret =>
    if s.devLock = none then s.lift (queueStep P s.queue (.workRun ret)) fun _ => [] else none
  | .workAppend => s.lift (queueStep P s.queue .workAppend) fun _ => []
  | .workPurge => s.lift (queueStep P s.queue .workPurge) fun _ => []
  | .threadExit t => s.lift (queueStep P s.queue (.threadExit t)) fun _ => []
  | .reap p => s.lift (queueStep P s.queue (.reap p)) fun _ => []
  | .remove => s.lift (queueStep P s.queue .remove) fun _ => []

/-- The driver behind its ioctls. -/
def tpuIoctl (P : ProcTable) : Machine IoctlState IoctlAction IoctlReturn where
  step := ioctlStep P

/-! ## The contract -/

/-- Zero when the request was carried out, negative when it was not. -/
def StatusOk (ret : Int) (performed : Bool) : Prop :=
  ret = 0 ∧ performed = true ∨ ret < 0 ∧ performed = false

/-- What a caller may rely on. -/
structure IoctlReturn.Contract (r : IoctlReturn) : Prop where
  unlocked : r.holdsDevLock = false
  status : StatusOk r.ret r.performed
  kept : r.lost = false

/-- When a step keeps the contract: no fault in `copy_from_user` (`CVITPU_GET_PADDR` may
have one), none in the `copy_to_user` of a wait or of `CVITPU_LOAD_TEE`, a command buffer
that can be prepared, no wait that is ended after its result was dropped, and at the end of
a wait a node that was its own and alive when it was read. -/
def IoctlCond (s : IoctlState) : IoctlAction → Prop
  | .submit _ env _ a => env.uncopied = 0 ∧ (env.vmalloc = true → a.Succeed)
  | .submitTee _ env _ => env.uncopied = 0
  | .submitPio _ env _ => env.uncopied = 0
  | .cacheFlush _ uncopied => uncopied = 0
  | .cacheInvalidate _ uncopied => uncopied = 0
  | .loadTee _ uncopiedIn uncopiedOut => uncopiedIn = 0 ∧ uncopiedOut = 0
  | .unloadTee _ uncopied => uncopied = 0
  | .waitCall _ _ _ uncopied => uncopied = 0
  | .waitSignal t => ∀ io seqNo, s.queue.waiter t = .waiting io seqNo →
    ¬ s.Dropped s.queue t io seqNo
  | .waitLookup t => ∀ io seqNo, s.queue.waiter t = .woken io seqNo →
    getFromDoneList t seqNo io.path s.queue.doneList = none → ¬ s.Dropped s.queue t io seqNo
  | .waitRemove t => ∀ io seqNo addr ret uncopied,
    s.queue.waiter t = .read io seqNo addr ret uncopied →
      uncopied = 0 ∧ s.stale t = false ∧ s.shadowed t = false
  | _ => True

/-! ## One step -/

/-- A count of bytes left uncopied is a good status only when it is zero. -/
theorem statusOk_uncopied {n : Nat} {performed : Bool} :
    StatusOk n performed ↔ n = 0 ∧ performed = true := by
  constructor
  · rintro (⟨hn, hp⟩ | ⟨hn, -⟩)
    · exact ⟨Int.natCast_eq_zero.mp hn, hp⟩
    · omega
  · rintro ⟨rfl, hp⟩
    exact .inl ⟨rfl, hp⟩

/-- What `submitNode` returns is right unless the copy faults or the node is not ready. -/
theorem statusOk_submitNode {env : SubmitEnv} {node : Node × List (Entry Hold)} {ret : Int}
    {made : Option (Node × List (Entry Hold))} (h : submitNode env node = some (ret, made)) :
    StatusOk ret (queuedReady made) ↔
      env.uncopied = 0 ∧ (env.vmalloc = true → queuedReady (some node) = true) := by
  rw [submitNode] at h
  split_ifs at h with hc ht hv
  · obtain ⟨rfl, rfl⟩ := Prod.mk.inj (Option.some.inj h)
    rw [statusOk_uncopied]
    exact iff_of_false (fun hs => hc hs.1) (fun hs => hc hs.1)
  · obtain ⟨rfl, rfl⟩ := Prod.mk.inj (Option.some.inj h)
    refine iff_of_true (.inr ⟨by decide, rfl⟩) ⟨not_not.mp hc, ?_⟩
    intro hv'
    rw [hv] at hv'
    cases hv'
  · obtain ⟨rfl, rfl⟩ := Prod.mk.inj (Option.some.inj h)
    rw [Bool.not_eq_false] at hv
    rw [← Int.natCast_zero, statusOk_uncopied]
    exact ⟨fun hs => ⟨not_not.mp hc, fun _ => hs.2⟩, fun hs => ⟨rfl, hs.2 hv⟩⟩

/-- A prepare that fails never gives the node an address. -/
theorem queuedReady_prepareBuffer (a : DmaAnswers) (t addr : Nat) (arg : SubmitDmaArg)
    (holds : List (Entry Hold)) :
    queuedReady (some ((cviTpuPrepareBuffer a (dmaNode t addr arg)).1, holds)) = true ↔
      a.Succeed := by
  by_cases ha : a.Succeed
  · rw [prepareBuffer_succeed ha]
    exact iff_of_true rfl ha
  · have hpath : (cviTpuPrepareBuffer a (dmaNode t addr arg)).1.tpuPath = .desNormal := by
      unfold cviTpuPrepareBuffer
      split_ifs <;> rfl
    refine iff_of_false ?_ ha
    rw [queuedReady, (prepareBuffer_fail ha rfl).2, hpath]
    decide

/-- `CVITPU_GET_PADDR` turns each fault into `-EFAULT`. -/
theorem statusOk_getPaddr (copyIn copyOut : Bool) (a : DmaAnswers) :
    StatusOk (cviTpuGetPaddr copyIn copyOut a).1 (cviTpuGetPaddr copyIn copyOut a).2.1.isSome := by
  rw [cviTpuGetPaddr]
  split_ifs
  iterate 6 exact .inr ⟨by decide, rfl⟩
  exact .inl ⟨rfl, rfl⟩

/-- So does `get_user`. -/
theorem statusOk_mapDmabuf (fault : Bool) (a : DmaAnswers) :
    StatusOk (cviTpuMapDmabuf (if fault then -EFAULT else 0) a).1
      (!fault && a.get && a.attach && a.map) := by
  cases fault with
  | true => exact .inr ⟨show -EFAULT < 0 by decide, rfl⟩
  | false =>
    rw [cviTpuMapDmabuf, if_neg (by simp)]
    split_ifs with hg ha hm
    · exact .inr ⟨by decide, by simp [hg]⟩
    · exact .inr ⟨by decide, by simp [ha]⟩
    · exact .inr ⟨by decide, by simp [hm]⟩
    · simp only [Bool.not_eq_false] at hg ha hm
      exact .inl ⟨rfl, by simp [hg, ha, hm]⟩

/-- The two cache operations return the count of `copy_from_user`. -/
theorem statusOk_cacheFlush (uncopied : Nat) :
    StatusOk (cviTpuCacheFlush uncopied).1 (cviTpuCacheFlush uncopied).2 ↔ uncopied = 0 := by
  rw [cviTpuCacheFlush]
  split_ifs with hc
  · rw [statusOk_uncopied]
    exact iff_of_false (fun hk => hc hk.1) hc
  · exact iff_of_true (.inl ⟨rfl, rfl⟩) (not_not.mp hc)

/-- The events of a step keep the contract exactly under `c`, and then the lock is free
again. -/
def KeepsIff (c : Prop) (s' : IoctlState) (ev : List IoctlReturn) : Prop :=
  ((∀ r ∈ ev, r.Contract) ↔ c) ∧ (c → s'.devLock = none)

theorem KeepsIff.congr {c d : Prop} {s' : IoctlState} {ev : List IoctlReturn}
    (h : KeepsIff c s' ev) (hcd : c ↔ d) : KeepsIff d s' ev :=
  ⟨h.1.trans hcd, fun hd => h.2 (hcd.mpr hd)⟩

section step

variable {P : ProcTable} {s s' : IoctlState} {ev : List IoctlReturn} {t : Nat}

/-- With the lock free, the contract is about the status and the result. -/
theorem contract_returns (hs : s.devLock = none) {ret : Int} {performed lost : Bool} :
    (∀ r ∈ [s.returns t ret performed lost], r.Contract) ↔
      StatusOk ret performed ∧ lost = false := by
  rw [List.forall_mem_singleton]
  constructor
  · exact fun h => ⟨h.status, h.kept⟩
  · refine fun h => ⟨?_, h.1, h.2⟩
    simp [IoctlState.returns, hs]

/-- A step that lets no call return. -/
theorem lift_quiet (hs : s.devLock = none) {r : Option (QueueState × List QueueEvent)}
    (h : s.lift r (fun _ => []) = some (s', ev)) : KeepsIff True s' ev := by
  obtain ⟨q, -, hq⟩ := Option.map_eq_some_iff.mp h
  obtain ⟨rfl, rfl⟩ := Prod.mk.inj hq
  exact ⟨iff_of_true (by simp) trivial, fun _ => hs⟩

/-- A step that lets one call return. -/
theorem lift_returns (hs : s.devLock = none) (lost : QueueState → Bool)
    {r : Option (QueueState × List QueueEvent)} {ret : Int} {performed : Bool}
    (h : s.lift r (fun q => [s.returns t ret performed (lost q)]) = some (s', ev)) :
    ∃ q, r = some q ∧ KeepsIff (StatusOk ret performed ∧ lost q.1 = false) s' ev := by
  obtain ⟨q, hr, hq⟩ := Option.map_eq_some_iff.mp h
  obtain ⟨rfl, rfl⟩ := Prod.mk.inj hq
  exact ⟨q, hr, contract_returns hs, fun _ => hs⟩

theorem submitted_keeps (hs : s.devLock = none) {a : QueueAction} {env : SubmitEnv}
    {node : Node × List (Entry Hold)}
    (h : s.submitted P t a (submitNode env node) = some (s', ev)) :
    KeepsIff (env.uncopied = 0 ∧ (env.vmalloc = true → queuedReady (some node) = true)) s' ev := by
  rcases hm : submitNode env node with _ | ⟨ret, made⟩
  · rw [hm] at h
    cases h
  · rw [hm] at h
    obtain ⟨q, -, hk⟩ := lift_returns hs (fun _ => false) h
    rwa [statusOk_submitNode hm, and_iff_left rfl] at hk

theorem plain_keeps (hs : s.devLock = none) {r : Int × Bool}
    (h : s.plain P t r = some (s', ev)) : KeepsIff (StatusOk r.1 r.2) s' ev := by
  rw [IoctlState.plain, Option.ite_none_right_eq_some, Option.some.injEq] at h
  obtain ⟨rfl, rfl⟩ := Prod.mk.inj h.2
  refine ⟨?_, fun _ => hs⟩
  rw [contract_returns hs, and_iff_left rfl]

/-- A call under the lock keeps the contract only when it reaches its `mutex_unlock`. -/
theorem locked_keeps {r : Int × Bool × Bool} (h : s.locked P t r = some (s', ev)) :
    KeepsIff (r.2.1 = true ∧ StatusOk r.1 r.2.2) s' ev := by
  rw [IoctlState.locked, Option.ite_none_right_eq_some, Option.some.injEq] at h
  obtain ⟨rfl, rfl⟩ := Prod.mk.inj h.2
  by_cases hu : r.2.1 = true
  · have hfree : (if r.2.1 then none else some t) = none := if_pos hu
    refine ⟨?_, fun _ => hfree⟩
    rw [contract_returns hfree, and_iff_left rfl, and_iff_right hu]
  · refine ⟨iff_of_false ?_ (fun hc => hu hc.1), fun hc => absurd hc.1 hu⟩
    intro hc
    have := (hc _ (List.mem_singleton_self _)).unlocked
    simp [IoctlState.returns, hu] at this

/-- A wait that ends without a result keeps the contract unless its result was dropped. -/
theorem undelivered_keeps (hs : s.devLock = none) {io : WaitIoctl} {seqNo : BitVec 32}
    {a : QueueAction} {ret : Int} (hret : ret < 0)
    (hdone : ∀ q, queueStep P s.queue a = some q → q.1.doneList = s.queue.doneList)
    (h : s.lift (queueStep P s.queue a)
      (fun q => [s.returns t ret false (s.Dropped q t io seqNo)]) = some (s', ev)) :
    KeepsIff (¬ s.Dropped s.queue t io seqNo) s' ev := by
  obtain ⟨q, hq, hk⟩ := lift_returns hs (fun q => decide (s.Dropped q t io seqNo)) h
  refine hk.congr ?_
  have hstatus : StatusOk ret false := .inr ⟨hret, rfl⟩
  rw [and_iff_right hstatus, decide_eq_false_iff_not]
  simp only [IoctlState.Dropped, QueueState.HasResult, hdone q hq]

theorem waitSignal_keeps (hs : s.devLock = none)
    (h : ioctlStep P s (.waitSignal t) = some (s', ev)) :
    KeepsIff (IoctlCond s (.waitSignal t)) s' ev := by
  simp only [ioctlStep] at h
  cases hw : s.queue.waiter t with
  | waiting io seqNo =>
    simp only [hw] at h
    refine (undelivered_keeps hs (by decide) ?_ h).congr ?_
    · intro q hq
      simp only [queueStep, hw, Option.some.injEq] at hq
      rw [← hq]
    · constructor
      · rintro hd io' seqNo' hw'
        obtain ⟨rfl, rfl⟩ := WaitPhase.waiting.inj (hw.symm.trans hw')
        exact hd
      · exact fun hc => hc io seqNo hw
  | _ => simp [hw] at h

/-- The lookup of a wait that was woken fails when the node has gone since. -/
theorem waitLookup_keeps (hs : s.devLock = none)
    (h : ioctlStep P s (.waitLookup t) = some (s', ev)) :
    KeepsIff (IoctlCond s (.waitLookup t)) s' ev := by
  simp only [ioctlStep] at h
  cases hw : s.queue.waiter t with
  | woken io seqNo =>
    simp only [hw] at h
    rcases hn : getFromDoneList t seqNo io.path s.queue.doneList with _ | n
    · simp only [hn] at h
      refine (undelivered_keeps hs (by decide) ?_ h).congr ?_
      · intro q hq
        simp only [queueStep, hw, hn, Option.some.injEq] at hq
        rw [← hq]
      · constructor
        · rintro hd io' seqNo' hw' -
          obtain ⟨rfl, rfl⟩ := WaitPhase.woken.inj (hw.symm.trans hw')
          exact hd
        · exact fun hc => hc io seqNo hw hn
    · simp only [hn] at h
      refine KeepsIff.congr (lift_quiet ?_ h) (iff_of_true trivial ?_)
      · exact hs
      intro io' seqNo' hw' hn'
      obtain ⟨rfl, rfl⟩ := WaitPhase.woken.inj (hw.symm.trans hw')
      rw [hn] at hn'
      cases hn'
  | _ => simp [hw] at h

/-- A wait that comes to its end returns what `copy_to_user` left: it has done its work when
that is zero and the node was its own and alive. -/
theorem waitRemove_keeps (hs : s.devLock = none)
    (h : ioctlStep P s (.waitRemove t) = some (s', ev)) :
    KeepsIff (IoctlCond s (.waitRemove t)) s' ev := by
  simp only [ioctlStep] at h
  cases hw : s.queue.waiter t with
  | read io seqNo addr ret uncopied =>
    simp only [hw] at h
    obtain ⟨q, -, hk⟩ := lift_returns hs _ h
    refine hk.congr ?_
    rw [statusOk_uncopied]
    constructor
    · rintro ⟨⟨rfl, hd⟩, -⟩ io' seqNo' addr' ret' uncopied' hw'
      obtain ⟨-, -, -, -, rfl⟩ := WaitPhase.read.inj (hw.symm.trans hw')
      exact ⟨rfl, by simpa using hd⟩
    · intro hc
      obtain ⟨rfl, hstale, hshadowed⟩ := hc io seqNo addr ret uncopied hw
      simp [hstale, hshadowed]
  | _ => simp [hw] at h

end step

/-- **One step.** With the lock free, the calls that return in a step keep the contract
exactly under the condition, and then the lock is free again. -/
theorem ioctlStep_keeps {P : ProcTable} {s s' : IoctlState} {ev : List IoctlReturn}
    {a : IoctlAction} (hs : s.devLock = none) (h : ioctlStep P s a = some (s', ev)) :
    KeepsIff (IoctlCond s a) s' ev := by
  cases a with
  | submit t env arg a =>
    let prepared := cviTpuPrepareBuffer a (dmaNode t s.queue.nextAddr arg)
    have hk : KeepsIff (env.uncopied = 0 ∧
        (env.vmalloc = true → queuedReady (some (prepared.1, prepared.2.2)) = true)) s' ev :=
      submitted_keeps hs h
    rwa [queuedReady_prepareBuffer] at hk
  | submitTee t env arg =>
    exact (submitted_keeps hs h).congr (and_iff_left fun _ => rfl)
  | submitPio t env arg =>
    exact (submitted_keeps hs h).congr (and_iff_left fun _ => rfl)
  | mapDmabuf t fault a =>
    obtain ⟨q, -, hk⟩ := lift_returns hs (fun _ => false) h
    rwa [and_iff_left rfl, iff_true_intro (statusOk_mapDmabuf fault a)] at hk
  | cacheFlush t uncopied => exact (plain_keeps hs h).congr (statusOk_cacheFlush uncopied)
  | cacheInvalidate t uncopied => exact (plain_keeps hs h).congr (statusOk_cacheFlush uncopied)
  | getPaddr t copyIn copyOut a =>
    obtain ⟨q, -, hk⟩ := lift_returns hs (fun _ => false) h
    rwa [and_iff_left rfl, iff_true_intro (statusOk_getPaddr copyIn copyOut a)] at hk
  | loadTee t uncopiedIn uncopiedOut =>
    refine (locked_keeps h).congr ?_
    rw [cviTpuLoadTee]
    split_ifs with hi ho
    · exact iff_of_false (fun hc => absurd hc.1 (by simp)) (fun hc => hi hc.1)
    · exact iff_of_false (fun hc => absurd hc.1 (by simp)) (fun hc => ho hc.2)
    · exact iff_of_true ⟨rfl, .inl ⟨rfl, rfl⟩⟩ ⟨not_not.mp hi, not_not.mp ho⟩
  | unloadTee t uncopied =>
    refine (locked_keeps h).congr ?_
    rw [cviTpuUnloadTee]
    split_ifs with hc
    · exact iff_of_false (fun hk => absurd hk.1 (by simp)) (fun hk => hc hk)
    · exact iff_of_true ⟨rfl, .inl ⟨rfl, rfl⟩⟩ (not_not.mp hc)
  | unknown t => exact (plain_keeps hs h).congr (iff_of_true (.inr ⟨by decide, rfl⟩) trivial)
  | waitCall t io seqNo uncopied =>
    simp only [ioctlStep] at h
    split_ifs at h with hc
    · refine (plain_keeps hs h).congr ?_
      rw [statusOk_uncopied]
      exact iff_of_false (fun hk => hc hk.1) hc
    · exact (lift_quiet hs h).congr (iff_of_true trivial (not_not.mp hc))
  | waitSignal t => exact waitSignal_keeps hs h
  | waitLookup t => exact waitLookup_keeps hs h
  | waitRead t uncopied garbage =>
    simp only [ioctlStep] at h
    cases hw : s.queue.waiter t with
    | found io seqNo addr =>
      simp only [hw] at h
      exact lift_quiet (s := { s with stale := Function.update s.stale t (s.queue.gone addr) }) hs h
    | _ => simp [hw] at h
  | waitRemove t => exact waitRemove_keeps hs h
  | workRun ret =>
    simp only [ioctlStep, Option.ite_none_right_eq_some] at h
    exact lift_quiet hs h.2
  | _ => exact lift_quiet hs h

/-! ## Every run -/

/-- **The error contract.** Over every run of callers, worker and process ends, with any
faults of user memory, each call that returns keeps the contract exactly if each step
meets `IoctlCond`. -/
theorem ioctl_contract_iff {P : ProcTable} {s₀ s : IoctlState} {as : List IoctlAction}
    {log : List IoctlReturn} (h₀ : s₀.devLock = none)
    (he : (tpuIoctl P).exec s₀ as = some (s, log)) :
    (∀ r ∈ log, r.Contract) ↔ (tpuIoctl P).Meets IoctlCond s₀ as := by
  rw [← @Judged.forall_iff _ IoctlReturn.Contract log []]
  refine Machine.exec_judged_iff (M := tpuIoctl P) (I := fun s _ => s.devLock = none)
    (P := fun _ => IoctlReturn.Contract) ?_ ?_ h₀ he
  · intro s s' log ev a hs hc h
    exact (ioctlStep_keeps hs h).2 hc
  · intro s s' log ev a hs h
    rw [Judged.forall_iff]
    exact (ioctlStep_keeps hs h).1

/-- One caller, the leader of its group. -/
def soleCaller : ProcTable := .alone 1

/-- A buffer that can be prepared. -/
def readyFd : DmaAnswers := ⟨true, true, true, 1, 0x80000000, 0, 0xffff0000, 0⟩

/-- A submit, its wait, both TEE calls and a call with a bad pointer that is told so. -/
def ioctlRun : List IoctlAction :=
  [.submit 1 ⟨0, [0], true⟩ ⟨5, 7⟩ readyFd, .workTake, .workRun 0, .workAppend, .workPurge,
    .waitCall 1 .waitDmabuf 7 0, .waitTest 1, .waitLookup 1, .waitRead 1 0 0, .waitRemove 1,
    .loadTee 1 0 0, .unloadTee 1 0, .getPaddr 1 false true readyFd]

theorem ioctl_contract_iff_ioctlRun :
    ∃ s log, (tpuIoctl soleCaller).exec {} ioctlRun = some (s, log) ∧
      log.map (fun r => (r.ret, r.performed)) =
        [(0, true), (0, true), (0, true), (0, true), (-EFAULT, false)] ∧
      ∀ r ∈ log, r.Contract := by
  refine ⟨_, _, rfl, by decide, (@ioctl_contract_iff soleCaller {} _ ioctlRun _ rfl rfl).mpr ?_⟩
  refine ⟨⟨rfl, fun _ => by decide⟩, trivial, trivial, trivial, trivial, rfl, trivial, ?_,
    trivial, ?_, ⟨rfl, rfl⟩, rfl, trivial, trivial⟩
  · rintro io seqNo ⟨⟩ hnone
    exact absurd hnone (by decide)
  · rintro io seqNo addr ret uncopied ⟨⟩
    exact ⟨rfl, rfl, rfl⟩

/-- `CVITPU_WAIT_DMABUF` with number 0 is given the result of PIO 7 and returns 0. -/
example :
    ((tpuIoctl soleCaller).exec {}
      [.submitPio 1 ⟨0, [0], true⟩ ⟨0, 0, 1, 1, 1, 1, 1, 0, 7⟩, .workTake, .workRun 0, .workAppend,
        .waitCall 1 .waitDmabuf 0 0, .waitTest 1, .waitLookup 1, .waitRead 1 0 0,
        .waitRemove 1]).map (fun r => r.2.map fun r => (r.ret, r.performed)) =
      some [(0, true), (0, false)] := by decide

/-- A `CVITPU_UNLOAD_TEE` whose argument cannot be read comes back with 16, the number of
bytes left, and with the lock. -/
theorem not_ioctl_contract :
    ¬ ∀ (P : ProcTable) (as : List IoctlAction) (s : IoctlState) (log : List IoctlReturn),
      (tpuIoctl P).exec {} as = some (s, log) → ∀ r ∈ log, r.Contract := by
  intro h
  have hr := h soleCaller [.unloadTee 1 16] _ _ rfl ⟨1, 16, false, true, false⟩ (by decide)
  exact absurd hr.unlocked (by decide)

/-! ## What a lock that is not given back does -/

/-- The queues move without the lock. -/
theorem lift_devLock {s s' : IoctlState} {r : Option (QueueState × List QueueEvent)}
    {rs : QueueState → List IoctlReturn} {ev : List IoctlReturn}
    (h : s.lift r rs = some (s', ev)) : s'.devLock = s.devLock := by
  obtain ⟨q, -, hq⟩ := Option.map_eq_some_iff.mp h
  obtain ⟨rfl, -⟩ := Prod.mk.inj hq
  rfl

theorem submitted_devLock {P : ProcTable} {s s' : IoctlState} {t : Nat} {a : QueueAction}
    {r : Option (Int × Option (Node × List (Entry Hold)))} {ev : List IoctlReturn}
    (h : s.submitted P t a r = some (s', ev)) : s'.devLock = s.devLock := by
  rcases r with _ | ⟨ret, made⟩
  · cases h
  · rw [IoctlState.submitted] at h
    exact lift_devLock h

theorem plain_devLock {P : ProcTable} {s s' : IoctlState} {t : Nat} {r : Int × Bool}
    {ev : List IoctlReturn} (h : s.plain P t r = some (s', ev)) : s'.devLock = s.devLock := by
  rw [IoctlState.plain, Option.ite_none_right_eq_some, Option.some.injEq] at h
  obtain ⟨rfl, -⟩ := Prod.mk.inj h.2
  rfl

/-- A second call under the lock waits for the first to give it back. -/
theorem locked_blocks {P : ProcTable} {s : IoctlState} {t t' : Nat} {r : Int × Bool × Bool}
    (hs : s.devLock = some t) : s.locked P t' r = none := by
  simp [IoctlState.locked, hs]

/-- No step gives the lock back, and the worker cannot run a task without it. -/
theorem ioctlStep_leaked {P : ProcTable} {s s' : IoctlState} {ev : List IoctlReturn}
    {a : IoctlAction} {t : Nat} (hs : s.devLock = some t)
    (h : ioctlStep P s a = some (s', ev)) : s'.devLock = some t ∧ ∀ ret, a ≠ .workRun ret := by
  rw [← hs]
  cases a with
  | submit t env arg a => exact ⟨submitted_devLock h, nofun⟩
  | submitTee t env arg => exact ⟨submitted_devLock h, nofun⟩
  | submitPio t env arg => exact ⟨submitted_devLock h, nofun⟩
  | cacheFlush t uncopied => exact ⟨plain_devLock h, nofun⟩
  | cacheInvalidate t uncopied => exact ⟨plain_devLock h, nofun⟩
  | unknown t => exact ⟨plain_devLock h, nofun⟩
  | loadTee t uncopiedIn uncopiedOut =>
    rw [ioctlStep, locked_blocks hs] at h
    cases h
  | unloadTee t uncopied =>
    rw [ioctlStep, locked_blocks hs] at h
    cases h
  | waitCall t io seqNo uncopied =>
    simp only [ioctlStep] at h
    split_ifs at h
    · exact ⟨plain_devLock h, nofun⟩
    · exact ⟨lift_devLock h, nofun⟩
  | waitSignal t =>
    simp only [ioctlStep] at h
    split at h
    · exact ⟨lift_devLock h, nofun⟩
    · cases h
  | waitLookup t =>
    simp only [ioctlStep] at h
    split at h
    · split at h
      · have hd := lift_devLock h
        exact ⟨hd, nofun⟩
      · exact ⟨lift_devLock h, nofun⟩
    · cases h
  | waitRead t uncopied garbage =>
    simp only [ioctlStep] at h
    split at h
    · have hd := lift_devLock h
      exact ⟨hd, nofun⟩
    · cases h
  | waitRemove t =>
    simp only [ioctlStep] at h
    split at h
    · exact ⟨lift_devLock h, nofun⟩
    · cases h
  | workRun ret =>
    rw [ioctlStep, if_neg (by rw [hs]; nofun)] at h
    cases h
  | _ =>
    simp only [ioctlStep] at h
    exact ⟨lift_devLock h, nofun⟩

/-- **A lost lock stops the device.** In every run after a call has left with `dev_lock`,
the worker runs no task. -/
theorem no_task_after_leak {P : ProcTable} {as : List IoctlAction} :
    ∀ {s s' : IoctlState} {log : List IoctlReturn} {t : Nat}, s.devLock = some t →
      (tpuIoctl P).exec s as = some (s', log) → ∀ ret, .workRun ret ∉ as := by
  induction as with
  | nil =>
    intro s s' log t _ _ ret
    exact List.not_mem_nil
  | cons a as ih =>
    intro s s' log t hs he ret hmem
    obtain ⟨s₁, ev, rest, h₁, hr, -⟩ := Machine.exec_cons_eq_some he
    obtain ⟨hs₁, hne⟩ := ioctlStep_leaked hs h₁
    rcases List.mem_cons.mp hmem with rfl | hmem
    · exact hne ret rfl
    · exact ih hs₁ hr ret hmem

end LicheeRvNano
