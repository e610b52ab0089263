import LicheeRvNano.TpuBuffer
import Mathlib.Logic.Function.Basic

/-!
# TPU driver: the task list, the worker and the done list

`common/cvi_tpu_interface.c` as one machine. Its steps are the driver's critical
sections, so every interleaving of submitters, the worker, waiters, exiting
threads and device removal is a run:

* the three submit ioctls, up to and including `list_add_tail` on the task list,
  and the two ioctls that look at a buffer without queueing anything;
* the worker's `work_thread_run`, cut at its locks: take the first node, run it
  and clean up, append it to the done list, purge the done list;
* a waiter's `cvi_tpu_wait_dmabuf` or `cvi_tpu_wait_pio`, cut at its locks and at
  its unlocked window: each test of the wait condition, the second
  `get_from_done_list`, the read of `node->ret`, `remove_from_done_list`;
* threads exiting, leaders being reaped, and `work_thread_exit`.

The threads that can call the driver are given by a `ProcTable`. A thread id is
never handed out again within a run.

The events of a step are what the properties of this driver are about: what is
done to buffers, which node is submitted, started and appended, and each time a
node is read, unlinked or freed.
-/

namespace LicheeRvNano

/-- `TASK_LIST_MAX`. -/
abbrev TASK_LIST_MAX : BitVec 32 := 100

/-- `DONE_LIST_MAX`. -/
abbrev DONE_LIST_MAX : Nat := 1000

/-! ## Threads -/

/-- The threads that may call the driver, and the thread-group leader of each.
A leader is a thread of its own group. -/
structure ProcTable where
  threads : List Nat
  tgid : Nat → Nat
  leader_mem : ∀ t ∈ threads, tgid t ∈ threads
  leader_self : ∀ t ∈ threads, tgid (tgid t) = tgid t

/-- One thread, alone in its group. -/
def ProcTable.alone (t : Nat) : ProcTable where
  threads := [t]
  tgid := fun _ => t
  leader_mem := by simp
  leader_self := by simp

/-- What `for_each_process` enumerates: thread-group leaders only. A leader that
has exited stays there until it is reaped. -/
def forEachProcess (P : ProcTable) (reaped : List Nat) : List Nat :=
  P.threads.filter fun p => decide (P.tgid p = p) && decide (p ∉ reaped)

/-! ## Submitting -/

/-- `struct cvi_submit_dma_arg`. -/
structure SubmitDmaArg where
  fd : Int
  seqNo : BitVec 32

/-- `struct cvi_submit_tee_arg`. -/
structure SubmitTeeArg where
  dmabufTeeAddr : BitVec 64
  gaddrBase2 : BitVec 64
  gaddrBase3 : BitVec 64
  gaddrBase4 : BitVec 64
  gaddrBase5 : BitVec 64
  gaddrBase6 : BitVec 64
  gaddrBase7 : BitVec 64
  seqNo : BitVec 32

/-- `struct cvi_tdma_copy_arg`. -/
structure TdmaCopyArg where
  paddrSrc : BitVec 64
  paddrDst : BitVec 64
  h : BitVec 32
  wBytes : BitVec 32
  strideBytesSrc : BitVec 32
  strideBytesDst : BitVec 32
  enable2d : BitVec 32
  lengBytes : BitVec 32
  seqNo : BitVec 32

/-- What the kernel answers to a submit ioctl: the bytes `copy_from_user` left
uncopied, the length of the task list at each scan of the throttle loop (other
threads change the list between scans), and whether `vmalloc` succeeds. -/
structure SubmitEnv where
  uncopied : Nat
  scans : List Nat
  vmalloc : Bool

/-- The throttle loop at the head of each submit: `true` when one of the scans
lets the thread leave it. `task_list_count` is not reset between scans. -/
def throttle (taskListCount : BitVec 32) : List Nat → Bool
  | [] => false
  | n :: scans =>
    let taskListCount := taskListCount + BitVec.ofNat 32 n
    if taskListCount > TASK_LIST_MAX then throttle taskListCount scans else true

/-- The part the three submits share. `none` while the thread is in the throttle
loop, else the return value and the node to queue, if one was made. -/
def submitNode (env : SubmitEnv) (made : Node × List (Entry Hold)) :
    Option (Int × Option (Node × List (Entry Hold))) :=
  if env.uncopied ≠ 0 then some (env.uncopied, none)
  else if throttle 0 env.scans = false then none
  else if env.vmalloc = false then some (-ENOMEM, none)
  else some (0, some made)

/-- What is queued is what was made. -/
theorem made_of_submitNode {env : SubmitEnv} {made n : Node × List (Entry Hold)} {ret : Int}
    (h : submitNode env made = some (ret, some n)) : made = n := by
  rw [submitNode] at h
  split_ifs at h
  · exact absurd (Prod.mk.inj (Option.some.inj h)).2 nofun
  · exact absurd (Prod.mk.inj (Option.some.inj h)).2 nofun
  · exact Option.some.inj (Prod.mk.inj (Option.some.inj h)).2

/-- The node of a `CVITPU_SUBMIT_DMABUF`, before its buffer is prepared. -/
def dmaNode (current addr : Nat) (arg : SubmitDmaArg) : Node where
  addr := addr
  pid := current
  seqNo := arg.seqNo
  dmabufFd := arg.fd
  tpuPath := .desNormal

/-- `cvi_tpu_submit`. The return value of `cvi_tpu_prepare_buffer` is dropped, so
the node is queued whether or not its buffer is ready. -/
def cviTpuSubmit (current addr : Nat) (env : SubmitEnv) (arg : SubmitDmaArg)
    (a : DmaAnswers) : Option (Int × Option (Node × List (Entry Hold))) :=
  let (node, _, holds) := cviTpuPrepareBuffer a (dmaNode current addr arg)
  submitNode env (node, holds)

/-- `cvi_tpu_submit_tee`. -/
def cviTpuSubmitTee (current addr : Nat) (env : SubmitEnv) (arg : SubmitTeeArg) :
    Option (Int × Option (Node × List (Entry Hold))) :=
  submitNode env
    ({ addr := addr, pid := current, seqNo := arg.seqNo, dmabufVaddr := none,
       teeInfo :=
        { dmabufPaddr := arg.dmabufTeeAddr, gaddrBase2 := arg.gaddrBase2,
          gaddrBase3 := arg.gaddrBase3, gaddrBase4 := arg.gaddrBase4,
          gaddrBase5 := arg.gaddrBase5, gaddrBase6 := arg.gaddrBase6,
          gaddrBase7 := arg.gaddrBase7 },
       tpuPath := .desSec }, [])

/-- `cvi_tpu_submit_pio`. Its sequence number goes to `pio_seq_no`, and a 1-D
request leaves the 2-D fields zero (and the other way round). -/
def cviTpuSubmitPio (current addr : Nat) (env : SubmitEnv) (arg : TdmaCopyArg) :
    Option (Int × Option (Node × List (Entry Hold))) :=
  submitNode env
    ({ addr := addr, pid := current, pioSeqNo := arg.seqNo, tpuPath := .pioTdma,
       pioInfo :=
        if arg.enable2d ≠ 0 then
          { enable2d := 1, paddrSrc := arg.paddrSrc, paddrDst := arg.paddrDst, h := arg.h,
            wBytes := arg.wBytes, strideBytesSrc := arg.strideBytesSrc,
            strideBytesDst := arg.strideBytesDst }
        else
          { paddrSrc := arg.paddrSrc, paddrDst := arg.paddrDst,
            lengBytes := arg.lengBytes } }, [])

/-! ## The done list -/

/-- `CVITPU_WAIT_DMABUF` and `CVITPU_WAIT_PIO`. -/
inductive WaitIoctl where
  | waitDmabuf
  | waitPio
  deriving DecidableEq, Repr

/-- The `path` each of them passes to `get_from_done_list`. -/
def WaitIoctl.path : WaitIoctl → TpuPath
  | waitDmabuf => .desNormal
  | waitPio => .pioTdma

/-- The test of `get_from_done_list`: a PIO wait compares `pio_seq_no`, the other
one compares `seq_no`. Neither looks at the node's own path. -/
def doneMatch (current : Nat) (seqNo : BitVec 32) (path : TpuPath) (pos : Node) : Bool :=
  if path = .pioTdma then decide (pos.pid = current) && decide (pos.pioSeqNo = seqNo)
  else decide (pos.pid = current) && decide (pos.seqNo = seqNo)

/-- `get_from_done_list`: the first match. -/
def getFromDoneList (current : Nat) (seqNo : BitVec 32) (path : TpuPath)
    (doneList : List Node) : Option Node :=
  doneList.find? (doneMatch current seqNo path)

/-- The nodes `get_from_done_list` reads on the way, the match included. -/
def walked (current : Nat) (seqNo : BitVec 32) (path : TpuPath) (doneList : List Node) :
    List Node :=
  doneList.takeWhile (fun pos => !doneMatch current seqNo path pos) ++
    (getFromDoneList current seqNo path doneList).toList

/-- Whether `cvi_tpu_cleanup_done_list` finds the node's `pid` among the
processes. -/
def alive (P : ProcTable) (reaped : List Nat) (pos : Node) : Bool :=
  decide (pos.pid ∈ forEachProcess P reaped)

/-- `cvi_tpu_cleanup_done_list`: below the limit it leaves the list alone, else
it drops every node whose `pid` is not the id of a process. -/
def cviTpuCleanupDoneList (P : ProcTable) (reaped : List Nat) (doneList : List Node) :
    List Node :=
  if doneList.length < DONE_LIST_MAX then doneList
  else doneList.filter (alive P reaped)

/-! ## The machine -/

/-- Where the worker is in `work_thread_run`. -/
inductive WorkerPhase where
  /-- waiting for a task -/
  | idle
  /-- a node taken off the task list, about to run -/
  | taken (n : Node)
  /-- the node has run and was cleaned up, its `ret` is set -/
  | ran (n : Node)
  /-- the node is on the done list, the purge is next -/
  | appended
  /-- killed by a `NULL` dereference in `platform_run_dmabuf` -/
  | oops
  /-- past `work_thread_exit` -/
  | stopped
  deriving DecidableEq

/-- The node the worker has in hand. -/
def WorkerPhase.nodes : WorkerPhase → List Node
  | taken n => [n]
  | ran n => [n]
  | _ => []

/-- Where a thread is in a wait ioctl. -/
inductive WaitPhase where
  /-- in none -/
  | user
  /-- in `wait_event_interruptible` -/
  | waiting (io : WaitIoctl) (seqNo : BitVec 32)
  /-- the wait condition held -/
  | woken (io : WaitIoctl) (seqNo : BitVec 32)
  /-- `node` points to the node at `addr` -/
  | found (io : WaitIoctl) (seqNo : BitVec 32) (addr : Nat)
  /-- `node->ret` was read and copied out, `copy_to_user` returning `uncopied` -/
  | read (io : WaitIoctl) (seqNo : BitVec 32) (addr : Nat) (ret : Int) (uncopied : Nat)
  deriving DecidableEq

/-- The node a waiter has a pointer to. -/
def WaitPhase.pointer : WaitPhase → Option Nat
  | found _ _ addr => some addr
  | read _ _ addr _ _ => some addr
  | _ => none

/-- The driver's queues, its worker and the threads. -/
structure QueueState where
  /-- the next address `vmalloc` returns; also names ioctls that hold a buffer -/
  nextAddr : Nat := 0
  taskList : List Node := []
  worker : WorkerPhase := .idle
  doneList : List Node := []
  waiter : Nat → WaitPhase := fun _ => .user
  exited : List Nat := []
  reaped : List Nat := []

/-- All nodes the driver holds, oldest first. -/
def QueueState.nodes (s : QueueState) : List Node :=
  s.doneList ++ (s.worker.nodes ++ s.taskList)

/-- What can happen next. -/
inductive QueueAction where
  | submit (current : Nat) (env : SubmitEnv) (arg : SubmitDmaArg) (a : DmaAnswers)
  | submitTee (current : Nat) (env : SubmitEnv) (arg : SubmitTeeArg)
  | submitPio (current : Nat) (env : SubmitEnv) (arg : TdmaCopyArg)
  | getPaddr (current : Nat) (copyIn copyOut : Bool) (a : DmaAnswers)
  | mapDmabuf (current : Nat) (getUser : Int) (a : DmaAnswers)
  | workTake
  /-- `ret` is what the hardware layer returns for the node -/
  | workRun (ret : Int)
  | workAppend
  | workPurge
  | waitCall (current : Nat) (io : WaitIoctl) (seqNo : BitVec 32)
  | waitTest (current : Nat)
  | waitSignal (current : Nat)
  | waitLookup (current : Nat)
  /-- `garbage` is what a read of a freed node returns -/
  | waitRead (current : Nat) (uncopied : Nat) (garbage : Int)
  | waitRemove (current : Nat)
  | threadExit (t : Nat)
  | reap (p : Nat)
  | remove

/-- What a step makes visible. -/
inductive QueueEvent where
  /-- the node or ioctl `owner` takes or drops a hold on its buffer -/
  | hold (owner : Nat) (e : Entry Hold)
  /-- thread `pid` queued a node with this sequence number on this path -/
  | submitted (pid : Nat) (path : TpuPath) (seqNo : BitVec 32) (addr : Nat)
  /-- the worker took the node off the task list -/
  | started (addr : Nat)
  /-- `platform_run_dmabuf` was entered with this `dmabuf_v` -/
  | enterRunDmabuf (addr : Nat) (dmabufV : Option Nat)
  /-- the node went to the done list with this result -/
  | appended (addr : Nat) (ret : Int)
  /-- the purge chose the node of this submitter -/
  | purged (addr : Nat) (pid : Nat)
  | read (addr : Nat)
  | unlink (addr : Nat)
  | free (addr : Nat)
  /-- a wait ioctl handed a result back and returned `status` -/
  | waitReturned (current : Nat) (io : WaitIoctl) (seqNo : BitVec 32) (addr : Nat)
      (ret : Int) (status : Nat)
  | exited (t : Nat)
  deriving DecidableEq

/-- The thread exists, has not exited and is not inside a wait ioctl. -/
def QueueState.CanCall (P : ProcTable) (s : QueueState) (t : Nat) : Prop :=
  t ∈ P.threads ∧ t ∉ s.exited ∧ s.waiter t = .user

instance (P : ProcTable) (s : QueueState) (t : Nat) : Decidable (s.CanCall P t) :=
  inferInstanceAs (Decidable (_ ∧ _))

/-- Queue what a submit made. -/
def QueueState.enqueue (s : QueueState) (current : Nat) (path : TpuPath) (seqNo : BitVec 32) :
    Option (Int × Option (Node × List (Entry Hold))) → Option (QueueState × List QueueEvent)
  | none => none
  | some (_, none) => some (s, [])
  | some (_, some (node, holds)) =>
    some ({ s with nextAddr := s.nextAddr + 1, taskList := s.taskList ++ [node] },
      holds.map (.hold s.nextAddr) ++ [.submitted current path seqNo s.nextAddr])

/-- An ioctl that holds a buffer for the length of the call. -/
def QueueState.briefly (s : QueueState) (holds : List (Entry Hold)) :
    Option (QueueState × List QueueEvent) :=
  some ({ s with nextAddr := s.nextAddr + 1 }, holds.map (.hold s.nextAddr))

/-- `cvi_tpu_run_dmabuf` and `cvi_tpu_cleanup_buffer` on the node in hand. The
secure path is a stub that returns `0`; the normal path reads the header through
`dmabuf_vaddr` first of all, so `NULL` there kills the worker. -/
def QueueState.workRun (s : QueueState) (n : Node) (ret : Int) :
    QueueState × List QueueEvent :=
  match n.tpuPath with
  | .desNormal =>
    match n.dmabufVaddr with
    | none => ({ s with worker := .oops }, [.enterRunDmabuf n.addr none])
    | some v =>
      ({ s with worker := .ran { n with ret := ret } },
        .enterRunDmabuf n.addr (some v) :: (cviTpuCleanupBuffer n).map (.hold n.addr))
  | .desSec => ({ s with worker := .ran { n with ret := 0 } }, [])
  | .pioTdma => ({ s with worker := .ran { n with ret := ret } }, [])

/-- One turn of the purge loop: the node's `pid` is read, and a node that is not
alive is unlinked and freed. -/
def purgeVisit (P : ProcTable) (reaped : List Nat) (pos : Node) : List QueueEvent :=
  .read pos.addr ::
    (if alive P reaped pos then []
     else [.purged pos.addr pos.pid, .unlink pos.addr, .free pos.addr])

/-- The events of the purge. -/
def purgeEvents (P : ProcTable) (reaped : List Nat) (doneList : List Node) :
    List QueueEvent :=
  if doneList.length < DONE_LIST_MAX then [] else doneList.flatMap (purgeVisit P reaped)

/-- The result a waiter reads through its pointer. -/
def readRet (doneList : List Node) (addr : Nat) (garbage : Int) : Int :=
  match doneList.find? (fun n => decide (n.addr = addr)) with
  | some n => n.ret
  | none => garbage

/-- One step of the driver. A submit prepares its node and links it into the task list in
one step: the node is the caller's own until it is linked, and what the other threads do in
between they might as well do before the step. -/
def queueStep (P : ProcTable) (s : QueueState) :
    QueueAction → Option (QueueState × List QueueEvent)
  | .submit t env arg a =>
    if s.CanCall P t then
      s.enqueue t .desNormal arg.seqNo (cviTpuSubmit t s.nextAddr env arg a)
    else none
  | .submitTee t env arg =>
    if s.CanCall P t then
      s.enqueue t .desSec arg.seqNo (cviTpuSubmitTee t s.nextAddr env arg)
    else none
  | .submitPio t env arg =>
    if s.CanCall P t then
      s.enqueue t .pioTdma arg.seqNo (cviTpuSubmitPio t s.nextAddr env arg)
    else none
  | .getPaddr t copyIn copyOut a =>
    if s.CanCall P t then s.briefly (cviTpuGetPaddr copyIn copyOut a).2.2 else none
  | .mapDmabuf t getUser a =>
    if s.CanCall P t then s.briefly (cviTpuMapDmabuf getUser a).2 else none
  | .workTake =>
    match s.worker, s.taskList with
    | .idle, n :: rest =>
      some ({ s with worker := .taken n, taskList := rest }, [.started n.addr])
    | _, _ => none
  | .workRun ret =>
    match s.worker with
    | .taken n => some (s.workRun n ret)
    | _ => none
  | .workAppend =>
    match s.worker with
    | .ran n =>
      some ({ s with worker := .appended, doneList := s.doneList ++ [n] },
        [.appended n.addr n.ret])
    | _ => none
  | .workPurge =>
    match s.worker with
    | .appended =>
      some ({ s with worker := .idle,
                     doneList := cviTpuCleanupDoneList P s.reaped s.doneList },
        purgeEvents P s.reaped s.doneList)
    | _ => none
  | .waitCall t io seqNo =>
    if s.CanCall P t then
      some ({ s with waiter := Function.update s.waiter t (.waiting io seqNo) }, [])
    else none
  | .waitTest t =>
    match s.waiter t with
    | .waiting io seqNo =>
      let reads := (walked t seqNo io.path s.doneList).map fun n => .read n.addr
      match getFromDoneList t seqNo io.path s.doneList with
      | some _ => some ({ s with waiter := Function.update s.waiter t (.woken io seqNo) }, reads)
      | none => some (s, reads)
    | _ => none
  | .waitSignal t =>
    match s.waiter t with
    | .waiting _ _ => some ({ s with waiter := Function.update s.waiter t .user }, [])
    | _ => none
  | .waitLookup t =>
    match s.waiter t with
    | .woken io seqNo =>
      let reads := (walked t seqNo io.path s.doneList).map fun n => .read n.addr
      match getFromDoneList t seqNo io.path s.doneList with
      | some n =>
        some ({ s with waiter := Function.update s.waiter t (.found io seqNo n.addr) }, reads)
      | none => some ({ s with waiter := Function.update s.waiter t .user }, reads)
    | _ => none
  | .waitRead t uncopied garbage =>
    match s.waiter t with
    | .found io seqNo addr =>
      let ret := readRet s.doneList addr garbage
      some ({ s with waiter := Function.update s.waiter t (.read io seqNo addr ret uncopied) },
        [.read addr])
    | _ => none
  | .waitRemove t =>
    match s.waiter t with
    | .read io seqNo addr ret uncopied =>
      some ({ s with waiter := Function.update s.waiter t .user,
                     doneList := s.doneList.filter fun n => decide (n.addr ≠ addr) },
        [.unlink addr, .free addr, .waitReturned t io seqNo addr ret uncopied])
    | _ => none
  | .threadExit t =>
    if t ∈ P.threads ∧ t ∉ s.exited then
      -- whatever the thread was doing in the driver ends with it
      some ({ s with exited := t :: s.exited, waiter := Function.update s.waiter t .user },
        [.exited t])
    else none
  | .reap p =>
    if p ∈ s.exited ∧ ∀ t ∈ P.threads, P.tgid t = p → t ∈ s.exited then
      some ({ s with reaped := p :: s.reaped }, [])
    else none
  | .remove =>
    match s.worker with
    | .idle =>
      some ({ s with worker := .stopped, taskList := [], doneList := [] },
        (s.taskList ++ s.doneList).flatMap fun n => [.unlink n.addr, .free n.addr])
    -- the dead worker never reaches `work_thread_exit`
    | .oops => some (s, [])
    | _ => none

/-- The driver's queues as a machine. -/
def tpuQueue (P : ProcTable) : Machine QueueState QueueAction QueueEvent where
  step := queueStep P

end LicheeRvNano
