import LicheeRvNano.TpuBalance
import LicheeRvNano.TpuLifetime

/-!
# TPU driver: delivery of results

One done list serves three submission paths. A PIO node carries its sequence
number in `pio_seq_no` and has zero in `seq_no`; the other two paths have it the
other way round. `get_from_done_list` compares one of the two fields and does not
look at the path of the node, so a wait for number `0` also matches any result of
the other class.

`Delivered` is the contract: tasks are started and finished in the order they
were submitted, each once, and every wait hands out a result of its caller, with
the number asked for, from the right class, and for the first time. It holds in
every run in which no such match comes first (`Unshadowed`), every prepare
succeeds, and no purge takes the node of a waiter that is not a group leader.
-/

namespace LicheeRvNano

/-! ## The contract -/

/-- The path classes of the two waits: `WAIT_PIO` is for PIO tasks, `WAIT_DMABUF`
for the other two paths. -/
def WaitIoctl.Serves (io : WaitIoctl) (path : TpuPath) : Prop :=
  io = .waitPio ↔ path = .pioTdma

instance (io : WaitIoctl) (path : TpuPath) : Decidable (io.Serves path) :=
  inferInstanceAs (Decidable (_ ↔ _))

/-- The sequence number a node was submitted with. -/
def Node.key (n : Node) : BitVec 32 :=
  if n.tpuPath = .pioTdma then n.pioSeqNo else n.seqNo

/-- The key field the node's path leaves alone. -/
def Node.otherKey (n : Node) : BitVec 32 :=
  if n.tpuPath = .pioTdma then n.seqNo else n.pioSeqNo

def QueueEvent.submittedAddr : QueueEvent → Option Nat
  | submitted _ _ _ addr => some addr
  | _ => none

def QueueEvent.startedAddr : QueueEvent → Option Nat
  | started addr => some addr
  | _ => none

def QueueEvent.appendedAddr : QueueEvent → Option Nat
  | appended addr _ => some addr
  | _ => none

/-- The tasks in the order they were submitted. -/
def submits (log : List QueueEvent) : List Nat := log.filterMap QueueEvent.submittedAddr

/-- The tasks in the order the worker took them. -/
def starts (log : List QueueEvent) : List Nat := log.filterMap QueueEvent.startedAddr

/-- The tasks in the order they went to the done list. -/
def appends (log : List QueueEvent) : List Nat := log.filterMap QueueEvent.appendedAddr

/-- A wait that hands out a result: the caller submitted that task with the
number it asks for, on a path the wait is for, the result is the one the worker
recorded, the node is gone, and no wait had it before. -/
def DeliverOk (past : List QueueEvent) : QueueEvent → Prop
  | .waitReturned t io seqNo addr ret _ =>
    (∃ path, io.Serves path ∧ .submitted t path seqNo addr ∈ past) ∧
      .appended addr ret ∈ past ∧ .free addr ∈ past ∧
      ∀ t' io' seqNo' ret' status', .waitReturned t' io' seqNo' addr ret' status' ∉ past
  | _ => True

/-- The worker's own actions. -/
def QueueAction.ByWorker : QueueAction → Prop
  | workTake => True
  | workRun _ => True
  | workAppend => True
  | workPurge => True
  | _ => False

/-- The contract of a run that ends in `s` with this log. -/
structure Delivered (P : ProcTable) (s : QueueState) (log : List QueueEvent) : Prop where
  /-- no task is submitted twice -/
  unique : (submits log).Nodup
  /-- tasks are executed in submission order -/
  executed : starts log <+: submits log
  /-- tasks go to the done list in that order, none twice -/
  moved : appends log <+: submits log
  /-- and the worker, left alone, moves all of them -/
  finishes : ∃ ws s' log', (∀ a ∈ ws, a.ByWorker) ∧
    (tpuQueue P).exec s ws = some (s', log') ∧ appends (log ++ log') = submits log
  judged : Judged DeliverOk [] log

/-! ## The condition -/

/-- The result a wait with number `0` is for. -/
def Own (t : Nat) (io : WaitIoctl) (n : Node) : Prop :=
  n.pid = t ∧ io.Serves n.tpuPath ∧ n.key = 0

instance (t : Nat) (io : WaitIoctl) (n : Node) : Decidable (Own t io n) :=
  inferInstanceAs (Decidable (_ ∧ _))

/-- On the done list no result of thread `t` from the other class stands before
the first one that is numbered `0` and of the wait's class. -/
def Unshadowed (t : Nat) (io : WaitIoctl) (doneList : List Node) : Prop :=
  ∀ n ∈ doneList.takeWhile (fun m => !decide (Own t io m)), n.pid = t → io.Serves n.tpuPath

instance (t : Nat) (io : WaitIoctl) (doneList : List Node) : Decidable (Unshadowed t io doneList) :=
  inferInstanceAs (Decidable (∀ n ∈ _, _ → _))

/-- The condition of a lookup for number `0`. -/
def LookupCond (t : Nat) (doneList : List Node) : WaitPhase → Prop
  | .woken io seqNo => seqNo = 0 → Unshadowed t io doneList
  | _ => True

instance (t : Nat) (doneList : List Node) : ∀ p, Decidable (LookupCond t doneList p)
  | .woken .. => inferInstanceAs (Decidable (_ → _))
  | .user | .waiting .. | .found .. | .read .. => isTrue trivial

/-- The condition on each step: every prepare succeeds, a lookup for number `0`
is not shadowed, and at a purge over the limit every waiter that has looked up
its node leads its thread group. Device removal is not among the steps. -/
def DeliverCond (P : ProcTable) (s : QueueState) : QueueAction → Prop
  | .submit _ env _ a => env.uncopied = 0 → env.vmalloc = true → a.Succeed
  | .waitLookup t => LookupCond t s.doneList (s.waiter t)
  | .workPurge =>
    DONE_LIST_MAX ≤ s.doneList.length →
      ∀ t ∈ P.threads, (s.waiter t).pointer ≠ none → P.tgid t = t
  | .remove => False
  | _ => True

instance (P : ProcTable) (s : QueueState) : ∀ a, Decidable (DeliverCond P s a)
  | .submit .. => inferInstanceAs (Decidable (_ → _))
  | .waitLookup t => inferInstanceAs (Decidable (LookupCond t s.doneList (s.waiter t)))
  | .workPurge => inferInstanceAs (Decidable (_ → _))
  | .remove => isFalse id
  | .submitTee .. | .submitPio .. | .getPaddr .. | .mapDmabuf .. | .workTake | .workRun _
  | .workAppend | .waitCall .. | .waitTest _ | .waitSignal _ | .waitRead .. | .waitRemove _
  | .threadExit _ | .reap _ => isTrue trivial

/-! ## The lookup -/

/-- A first match that is not of the wanted kind stands before all that are. -/
theorem mem_takeWhile_of_find {α : Type*} {p : α → Bool} {own : α → Prop} [DecidablePred own]
    (hown : ∀ x, own x → p x = true) {n : α} (hn : ¬ own n) :
    ∀ {l : List α}, l.find? p = some n → n ∈ l.takeWhile (fun m => !decide (own m)) := by
  intro l
  induction l with
  | nil =>
    intro h
    cases h
  | cons x l ih =>
    intro h
    rw [List.find?_cons] at h
    split at h
    · obtain rfl := Option.some.inj h
      simp [hn]
    · rename_i hx
      have hox : ¬ own x := fun ho => by simp [hown x ho] at hx
      simp [hox, ih h]

/-- A lookup that is not shadowed finds a node of the caller's, of the right class
and with the number asked for. -/
theorem lookup_right {t : Nat} {io : WaitIoctl} {seqNo : BitVec 32} {l : List Node} {n : Node}
    (hg : getFromDoneList t seqNo io.path l = some n) (ho : n.otherKey = 0)
    (hc : seqNo = 0 → Unshadowed t io l) :
    n.pid = t ∧ io.Serves n.tpuPath ∧ n.key = seqNo := by
  have hm := List.find?_some hg
  have hpid : n.pid = t := by
    unfold doneMatch at hm
    split_ifs at hm <;> simp only [Bool.and_eq_true, decide_eq_true_eq] at hm <;> exact hm.1
  by_cases hserves : io.Serves n.tpuPath
  · refine ⟨hpid, hserves, ?_⟩
    cases io <;> simp_all [doneMatch, WaitIoctl.path, WaitIoctl.Serves, Node.key]
  · -- the field compared is the one the node's path leaves zero
    have hzero : seqNo = 0 := by
      cases io <;> simp_all [doneMatch, WaitIoctl.path, WaitIoctl.Serves, Node.otherKey]
    subst hzero
    refine absurd (hc rfl n ?_ hpid) hserves
    refine mem_takeWhile_of_find ?_ (fun hown => hserves hown.2.1) hg
    rintro m ⟨hmt, hms, hmk⟩
    cases io <;> simp_all [doneMatch, WaitIoctl.path, WaitIoctl.Serves, Node.key]

/-! ## The invariant -/

/-- A waiter that has looked up its node: the node is on the done list and is one
the wait may hand out. -/
def Pinned (doneList : List Node) (t : Nat) : WaitPhase → Prop
  | .found io seqNo addr =>
    ∃ n ∈ doneList, n.addr = addr ∧ n.pid = t ∧ io.Serves n.tpuPath ∧ n.key = seqNo
  | .read io seqNo addr ret _ =>
    ∃ n ∈ doneList, n.addr = addr ∧ n.pid = t ∧ io.Serves n.tpuPath ∧ n.key = seqNo ∧
      n.ret = ret
  | _ => True

structure DeliverInv (P : ProcTable) (s : QueueState) (log : List QueueEvent) : Prop where
  balance : BalanceInv s log
  threads : Threads P s
  running : s.worker ≠ .oops ∧ s.worker ≠ .stopped
  submitted : submits log = appends log ++ (s.worker.nodes ++ s.taskList).map Node.addr
  started : starts log = appends log ++ s.worker.nodes.map Node.addr
  /-- a node carries the number it was submitted with, and zero in the other field -/
  known : ∀ n ∈ s.nodes, .submitted n.pid n.tpuPath n.key n.addr ∈ log ∧ n.otherKey = 0
  finished : ∀ n ∈ s.doneList, .appended n.addr n.ret ∈ log
  /-- no node the driver still holds was handed out -/
  kept : ∀ n ∈ s.nodes, ∀ t io seqNo ret status,
    .waitReturned t io seqNo n.addr ret status ∉ log
  pinned : ∀ t, Pinned s.doneList t (s.waiter t)
  judged : Judged DeliverOk [] log

/-! ## Order -/

theorem submits_append (l m : List QueueEvent) : submits (l ++ m) = submits l ++ submits m :=
  List.filterMap_append

theorem starts_append (l m : List QueueEvent) : starts (l ++ m) = starts l ++ starts m :=
  List.filterMap_append

theorem appends_append (l m : List QueueEvent) : appends (l ++ m) = appends l ++ appends m :=
  List.filterMap_append

/-- An event that says nothing about the order of tasks. -/
def QueueEvent.Unordered (e : QueueEvent) : Prop :=
  e.submittedAddr = none ∧ e.startedAddr = none ∧ e.appendedAddr = none

theorem unordered_nil {ev : List QueueEvent} (h : ∀ e ∈ ev, e.Unordered) :
    submits ev = [] ∧ starts ev = [] ∧ appends ev = [] :=
  ⟨List.filterMap_eq_nil_iff.mpr fun e he => (h e he).1,
    List.filterMap_eq_nil_iff.mpr fun e he => (h e he).2.1,
    List.filterMap_eq_nil_iff.mpr fun e he => (h e he).2.2⟩

theorem unordered_holds (owner : Nat) (l : List (Entry Hold)) :
    ∀ e ∈ l.map (QueueEvent.hold owner), e.Unordered := by
  intro e he
  obtain ⟨x, -, rfl⟩ := List.mem_map.mp he
  exact ⟨rfl, rfl, rfl⟩

theorem unordered_reads (l : List Node) :
    ∀ e ∈ l.map fun n => QueueEvent.read n.addr, e.Unordered := by
  intro e he
  obtain ⟨n, -, rfl⟩ := List.mem_map.mp he
  exact ⟨rfl, rfl, rfl⟩

theorem unordered_purge {P : ProcTable} {reaped : List Nat} {l : List Node} :
    ∀ e ∈ purgeEvents P reaped l, e.Unordered := by
  intro e he
  rcases purgeEvents_cases he with ⟨n, -, rfl | rfl | rfl | rfl⟩ <;> exact ⟨rfl, rfl, rfl⟩

/-- What a step does to the order of tasks: a submitted task goes to the end of
the line, the worker takes the first one, and appends the one it has in hand. -/
theorem QueueStep.order {P : ProcTable} {s s' : QueueState} {a : QueueAction}
    {log ev : List QueueEvent} (h : QueueStep P s a s' ev) (ha : a ≠ .remove)
    (hoops : s'.worker ≠ .oops)
    (hsub : submits log = appends log ++ (s.worker.nodes ++ s.taskList).map Node.addr)
    (hsta : starts log = appends log ++ s.worker.nodes.map Node.addr) :
    submits (log ++ ev) = appends (log ++ ev) ++ (s'.worker.nodes ++ s'.taskList).map Node.addr ∧
      starts (log ++ ev) = appends (log ++ ev) ++ s'.worker.nodes.map Node.addr := by
  rw [submits_append, starts_append, appends_append]
  have same : (∀ e ∈ ev, e.Unordered) →
      s'.worker.nodes.map Node.addr = s.worker.nodes.map Node.addr → s'.taskList = s.taskList →
      submits log ++ submits ev =
        appends log ++ appends ev ++ (s'.worker.nodes ++ s'.taskList).map Node.addr ∧
      starts log ++ starts ev = appends log ++ appends ev ++ s'.worker.nodes.map Node.addr := by
    intro hev hn ht
    obtain ⟨h₁, h₂, h₃⟩ := unordered_nil hev
    rw [h₁, h₂, h₃, List.append_nil, List.append_nil, List.append_nil, List.map_append, hn, ht,
      ← List.map_append]
    exact ⟨hsub, hsta⟩
  cases h with
  | @submit _ t path seqNo node holds hcall hmade =>
    obtain ⟨h₁, h₂, h₃⟩ := unordered_nil (unordered_holds s.nextAddr holds)
    have e₁ : submits [.submitted t path seqNo s.nextAddr] = [node.addr] := by
      rw [hmade.fields.1]
      rfl
    have e₂ : starts [.submitted t path seqNo s.nextAddr] = [] := rfl
    have e₃ : appends [.submitted t path seqNo s.nextAddr] = [] := rfl
    rw [submits_append, starts_append, appends_append, h₁, h₂, h₃, e₁, e₂, e₃, hsub, hsta]
    simp
  | @take n rest hw ht =>
    have e₁ : submits [.started n.addr] = [] := rfl
    have e₂ : starts [.started n.addr] = [n.addr] := rfl
    have e₃ : appends [.started n.addr] = [] := rfl
    rw [e₁, e₂, e₃, hsub, hsta, hw, ht]
    simp [WorkerPhase.nodes]
  | @append n hw =>
    have e₁ : submits [.appended n.addr n.ret] = [] := rfl
    have e₂ : starts [.appended n.addr n.ret] = [] := rfl
    have e₃ : appends [.appended n.addr n.ret] = [n.addr] := rfl
    rw [e₁, e₂, e₃, hsub, hsta, hw]
    simp [WorkerPhase.nodes]
  | remove => exact absurd rfl ha
  | oops => exact absurd rfl hoops
  | brief => exact same (unordered_holds _ _) rfl rfl
  | run hw =>
    refine same ?_ (by simp [hw, WorkerPhase.nodes]) rfl
    intro e he
    rcases List.mem_cons.mp he with rfl | he
    · exact ⟨rfl, rfl, rfl⟩
    · exact unordered_holds _ _ e he
  | runOther hw => exact same (by simp) (by simp [hw, WorkerPhase.nodes]) rfl
  | purge hw => exact same unordered_purge (by simp [hw, WorkerPhase.nodes]) rfl
  | waitWoken | waitAgain | waitFound | waitLost => exact same (unordered_reads _) rfl rfl
  | _ =>
    exact same (by simp [QueueEvent.Unordered, QueueEvent.submittedAddr, QueueEvent.startedAddr,
      QueueEvent.appendedAddr]) rfl rfl

/-! ## The step -/

/-- A wait hands out a node that leaves the driver. -/
theorem DeliverInv.returned_gone {P : ProcTable} {s s' : QueueState} {a : QueueAction}
    {log ev : List QueueEvent} (hI : DeliverInv P s log) (h : QueueStep P s a s' ev)
    {t : Nat} {io : WaitIoctl} {seqNo : BitVec 32} {addr : Nat} {ret : Int} {status : Nat}
    (he : .waitReturned t io seqNo addr ret status ∈ ev) : ∀ n ∈ s'.nodes, n.addr ≠ addr := by
  cases h with
  | @waitRemove u io' seqNo' addr' ret' uncopied hw =>
    obtain ⟨-, -, -, rfl, -, -⟩ : t = u ∧ io = io' ∧ seqNo = seqNo' ∧ addr = addr' ∧ ret = ret' ∧
        status = uncopied := by simpa using he
    have hp := hI.pinned u
    rw [hw] at hp
    obtain ⟨m, hm, hma, -⟩ := hp
    intro n hn hna
    simp only [QueueState.nodes, List.mem_append, List.mem_filter] at hn
    rcases hn with ⟨-, hne⟩ | hn
    · exact of_decide_eq_true hne hna
    · have := hI.balance.shape.done_lt hm (List.mem_append.mpr hn)
      omega
  | purge =>
    obtain ⟨n, -, he | he | he | he⟩ := purgeEvents_cases he <;> cases he
  | waitWoken | waitAgain | waitFound | waitLost =>
    obtain ⟨n, -, he⟩ := List.mem_map.mp he
    cases he
  | remove =>
    obtain ⟨n, -, he⟩ := List.mem_flatMap.mp he
    simp at he
  | submit | brief | run => simp at he
  | _ => simp at he

/-- A pinned node stays where it is. A purge spares it because its submitter is
the waiter, who is alive and leads its group; another waiter removes a node of
its own. -/
theorem DeliverInv.stays {P : ProcTable} {s s' : QueueState} {a : QueueAction}
    {log ev : List QueueEvent} (hI : DeliverInv P s log) (hc : DeliverCond P s a)
    (h : QueueStep P s a s' ev) {t : Nat} {n : Node} (hn : n ∈ s.doneList) (hnt : n.pid = t)
    (hp : (s.waiter t).pointer = some n.addr) (hp' : (s'.waiter t).pointer = some n.addr) :
    n ∈ s'.doneList := by
  cases h with
  | append => exact List.mem_append_left _ hn
  | purge =>
    unfold cviTpuCleanupDoneList
    split_ifs with hlen
    · exact hn
    · have hu : s.waiter t ≠ .user := by
        intro hu
        rw [hu] at hp
        cases hp
      obtain ⟨hthread, hx⟩ := hI.threads.present t hu
      have hlead := hc (Nat.le_of_not_lt hlen) t hthread (by rw [hp]; simp)
      refine List.mem_filter.mpr ⟨hn, ?_⟩
      refine hI.threads.alive_of_leader (List.mem_append_left _ hn) ?_ ?_
      · rw [hnt]
        exact hlead
      · rw [hnt]
        exact hx
  | @waitRemove u _ _ addr' _ _ hw =>
    refine List.mem_filter.mpr ⟨hn, decide_eq_true ?_⟩
    intro hna
    have hpin := hI.pinned u
    rw [hw] at hpin
    obtain ⟨m, hm, hma, hmu, -⟩ := hpin
    obtain rfl : n = m := hI.balance.shape.node_ext (List.mem_append_left _ hn)
      (List.mem_append_left _ hm) (hna.trans hma.symm)
    obtain rfl : t = u := hnt.symm.trans hmu
    simp [WaitPhase.pointer] at hp'
  | remove => exact absurd hc (by simp [DeliverCond])
  | _ => exact hn

/-- A pinned phase stays pinned as long as its node does. -/
theorem Pinned.mono {l l' : List Node} {t : Nat} {p : WaitPhase} (h : Pinned l t p)
    (hl : ∀ n ∈ l, n.pid = t → p.pointer = some n.addr → n ∈ l') : Pinned l' t p := by
  cases p with
  | found io seqNo addr =>
    obtain ⟨n, hn, rfl, hnt, hrest⟩ := h
    exact ⟨n, hl n hn hnt rfl, rfl, hnt, hrest⟩
  | read io seqNo addr ret uncopied =>
    obtain ⟨n, hn, rfl, hnt, hrest⟩ := h
    exact ⟨n, hl n hn hnt rfl, rfl, hnt, hrest⟩
  | _ => trivial

/-- A waiter whose node is on the done list reads that node's result. -/
theorem Shape.readRet_eq {s : QueueState} {log : List QueueEvent} (hS : Shape s log) {n : Node}
    (hn : n ∈ s.doneList) (garbage : Int) : readRet s.doneList n.addr garbage = n.ret := by
  unfold readRet
  split
  · rename_i m hm
    have hma : m.addr = n.addr := by simpa using List.find?_some hm
    rw [hS.node_ext (List.mem_append_left _ (List.mem_of_find?_eq_some hm))
      (List.mem_append_left _ hn) hma]
  · rename_i hnone
    have := List.find?_eq_none.mp hnone n hn
    simp at this

theorem DeliverInv.pinned_step {P : ProcTable} {s s' : QueueState} {a : QueueAction}
    {log ev : List QueueEvent} (hI : DeliverInv P s log) (hc : DeliverCond P s a)
    (h : QueueStep P s a s' ev) (t : Nat) : Pinned s'.doneList t (s'.waiter t) := by
  have hS := hI.balance.shape
  have same : s'.waiter t = s.waiter t → Pinned s'.doneList t (s'.waiter t) := by
    intro hsame
    rw [hsame]
    refine (hI.pinned t).mono ?_
    intro n hn hnt hp
    exact hI.stays hc h hn hnt hp (by rw [hsame, hp])
  cases h with
  | @waitCall u | @waitWoken u | @waitSignal u | @waitLost u | @waitRemove u | @exit u =>
    by_cases htu : t = u
    · subst htu
      simp only [Function.update_self]
      trivial
    · exact same (by simp only [Function.update_of_ne htu])
  | @waitFound u io seqNo n hw hg =>
    by_cases htu : t = u
    · subst htu
      simp only [Function.update_self]
      have hn : n ∈ s.doneList := List.mem_of_find?_eq_some hg
      have hc : LookupCond t s.doneList (s.waiter t) := hc
      rw [hw] at hc
      have hright := lookup_right hg (hI.known n (List.mem_append_left _ hn)).2 hc
      exact ⟨n, hn, rfl, hright⟩
    · exact same (by simp only [Function.update_of_ne htu])
  | @waitRead u io seqNo addr uncopied garbage hw =>
    by_cases htu : t = u
    · subst htu
      simp only [Function.update_self]
      have hp := hI.pinned t
      rw [hw] at hp
      obtain ⟨n, hn, rfl, hnt, hserves, hkey⟩ := hp
      exact ⟨n, hn, rfl, hnt, hserves, hkey, (hS.readRet_eq hn garbage).symm⟩
    · exact same (by simp only [Function.update_of_ne htu])
  | _ => exact same rfl

/-- The events of a step keep the contract. -/
theorem DeliverInv.judged_step {P : ProcTable} {s s' : QueueState} {a : QueueAction}
    {log ev : List QueueEvent} (hI : DeliverInv P s log) (h : QueueStep P s a s' ev) :
    Judged DeliverOk log ev := by
  have other : (∀ e ∈ ev, ∀ past, DeliverOk past e) → Judged DeliverOk log ev :=
    fun hev => Judged.of_forall fun e he before => hev e he _
  cases h with
  | @waitRemove t io seqNo addr ret uncopied hw =>
    have hp := hI.pinned t
    rw [hw] at hp
    obtain ⟨n, hn, rfl, rfl, hserves, rfl, rfl⟩ := hp
    have hnode : n ∈ s.nodes := List.mem_append_left _ hn
    refine ⟨trivial, trivial, ⟨⟨n.tpuPath, hserves, ?_⟩, ?_, ?_, ?_⟩, trivial⟩
    · simpa using (hI.known n hnode).1
    · simpa using hI.finished n hn
    · simp
    · intro t' io' seqNo' ret' status'
      simpa using hI.kept n hnode t' io' seqNo' ret' status'
  | purge =>
    refine other ?_
    intro e he past
    obtain ⟨n, -, rfl | rfl | rfl | rfl⟩ := purgeEvents_cases he <;> trivial
  | waitWoken | waitAgain | waitFound | waitLost =>
    refine other ?_
    intro e he past
    obtain ⟨n, -, rfl⟩ := List.mem_map.mp he
    trivial
  | remove =>
    refine other ?_
    intro e he past
    obtain ⟨n, -, he⟩ := List.mem_flatMap.mp he
    simp only [List.mem_cons, List.not_mem_nil, or_false] at he
    rcases he with rfl | rfl <;> trivial
  | submit =>
    refine other ?_
    intro e he past
    rcases List.mem_append.mp he with he | he
    · obtain ⟨x, -, rfl⟩ := List.mem_map.mp he
      trivial
    · obtain rfl := List.mem_singleton.mp he
      trivial
  | brief =>
    refine other ?_
    intro e he past
    obtain ⟨x, -, rfl⟩ := List.mem_map.mp he
    trivial
  | run =>
    refine other ?_
    intro e he past
    rcases List.mem_cons.mp he with rfl | he
    · trivial
    · obtain ⟨x, -, rfl⟩ := List.mem_map.mp he
      trivial
  | _ => simp [DeliverOk]

theorem DeliverCond.balance {P : ProcTable} {s : QueueState} {a : QueueAction}
    (h : DeliverCond P s a) : BalanceCond s a := by
  cases a with
  | submit => exact h
  | remove => exact absurd h id
  | _ => trivial

/-- The worker neither dies nor stops. -/
theorem BalanceInv.running_step {P : ProcTable} {s s' : QueueState} {a : QueueAction}
    {log ev : List QueueEvent} (hI : BalanceInv s log) (ha : a ≠ .remove)
    (h : QueueStep P s a s' ev) (hw : s.worker ≠ .oops ∧ s.worker ≠ .stopped) :
    s'.worker ≠ .oops ∧ s'.worker ≠ .stopped := by
  cases h with
  | @oops n ret hwn hp hv =>
    have hn : n ∈ s.pending := by simp [QueueState.pending, hwn]
    exact absurd hv (hI.ready n hn hp).1
  | remove => exact absurd rfl ha
  | take | run | runOther | append | purge => simp
  | _ => exact hw

theorem deliverInv_start (P : ProcTable) : DeliverInv P {} [] where
  balance := balanceInv_start
  threads := threads_start P
  running := by simp
  submitted := rfl
  started := rfl
  known := by simp [QueueState.nodes, WorkerPhase.nodes]
  finished := by simp
  kept := by simp
  pinned := fun _ => trivial
  judged := trivial

/-- The invariant is kept by every step that meets the condition. -/
theorem DeliverInv.step {P : ProcTable} {s s' : QueueState} {a : QueueAction}
    {log ev : List QueueEvent} (hI : DeliverInv P s log) (hc : DeliverCond P s a)
    (h : QueueStep P s a s' ev) : DeliverInv P s' (log ++ ev) := by
  have ha : a ≠ .remove := by
    rintro rfl
    exact hc
  have hrun := hI.balance.running_step ha h hI.running
  obtain ⟨hsub, hsta⟩ := h.order ha hrun.1 hI.submitted hI.started
  refine ⟨hI.balance.step hc.balance h, hI.threads.step h, hrun, hsub, hsta, ?_, ?_, ?_,
    hI.pinned_step hc h, Judged.append_iff.mpr ⟨hI.judged, hI.judged_step h⟩⟩
  · intro n hn
    rcases h.nodes_cases with ⟨t, path, seqNo, node, _, _, hm, hn', _, hev⟩ | ⟨_, _, hall⟩
    · rw [hn'] at hn
      rcases List.mem_append.mp hn with hn | hn
      · exact ⟨List.mem_append_left _ (hI.known n hn).1, (hI.known n hn).2⟩
      · obtain rfl := List.mem_singleton.mp hn
        obtain ⟨haddr, hpid, hpath, hseq, hpio⟩ := hm.fields
        have hkey : n.key = seqNo := by
          unfold Node.key
          split_ifs with hp <;> simp_all
        have hother : n.otherKey = 0 := by
          unfold Node.otherKey
          split_ifs with hp <;> simp_all
        rw [hpid, hpath, hkey, haddr]
        exact ⟨List.mem_append_right _ hev, hother⟩
    · obtain ⟨m, hm, r, rfl⟩ := hall n hn
      exact ⟨List.mem_append_left _ (hI.known m hm).1, (hI.known m hm).2⟩
  · intro n hn
    cases h with
    | append =>
      rcases List.mem_append.mp hn with hn | hn
      · exact List.mem_append_left _ (hI.finished n hn)
      · obtain rfl := List.mem_singleton.mp hn
        simp
    | purge =>
      refine List.mem_append_left _ (hI.finished n ?_)
      unfold cviTpuCleanupDoneList at hn
      split_ifs at hn
      · exact hn
      · exact (List.mem_filter.mp hn).1
    | waitRemove => exact List.mem_append_left _ (hI.finished n (List.mem_filter.mp hn).1)
    | remove => exact absurd rfl ha
    | _ => exact List.mem_append_left _ (hI.finished n hn)
  · intro n hn t io seqNo ret status hmem
    rcases List.mem_append.mp hmem with hmem | hmem
    · rcases h.nodes_cases with ⟨_, _, _, node, _, _, hm, hn', _, _⟩ | ⟨_, _, hall⟩
      · rw [hn'] at hn
        rcases List.mem_append.mp hn with hn | hn
        · exact hI.kept n hn t io seqNo ret status hmem
        · obtain rfl := List.mem_singleton.mp hn
          have := hI.balance.shape.logBelow _ hmem n.addr rfl
          rw [hm.fields.1] at this
          omega
      · obtain ⟨m, hm, r, rfl⟩ := hall n hn
        exact hI.kept m hm t io seqNo ret status hmem
    · exact hI.returned_gone h hmem n hn rfl

/-- The invariant along a run. -/
theorem deliverInv_run {P : ProcTable} {as : List QueueAction} {s : QueueState}
    {log : List QueueEvent} (hm : (tpuQueue P).Meets (DeliverCond P) {} as)
    (he : (tpuQueue P).exec {} as = some (s, log)) : DeliverInv P s log :=
  Machine.exec_invariant_start (deliverInv_start P)
    (fun hI hc hs => hI.step hc (queueStep_cases hs)) hm he

/-! ## The worker gets through -/

/-- Where the worker gets to from `s` by itself, and what it appends on the way. -/
def WorkerReaches (P : ProcTable) (s : QueueState) (rest : List Node) (done : List Nat) : Prop :=
  ∃ ws s' log, (∀ a ∈ ws, QueueAction.ByWorker a) ∧ (tpuQueue P).exec s ws = some (s', log) ∧
    s'.worker = .idle ∧ s'.taskList = rest ∧ appends log = done

theorem WorkerReaches.cons {P : ProcTable} {s s₁ : QueueState} {a : QueueAction}
    {ev : List QueueEvent} {rest : List Node} {done : List Nat} (ha : a.ByWorker)
    (hs : (tpuQueue P).step s a = some (s₁, ev)) (h : WorkerReaches P s₁ rest done) :
    WorkerReaches P s rest (appends ev ++ done) := by
  obtain ⟨ws, s', log, hws, he, hw, ht, rfl⟩ := h
  refine ⟨a :: ws, s', ev ++ log, ?_, Machine.exec_cons hs he, hw, ht, appends_append ev log⟩
  intro b hb
  rcases List.mem_cons.mp hb with rfl | hb
  · exact ha
  · exact hws b hb

theorem WorkerReaches.trans {P : ProcTable} {s : QueueState} {mid rest : List Node}
    {done done' : List Nat} (h : WorkerReaches P s mid done)
    (h' : ∀ s', s'.worker = .idle → s'.taskList = mid → WorkerReaches P s' rest done') :
    WorkerReaches P s rest (done ++ done') := by
  obtain ⟨ws, s₁, log, hws, he, hw, ht, rfl⟩ := h
  obtain ⟨ws', s₂, log', hws', he', hw', ht', rfl⟩ := h' s₁ hw ht
  refine ⟨ws ++ ws', s₂, log ++ log', ?_, Machine.exec_append he he', hw', ht',
    appends_append log log'⟩
  intro b hb
  rcases List.mem_append.mp hb with hb | hb
  · exact hws b hb
  · exact hws' b hb

/-- From the append on: the purge is next, whatever it finds. -/
theorem reaches_appended {P : ProcTable} {s : QueueState} (hw : s.worker = .appended) :
    WorkerReaches P s s.taskList [] := by
  have hs : (tpuQueue P).step s .workPurge =
      some ({ s with worker := .idle,
                     doneList := cviTpuCleanupDoneList P s.reaped s.doneList },
        purgeEvents P s.reaped s.doneList) := by
    simp only [tpuQueue, queueStep, hw]
  have h := WorkerReaches.cons (by trivial) hs ⟨[], _, [], by simp, rfl, rfl, rfl, rfl⟩
  rwa [(unordered_nil unordered_purge).2.2] at h

theorem reaches_ran {P : ProcTable} {s : QueueState} {n : Node} (hw : s.worker = .ran n) :
    WorkerReaches P s s.taskList [n.addr] := by
  have hs : (tpuQueue P).step s .workAppend =
      some ({ s with worker := .appended, doneList := s.doneList ++ [n] },
        [.appended n.addr n.ret]) := by
    simp only [tpuQueue, queueStep, hw]
  exact WorkerReaches.cons (by trivial) hs (reaches_appended rfl)

theorem reaches_taken {P : ProcTable} {s : QueueState} {n : Node} (hw : s.worker = .taken n)
    (hv : n.tpuPath = .desNormal → n.dmabufVaddr ≠ none) :
    WorkerReaches P s s.taskList [n.addr] := by
  have hs : (tpuQueue P).step s (.workRun 0) =
      some ((s.workRun n 0).1, (s.workRun n 0).2) := by
    simp only [tpuQueue, queueStep, hw]
  obtain ⟨m, hm, htask, hworker, happends⟩ : ∃ m : Node, m.addr = n.addr ∧
      (s.workRun n 0).1.taskList = s.taskList ∧ (s.workRun n 0).1.worker = .ran m ∧
      appends (s.workRun n 0).2 = [] := by
    unfold QueueState.workRun
    split
    · rename_i hp
      split
      · rename_i hnone
        exact absurd hnone (hv hp)
      · exact ⟨{ n with ret := 0 }, rfl, rfl, rfl, (unordered_nil (unordered_holds _ _)).2.2⟩
    · exact ⟨{ n with ret := 0 }, rfl, rfl, rfl, rfl⟩
    · exact ⟨{ n with ret := 0 }, rfl, rfl, rfl, rfl⟩
  have hran : WorkerReaches P (s.workRun n 0).1 s.taskList [n.addr] := by
    rw [← htask, ← hm]
    exact reaches_ran hworker
  have h : WorkerReaches P s s.taskList (appends (s.workRun n 0).2 ++ [n.addr]) :=
    WorkerReaches.cons (by trivial) hs hran
  rwa [happends, List.nil_append] at h

/-- The worker finishes the node in hand. -/
theorem reaches_idle {P : ProcTable} {s : QueueState}
    (hw : s.worker ≠ .oops ∧ s.worker ≠ .stopped)
    (hv : ∀ n ∈ s.pending, n.tpuPath = .desNormal → n.dmabufVaddr ≠ none) :
    WorkerReaches P s s.taskList (s.worker.nodes.map Node.addr) := by
  rcases hwk : s.worker with _ | n | n | _ | _ | _
  · exact ⟨[], s, [], by simp, rfl, hwk, rfl, rfl⟩
  · exact reaches_taken hwk (hv n (by simp [QueueState.pending, hwk]))
  · exact reaches_ran hwk
  · exact reaches_appended hwk
  · exact absurd hwk hw.1
  · exact absurd hwk hw.2

/-- And then one task after the other. -/
theorem reaches_empty {P : ProcTable} {l : List Node} :
    ∀ {s : QueueState}, s.worker = .idle → s.taskList = l →
      (∀ n ∈ l, n.tpuPath = .desNormal → n.dmabufVaddr ≠ none) →
      WorkerReaches P s [] (l.map Node.addr) := by
  induction l with
  | nil =>
    intro s hw ht _
    exact ⟨[], s, [], by simp, rfl, hw, ht, rfl⟩
  | cons n l ih =>
    intro s hw ht hv
    have hs : (tpuQueue P).step s .workTake =
        some ({ s with worker := .taken n, taskList := l }, [.started n.addr]) := by
      simp only [tpuQueue, queueStep, hw, ht]
    have hn : WorkerReaches P { s with worker := .taken n, taskList := l } l [n.addr] :=
      reaches_taken rfl (hv n (List.mem_cons_self ..))
    have hall := hn.trans fun s' hw' ht' =>
      ih hw' ht' fun m hm => hv m (List.mem_cons_of_mem _ hm)
    exact WorkerReaches.cons (by trivial) hs hall

/-- Left alone, the worker moves every task to the done list. -/
theorem DeliverInv.finishes {P : ProcTable} {s : QueueState} {log : List QueueEvent}
    (hI : DeliverInv P s log) :
    ∃ ws s' log', (∀ a ∈ ws, QueueAction.ByWorker a) ∧
      (tpuQueue P).exec s ws = some (s', log') ∧ appends (log ++ log') = submits log := by
  have hready : ∀ n ∈ s.pending, n.tpuPath = .desNormal → n.dmabufVaddr ≠ none :=
    fun n hn hd => (hI.balance.ready n hn hd).1
  have htask : ∀ n ∈ s.taskList, n ∈ s.pending := by
    intro n hn
    unfold QueueState.pending
    split
    · exact List.mem_cons_of_mem _ hn
    · exact hn
  have h := (reaches_idle (P := P) hI.running hready).trans fun s' hw' ht' =>
    reaches_empty hw' ht' fun n hn => hready n (htask n hn)
  obtain ⟨ws, s', log', hws, he, -, -, hdone⟩ := h
  refine ⟨ws, s', log', hws, he, ?_⟩
  rw [appends_append, hdone, hI.submitted, List.map_append]

/-- Tasks have addresses of their own. -/
theorem submits_nodup {P : ProcTable} {as : List QueueAction} {s : QueueState}
    {log : List QueueEvent} (he : (tpuQueue P).exec {} as = some (s, log)) :
    (submits log).Nodup := by
  have hinv : Shape s log ∧ (submits log).Nodup := by
    refine Machine.exec_invariant_start
      (I := fun s log => Shape s log ∧ (submits log).Nodup) ⟨shape_start, List.nodup_nil⟩ ?_
      Machine.Meets.trivial he
    rintro s s' log ev a ⟨hS, hnd⟩ - hs
    have h := queueStep_cases hs
    refine ⟨hS.step h, ?_⟩
    rw [submits_append]
    have hfresh : s.nextAddr ∉ submits log := by
      intro hm
      obtain ⟨e, he, hea⟩ := List.mem_filterMap.mp hm
      cases e with
      | submitted _ _ _ addr =>
        have := hS.logBelow _ he addr rfl
        have hadd : addr = s.nextAddr := Option.some.inj hea
        omega
      | _ => cases hea
    have hev : submits ev = [] ∨ submits ev = [s.nextAddr] := by
      cases h with
      | submit =>
        rw [submits_append, (unordered_nil (unordered_holds _ _)).1]
        exact .inr rfl
      | brief => exact .inl (unordered_nil (unordered_holds _ _)).1
      | run => exact .inl (unordered_nil (unordered_holds _ _)).1
      | purge => exact .inl (unordered_nil unordered_purge).1
      | waitWoken | waitAgain | waitFound | waitLost =>
        exact .inl (unordered_nil (unordered_reads _)).1
      | remove =>
        refine .inl (List.filterMap_eq_nil_iff.mpr ?_)
        intro e he
        obtain ⟨n, -, he⟩ := List.mem_flatMap.mp he
        simp only [List.mem_cons, List.not_mem_nil, or_false] at he
        rcases he with rfl | rfl <;> rfl
      | _ => exact .inl rfl
    rcases hev with hev | hev
    · rw [hev, List.append_nil]
      exact hnd
    · rw [hev, List.nodup_append]
      exact ⟨hnd, by simp, fun x hx y hy => by
        rw [List.mem_singleton.mp hy]
        rintro rfl
        exact hfresh hx⟩
  exact hinv.2

/-- **Delivery.** In every run that meets the condition on each step, tasks are
executed and moved to the done list in submission order, each exactly once, and
every wait hands out a result of its caller, with its number, of its class, once. -/
theorem result_delivery (P : ProcTable) (as : List QueueAction) (s : QueueState)
    (log : List QueueEvent) (hm : (tpuQueue P).Meets (DeliverCond P) {} as)
    (he : (tpuQueue P).exec {} as = some (s, log)) : Delivered P s log := by
  have hI := deliverInv_run hm he
  refine ⟨submits_nodup he, ?_, ?_, hI.finishes, hI.judged⟩
  · rw [hI.submitted, hI.started, List.map_append, ← List.append_assoc]
    exact List.prefix_append _ _
  · rw [hI.submitted]
    exact List.prefix_append _ _

/-! ## The condition cannot be dropped

A thread's copy with number `7` is finished, and the thread waits for its command
buffer number `0`, which it never submitted. -/

def crossedRun : List QueueAction :=
  [.submitPio 1 freeEnv oneByte, .workTake, .workRun 0, .workAppend, .workPurge,
    .waitCall 1 .waitDmabuf 0, .waitTest 1, .waitLookup 1, .waitRead 1 0 0, .waitRemove 1]

theorem not_result_delivery :
    ¬ ∀ (P : ProcTable) (as : List QueueAction) (s : QueueState) (log : List QueueEvent),
      QueueAction.remove ∉ as → (tpuQueue P).exec {} as = some (s, log) → Delivered P s log := by
  intro h
  have hj := (h oneThread crossedRun _ _ (by simp [crossedRun]) rfl).judged
  have hok : DeliverOk [.submitted 1 .pioTdma 7 0, .started 0, .appended 0 0, .read 0, .read 0,
      .read 0, .unlink 0, .free 0] (.waitReturned 1 .waitDmabuf 0 0 0 0) :=
    Judged.at_split hj
  -- the only task was submitted with number 7, and on the other path
  obtain ⟨⟨path, -, hsub⟩, -⟩ := hok
  simp at hsub

/-- Both waits of one thread, the PIO result first. -/
def bothRun : List QueueAction :=
  [.submitPio 1 freeEnv oneByte, .submit 1 freeEnv ⟨5, 0⟩ goodFd, .workTake, .workRun 0,
    .workAppend, .workPurge, .waitCall 1 .waitPio 7, .waitTest 1, .waitLookup 1, .waitRead 1 0 0,
    .waitRemove 1, .workTake, .workRun (-1), .workAppend, .waitCall 1 .waitDmabuf 0,
    .waitTest 1, .waitLookup 1, .workPurge, .waitRead 1 0 0, .waitRemove 1]

theorem result_delivery_bothRun :
    ∃ s log, (tpuQueue oneThread).exec {} bothRun = some (s, log) ∧
      QueueEvent.waitReturned 1 .waitDmabuf 0 1 (-1) 0 ∈ log ∧ Delivered oneThread s log := by
  have hm : (tpuQueue oneThread).Meets (DeliverCond oneThread) {} bothRun := by decide
  exact ⟨_, _, rfl, by decide, result_delivery oneThread bothRun _ _ hm rfl⟩

end LicheeRvNano
