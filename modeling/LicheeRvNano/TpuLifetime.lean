import LicheeRvNano.TpuQueueSteps

/-!
# TPU driver: the lifetime of done-list nodes

A waiter keeps a raw pointer to its node from the second `get_from_done_list` to
`remove_from_done_list`, without holding the lock in between, and the worker may
purge the done list in that window. The purge asks whether the submitter lives by
comparing the node's thread id with the ids `for_each_process` enumerates, which
are those of thread-group leaders.

`LifeOk` is the contract: nothing is read, unlinked or freed after it was freed,
and a purge only frees nodes of threads that have exited. It fails once a purge
meets a result of a live thread that does not lead its group, and holds in every
run whose purges do not.
-/

namespace LicheeRvNano

/-- What may happen after `past`: a node is unlinked once and freed once, it is
not read or unlinked after that, and the purge chooses only nodes whose submitter
has exited. -/
def LifeOk (past : List QueueEvent) : QueueEvent → Prop
  | .read addr => .free addr ∉ past
  | .unlink addr => .unlink addr ∉ past ∧ .free addr ∉ past
  | .free addr => .free addr ∉ past
  | .purged _ pid => .exited pid ∈ past
  | _ => True

/-- The condition: when a purge runs over the limit, every live thread with a
result on the done list leads its thread group. Device removal is not among the
steps. -/
def LifeCond (P : ProcTable) (s : QueueState) : QueueAction → Prop
  | .workPurge =>
    DONE_LIST_MAX ≤ s.doneList.length →
      ∀ n ∈ s.doneList, n.pid ∉ s.exited → P.tgid n.pid = n.pid
  | .remove => False
  | _ => True

instance (P : ProcTable) (s : QueueState) : ∀ a, Decidable (LifeCond P s a)
  | .workPurge => inferInstanceAs (Decidable (_ → _))
  | .remove => isFalse id
  | .submit .. | .submitTee .. | .submitPio .. | .getPaddr .. | .mapDmabuf .. | .workTake
  | .workRun _ | .workAppend | .waitCall .. | .waitTest _ | .waitSignal _ | .waitLookup _
  | .waitRead .. | .waitRemove _ | .threadExit _ | .reap _ => isTrue trivial

/-- The invariant behind the contract. -/
structure LifeInv (P : ProcTable) (s : QueueState) (log : List QueueEvent) : Prop where
  shape : Shape s log
  threads : Threads P s
  judged : Judged LifeOk [] log
  /-- no node the driver still holds was unlinked or freed -/
  live : ∀ n ∈ s.nodes, .free n.addr ∉ log ∧ .unlink n.addr ∉ log
  /-- a waiter's pointer is to a node of its own on the done list -/
  held : ∀ t addr, (s.waiter t).pointer = some addr →
    ∃ n ∈ s.doneList, n.addr = addr ∧ n.pid = t
  exits : ∀ t ∈ s.exited, .exited t ∈ log

/-! ## The purge -/

theorem free_mem_purgeVisit {P : ProcTable} {reaped : List Nat} {n : Node} {addr : Nat}
    (h : .free addr ∈ purgeVisit P reaped n ∨ .unlink addr ∈ purgeVisit P reaped n) :
    n.addr = addr ∧ alive P reaped n = false := by
  unfold purgeVisit at h
  split_ifs at h with ha
  · simp at h
  · simp only [List.mem_cons, List.not_mem_nil, or_false, reduceCtorEq, false_or,
      QueueEvent.free.injEq, QueueEvent.unlink.injEq] at h
    exact ⟨by rcases h with rfl | rfl <;> rfl, by simpa using ha⟩

/-- The purge loop keeps the contract: every node it meets is still there, the
nodes are distinct, and those it frees belong to exited threads. -/
theorem judged_purge {P : ProcTable} {reaped : List Nat} :
    ∀ {l : List Node} {past : List QueueEvent}, (l.map Node.addr).Nodup →
      (∀ n ∈ l, .free n.addr ∉ past ∧ .unlink n.addr ∉ past) →
      (∀ n ∈ l, alive P reaped n = false → .exited n.pid ∈ past) →
      Judged LifeOk past (l.flatMap (purgeVisit P reaped)) := by
  intro l
  induction l with
  | nil =>
    intro past _ _ _
    trivial
  | cons n l ih =>
    intro past hnd hl hx
    rw [List.map_cons, List.nodup_cons] at hnd
    obtain ⟨hfree, hunlink⟩ := hl n (List.mem_cons_self ..)
    rw [List.flatMap_cons, Judged.append_iff]
    constructor
    · rcases ha : alive P reaped n with _ | _
      · have hexit := hx n (List.mem_cons_self ..) ha
        simp [purgeVisit, ha, LifeOk, hfree, hunlink, hexit]
      · simp [purgeVisit, ha, LifeOk, hfree]
    · -- the rest of the list has other addresses, so this turn did not touch it
      refine ih hnd.2 ?_ ?_
      · intro m hm
        obtain ⟨hmf, hmu⟩ := hl m (List.mem_cons_of_mem _ hm)
        have hne : ¬ (.free m.addr ∈ purgeVisit P reaped n ∨
            .unlink m.addr ∈ purgeVisit P reaped n) := by
          intro h
          refine hnd.1 ?_
          rw [(free_mem_purgeVisit h).1]
          exact List.mem_map_of_mem hm
        rw [not_or] at hne
        exact ⟨by rw [List.mem_append]; tauto, by rw [List.mem_append]; tauto⟩
      · intro m hm ha
        exact List.mem_append_left _ (hx m (List.mem_cons_of_mem _ hm) ha)

theorem judged_reads :
    ∀ {l : List Node} {past : List QueueEvent}, (∀ n ∈ l, .free n.addr ∉ past) →
      Judged LifeOk past (l.map fun n => .read n.addr) := by
  intro l
  induction l with
  | nil =>
    intro past _
    trivial
  | cons n l ih =>
    intro past h
    refine ⟨h n (List.mem_cons_self ..), ih ?_⟩
    intro m hm hf
    rcases List.mem_append.mp hf with hf | hf
    · exact h m (List.mem_cons_of_mem _ hm) hf
    · simp at hf

/-! ## The step -/

/-- What a step frees or unlinks, it takes out of the driver. -/
theorem LifeInv.freed_gone {P : ProcTable} {s s' : QueueState} {a : QueueAction}
    {log ev : List QueueEvent} (hI : LifeInv P s log) (ha : a ≠ .remove)
    (h : QueueStep P s a s' ev) {addr : Nat} (he : .free addr ∈ ev ∨ .unlink addr ∈ ev) :
    ∀ n ∈ s'.nodes, n.addr ≠ addr := by
  cases h with
  | purge hw =>
    unfold purgeEvents at he
    split_ifs at he with hlen
    · simp at he
    · obtain ⟨m, hm, hma, hdead⟩ : ∃ m ∈ s.doneList, m.addr = addr ∧
          alive P s.reaped m = false := by
        simp only [List.mem_flatMap] at he
        rcases he with ⟨m, hm, hme⟩ | ⟨m, hm, hme⟩
        · exact ⟨m, hm, free_mem_purgeVisit (.inl hme)⟩
        · exact ⟨m, hm, free_mem_purgeVisit (.inr hme)⟩
      intro n hn hna
      simp only [QueueState.nodes, cviTpuCleanupDoneList, if_neg hlen, WorkerPhase.nodes,
        List.nil_append, List.mem_append, List.mem_filter] at hn
      rcases hn with ⟨hn, halive⟩ | hn
      · obtain rfl : n = m := hI.shape.node_ext (List.mem_append_left _ hn)
          (List.mem_append_left _ hm) (hna.trans hma.symm)
        rw [hdead] at halive
        cases halive
      · have := hI.shape.done_lt hm (List.mem_append_right _ hn)
        omega
  | @waitRemove t io seqNo addr' ret uncopied hw =>
    obtain rfl : addr = addr' := by simpa using he
    obtain ⟨m, hm, hma, -⟩ := hI.held t addr (by rw [hw]; rfl)
    intro n hn hna
    simp only [QueueState.nodes, List.mem_append, List.mem_filter] at hn
    rcases hn with ⟨-, hne⟩ | hn
    · exact of_decide_eq_true hne hna
    · have := hI.shape.done_lt hm (List.mem_append.mpr hn)
      omega
  | remove => exact absurd rfl ha
  | _ => simp at he

/-- The events of a step keep the contract. -/
theorem LifeInv.judged_step {P : ProcTable} {s s' : QueueState} {a : QueueAction}
    {log ev : List QueueEvent} (hI : LifeInv P s log) (hc : LifeCond P s a)
    (h : QueueStep P s a s' ev) : Judged LifeOk log ev := by
  have hdone : ∀ n ∈ s.doneList, .free n.addr ∉ log ∧ .unlink n.addr ∉ log :=
    fun n hn => hI.live n (List.mem_append_left _ hn)
  cases h with
  | purge hw =>
    unfold purgeEvents
    split_ifs with hlen
    · trivial
    · refine judged_purge ?_ hdone ?_
      · have hs := hI.shape.sorted
        rw [QueueState.nodes, List.map_append, List.pairwise_append] at hs
        exact hs.1.imp fun hlt => Nat.ne_of_lt hlt
      · intro n hn hdead
        by_contra hx
        have hne : n.pid ∉ s.exited := fun hex => hx (hI.exits _ hex)
        have hlead := hc (Nat.le_of_not_lt hlen) n hn hne
        have hal := hI.threads.alive_of_leader (List.mem_append_left _ hn) hlead hne
        rw [hdead] at hal
        cases hal
  | waitWoken | waitAgain | waitFound | waitLost =>
    exact judged_reads fun n hn => (hdone n (mem_walked hn)).1
  | @waitRead t _ _ addr _ _ hw =>
    obtain ⟨n, hn, rfl, -⟩ := hI.held t addr (by rw [hw]; rfl)
    simpa [LifeOk] using (hdone n hn).1
  | @waitRemove t _ _ addr _ _ hw =>
    obtain ⟨n, hn, rfl, -⟩ := hI.held t addr (by rw [hw]; rfl)
    simp [LifeOk, (hdone n hn).1, (hdone n hn).2]
  | remove => exact absurd hc (by simp [LifeCond])
  | submit =>
    refine Judged.of_forall ?_
    intro e he before
    rcases List.mem_append.mp he with he | he
    · obtain ⟨x, -, rfl⟩ := List.mem_map.mp he
      trivial
    · obtain rfl := List.mem_singleton.mp he
      trivial
  | brief =>
    refine Judged.of_forall ?_
    intro e he before
    obtain ⟨x, -, rfl⟩ := List.mem_map.mp he
    trivial
  | run =>
    refine Judged.of_forall ?_
    intro e he before
    rcases List.mem_cons.mp he with rfl | he
    · trivial
    · obtain ⟨x, -, rfl⟩ := List.mem_map.mp he
      trivial
  | _ => simp [LifeOk]

/-- A waiter's node stays on the done list: a purge spares it because its
submitter is the waiter, who is alive and leads its group, and another waiter
removes only nodes of its own. -/
theorem LifeInv.held_step {P : ProcTable} {s s' : QueueState} {a : QueueAction}
    {log ev : List QueueEvent} (hI : LifeInv P s log) (hc : LifeCond P s a)
    (h : QueueStep P s a s' ev) {t addr : Nat} (hp : (s'.waiter t).pointer = some addr) :
    ∃ n ∈ s'.doneList, n.addr = addr ∧ n.pid = t := by
  have hbefore : ∃ n ∈ s.doneList, n.addr = addr ∧ n.pid = t := by
    rcases h.pointer_cases hp with hp | ⟨io, seqNo, n, -, -, hg, rfl⟩
    · exact hI.held t addr hp
    · refine ⟨n, List.mem_of_find?_eq_some hg, rfl, ?_⟩
      have hm := List.find?_some hg
      unfold doneMatch at hm
      split_ifs at hm <;> simp only [Bool.and_eq_true, decide_eq_true_eq] at hm <;> exact hm.1
  obtain ⟨n, hn, hna, hnt⟩ := hbefore
  cases h with
  | append => exact ⟨n, List.mem_append_left _ hn, hna, hnt⟩
  | purge =>
    refine ⟨n, ?_, hna, hnt⟩
    unfold cviTpuCleanupDoneList
    split_ifs with hlen
    · exact hn
    · have hx : n.pid ∉ s.exited := by
        rw [hnt]
        refine (hI.threads.present t ?_).2
        intro hu
        have hp' : (s.waiter t).pointer = some addr := hp
        rw [hu] at hp'
        cases hp'
      refine List.mem_filter.mpr ⟨hn, ?_⟩
      exact hI.threads.alive_of_leader (List.mem_append_left _ hn)
        (hc (Nat.le_of_not_lt hlen) n hn hx) hx
  | @waitRemove u _ _ addr' _ _ hw =>
    refine ⟨n, List.mem_filter.mpr ⟨hn, ?_⟩, hna, hnt⟩
    refine decide_eq_true ?_
    intro hna'
    obtain ⟨m, hm, hma, hmu⟩ := hI.held u addr' (by rw [hw]; rfl)
    obtain rfl : n = m := hI.shape.node_ext (List.mem_append_left _ hn)
      (List.mem_append_left _ hm) (hna'.trans hma.symm)
    have hut : t = u := hnt.symm.trans hmu
    subst hut
    simp [WaitPhase.pointer] at hp
  | remove => exact absurd hc (by simp [LifeCond])
  | _ => exact ⟨n, hn, hna, hnt⟩

theorem lifeInv_start (P : ProcTable) : LifeInv P {} [] where
  shape := shape_start
  threads := threads_start P
  judged := trivial
  live := by simp [QueueState.nodes, WorkerPhase.nodes]
  held := by simp [WaitPhase.pointer]
  exits := by simp

theorem LifeInv.step {P : ProcTable} {s s' : QueueState} {a : QueueAction}
    {log ev : List QueueEvent} (hI : LifeInv P s log) (hc : LifeCond P s a)
    (h : QueueStep P s a s' ev) : LifeInv P s' (log ++ ev) := by
  have hne : a ≠ .remove := by
    rintro rfl
    exact hc
  refine ⟨hI.shape.step h, hI.threads.step h, Judged.append_iff.mpr ⟨hI.judged, ?_⟩, ?_, ?_, ?_⟩
  · exact hI.judged_step hc h
  · intro n hn
    have hev : ¬ (.free n.addr ∈ ev ∨ .unlink n.addr ∈ ev) := fun he =>
      hI.freed_gone hne h he n hn rfl
    have hlog : .free n.addr ∉ log ∧ .unlink n.addr ∉ log := by
      rcases h.nodes_cases with ⟨_, _, _, node, _, _, hm, hn', _⟩ | ⟨_, _, hall⟩
      · rw [hn'] at hn
        rcases List.mem_append.mp hn with hn | hn
        · exact hI.live n hn
        · obtain rfl := List.mem_singleton.mp hn
          have hlt : ∀ e ∈ log, e.about ≠ some n.addr := by
            intro e he hab
            have := hI.shape.logBelow e he _ hab
            rw [hm.fields.1] at this
            omega
          exact ⟨fun hf => hlt _ hf rfl, fun hu => hlt _ hu rfl⟩
      · obtain ⟨m, hm, r, rfl⟩ := hall n hn
        exact hI.live m hm
    rw [not_or] at hev
    exact ⟨by rw [List.mem_append]; tauto, by rw [List.mem_append]; tauto⟩
  · exact fun t addr hp => hI.held_step hc h hp
  · intro t ht
    cases h with
    | exit =>
      rcases List.mem_cons.mp ht with rfl | ht
      · simp
      · exact List.mem_append_left _ (hI.exits t ht)
    | _ => exact List.mem_append_left _ (hI.exits t ht)

/-- The invariant along a run. -/
theorem lifeInv_run {P : ProcTable} {as : List QueueAction} {s : QueueState}
    {log : List QueueEvent} (hm : (tpuQueue P).Meets (LifeCond P) {} as)
    (he : (tpuQueue P).exec {} as = some (s, log)) : LifeInv P s log :=
  Machine.exec_invariant_start (lifeInv_start P)
    (fun hI hc hs => hI.step hc (queueStep_cases hs)) hm he

/-- **Done-list node lifetime.** In every run in which each purge over the limit
meets results of exited threads and of group leaders only, no node is unlinked or
freed twice, none is read or unlinked after it was freed, and a purge frees only
nodes whose submitter has exited. -/
theorem done_list_lifetime (P : ProcTable) (as : List QueueAction) (s : QueueState)
    (log : List QueueEvent) (hm : (tpuQueue P).Meets (LifeCond P) {} as)
    (he : (tpuQueue P).exec {} as = some (s, log)) : Judged LifeOk [] log :=
  (lifeInv_run hm he).judged

/-! ## The condition cannot be dropped

One process with two threads, ids `1` (its leader) and `2`. Thread `2` submits a
thousand copies and waits for none of them. The purge after the last one frees
them all, because `2` is not the id of a process, though thread `2` is alive. -/

def twoThreads : ProcTable where
  threads := [1, 2]
  tgid := fun _ => 1
  leader_mem := by simp
  leader_self := by simp

/-- Nothing stands in the way of a submit. -/
def freeEnv : SubmitEnv := ⟨0, [0], true⟩

def oneByte : TdmaCopyArg := ⟨0, 0, 0, 0, 0, 0, 0, 1, 7⟩

/-- Thread `t` submits a copy and the worker deals with it. -/
def copyRound (t : Nat) : List QueueAction :=
  [.submitPio t freeEnv oneByte, .workTake, .workRun 0, .workAppend, .workPurge]

/-- The finished node of the round of thread `t` at `addr`. -/
def copyNode (t addr : Nat) : Node where
  addr := addr
  pid := t
  tpuPath := .pioTdma
  pioSeqNo := 7
  pioInfo := { lengBytes := 1 }

/-- Between two rounds: the next address, the results and the threads that have exited. -/
def piledUp (k : Nat) (doneList : List Node) (exited : List Nat) : QueueState :=
  { nextAddr := k, doneList := doneList, exited := exited }

section CopyRound

variable {t : Nat} (ht : t ∈ twoThreads.threads) {exited : List Nat} (hx : t ∉ exited)
include ht hx

/-- One round: the purge meets the results there are and the new one. -/
theorem exec_copyRound (k : Nat) (doneList : List Node) :
    (tpuQueue twoThreads).exec (piledUp k doneList exited) (copyRound t) =
      some (piledUp (k + 1)
          (cviTpuCleanupDoneList twoThreads [] (doneList ++ [copyNode t k])) exited,
        [.submitted t .pioTdma 7 k, .started k, .appended k 0] ++
          purgeEvents twoThreads [] (doneList ++ [copyNode t k])) := by
  have hcall : (piledUp k doneList exited).CanCall twoThreads t := ⟨ht, hx, rfl⟩
  have hmade : cviTpuSubmitPio t k freeEnv oneByte = some (0, some (copyNode t k, [])) := rfl
  simp only [copyRound, Machine.exec, tpuQueue, queueStep, if_pos hcall]
  simp [piledUp, hmade, QueueState.enqueue, QueueState.workRun, copyNode]
  rfl

/-- It meets the condition when its purge does. -/
theorem meets_copyRound (k : Nat) (doneList : List Node)
    (hpurge : DONE_LIST_MAX ≤ (doneList ++ [copyNode t k]).length →
      ∀ n ∈ doneList ++ [copyNode t k], n.pid ∉ exited → twoThreads.tgid n.pid = n.pid) :
    (tpuQueue twoThreads).Meets (LifeCond twoThreads) (piledUp k doneList exited)
      (copyRound t) := by
  have hcall : (piledUp k doneList exited).CanCall twoThreads t := ⟨ht, hx, rfl⟩
  have hmade : cviTpuSubmitPio t k freeEnv oneByte = some (0, some (copyNode t k, [])) := rfl
  simp only [copyRound, Machine.Meets, tpuQueue, queueStep, if_pos hcall]
  simpa [piledUp, hmade, QueueState.enqueue, QueueState.workRun, LifeCond, copyNode] using hpurge

/-- Below the limit the results pile up, and nobody exits. -/
theorem exec_copyRounds : ∀ k, k < DONE_LIST_MAX →
    ∃ log, (tpuQueue twoThreads).exec (piledUp 0 [] exited)
          (List.replicate k (copyRound t)).flatten =
        some (piledUp k ((List.range k).map (copyNode t)) exited, log) ∧
      (tpuQueue twoThreads).Meets (LifeCond twoThreads) (piledUp 0 [] exited)
        (List.replicate k (copyRound t)).flatten ∧ ∀ t', .exited t' ∉ log := by
  intro k
  induction k with
  | zero => exact fun _ => ⟨[], rfl, trivial, by simp⟩
  | succ k ih =>
    intro hk
    obtain ⟨log, hlog, hmeets, hnone⟩ := ih (by omega)
    have hlist : (List.range (k + 1)).map (copyNode t) =
        (List.range k).map (copyNode t) ++ [copyNode t k] := by
      rw [List.range_succ, List.map_append, List.map_singleton]
    have hshort : ((List.range k).map (copyNode t) ++ [copyNode t k]).length < DONE_LIST_MAX := by
      simpa using hk
    have hround := exec_copyRound ht hx k ((List.range k).map (copyNode t))
    rw [cviTpuCleanupDoneList, purgeEvents, if_pos hshort, if_pos hshort, ← hlist] at hround
    rw [List.replicate_succ', List.flatten_append, List.flatten_singleton]
    refine ⟨_, Machine.exec_append hlog hround, ?_, ?_⟩
    · refine hmeets.append hlog (meets_copyRound ht hx k _ fun hlong => ?_)
      exact absurd hlong (Nat.not_le_of_gt hshort)
    · intro t' ht'
      simp [hnone t'] at ht'

end CopyRound

/-- Among a thousand results the purge visits the first of thread `2`. -/
theorem mem_purgeEvents_piledUp {e : QueueEvent} (n : Node)
    (he : e ∈ purgeVisit twoThreads [] (copyNode 2 0)) :
    e ∈ purgeEvents twoThreads [] ((List.range 999).map (copyNode 2) ++ [n]) := by
  rw [purgeEvents, if_neg (by simp)]
  have hfirst : copyNode 2 0 ∈ (List.range 999).map (copyNode 2) :=
    List.mem_map_of_mem (by simp)
  exact List.mem_flatMap.mpr ⟨_, List.mem_append_left _ hfirst, he⟩

/-- The rounds hold no device removal. -/
theorem remove_notMem_copyRounds (k : Nat) :
    QueueAction.remove ∉ (List.replicate k (copyRound 2)).flatten := by
  intro h
  obtain ⟨l, hl, hr⟩ := List.mem_flatten.mp h
  rw [List.eq_of_mem_replicate hl] at hr
  simp [copyRound] at hr

/-- The purge frees results of a thread that is alive. -/
theorem not_done_list_lifetime :
    ¬ ∀ (P : ProcTable) (as : List QueueAction) (s : QueueState) (log : List QueueEvent),
      QueueAction.remove ∉ as → (tpuQueue P).exec {} as = some (s, log) →
        Judged LifeOk [] log := by
  intro h
  obtain ⟨log, hlog, -, hx⟩ := @exec_copyRounds 2 (by decide) [] List.not_mem_nil 999 (by decide)
  have hrun := Machine.exec_append hlog
    (@exec_copyRound 2 (by decide) [] List.not_mem_nil 999 ((List.range 999).map (copyNode 2)))
  have hno : QueueAction.remove ∉ (List.replicate 999 (copyRound 2)).flatten ++ copyRound 2 := by
    rw [List.mem_append, not_or]
    exact ⟨remove_notMem_copyRounds 999, by simp [copyRound]⟩
  have hj := h twoThreads _ _ _ hno hrun
  -- the purge freed the first result, and thread 2 never exited
  have hmem : QueueEvent.purged 0 2 ∈
      purgeEvents twoThreads [] ((List.range 999).map (copyNode 2) ++ [copyNode 2 999]) :=
    mem_purgeEvents_piledUp _ (by decide)
  obtain ⟨past, rest, hsplit⟩ := List.append_of_mem hmem
  rw [hsplit] at hj
  have hexit : QueueEvent.exited 2 ∈
      log ++ ([.submitted 2 .pioTdma 7 999, .started 999, .appended 999 0] ++ past) := by
    have hat : Judged LifeOk [] ((log ++
        ([.submitted 2 .pioTdma 7 999, .started 999, .appended 999 0] ++ past)) ++
          .purged 0 2 :: rest) := by
      simpa using hj
    exact hat.at_split
  have hpast : QueueEvent.exited 2 ∉ past := by
    intro hp
    have hin : QueueEvent.exited 2 ∈
        purgeEvents twoThreads [] ((List.range 999).map (copyNode 2) ++ [copyNode 2 999]) := by
      rw [hsplit]
      exact List.mem_append_left _ hp
    obtain ⟨n, -, hab⟩ := mem_purgeEvents hin
    cases hab
  simp [hx 2, hpast] at hexit

/-- A run that meets the condition. Thread `2` leaves 999 results behind and exits; then the
leader submits a copy, whose purge meets a thousand results, and waits for it. -/
def leaderRun : List QueueAction :=
  (List.replicate 999 (copyRound 2)).flatten ++ (.threadExit 2 :: (copyRound 1 ++
    [.waitCall 1 .waitPio 7, .waitTest 1, .waitLookup 1, .waitRead 1 0 0, .waitRemove 1]))

/-- The exit of a thread that is not in the driver. -/
theorem exec_threadExit (k : Nat) (doneList : List Node) :
    (tpuQueue twoThreads).step (piledUp k doneList []) (.threadExit 2) =
      some (piledUp k doneList [2], [.exited 2]) := by
  simp [tpuQueue, queueStep, piledUp, twoThreads]

/-- The purge frees what thread `2` left, the wait frees the leader's result. -/
theorem done_list_lifetime_leaderRun :
    ∃ s log, (tpuQueue twoThreads).exec {} leaderRun = some (s, log) ∧
      QueueEvent.purged 0 2 ∈ log ∧ QueueEvent.free 0 ∈ log ∧ QueueEvent.free 999 ∈ log ∧
        Judged LifeOk [] log := by
  obtain ⟨log, hlog, hmeets, -⟩ :=
    @exec_copyRounds 2 (by decide) [] List.not_mem_nil 999 (by decide)
  have hcopy := @exec_copyRound 1 (by decide) [2] (by decide) 999
    ((List.range 999).map (copyNode 2))
  -- of the thousand results the purge leaves the leader's own
  have hpurged : cviTpuCleanupDoneList twoThreads []
      ((List.range 999).map (copyNode 2) ++ [copyNode 1 999]) = [copyNode 1 999] := by
    rw [cviTpuCleanupDoneList, if_neg (by simp), List.filter_append, List.filter_eq_nil_iff.mpr]
    · rfl
    · intro n hn
      obtain ⟨i, -, rfl⟩ := List.mem_map.mp hn
      have hthread : 2 ∉ forEachProcess twoThreads [] := by decide
      exact fun halive => hthread (of_decide_eq_true halive)
  rw [hpurged] at hcopy
  have hwait : (tpuQueue twoThreads).exec (piledUp 1000 [copyNode 1 999] [2])
      [.waitCall 1 .waitPio 7, .waitTest 1, .waitLookup 1, .waitRead 1 0 0, .waitRemove 1] =
        some (_, _) := rfl
  have hrun := Machine.exec_append hlog
    (Machine.exec_cons (exec_threadExit 999 _) (Machine.exec_append hcopy hwait))
  have hm : (tpuQueue twoThreads).Meets (LifeCond twoThreads) {} leaderRun := by
    refine hmeets.append hlog ⟨trivial, ?_⟩
    rw [exec_threadExit]
    refine (meets_copyRound (by decide) (by decide) 999 _ ?_).append hcopy (by decide)
    intro _ n hn hx
    rcases List.mem_append.mp hn with hn | hn
    · obtain ⟨i, -, rfl⟩ := List.mem_map.mp hn
      simp [copyNode] at hx
    · rw [List.mem_singleton.mp hn]
      rfl
  refine ⟨_, _, hrun, ?_, ?_, ?_, done_list_lifetime twoThreads leaderRun _ _ hm hrun⟩
  · have hmem := @mem_purgeEvents_piledUp (.purged 0 2) (copyNode 1 999) (by decide)
    simp [hmem]
  · have hmem := @mem_purgeEvents_piledUp (.free 0) (copyNode 1 999) (by decide)
    simp [hmem]
  · simp [copyNode]

end LicheeRvNano
