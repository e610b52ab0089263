import LicheeRvNano.TpuQueue
import Mathlib.Data.List.Nodup
import Mathlib.Tactic.Tauto

/-!
# TPU driver: what a step can do

`QueueStep` lists the outcomes of a step of `tpuQueue`, one constructor each, and
`queueStep_cases` is the inversion. Every invariant of the queue is proved by
cases on it; nothing else unfolds `queueStep`.

The second half is about addresses. `QueueState.nodes` lists the driver's nodes
oldest first, and moving a node from the task list to the worker and on to the
done list leaves that list as it is. So a step either appends one new node or
drops some, and addresses stay in order (`Shape`), which is what identifies a
node in the log.
-/

namespace LicheeRvNano

/-! ## The outcomes -/

/-- The node and the holds a submit action makes at `addr`. -/
inductive Made (addr : Nat) :
    QueueAction → Nat → TpuPath → BitVec 32 → Node → List (Entry Hold) → Prop where
  | normal {t env arg a} (hcopy : env.uncopied = 0) (halloc : env.vmalloc = true) :
    Made addr (.submit t env arg a) t .desNormal arg.seqNo
      (cviTpuPrepareBuffer a (dmaNode t addr arg)).1
      (cviTpuPrepareBuffer a (dmaNode t addr arg)).2.2
  | tee {t env arg info} :
    Made addr (.submitTee t env arg) t .desSec arg.seqNo
      { addr := addr, pid := t, seqNo := arg.seqNo, teeInfo := info, tpuPath := .desSec } []
  | pio {t env arg info} :
    Made addr (.submitPio t env arg) t .pioTdma arg.seqNo
      { addr := addr, pid := t, pioSeqNo := arg.seqNo, pioInfo := info, tpuPath := .pioTdma } []

/-- The outcomes of a step. -/
inductive QueueStep (P : ProcTable) (s : QueueState) :
    QueueAction → QueueState → List QueueEvent → Prop where
  | quiet {a} : QueueStep P s a s []
  | submit {a t path seqNo node holds} (hcall : s.CanCall P t)
      (hmade : Made s.nextAddr a t path seqNo node holds) :
    QueueStep P s a { s with nextAddr := s.nextAddr + 1, taskList := s.taskList ++ [node] }
      (holds.map (.hold s.nextAddr) ++ [.submitted t path seqNo s.nextAddr])
  | brief {a holds} (hu : holds ∈ unwinds) :
    QueueStep P s a { s with nextAddr := s.nextAddr + 1 } (holds.map (.hold s.nextAddr))
  | take {n rest} (hw : s.worker = .idle) (ht : s.taskList = n :: rest) :
    QueueStep P s .workTake { s with worker := .taken n, taskList := rest } [.started n.addr]
  | oops {n ret} (hw : s.worker = .taken n) (hp : n.tpuPath = .desNormal)
      (hv : n.dmabufVaddr = none) :
    QueueStep P s (.workRun ret) { s with worker := .oops } [.enterRunDmabuf n.addr none]
  | run {n v ret} (hw : s.worker = .taken n) (hp : n.tpuPath = .desNormal)
      (hv : n.dmabufVaddr = some v) :
    QueueStep P s (.workRun ret) { s with worker := .ran { n with ret := ret } }
      (.enterRunDmabuf n.addr (some v) ::
        (cleanupHolds.map Entry.drop).map (.hold n.addr))
  | runOther {n ret r} (hw : s.worker = .taken n) (hp : n.tpuPath ≠ .desNormal) :
    QueueStep P s (.workRun ret) { s with worker := .ran { n with ret := r } } []
  | append {n} (hw : s.worker = .ran n) :
    QueueStep P s .workAppend { s with worker := .appended, doneList := s.doneList ++ [n] }
      [.appended n.addr n.ret]
  | purge (hw : s.worker = .appended) :
    QueueStep P s .workPurge
      { s with worker := .idle, doneList := cviTpuCleanupDoneList P s.reaped s.doneList }
      (purgeEvents P s.reaped s.doneList)
  | waitCall {t io seqNo} (hcall : s.CanCall P t) :
    QueueStep P s (.waitCall t io seqNo)
      { s with waiter := Function.update s.waiter t (.waiting io seqNo) } []
  | waitWoken {t io seqNo n} (hw : s.waiter t = .waiting io seqNo)
      (hg : getFromDoneList t seqNo io.path s.doneList = some n) :
    QueueStep P s (.waitTest t)
      { s with waiter := Function.update s.waiter t (.woken io seqNo) }
      ((walked t seqNo io.path s.doneList).map fun n => .read n.addr)
  | waitAgain {t io seqNo} (hw : s.waiter t = .waiting io seqNo)
      (hg : getFromDoneList t seqNo io.path s.doneList = none) :
    QueueStep P s (.waitTest t) s
      ((walked t seqNo io.path s.doneList).map fun n => .read n.addr)
  | waitSignal {t io seqNo} (hw : s.waiter t = .waiting io seqNo) :
    QueueStep P s (.waitSignal t) { s with waiter := Function.update s.waiter t .user } []
  | waitFound {t io seqNo n} (hw : s.waiter t = .woken io seqNo)
      (hg : getFromDoneList t seqNo io.path s.doneList = some n) :
    QueueStep P s (.waitLookup t)
      { s with waiter := Function.update s.waiter t (.found io seqNo n.addr) }
      ((walked t seqNo io.path s.doneList).map fun n => .read n.addr)
  | waitLost {t io seqNo} (hw : s.waiter t = .woken io seqNo)
      (hg : getFromDoneList t seqNo io.path s.doneList = none) :
    QueueStep P s (.waitLookup t) { s with waiter := Function.update s.waiter t .user }
      ((walked t seqNo io.path s.doneList).map fun n => .read n.addr)
  | waitRead {t io seqNo addr uncopied garbage} (hw : s.waiter t = .found io seqNo addr) :
    QueueStep P s (.waitRead t uncopied garbage)
      { s with
        waiter := Function.update s.waiter t
          (.read io seqNo addr (readRet s.doneList addr garbage) uncopied) }
      [.read addr]
  | waitRemove {t io seqNo addr ret uncopied}
      (hw : s.waiter t = .read io seqNo addr ret uncopied) :
    QueueStep P s (.waitRemove t)
      { s with waiter := Function.update s.waiter t .user,
               doneList := s.doneList.filter fun n => decide (n.addr ≠ addr) }
      [.unlink addr, .free addr, .waitReturned t io seqNo addr ret uncopied]
  | exit {t} (ht : t ∈ P.threads) (hx : t ∉ s.exited) :
    QueueStep P s (.threadExit t)
      { s with exited := t :: s.exited, waiter := Function.update s.waiter t .user }
      [.exited t]
  | reap {p} (hp : p ∈ s.exited) :
    QueueStep P s (.reap p) { s with reaped := p :: s.reaped } []
  | remove (hw : s.worker = .idle) :
    QueueStep P s .remove { s with worker := .stopped, taskList := [], doneList := [] }
      ((s.taskList ++ s.doneList).flatMap fun n => [.unlink n.addr, .free n.addr])

/-- What a submit queues, given what it made. -/
theorem enqueue_cases {P : ProcTable} {s s' : QueueState} {ev : List QueueEvent}
    {a : QueueAction} {t : Nat} {path : TpuPath} {seqNo : BitVec 32} {env : SubmitEnv}
    {made : Node × List (Entry Hold)} (hcall : s.CanCall P t)
    (hmade : env.uncopied = 0 → env.vmalloc = true →
      Made s.nextAddr a t path seqNo made.1 made.2)
    (h : s.enqueue t path seqNo (submitNode env made) = some (s', ev)) :
    QueueStep P s a s' ev := by
  unfold submitNode at h
  split_ifs at h with hcopy hthrottle halloc
  · obtain ⟨rfl, rfl⟩ := Prod.mk.inj (Option.some.inj h)
    exact .quiet
  · cases h
  · obtain ⟨rfl, rfl⟩ := Prod.mk.inj (Option.some.inj h)
    exact .quiet
  · obtain ⟨rfl, rfl⟩ := Prod.mk.inj (Option.some.inj h)
    exact .submit hcall (hmade (not_not.mp hcopy) (by simpa using halloc))

/-- The outcomes of running the node in hand. -/
theorem workRun_cases {P : ProcTable} {s : QueueState} {n : Node} {ret : Int}
    (hw : s.worker = .taken n) :
    QueueStep P s (.workRun ret) (s.workRun n ret).1 (s.workRun n ret).2 := by
  unfold QueueState.workRun
  split
  · rename_i hp
    split
    · rename_i hv
      exact .oops hw hp hv
    · rename_i v hv
      rw [cviTpuCleanupBuffer, if_pos hp]
      exact .run hw hp hv
  · rename_i hp
    exact .runOther hw (by rw [hp]; decide)
  · rename_i hp
    exact .runOther hw (by rw [hp]; decide)

/-- **Inversion for a step of the driver.** -/
theorem queueStep_cases {P : ProcTable} {s s' : QueueState} {a : QueueAction}
    {ev : List QueueEvent} (h : (tpuQueue P).step s a = some (s', ev)) :
    QueueStep P s a s' ev := by
  have h : queueStep P s a = some (s', ev) := h
  cases a with
  | submit t env arg a =>
    simp only [queueStep] at h
    split_ifs at h with hc
    exact enqueue_cases hc .normal h
  | submitTee t env arg =>
    simp only [queueStep] at h
    split_ifs at h with hc
    exact enqueue_cases hc (fun _ _ => .tee) h
  | submitPio t env arg =>
    simp only [queueStep] at h
    split_ifs at h with hc
    exact enqueue_cases hc (fun _ _ => .pio) h
  | getPaddr t copyIn copyOut a =>
    simp only [queueStep] at h
    split_ifs at h
    obtain ⟨rfl, rfl⟩ := Prod.mk.inj (Option.some.inj h)
    exact .brief (getPaddr_unwinds copyIn copyOut a)
  | mapDmabuf t getUser a =>
    simp only [queueStep] at h
    split_ifs at h
    obtain ⟨rfl, rfl⟩ := Prod.mk.inj (Option.some.inj h)
    exact .brief (mapDmabuf_unwinds getUser a)
  | workTake =>
    simp only [queueStep] at h
    split at h
    · rename_i n rest hw ht
      obtain ⟨rfl, rfl⟩ := Prod.mk.inj (Option.some.inj h)
      exact .take hw ht
    · cases h
  | workRun ret =>
    simp only [queueStep] at h
    split at h
    · rename_i n hw
      obtain ⟨rfl, rfl⟩ := Prod.mk.inj (Option.some.inj h)
      exact workRun_cases hw
    · cases h
  | workAppend =>
    simp only [queueStep] at h
    split at h
    · rename_i n hw
      obtain ⟨rfl, rfl⟩ := Prod.mk.inj (Option.some.inj h)
      exact .append hw
    · cases h
  | workPurge =>
    simp only [queueStep] at h
    split at h
    · rename_i hw
      obtain ⟨rfl, rfl⟩ := Prod.mk.inj (Option.some.inj h)
      exact .purge hw
    · cases h
  | waitCall t io seqNo =>
    simp only [queueStep] at h
    split_ifs at h with hc
    obtain ⟨rfl, rfl⟩ := Prod.mk.inj (Option.some.inj h)
    exact .waitCall hc
  | waitTest t =>
    simp only [queueStep] at h
    split at h
    · rename_i io seqNo hw
      split at h
      · rename_i n hg
        obtain ⟨rfl, rfl⟩ := Prod.mk.inj (Option.some.inj h)
        exact .waitWoken hw hg
      · rename_i hg
        obtain ⟨rfl, rfl⟩ := Prod.mk.inj (Option.some.inj h)
        exact .waitAgain hw hg
    · cases h
  | waitSignal t =>
    simp only [queueStep] at h
    split at h
    · rename_i io seqNo hw
      obtain ⟨rfl, rfl⟩ := Prod.mk.inj (Option.some.inj h)
      exact .waitSignal hw
    · cases h
  | waitLookup t =>
    simp only [queueStep] at h
    split at h
    · rename_i io seqNo hw
      split at h
      · rename_i n hg
        obtain ⟨rfl, rfl⟩ := Prod.mk.inj (Option.some.inj h)
        exact .waitFound hw hg
      · rename_i hg
        obtain ⟨rfl, rfl⟩ := Prod.mk.inj (Option.some.inj h)
        exact .waitLost hw hg
    · cases h
  | waitRead t uncopied garbage =>
    simp only [queueStep] at h
    split at h
    · rename_i io seqNo addr hw
      obtain ⟨rfl, rfl⟩ := Prod.mk.inj (Option.some.inj h)
      exact .waitRead hw
    · cases h
  | waitRemove t =>
    simp only [queueStep] at h
    split at h
    · rename_i io seqNo addr ret uncopied hw
      obtain ⟨rfl, rfl⟩ := Prod.mk.inj (Option.some.inj h)
      exact .waitRemove hw
    · cases h
  | threadExit t =>
    simp only [queueStep] at h
    split_ifs at h with hc
    obtain ⟨rfl, rfl⟩ := Prod.mk.inj (Option.some.inj h)
    exact .exit hc.1 hc.2
  | reap p =>
    simp only [queueStep] at h
    split_ifs at h with hc
    obtain ⟨rfl, rfl⟩ := Prod.mk.inj (Option.some.inj h)
    exact .reap hc.1
  | remove =>
    simp only [queueStep] at h
    split at h
    · rename_i hw
      obtain ⟨rfl, rfl⟩ := Prod.mk.inj (Option.some.inj h)
      exact .remove hw
    · obtain ⟨rfl, rfl⟩ := Prod.mk.inj (Option.some.inj h)
      exact .quiet
    · cases h

/-! ## Nodes and addresses -/

/-- How a step changes the nodes: it appends a new one at the next address, or
each node left was there before, up to its `ret`. -/
theorem QueueStep.nodes_cases {P : ProcTable} {s s' : QueueState} {a : QueueAction}
    {ev : List QueueEvent} (h : QueueStep P s a s' ev) :
    (∃ t path seqNo node holds, s.CanCall P t ∧ Made s.nextAddr a t path seqNo node holds ∧
        s'.nodes = s.nodes ++ [node] ∧ s'.nextAddr = s.nextAddr + 1 ∧
        .submitted t path seqNo s.nextAddr ∈ ev) ∨
      ((s'.nodes.map Node.addr).Sublist (s.nodes.map Node.addr) ∧
        s.nextAddr ≤ s'.nextAddr ∧
        ∀ n' ∈ s'.nodes, ∃ n ∈ s.nodes, ∃ r, n' = { n with ret := r }) := by
  have same : ∀ (l : List Node), ∀ n' ∈ l, ∃ n ∈ l, ∃ r, n' = { n with ret := r } :=
    fun l n' hn' => ⟨n', hn', n'.ret, rfl⟩
  cases h with
  | submit hcall hmade =>
    exact .inl ⟨_, _, _, _, _, hcall, hmade, by simp [QueueState.nodes], rfl, by simp⟩
  | brief => exact .inr ⟨List.Sublist.refl _, Nat.le_succ _, same _⟩
  | take hw ht =>
    have hn : ∀ n rest, s.worker = .idle → s.taskList = n :: rest →
        ({ s with worker := .taken n, taskList := rest } : QueueState).nodes = s.nodes := by
      intro n rest hw ht
      simp [QueueState.nodes, WorkerPhase.nodes, hw, ht]
    rw [hn _ _ hw ht]
    exact .inr ⟨List.Sublist.refl _, le_refl _, same _⟩
  | oops hw =>
    refine .inr ⟨?_, le_refl _, ?_⟩
    · simp [QueueState.nodes, WorkerPhase.nodes, hw]
    · intro n' hn'
      refine ⟨n', ?_, n'.ret, rfl⟩
      simp only [QueueState.nodes, WorkerPhase.nodes, List.mem_append, hw] at hn' ⊢
      tauto
  | @run n v ret hw | @runOther n _ ret hw =>
    refine .inr ⟨by simp [QueueState.nodes, WorkerPhase.nodes, hw], le_refl _, ?_⟩
    intro n' hn'
    simp only [QueueState.nodes, WorkerPhase.nodes, List.mem_append, List.mem_singleton,
      hw] at hn' ⊢
    rcases hn' with hn' | rfl | hn'
    · exact ⟨n', .inl hn', n'.ret, rfl⟩
    · exact ⟨n, .inr (.inl rfl), ret, rfl⟩
    · exact ⟨n', .inr (.inr hn'), n'.ret, rfl⟩
  | append hw =>
    refine .inr ⟨by simp [QueueState.nodes, WorkerPhase.nodes, hw], le_refl _, ?_⟩
    intro n' hn'
    refine ⟨n', ?_, n'.ret, rfl⟩
    simpa [QueueState.nodes, WorkerPhase.nodes, hw] using hn'
  | purge hw =>
    have hsub : (cviTpuCleanupDoneList P s.reaped s.doneList).Sublist s.doneList := by
      unfold cviTpuCleanupDoneList
      split_ifs
      · exact List.Sublist.refl _
      · exact List.filter_sublist
    have hsub' := hsub.append (List.Sublist.refl s.taskList)
    refine .inr ⟨?_, le_refl _, ?_⟩
    · simpa [QueueState.nodes, WorkerPhase.nodes, hw] using hsub'.map Node.addr
    · intro n' hn'
      refine ⟨n', ?_, n'.ret, rfl⟩
      simpa [QueueState.nodes, WorkerPhase.nodes, hw] using
        hsub'.subset (by simpa [QueueState.nodes, WorkerPhase.nodes] using hn')
  | @waitRemove _ _ _ addr =>
    have hsub := (List.filter_sublist (l := s.doneList) (p := fun n => decide (n.addr ≠ addr))).append
      (List.Sublist.refl (s.worker.nodes ++ s.taskList))
    exact .inr ⟨hsub.map Node.addr, le_refl _, fun n' hn' => ⟨n', hsub.subset hn', n'.ret, rfl⟩⟩
  | remove =>
    refine .inr ⟨by simp [QueueState.nodes, WorkerPhase.nodes], le_refl _, ?_⟩
    intro n' hn'
    simp [QueueState.nodes, WorkerPhase.nodes] at hn'
  | _ => exact .inr ⟨List.Sublist.refl _, le_refl _, same _⟩

/-- The address an event is about. -/
def QueueEvent.about : QueueEvent → Option Nat
  | hold owner _ => some owner
  | submitted _ _ _ addr => some addr
  | started addr => some addr
  | enterRunDmabuf addr _ => some addr
  | appended addr _ => some addr
  | purged addr _ => some addr
  | read addr => some addr
  | unlink addr => some addr
  | free addr => some addr
  | waitReturned _ _ _ addr _ _ => some addr
  | exited _ => none

/-- Addresses are handed out in order and nothing in the log is about an address
that is still to come. -/
structure Shape (s : QueueState) (log : List QueueEvent) : Prop where
  sorted : (s.nodes.map Node.addr).Pairwise (· < ·)
  below : ∀ n ∈ s.nodes, n.addr < s.nextAddr
  pointerBelow : ∀ t addr, (s.waiter t).pointer = some addr → addr < s.nextAddr
  logBelow : ∀ e ∈ log, ∀ addr, e.about = some addr → addr < s.nextAddr

theorem mem_walked {t : Nat} {seqNo : BitVec 32} {path : TpuPath} {l : List Node} {n : Node}
    (h : n ∈ walked t seqNo path l) : n ∈ l := by
  rcases List.mem_append.mp h with h | h
  · exact (List.takeWhile_sublist _).subset h
  · exact List.mem_of_find?_eq_some (Option.mem_toList.mp h)

/-- The events of a purge. -/
theorem purgeEvents_cases {P : ProcTable} {reaped : List Nat} {l : List Node} {e : QueueEvent}
    (h : e ∈ purgeEvents P reaped l) :
    ∃ n ∈ l, e = .read n.addr ∨ e = .purged n.addr n.pid ∨ e = .unlink n.addr ∨
      e = .free n.addr := by
  unfold purgeEvents at h
  split_ifs at h
  · cases h
  · obtain ⟨n, hn, he⟩ := List.mem_flatMap.mp h
    refine ⟨n, hn, ?_⟩
    unfold purgeVisit at he
    rcases List.mem_cons.mp he with rfl | he
    · exact .inl rfl
    · split_ifs at he
      · cases he
      · simp only [List.mem_cons, List.not_mem_nil, or_false] at he
        exact .inr he

theorem mem_purgeEvents {P : ProcTable} {reaped : List Nat} {l : List Node} {e : QueueEvent}
    (h : e ∈ purgeEvents P reaped l) : ∃ n ∈ l, e.about = some n.addr := by
  obtain ⟨n, hn, rfl | rfl | rfl | rfl⟩ := purgeEvents_cases h <;> exact ⟨n, hn, rfl⟩

/-- The events of a step are about nodes and pointers of the state, or about the
address that is handed out. -/
theorem QueueStep.about_cases {P : ProcTable} {s s' : QueueState} {a : QueueAction}
    {ev : List QueueEvent} (h : QueueStep P s a s' ev) {e : QueueEvent} (he : e ∈ ev)
    {addr : Nat} (ha : e.about = some addr) :
    (∃ n ∈ s.nodes, n.addr = addr) ∨ (∃ t, (s.waiter t).pointer = some addr) ∨
      (addr = s.nextAddr ∧ s'.nextAddr = s.nextAddr + 1) := by
  have inWorker : ∀ n, n ∈ s.worker.nodes → n ∈ s.nodes := fun n hn =>
    List.mem_append_right _ (List.mem_append_left _ hn)
  have inDone : ∀ n, n ∈ s.doneList → n ∈ s.nodes := fun n hn => List.mem_append_left _ hn
  have inTask : ∀ n, n ∈ s.taskList → n ∈ s.nodes := fun n hn =>
    List.mem_append_right _ (List.mem_append_right _ hn)
  cases h with
  | quiet | waitCall | waitSignal | reap | runOther => cases he
  | submit =>
    rcases List.mem_append.mp he with he | he
    · obtain ⟨x, -, rfl⟩ := List.mem_map.mp he
      exact .inr (.inr ⟨(Option.some.inj ha).symm, rfl⟩)
    · obtain rfl := List.mem_singleton.mp he
      exact .inr (.inr ⟨(Option.some.inj ha).symm, rfl⟩)
  | brief =>
    obtain ⟨x, -, rfl⟩ := List.mem_map.mp he
    exact .inr (.inr ⟨(Option.some.inj ha).symm, rfl⟩)
  | @take n rest hw ht =>
    obtain rfl := List.mem_singleton.mp he
    exact .inl ⟨n, inTask n (by rw [ht]; exact List.mem_cons_self ..), Option.some.inj ha⟩
  | @oops n _ hw =>
    obtain rfl := List.mem_singleton.mp he
    exact .inl ⟨n, inWorker n (by simp [hw, WorkerPhase.nodes]), Option.some.inj ha⟩
  | @run n _ _ hw =>
    refine .inl ⟨n, inWorker n (by simp [hw, WorkerPhase.nodes]), ?_⟩
    rcases List.mem_cons.mp he with rfl | he
    · exact Option.some.inj ha
    · obtain ⟨x, -, rfl⟩ := List.mem_map.mp he
      exact Option.some.inj ha
  | @append n hw =>
    obtain rfl := List.mem_singleton.mp he
    exact .inl ⟨n, inWorker n (by simp [hw, WorkerPhase.nodes]), Option.some.inj ha⟩
  | purge =>
    obtain ⟨n, hn, hab⟩ := mem_purgeEvents he
    rw [hab] at ha
    exact .inl ⟨n, inDone n hn, Option.some.inj ha⟩
  | waitWoken | waitAgain | waitFound | waitLost =>
    obtain ⟨n, hn, rfl⟩ := List.mem_map.mp he
    exact .inl ⟨n, inDone n (mem_walked hn), Option.some.inj ha⟩
  | @waitRead t _ _ _ _ _ hw =>
    obtain rfl := List.mem_singleton.mp he
    exact .inr (.inl ⟨t, by rw [hw]; exact ha⟩)
  | @waitRemove t _ _ _ _ _ hw =>
    refine .inr (.inl ⟨t, ?_⟩)
    simp only [List.mem_cons, List.not_mem_nil, or_false] at he
    rw [hw]
    rcases he with rfl | rfl | rfl <;> exact ha
  | exit =>
    obtain rfl := List.mem_singleton.mp he
    cases ha
  | remove =>
    obtain ⟨n, hn, he⟩ := List.mem_flatMap.mp he
    simp only [List.mem_cons, List.not_mem_nil, or_false] at he
    have hab : e.about = some n.addr := by rcases he with rfl | rfl <;> rfl
    rw [hab] at ha
    rcases List.mem_append.mp hn with hn | hn
    · exact .inl ⟨n, inTask n hn, Option.some.inj ha⟩
    · exact .inl ⟨n, inDone n hn, Option.some.inj ha⟩

/-- A waiter gets a pointer only from a lookup in the done list. -/
theorem QueueStep.pointer_cases {P : ProcTable} {s s' : QueueState} {a : QueueAction}
    {ev : List QueueEvent} (h : QueueStep P s a s' ev) {t addr : Nat}
    (hp : (s'.waiter t).pointer = some addr) :
    (s.waiter t).pointer = some addr ∨
      ∃ io seqNo n, s.waiter t = .woken io seqNo ∧ s'.waiter t = .found io seqNo addr ∧
        getFromDoneList t seqNo io.path s.doneList = some n ∧ n.addr = addr := by
  cases h with
  | @waitCall u | @waitWoken u | @waitSignal u | @waitLost u | @waitRemove u | @exit u =>
    by_cases htu : t = u
    · subst htu
      simp [WaitPhase.pointer] at hp
    · simp only [Function.update_of_ne htu] at hp
      exact .inl hp
  | @waitFound u io seqNo n hw hg =>
    by_cases htu : t = u
    · subst htu
      simp only [Function.update_self, WaitPhase.pointer, Option.some.injEq] at hp ⊢
      exact .inr ⟨io, seqNo, n, hw, by rw [hp], hg, hp⟩
    · simp only [Function.update_of_ne htu] at hp
      exact .inl hp
  | @waitRead u io seqNo b _ _ hw =>
    by_cases htu : t = u
    · subst htu
      simp only [Function.update_self, WaitPhase.pointer, Option.some.injEq] at hp
      exact .inl (by rw [hw, WaitPhase.pointer, hp])
    · simp only [Function.update_of_ne htu] at hp
      exact .inl hp
  | _ => exact .inl hp

/-- `Shape` holds at the start and is kept by every step. -/
theorem shape_start : Shape {} [] where
  sorted := by simp [QueueState.nodes, WorkerPhase.nodes]
  below := by simp [QueueState.nodes, WorkerPhase.nodes]
  pointerBelow := by simp [WaitPhase.pointer]
  logBelow := by simp

/-- Preparing the buffer leaves the node's identity and keys alone. -/
theorem prepareBuffer_keeps (a : DmaAnswers) (node : Node) :
    (cviTpuPrepareBuffer a node).1 =
      { node with dmabufVaddr := (cviTpuPrepareBuffer a node).1.dmabufVaddr,
                  dmabufPaddr := (cviTpuPrepareBuffer a node).1.dmabufPaddr } := by
  unfold cviTpuPrepareBuffer
  split_ifs <;> rfl

/-- The identity and the keys of a submitted node. The sequence number is in the
field of the node's path, the other key field is zero. -/
theorem Made.fields {addr : Nat} {a : QueueAction} {t : Nat} {path : TpuPath}
    {seqNo : BitVec 32} {node : Node} {holds : List (Entry Hold)}
    (h : Made addr a t path seqNo node holds) :
    node.addr = addr ∧ node.pid = t ∧ node.tpuPath = path ∧
      node.seqNo = (if path = .pioTdma then 0 else seqNo) ∧
      node.pioSeqNo = (if path = .pioTdma then seqNo else 0) := by
  cases h with
  | normal =>
    rw [prepareBuffer_keeps]
    exact ⟨rfl, rfl, rfl, rfl, rfl⟩
  | tee => exact ⟨rfl, rfl, rfl, rfl, rfl⟩
  | pio => exact ⟨rfl, rfl, rfl, rfl, rfl⟩

theorem Shape.step {P : ProcTable} {s s' : QueueState} {a : QueueAction}
    {log ev : List QueueEvent} (hS : Shape s log) (h : QueueStep P s a s' ev) :
    Shape s' (log ++ ev) := by
  have hle : s.nextAddr ≤ s'.nextAddr := by
    rcases h.nodes_cases with ⟨_, _, _, _, _, _, _, _, hn, _⟩ | ⟨_, hn, _⟩ <;> omega
  refine ⟨?_, ?_, ?_, ?_⟩
  · rcases h.nodes_cases with ⟨_, _, _, node, _, _, hm, hn, _⟩ | ⟨hsub, _, _⟩
    · rw [hn, List.map_append, List.pairwise_append]
      refine ⟨hS.sorted, by simp, ?_⟩
      intro x hx y hy
      obtain ⟨n, hn, rfl⟩ := List.mem_map.mp hx
      obtain rfl : y = node.addr := by simpa using hy
      rw [hm.fields.1]
      exact hS.below n hn
    · exact hS.sorted.sublist hsub
  · intro n hn
    rcases h.nodes_cases with ⟨_, _, _, node, _, _, hm, hn', hnx, _⟩ | ⟨_, _, hall⟩
    · rw [hn'] at hn
      rcases List.mem_append.mp hn with hn | hn
      · exact lt_of_lt_of_le (hS.below n hn) hle
      · obtain rfl := List.mem_singleton.mp hn
        rw [hm.fields.1, hnx]
        exact Nat.lt_succ_self _
    · obtain ⟨m, hm, r, rfl⟩ := hall n hn
      exact lt_of_lt_of_le (hS.below m hm) hle
  · intro t addr hp
    rcases h.pointer_cases hp with hp | ⟨_, _, n, _, _, hg, rfl⟩
    · exact lt_of_lt_of_le (hS.pointerBelow t addr hp) hle
    · have hn : n ∈ s.nodes := List.mem_append_left _ (List.mem_of_find?_eq_some hg)
      exact lt_of_lt_of_le (hS.below n hn) hle
  · intro e he addr hab
    rcases List.mem_append.mp he with he | he
    · exact lt_of_lt_of_le (hS.logBelow e he addr hab) hle
    · rcases h.about_cases he hab with ⟨n, hn, rfl⟩ | ⟨t, ht⟩ | ⟨rfl, hn⟩
      · exact lt_of_lt_of_le (hS.below n hn) hle
      · exact lt_of_lt_of_le (hS.pointerBelow t addr ht) hle
      · omega

/-- Done-list nodes are older than the nodes still to be finished. -/
theorem Shape.done_lt {s : QueueState} {log : List QueueEvent} (hS : Shape s log) {n m : Node}
    (hn : n ∈ s.doneList) (hm : m ∈ s.worker.nodes ++ s.taskList) : n.addr < m.addr := by
  have h := hS.sorted
  rw [QueueState.nodes, List.map_append, List.pairwise_append] at h
  exact h.2.2 _ (List.mem_map_of_mem hn) _ (List.mem_map_of_mem hm)

/-- Two nodes of one state with one address are one node. -/
theorem Shape.node_ext {s : QueueState} {log : List QueueEvent} (hS : Shape s log) {n m : Node}
    (hn : n ∈ s.nodes) (hm : m ∈ s.nodes) (h : n.addr = m.addr) : n = m := by
  have hnd : (s.nodes.map Node.addr).Nodup := hS.sorted.imp fun hlt => Nat.ne_of_lt hlt
  exact List.inj_on_of_nodup_map hnd hn hm h

/-! ## Threads -/

/-- What is known of the threads: whoever is inside a wait ioctl exists and has
not exited, only exited leaders are reaped, and nodes belong to threads. -/
structure Threads (P : ProcTable) (s : QueueState) : Prop where
  present : ∀ t, s.waiter t ≠ .user → t ∈ P.threads ∧ t ∉ s.exited
  reapedExited : ∀ p ∈ s.reaped, p ∈ s.exited
  pids : ∀ n ∈ s.nodes, n.pid ∈ P.threads

theorem threads_start (P : ProcTable) : Threads P {} where
  present := by simp
  reapedExited := by simp
  pids := by simp [QueueState.nodes, WorkerPhase.nodes]

theorem Threads.step {P : ProcTable} {s s' : QueueState} {a : QueueAction}
    {ev : List QueueEvent} (hT : Threads P s) (h : QueueStep P s a s' ev) : Threads P s' := by
  refine ⟨?_, ?_, ?_⟩
  · intro t ht
    cases h with
    | @waitCall u _ _ hcall =>
      by_cases htu : t = u
      · rw [htu]
        exact ⟨hcall.1, hcall.2.1⟩
      · simp only [Function.update_of_ne htu] at ht
        exact hT.present t ht
    | @waitWoken u _ _ _ hw | @waitSignal u _ _ hw | @waitFound u _ _ _ hw
    | @waitLost u _ _ hw | @waitRead u _ _ _ _ _ hw | @waitRemove u _ _ _ _ _ hw =>
      by_cases htu : t = u
      · rw [htu]
        exact hT.present u (by rw [hw]; simp)
      · simp only [Function.update_of_ne htu] at ht
        exact hT.present t ht
    | @exit u =>
      by_cases htu : t = u
      · rw [htu] at ht
        simp at ht
      · simp only [Function.update_of_ne htu] at ht
        simp only [List.mem_cons, not_or]
        exact ⟨(hT.present t ht).1, htu, (hT.present t ht).2⟩
    | _ => exact hT.present t ht
  · intro p hp
    cases h with
    | exit => exact List.mem_cons_of_mem _ (hT.reapedExited p hp)
    | reap hx =>
      rcases List.mem_cons.mp hp with rfl | hp
      · exact hx
      · exact hT.reapedExited p hp
    | _ => exact hT.reapedExited p hp
  · intro n hn
    rcases h.nodes_cases with ⟨_, _, _, node, _, hcall, hm, hn', _⟩ | ⟨_, _, hall⟩
    · rw [hn'] at hn
      rcases List.mem_append.mp hn with hn | hn
      · exact hT.pids n hn
      · obtain rfl := List.mem_singleton.mp hn
        rw [hm.fields.2.1]
        exact hcall.1
    · obtain ⟨m, hm, r, rfl⟩ := hall n hn
      exact hT.pids m hm

/-- The purge spares the nodes of a leader that has not exited. -/
theorem Threads.alive_of_leader {P : ProcTable} {s : QueueState} (hT : Threads P s) {n : Node}
    (hn : n ∈ s.nodes) (hl : P.tgid n.pid = n.pid) (hx : n.pid ∉ s.exited) :
    alive P s.reaped n = true := by
  have hr : n.pid ∉ s.reaped := fun hr => hx (hT.reapedExited _ hr)
  simp [alive, forEachProcess, hT.pids n hn, hl, hr]

end LicheeRvNano
