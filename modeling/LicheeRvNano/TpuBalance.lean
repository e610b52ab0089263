import LicheeRvNano.TpuQueueSteps
import Mathlib.Data.Prod.Basic

/-!
# TPU driver: the balance of dma-buf holds

Five holds are taken on a command buffer when it is submitted, carried through
the task list by its node, and let go by the worker after the run; the ioctls
that only look at a buffer take and drop theirs within the call. `ledger` is the
log seen as a ledger over pairs of an owner and a hold, and `Balanced` is the
contract of a whole life of the driver, ending in its removal.

Two things stand in its way. `cvi_tpu_submit` does not look at the result of
`cvi_tpu_prepare_buffer`, so a failed prepare is queued all the same and the
worker enters `platform_run_dmabuf` with `NULL`. And `work_thread_exit` frees
the nodes left on the task list without `cvi_tpu_cleanup_buffer`. `BalanceCond`
is the absence of both, and then the driver is balanced.
-/

namespace LicheeRvNano

/-! ## The ledger of a log -/

/-- The ledger entry of an event, if it is about a hold. -/
def QueueEvent.entry : QueueEvent → Option (Entry (Nat × Hold))
  | hold owner e => some (e.map (Prod.mk owner))
  | _ => none

/-- What a log says about holds. -/
def ledger (log : List QueueEvent) : List (Entry (Nat × Hold)) :=
  log.filterMap QueueEvent.entry

@[simp] theorem ledger_nil : ledger [] = [] := rfl

@[simp] theorem ledger_append (l m : List QueueEvent) : ledger (l ++ m) = ledger l ++ ledger m :=
  List.filterMap_append

@[simp] theorem ledger_holds (owner : Nat) (l : List (Entry Hold)) :
    ledger (l.map (.hold owner)) = l.map (Entry.map (Prod.mk owner)) := by
  induction l with
  | nil => rfl
  | cons e l ih => simpa [ledger, QueueEvent.entry] using ih

/-- The entry of the run of a command buffer: it has an address, and all five
holds on it are held. -/
def RunOk (past : List QueueEvent) : QueueEvent → Prop
  | .enterRunDmabuf addr v => v ≠ none ∧ ∀ x, Ledger.Held (ledger past) (addr, x)
  | _ => True

/-- The contract of a whole life of the driver: nothing is dropped that is not
held, everything taken is dropped exactly once, and no command buffer is run
that is not ready. -/
def Balanced (log : List QueueEvent) : Prop :=
  Ledger.Sound (ledger log) ∧
    (∀ x, (ledger log).count (.drop x) = (ledger log).count (.take x) ∧
      (ledger log).count (.take x) ≤ 1) ∧
    Judged RunOk [] log

/-- The condition: a submit that gets as far as `cvi_tpu_prepare_buffer` finds
every dma-buf call successful and one segment in the table, and the device is not
removed while a command buffer waits on the task list. -/
def BalanceCond (s : QueueState) : QueueAction → Prop
  | .submit _ env _ a => env.uncopied = 0 → env.vmalloc = true → a.Succeed
  | .remove => ∀ n ∈ s.taskList, n.tpuPath ≠ .desNormal
  | _ => True

instance (s : QueueState) : ∀ a, Decidable (BalanceCond s a)
  | .submit .. => inferInstanceAs (Decidable (_ → _))
  | .remove => inferInstanceAs (Decidable (∀ n ∈ s.taskList, _))
  | .submitTee .. | .submitPio .. | .getPaddr .. | .mapDmabuf .. | .workTake
  | .workRun _ | .workAppend | .workPurge | .waitCall .. | .waitTest _ | .waitSignal _
  | .waitLookup _ | .waitRead .. | .waitRemove _ | .threadExit _ | .reap _ => isTrue trivial

/-! ## The invariant -/

/-- The nodes still to be run. -/
def QueueState.pending (s : QueueState) : List Node :=
  match s.worker with
  | .taken n => n :: s.taskList
  | _ => s.taskList

/-- The invariant: a command buffer still to be run is ready, and whatever was
taken was dropped or belongs to one of these. -/
structure BalanceInv (s : QueueState) (log : List QueueEvent) : Prop where
  shape : Shape s log
  sound : Ledger.Sound (ledger log)
  judged : Judged RunOk [] log
  ready : ∀ n ∈ s.pending, n.tpuPath = .desNormal →
    n.dmabufVaddr ≠ none ∧ ∀ x, Ledger.Held (ledger log) (n.addr, x)
  owned : ∀ o x, .take (o, x) ∈ ledger log → .drop (o, x) ∈ ledger log ∨
    ∃ n ∈ s.pending, n.addr = o ∧ n.tpuPath = .desNormal

theorem pending_submit (s : QueueState) (node : Node) :
    ({ s with nextAddr := s.nextAddr + 1, taskList := s.taskList ++ [node] } :
      QueueState).pending = s.pending ++ [node] := by
  unfold QueueState.pending
  cases s.worker <;> rfl

theorem QueueState.mem_nodes_of_pending {s : QueueState} {n : Node} (h : n ∈ s.pending) :
    n ∈ s.nodes := by
  unfold QueueState.pending at h
  refine List.mem_append_right _ ?_
  split at h
  · rename_i m hw
    rwa [hw]
  · exact List.mem_append_right _ h

/-- Owners to come are new to the ledger. -/
theorem Shape.fresh {s : QueueState} {log : List QueueEvent} (hS : Shape s log) (x : Hold) :
    Ledger.Fresh (ledger log) (s.nextAddr, x) := by
  have h : ∀ e : Entry Hold, e.map (Prod.mk s.nextAddr) ∉ ledger log := by
    intro e he
    obtain ⟨ev, hev, hent⟩ := List.mem_filterMap.mp he
    cases ev with
    | hold owner e' =>
      have hlt := hS.logBelow _ hev owner rfl
      have : (e'.map (Prod.mk owner)).of.1 = (e.map (Prod.mk s.nextAddr)).of.1 := by
        rw [Option.some.inj hent]
      have howner : owner = s.nextAddr := by
        cases e <;> cases e' <;> exact this
      omega
    | _ => cases hent
  exact ⟨h (.take x), h (.drop x)⟩

theorem mem_map_mk {l : List (Entry Hold)} {o o' : Nat} {e : Entry Hold} :
    e.map (Prod.mk o) ∈ l.map (Entry.map (Prod.mk o')) ↔ o = o' ∧ e ∈ l := by
  rw [List.mem_map]
  constructor
  · rintro ⟨e', he', h⟩
    cases e <;> cases e' <;> simp_all [Entry.map]
  · rintro ⟨rfl, he⟩
    exact ⟨e, he, rfl⟩

/-- A block of one new owner's entries extends a sound ledger. -/
theorem sound_append_owner {s : QueueState} {log : List QueueEvent} (hS : Shape s log)
    (hl : Ledger.Sound (ledger log)) {l : List (Entry Hold)} (h : Ledger.Sound l) :
    Ledger.Sound (ledger log ++ l.map (Entry.map (Prod.mk s.nextAddr))) := by
  refine hl.append_fresh (h.map (Prod.mk_right_injective _)) ?_
  intro e he
  obtain ⟨e', -, rfl⟩ := List.mem_map.mp he
  cases e' with
  | take x => exact hS.fresh x
  | drop x => exact hS.fresh x

/-! ## The step -/

/-- An event that has nothing to do with holds. -/
def QueueEvent.Silent (e : QueueEvent) : Prop := e.entry = none ∧ ∀ past, RunOk past e

theorem ledger_silent {ev : List QueueEvent} (h : ∀ e ∈ ev, e.Silent) : ledger ev = [] :=
  List.filterMap_eq_nil_iff.mpr fun e he => (h e he).1

theorem silent_reads (l : List Node) : ∀ e ∈ l.map fun n => QueueEvent.read n.addr, e.Silent := by
  intro e he
  obtain ⟨n, -, rfl⟩ := List.mem_map.mp he
  exact ⟨rfl, fun _ => trivial⟩

theorem silent_purge {P : ProcTable} {reaped : List Nat} {l : List Node} :
    ∀ e ∈ purgeEvents P reaped l, e.Silent := by
  intro e he
  obtain ⟨n, -, rfl | rfl | rfl | rfl⟩ := purgeEvents_cases he <;>
    exact ⟨rfl, fun _ => trivial⟩

/-- A step that has nothing to do with holds and keeps the command buffers that
are still to be run. -/
theorem BalanceInv.silent {s s' : QueueState} {log ev : List QueueEvent} (hI : BalanceInv s log)
    (hS : Shape s' (log ++ ev)) (hev : ∀ e ∈ ev, e.Silent)
    (hp : ∀ n, n.tpuPath = .desNormal → (n ∈ s'.pending ↔ n ∈ s.pending)) :
    BalanceInv s' (log ++ ev) := by
  have hl : ledger (log ++ ev) = ledger log := by
    rw [ledger_append, ledger_silent hev, List.append_nil]
  refine ⟨hS, by rw [hl]; exact hI.sound, ?_, ?_, ?_⟩
  · refine Judged.append_iff.mpr ⟨hI.judged, Judged.of_forall ?_⟩
    exact fun e he before => (hev e he).2 _
  · intro n hn hd
    rw [hl]
    exact hI.ready n ((hp n hd).mp hn) hd
  · intro o x ht
    rw [hl] at ht ⊢
    rcases hI.owned o x ht with hd | ⟨n, hn, hno, hd⟩
    · exact .inl hd
    · exact .inr ⟨n, (hp n hd).mpr hn, hno, hd⟩

/-- An ioctl that takes and drops its holds within the call. -/
theorem BalanceInv.brief {s s' : QueueState} {log : List QueueEvent} (hI : BalanceInv s log)
    {holds : List (Entry Hold)} (hu : holds ∈ unwinds)
    (hS : Shape s' (log ++ holds.map (.hold s.nextAddr))) (hp : s'.pending = s.pending) :
    BalanceInv s' (log ++ holds.map (.hold s.nextAddr)) := by
  obtain ⟨hsound, hsettled⟩ := unwind_settles hu
  refine ⟨hS, ?_, ?_, ?_, ?_⟩
  · rw [ledger_append, ledger_holds]
    exact sound_append_owner hI.shape hI.sound hsound
  · refine Judged.append_iff.mpr ⟨hI.judged, Judged.of_forall ?_⟩
    intro e he before
    obtain ⟨x, -, rfl⟩ := List.mem_map.mp he
    trivial
  · intro n hn hd
    rw [hp] at hn
    obtain ⟨hv, hheld⟩ := hI.ready n hn hd
    refine ⟨hv, fun x => ?_⟩
    rw [ledger_append, ledger_holds]
    refine ⟨List.mem_append_left _ (hheld x).1, ?_⟩
    intro hm
    rcases List.mem_append.mp hm with hm | hm
    · exact (hheld x).2 hm
    · -- the ioctl's holds are those of an owner younger than any node
      have hlt : n.addr < s.nextAddr := hI.shape.below n (QueueState.mem_nodes_of_pending hn)
      have := (mem_map_mk (e := .drop x)).mp hm
      omega
  · intro o x ht
    rw [ledger_append, ledger_holds] at ht ⊢
    rcases List.mem_append.mp ht with ht | ht
    · rcases hI.owned o x ht with hd | hn
      · exact .inl (List.mem_append_left _ hd)
      · exact .inr (by rwa [hp])
    · obtain ⟨rfl, htake⟩ := (mem_map_mk (e := .take x)).mp ht
      have hdrop : (Entry.drop x).map (Prod.mk s.nextAddr) ∈ _ :=
        mem_map_mk.mpr ⟨rfl, hsettled x htake⟩
      exact .inl (List.mem_append_right _ hdrop)

/-- A submit of a command buffer whose prepare succeeds. -/
theorem BalanceInv.submit {s s' : QueueState} {log : List QueueEvent} (hI : BalanceInv s log)
    {node : Node} {holds : List (Entry Hold)} {e : QueueEvent}
    (hholds : holds = [.ref, .attachment, .mapping, .vmap, .cpuAccess].map Entry.take)
    (haddr : node.addr = s.nextAddr) (hd : node.tpuPath = .desNormal)
    (hv : node.dmabufVaddr ≠ none) (he : e.Silent)
    (hS : Shape s' (log ++ (holds.map (.hold s.nextAddr) ++ [e])))
    (hp : s'.pending = s.pending ++ [node]) :
    BalanceInv s' (log ++ (holds.map (.hold s.nextAddr) ++ [e])) := by
  have hl : ledger (log ++ (holds.map (.hold s.nextAddr) ++ [e])) =
      ledger log ++ holds.map (Entry.map (Prod.mk s.nextAddr)) := by
    have hsilent : ledger [e] = [] := ledger_silent (by simpa using he)
    rw [ledger_append, ledger_append, ledger_holds, hsilent, List.append_nil]
  have htake : ∀ x : Hold, Entry.take x ∈ holds := by
    intro x
    rw [hholds]
    cases x <;> simp
  have hnodrop : ∀ x : Hold, Entry.drop x ∉ holds := by
    intro x
    rw [hholds]
    simp
  refine ⟨hS, ?_, ?_, ?_, ?_⟩
  · rw [hl]
    refine sound_append_owner hI.shape hI.sound ?_
    rw [hholds]
    simp [Ledger.Sound, Entry.Ok]
  · refine Judged.append_iff.mpr ⟨hI.judged, Judged.of_forall ?_⟩
    intro e' he' before
    rcases List.mem_append.mp he' with he' | he'
    · obtain ⟨x, -, rfl⟩ := List.mem_map.mp he'
      trivial
    · obtain rfl := List.mem_singleton.mp he'
      exact he.2 _
  · intro n hn hnd
    rw [hp] at hn
    rw [hl]
    rcases List.mem_append.mp hn with hn | hn
    · obtain ⟨hnv, hheld⟩ := hI.ready n hn hnd
      refine ⟨hnv, fun x => ⟨List.mem_append_left _ (hheld x).1, ?_⟩⟩
      intro hm
      rcases List.mem_append.mp hm with hm | hm
      · exact (hheld x).2 hm
      · exact hnodrop x ((mem_map_mk (e := .drop x)).mp hm).2
    · obtain rfl := List.mem_singleton.mp hn
      refine ⟨hv, fun x => ⟨List.mem_append_right _ ?_, ?_⟩⟩
      · exact (mem_map_mk (e := .take x)).mpr ⟨haddr, htake x⟩
      · intro hm
        rcases List.mem_append.mp hm with hm | hm
        · rw [haddr] at hm
          exact (hI.shape.fresh x).2 hm
        · exact hnodrop x ((mem_map_mk (e := .drop x)).mp hm).2
  · intro o x ht
    rw [hl] at ht ⊢
    rw [hp]
    rcases List.mem_append.mp ht with ht | ht
    · rcases hI.owned o x ht with hdrop | ⟨n, hn, hno⟩
      · exact .inl (List.mem_append_left _ hdrop)
      · exact .inr ⟨n, List.mem_append_left _ hn, hno⟩
    · obtain ⟨rfl, -⟩ := (mem_map_mk (e := .take x)).mp ht
      exact .inr ⟨node, by simp, haddr, hd⟩

/-- The run of a command buffer and its cleanup. -/
theorem BalanceInv.run {s s' : QueueState} {log : List QueueEvent} (hI : BalanceInv s log)
    {n : Node} {v : Nat} (hd : n.tpuPath = .desNormal)
    (hS : Shape s' (log ++ .enterRunDmabuf n.addr (some v) ::
      (cleanupHolds.map Entry.drop).map (.hold n.addr)))
    (hp : s.pending = n :: s'.pending) (hne : ∀ m ∈ s'.pending, m.addr ≠ n.addr) :
    BalanceInv s' (log ++ .enterRunDmabuf n.addr (some v) ::
      (cleanupHolds.map Entry.drop).map (.hold n.addr)) := by
  obtain ⟨-, hheld⟩ := hI.ready n (by simp [hp]) hd
  have hl : ledger (log ++ .enterRunDmabuf n.addr (some v) ::
      (cleanupHolds.map Entry.drop).map (.hold n.addr)) =
        ledger log ++ (cleanupHolds.map (Prod.mk n.addr)).map Entry.drop := by
    rw [ledger_append]
    rfl
  have hdrop : ∀ x : Hold, x ∈ cleanupHolds := by
    intro x
    cases x <;> decide
  refine ⟨hS, ?_, ?_, ?_, ?_⟩
  · rw [hl]
    refine hI.sound.append_drops ?_ ?_
    · exact List.Nodup.map (Prod.mk_right_injective _) (by decide)
    · intro y hy
      obtain ⟨x, -, rfl⟩ := List.mem_map.mp hy
      exact hheld x
  · refine Judged.append_iff.mpr ⟨hI.judged, ?_, Judged.of_forall ?_⟩
    · exact ⟨by simp, hheld⟩
    · intro e he before
      obtain ⟨x, -, rfl⟩ := List.mem_map.mp he
      trivial
  · intro m hm hmd
    obtain ⟨hmv, hmheld⟩ := hI.ready m (by simp [hp, hm]) hmd
    refine ⟨hmv, fun x => ?_⟩
    rw [hl]
    refine ⟨List.mem_append_left _ (hmheld x).1, ?_⟩
    intro hmem
    rcases List.mem_append.mp hmem with hmem | hmem
    · exact (hmheld x).2 hmem
    · simp only [List.map_map, List.mem_map, Function.comp_apply, Entry.drop.injEq,
        Prod.mk.injEq] at hmem
      obtain ⟨y, -, hya, -⟩ := hmem
      exact hne m hm hya.symm
  · intro o x ht
    rw [hl] at ht ⊢
    rcases List.mem_append.mp ht with ht | ht
    · rcases hI.owned o x ht with hdr | ⟨m, hm, rfl, hmd⟩
      · exact .inl (List.mem_append_left _ hdr)
      · rw [hp] at hm
        rcases List.mem_cons.mp hm with rfl | hm
        · refine .inl (List.mem_append_right _ (List.mem_map_of_mem ?_))
          exact List.mem_map_of_mem (hdrop x)
        · exact .inr ⟨m, hm, rfl, hmd⟩
    · simp at ht

/-- The invariant is kept by every step that meets the condition. -/
theorem BalanceInv.step {P : ProcTable} {s s' : QueueState} {a : QueueAction}
    {log ev : List QueueEvent} (hI : BalanceInv s log) (hc : BalanceCond s a)
    (h : QueueStep P s a s' ev) : BalanceInv s' (log ++ ev) := by
  have hS := hI.shape.step h
  cases h with
  | submit hcall hmade =>
    cases hmade with
    | normal hcopy halloc =>
      have hsucceed := hc hcopy halloc
      refine hI.submit ?_ ?_ ?_ ?_ ⟨rfl, fun _ => trivial⟩ hS (pending_submit s _)
      all_goals rw [prepareBuffer_succeed hsucceed]
      · rfl
      · rfl
      · rfl
      · simp
    | tee | pio =>
      refine hI.silent hS (by simp [QueueEvent.Silent, QueueEvent.entry, RunOk]) ?_
      intro n hd
      rw [pending_submit, List.mem_append, List.mem_singleton, or_iff_left_iff_imp]
      rintro rfl
      cases hd
  | brief hu => exact hI.brief hu hS rfl
  | @oops n ret hw hp hv =>
    have hn : n ∈ s.pending := by simp [QueueState.pending, hw]
    exact absurd hv (hI.ready n hn hp).1
  | @run n v ret hw hp hv =>
    have hpend : s.pending = n :: s.taskList := by simp [QueueState.pending, hw]
    refine hI.run hp hS hpend ?_
    intro m hm hma
    have hsorted := hI.shape.sorted
    rw [QueueState.nodes, hw, WorkerPhase.nodes, List.map_append, List.pairwise_append,
      List.singleton_append, List.map_cons, List.pairwise_cons] at hsorted
    have := hsorted.2.1.1 m.addr (List.mem_map_of_mem hm)
    omega
  | @runOther n ret r hw hp =>
    refine hI.silent hS (by simp) ?_
    intro m hd
    simp only [QueueState.pending, hw, List.mem_cons, iff_or_self]
    rintro rfl
    exact absurd hd hp
  | remove hw =>
    refine hI.silent hS ?_ ?_
    · intro e he
      obtain ⟨n, -, he⟩ := List.mem_flatMap.mp he
      simp only [List.mem_cons, List.not_mem_nil, or_false] at he
      rcases he with rfl | rfl <;> exact ⟨rfl, fun _ => trivial⟩
    · intro n hd
      simp only [QueueState.pending, hw, List.not_mem_nil, false_iff]
      exact fun hn => hc n hn hd
  | purge hw =>
    exact hI.silent hS silent_purge (by simp [QueueState.pending, hw])
  | waitWoken | waitAgain | waitFound | waitLost =>
    exact hI.silent hS (silent_reads _) (fun _ _ => Iff.rfl)
  | take hw ht =>
    exact hI.silent hS (by simp [QueueEvent.Silent, QueueEvent.entry, RunOk])
      (by simp [QueueState.pending, hw, ht])
  | append hw =>
    exact hI.silent hS (by simp [QueueEvent.Silent, QueueEvent.entry, RunOk])
      (by simp [QueueState.pending, hw])
  | _ =>
    exact hI.silent hS (by simp [QueueEvent.Silent, QueueEvent.entry, RunOk])
      (fun _ _ => Iff.rfl)

theorem balanceInv_start : BalanceInv {} [] where
  shape := shape_start
  sound := Ledger.sound_nil
  judged := trivial
  ready := by simp [QueueState.pending]
  owned := by simp

/-- The invariant along a run. -/
theorem balanceInv_run {P : ProcTable} {as : List QueueAction} {s : QueueState}
    {log : List QueueEvent} (hm : (tpuQueue P).Meets BalanceCond {} as)
    (he : (tpuQueue P).exec {} as = some (s, log)) : BalanceInv s log :=
  Machine.exec_invariant_start balanceInv_start
    (fun hI hc hs => hI.step hc (queueStep_cases hs)) hm he

/-- A removal that meets the condition leaves nothing held. -/
theorem BalanceInv.settled_remove {P : ProcTable} {s s' : QueueState}
    {log ev : List QueueEvent} (hI : BalanceInv s log) (hc : BalanceCond s .remove)
    (h : (tpuQueue P).step s .remove = some (s', ev)) :
    Ledger.Settled (ledger (log ++ ev)) := by
  have hI' := hI.step hc (queueStep_cases h)
  have hpend : ∀ n ∈ s'.pending, n.tpuPath ≠ .desNormal := by
    have h : queueStep P s .remove = some (s', ev) := h
    simp only [queueStep] at h
    split at h
    · obtain ⟨rfl, -⟩ := Prod.mk.inj (Option.some.inj h)
      simp [QueueState.pending]
    · rename_i hw
      obtain ⟨rfl, -⟩ := Prod.mk.inj (Option.some.inj h)
      simp only [QueueState.pending, hw]
      exact hc
    · cases h
  rintro ⟨o, x⟩ ht
  rcases hI'.owned o x ht with hd | ⟨n, hn, -, hd⟩
  · exact hd
  · exact absurd hd (hpend n hn)

/-- **dma-buf balance.** A life of the driver that ends in its removal, in which
every prepare succeeds and no command buffer is left on the task list at the
removal, takes each hold at most once, drops each exactly once and only while it
is held, and runs only command buffers that are mapped and held. -/
theorem dmabuf_balance (P : ProcTable) (as : List QueueAction) (s : QueueState)
    (log : List QueueEvent) (hm : (tpuQueue P).Meets BalanceCond {} (as ++ [.remove]))
    (he : (tpuQueue P).exec {} (as ++ [.remove]) = some (s, log)) : Balanced log := by
  obtain ⟨s₁, log₁, log₂, he₁, he₂, rfl⟩ := Machine.exec_append_eq_some he
  have hI₁ := balanceInv_run hm.left he₁
  obtain ⟨s₂, ev, rest, hs, hr, rfl⟩ := Machine.exec_cons_eq_some he₂
  obtain ⟨rfl, rfl⟩ := Prod.mk.inj (Option.some.inj hr)
  rw [List.append_nil] at he ⊢
  have hI := balanceInv_run hm he
  have hsettled := hI₁.settled_remove (hm.right he₁).head hs
  exact ⟨hI.sound, Ledger.count_drop_eq_count_take hI.sound hsettled, hI.judged⟩

/-! ## Neither half of the condition can be dropped -/

/-- One process with one thread. -/
def oneThread : ProcTable := .alone 1

/-- The answers to a descriptor that is no dma-buf. -/
def badFd : DmaAnswers := ⟨false, false, false, 0, 0, 0, 0, 0⟩

def goodFd : DmaAnswers := ⟨true, true, true, 1, 0x80000000, 0, 0xffff0000, 0⟩

theorem not_dmabuf_balance :
    ¬ ∀ (P : ProcTable) (as : List QueueAction) (s : QueueState) (log : List QueueEvent),
      (tpuQueue P).exec {} (as ++ [.remove]) = some (s, log) → Balanced log := by
  intro h
  -- the failed prepare is queued and run with `NULL`
  have hb := h oneThread
    [.submit 1 ⟨0, [0], true⟩ ⟨-1, 3⟩ badFd, .workTake, .workRun 0] _ _ rfl
  exact hb.2.2.2.2.1.1 rfl

/-- A command buffer that is still on the task list at the removal keeps its
holds, though its prepare succeeded. -/
theorem remove_leaks : ∃ s log,
    (tpuQueue oneThread).exec {}
        ([.submit 1 ⟨0, [0], true⟩ ⟨5, 3⟩ goodFd] ++ [.remove]) = some (s, log) ∧
      ∀ x, Ledger.Held (ledger log) (0, x) := by
  refine ⟨_, _, rfl, ?_⟩
  intro x
  cases x <;> exact ⟨by decide, by decide⟩

/-- A command buffer and two passing ioctls, one of which fails. -/
def bufferLife : List QueueAction :=
  [.submit 1 ⟨0, [0], true⟩ ⟨5, 3⟩ goodFd, .getPaddr 1 true true badFd, .workTake,
    .mapDmabuf 1 0 goodFd, .workRun 0, .workAppend, .workPurge]

theorem dmabuf_balance_bufferLife :
    ∃ s log, (tpuQueue oneThread).exec {} (bufferLife ++ [.remove]) = some (s, log) ∧
      QueueEvent.enterRunDmabuf 0 (some 0xffff0000) ∈ log ∧ Balanced log := by
  have hm : (tpuQueue oneThread).Meets BalanceCond {} (bufferLife ++ [.remove]) := by decide
  exact ⟨_, _, rfl, by decide, dmabuf_balance oneThread bufferLife _ _ hm rfl⟩

end LicheeRvNano
