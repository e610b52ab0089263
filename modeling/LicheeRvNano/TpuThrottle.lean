import LicheeRvNano.TpuQueue
import Mathlib.Algebra.GroupWithZero.Nat
import Mathlib.Order.Basic

/-!
# TPU driver: the throttle loop of the submit ioctls

Each submit counts the task list, sleeps while there are more than `TASK_LIST_MAX` tasks,
and counts again. The counter is declared outside the loop and not reset, so what the loop
tests is the running total of all its scans. `throttled_until_drained_iff` says for which
lengths of the list that makes no difference; `throttle_stuck` is what it does to a
submitter that found the list over the limit once.
-/

namespace LicheeRvNano

/-! ## First occurrences -/

/-- `p` holds at `k` for the first time. -/
def FirstAt (p : Nat → Prop) (k : Nat) : Prop := p k ∧ ∀ i < k, ¬ p i

/-- A predicate that holds somewhere has a first time. -/
theorem exists_firstAt {p : Nat → Prop} {k : Nat} (h : p k) : ∃ i ≤ k, FirstAt p i := by
  induction k using Nat.strong_induction_on with
  | _ k ih =>
    by_cases hbefore : ∃ i < k, p i
    · obtain ⟨i, hi, hp⟩ := hbefore
      obtain ⟨j, hj, hfirst⟩ := ih i hi hp
      exact ⟨j, hj.trans hi.le, hfirst⟩
    · exact ⟨k, le_rfl, h, fun i hi hp => hbefore ⟨i, hi, hp⟩⟩

/-- Two predicates have the same first time below `n` when they agree as long as the second
has not held. -/
theorem firstAt_iff_firstAt {p q : Nat → Prop} {n : Nat} :
    (∀ k < n, FirstAt p k ↔ FirstAt q k) ↔ ∀ k < n, (∀ i < k, ¬ q i) → (p k ↔ q k) := by
  constructor
  · intro h k hk hq
    have hp (i : Nat) (hi : i < k) : ¬ p i := by
      intro hpi
      obtain ⟨j, hj, hfirst⟩ := exists_firstAt hpi
      exact hq j (by omega) ((h j (by omega)).mp hfirst).1
    exact ⟨fun hpk => ((h k hk).mp ⟨hpk, hp⟩).1, fun hqk => ((h k hk).mpr ⟨hqk, hq⟩).1⟩
  · intro h k hk
    constructor
    · rintro ⟨hpk, hp⟩
      have hq (i : Nat) (hi : i < k) : ¬ q i := by
        intro hqi
        obtain ⟨j, hj, hfirst⟩ := exists_firstAt hqi
        exact hp j (by omega) ((h j (by omega) hfirst.2).mpr hfirst.1)
      exact ⟨(h k hk hq).mp hpk, hq⟩
    · rintro ⟨hqk, hq⟩
      refine ⟨(h k hk hq).mpr hqk, fun i hi hpi => hq i hi ?_⟩
      exact (h i (by omega) fun j hj => hq j (by omega)).mp hpi

/-! ## The counter -/

/-- The lengths at the scans up to `k`, added up in 32 bits. -/
def scanTotal (scans : List Nat) (k : Nat) : Nat := (scans.take (k + 1)).sum % 2 ^ 32

/-- The loop is left when the counter shows at most the limit. -/
theorem throttle_eq_true_iff (taskListCount : BitVec 32) (scans : List Nat) :
    throttle taskListCount scans = true ↔
      ∃ k < scans.length, (taskListCount.toNat + (scans.take (k + 1)).sum) % 2 ^ 32 ≤ 100 := by
  induction scans generalizing taskListCount with
  | nil => simp [throttle]
  | cons n scans ih =>
    have hcount : (taskListCount + BitVec.ofNat 32 n).toNat = (taskListCount.toNat + n) % 2 ^ 32 := by
      rw [BitVec.toNat_add, BitVec.toNat_ofNat, Nat.add_mod_mod]
    have hover : taskListCount + BitVec.ofNat 32 n > TASK_LIST_MAX ↔
        100 < (taskListCount.toNat + n) % 2 ^ 32 := by
      rw [← hcount]
      exact BitVec.lt_def
    rw [throttle]
    split_ifs with h
    · rw [ih, hcount]
      rw [hover] at h
      constructor
      · rintro ⟨k, hk, hle⟩
        refine ⟨k + 1, Nat.succ_lt_succ hk, ?_⟩
        rw [List.take_succ_cons, List.sum_cons]
        omega
      · rintro ⟨k, hk, hle⟩
        cases k with
        | zero =>
          rw [List.take_succ_cons, List.take_zero, List.sum_cons, List.sum_nil] at hle
          omega
        | succ k =>
          refine ⟨k, Nat.lt_of_succ_lt_succ hk, ?_⟩
          rw [List.take_succ_cons, List.sum_cons] at hle
          omega
    · rw [hover] at h
      refine ⟨fun _ => ⟨0, Nat.succ_pos _, ?_⟩, fun _ => rfl⟩
      rw [List.take_succ_cons, List.take_zero, List.sum_cons, List.sum_nil]
      omega

/-- The counter over some of the scans is the counter over all of them. -/
theorem throttle_take (scans : List Nat) {n : Nat} (hn : n ≤ scans.length) :
    throttle 0 (scans.take n) = true ↔ ∃ k < n, scanTotal scans k ≤ 100 := by
  rw [throttle_eq_true_iff, List.length_take_of_le hn]
  refine exists_congr fun k => and_congr_right fun hk => ?_
  rw [List.take_take, Nat.min_eq_left hk, scanTotal]
  exact Iff.of_eq (congrArg (· % 2 ^ 32 ≤ 100) (Nat.zero_add _))

/-- Without wrapping around, the counter never falls below the first scan. -/
theorem head_le_scanTotal {n : Nat} {scans : List Nat} (hwrap : n + scans.sum < 2 ^ 32) (k : Nat) :
    n ≤ scanTotal (n :: scans) k := by
  have hpart : (scans.take k).sum ≤ scans.sum :=
    calc (scans.take k).sum
      _ ≤ (scans.take k).sum + (scans.drop k).sum := Nat.le_add_right _ _
      _ = scans.sum := by rw [← List.sum_append, List.take_append_drop]
  rw [scanTotal, List.take_succ_cons, List.sum_cons, Nat.mod_eq_of_lt (by omega)]
  exact Nat.le_add_right _ _

/-- Once over the limit, the submitter stays until the counter wraps around, however short
the list has become. -/
theorem throttle_stuck {n : Nat} {scans : List Nat} (hn : 100 < n)
    (hwrap : n + scans.sum < 2 ^ 32) : throttle 0 (n :: scans) = false := by
  have hleaves := throttle_take (n :: scans) le_rfl
  rw [List.take_length] at hleaves
  rw [← Bool.not_eq_true, hleaves]
  rintro ⟨k, -, hle⟩
  exact absurd (hn.trans_le (head_le_scanTotal hwrap k)) (Nat.not_lt.mpr hle)

/-! ## The three submits -/

/-- The ioctl leaves its throttle loop at scan `k`. -/
def LeavesAt {ρ : Type*} (submit : SubmitEnv → Option ρ) (vmalloc : Bool) (scans : List Nat)
    (k : Nat) : Prop :=
  submit ⟨0, scans.take k, vmalloc⟩ = none ∧ submit ⟨0, scans.take (k + 1), vmalloc⟩ ≠ none

/-- The worker has brought the list down to the limit at scan `k`. -/
def DrainedAt (scans : List Nat) (k : Nat) : Prop := scans.getD k 0 ≤ 100

instance (scans : List Nat) (k : Nat) : Decidable (DrainedAt scans k) :=
  inferInstanceAs (Decidable (_ ≤ _))

/-- The running total of the scans tells the same as the scan itself, up to the first scan
that finds the list at or below the limit. -/
def ThrottleCond (scans : List Nat) : Prop :=
  ∀ k < scans.length, (∀ i < k, ¬ DrainedAt scans i) → (scanTotal scans k ≤ 100 ↔ DrainedAt scans k)

/-- As long as the lengths add up to less than `2 ^ 32`: the first scan finds the list at or
below the limit, or none does. -/
theorem throttleCond_iff_of_sum_lt {scans : List Nat} (hwrap : scans.sum < 2 ^ 32) :
    ThrottleCond scans ↔ DrainedAt scans 0 ∨ ∀ k < scans.length, ¬ DrainedAt scans k := by
  cases scans with
  | nil => exact iff_of_true (fun k hk => absurd hk (Nat.not_lt_zero k)) (.inl (Nat.zero_le _))
  | cons n scans =>
    rw [List.sum_cons] at hwrap
    have htotal := head_le_scanTotal hwrap
    have hfirst : scanTotal (n :: scans) 0 = n := by
      rw [scanTotal, List.take_succ_cons, List.take_zero, List.sum_cons, List.sum_nil]
      omega
    have hhead : DrainedAt (n :: scans) 0 ↔ n ≤ 100 := Iff.rfl
    constructor
    · intro h
      by_cases hn : n ≤ 100
      · exact .inl hn
      · refine .inr fun k hk hdrained => ?_
        -- at the first drained scan the counter still holds `n`
        obtain ⟨i, hi, hat, hbefore⟩ := exists_firstAt hdrained
        have hle := (h i (by omega) hbefore).mpr hat
        exact hn ((htotal i).trans hle)
    · rintro (hn | hnever) k hk hbefore
      · cases k with
        | zero => rw [hfirst, hhead]
        | succ k => exact absurd hn (hbefore 0 (Nat.succ_pos k))
      · have hn := hnever 0 (Nat.succ_pos _)
        rw [hhead] at hn
        exact iff_of_false (fun hle => hn ((htotal k).trans hle)) (hnever k hk)

theorem submitNode_eq_none_iff (scans : List Nat) (vmalloc : Bool) (made : Node × List (Entry Hold)) :
    submitNode ⟨0, scans, vmalloc⟩ made = none ↔ ¬ throttle 0 scans = true := by
  rw [submitNode, if_neg (not_not.mpr rfl), Bool.not_eq_true]
  split_ifs with h
  · exact iff_of_true rfl h
  · exact iff_of_false not_false h
  · exact iff_of_false not_false h

theorem leavesAt_submitNode_iff {scans : List Nat} {k : Nat} (hk : k < scans.length) (vmalloc : Bool)
    (made : Node × List (Entry Hold)) :
    LeavesAt (submitNode · made) vmalloc scans k ↔ FirstAt (fun k => scanTotal scans k ≤ 100) k := by
  rw [LeavesAt, submitNode_eq_none_iff, ne_eq, submitNode_eq_none_iff, not_not,
    throttle_take scans hk.le,
    throttle_take scans hk]
  constructor
  · rintro ⟨hno, i, hi, hle⟩
    have hik : i = k := by
      by_contra hne
      exact hno ⟨i, by omega, hle⟩
    exact ⟨hik ▸ hle, fun j hj hle => hno ⟨j, hj, hle⟩⟩
  · rintro ⟨hle, hno⟩
    exact ⟨fun ⟨j, hj, hle⟩ => hno j hj hle, k, Nat.lt_succ_self k, hle⟩

/-- Each of the submit ioctls leaves its loop at the first scan that finds at most a hundred
tasks, and not before, exactly if the running total agrees with the scans that long. -/
theorem throttled_until_drained_iff (current addr : Nat) (vmalloc : Bool) (dma : SubmitDmaArg)
    (answers : DmaAnswers) (tee : SubmitTeeArg) (pio : TdmaCopyArg) (scans : List Nat) :
    (∀ k < scans.length,
      (LeavesAt (cviTpuSubmit current addr · dma answers) vmalloc scans k ↔
        FirstAt (DrainedAt scans) k) ∧
      (LeavesAt (cviTpuSubmitTee current addr · tee) vmalloc scans k ↔ FirstAt (DrainedAt scans) k) ∧
      (LeavesAt (cviTpuSubmitPio current addr · pio) vmalloc scans k ↔
        FirstAt (DrainedAt scans) k)) ↔
    ThrottleCond scans := by
  rw [ThrottleCond, ← firstAt_iff_firstAt]
  refine forall_congr' fun k => forall_congr' fun hk => ?_
  have hleaves := leavesAt_submitNode_iff hk vmalloc
  constructor
  · rintro ⟨-, htee, -⟩
    rw [← htee]
    exact (hleaves _).symm
  · intro h
    exact ⟨(hleaves _).trans h, (hleaves _).trans h, (hleaves _).trans h⟩

/-- A list of 101 tasks that is empty at the next scan: the submitter is not released. -/
theorem not_throttled_until_drained :
    ¬ ∀ (current addr : Nat) (vmalloc : Bool) (dma : SubmitDmaArg) (answers : DmaAnswers)
      (tee : SubmitTeeArg) (pio : TdmaCopyArg) (scans : List Nat), ∀ k < scans.length,
      (LeavesAt (cviTpuSubmit current addr · dma answers) vmalloc scans k ↔
        FirstAt (DrainedAt scans) k) ∧
      (LeavesAt (cviTpuSubmitTee current addr · tee) vmalloc scans k ↔ FirstAt (DrainedAt scans) k) ∧
      (LeavesAt (cviTpuSubmitPio current addr · pio) vmalloc scans k ↔
        FirstAt (DrainedAt scans) k) := by
  intro h
  have hfirst : FirstAt (DrainedAt [101, 0]) 1 := by
    refine ⟨by decide, fun i hi => ?_⟩
    obtain rfl : i = 0 := by omega
    decide
  have hpio := (h 1 0 true ⟨3, 1⟩ ⟨true, true, true, 1, 0, 0, 0, 0⟩ ⟨0, 0, 0, 0, 0, 0, 0, 1⟩
    ⟨0, 0, 0, 0, 0, 0, 0, 16, 1⟩
    [101, 0] 1 (by decide)).2.2
  have hleaves := (hpio.mpr hfirst).2
  exact hleaves ((submitNode_eq_none_iff _ _ _).mpr (by decide))

end LicheeRvNano
