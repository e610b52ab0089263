import Mathlib.Order.Bounds.Basic
import Mathlib.Order.Nat
import LicheeRvNano.TpuPlatform

/-!
# The polling loop of `platform_tpu_suspend`

A suspend that finds the TDMA enabled and no interrupt taken polls `TDMA_INT_MASK`. The
loop looks at the status only to report one that is neither end of descriptor nor end
of PMU; it leaves when the deadline has passed, and the command is marked as handled
whatever was seen.

The hardware and the clock are streams: what the loop reads in its `k`-th pass, and
what `jiffies` is at the end of it. `TpuPlatform` has the loop as a state the device
stays in; `platformTpuSuspend_eq` says that both agree.
-/

namespace LicheeRvNano

/-- `time_after(a, b)`: the difference is taken as a signed number. -/
def timeAfter (a b : BitVec 64) : Bool := (b - a).slt 0

/-- What the polling loop meets. -/
structure PollInput where
  /-- `jiffies` before the loop -/
  started : BitVec 64
  /-- `msecs_to_jiffies(TIMEOUT_MS)` -/
  timeout : BitVec 64
  /-- `TDMA_INT_MASK` as it is read in a pass -/
  intMask : Nat → BitVec 32
  /-- `jiffies` at the end of a pass -/
  jiffies : Nat → BitVec 64

def PollInput.expire (h : PollInput) : BitVec 64 := h.started + h.timeout

/-- `int_status`. -/
def intStatusOf (regValue : BitVec 32) : BitVec 32 := (regValue >>> 16) &&& ~~~TDMA_MASK_INIT

/-- The status is end of descriptor or end of PMU. -/
def IntDone (regValue : BitVec 32) : Prop :=
  intStatusOf regValue = TDMA_INT_EOD.setWidth 32 ∨ intStatusOf regValue = TDMA_INT_EOPMU.setWidth 32

instance (regValue : BitVec 32) : Decidable (IntDone regValue) :=
  inferInstanceAs (Decidable (_ ∨ _))

/-- The loop, for at most `fuel` passes: the pass it leaves in, and the readings it has
reported as errors. -/
def pollLoop (h : PollInput) : (fuel k : Nat) → List (BitVec 32) → Option (Nat × List (BitVec 32))
  | 0, _, _ => none
  | fuel + 1, k, errors =>
    let regValue := h.intMask k
    let errors := if IntDone regValue then errors else errors ++ [regValue]
    if timeAfter (h.jiffies k) h.expire then some (k, errors) else pollLoop h fuel (k + 1) errors

/-- Whether the loop is entered. -/
def PollsOnSuspend (s : Tpu) : Prop :=
  (backUp s.hw saved s.backup .TDMA_CTRL).getLsbD TDMA_CTRL_ENABLE_BIT ∧ ¬ s.syncBackup

instance (s : Tpu) : Decidable (PollsOnSuspend s) := inferInstanceAs (Decidable (_ ∧ _))

/-- `platform_tpu_suspend`; `hw` are the engines as the loop leaves them, and `none`
means that it is still polling. -/
def platformTpuSuspend (s : Tpu) (h : PollInput) (hw : TpuHw) (fuel : Nat) : Option Tpu :=
  let backup := backUp s.hw saved s.backup
  if PollsOnSuspend s then
    (pollLoop h fuel 0 []).map fun _ =>
      { s with hw := hw, backup := backUp hw intSaved backup, syncBackup := true,
               suspendHandleInt := true, en := s.en - 1, pm := .suspended }
  else some { s with backup := backup, en := s.en - 1, pm := .suspended }

/-- The device model suspends the same way: to the end, or into the loop and out of it. -/
theorem platformTpuSuspend_eq {s : Tpu} (hrun : s.runningCnt = true) (h : PollInput) (hw : TpuHw)
    (fuel : Nat) :
    platformTpuSuspend s h hw fuel =
      if (cviTpuSuspend s).pm = .polling then
        (pollLoop h fuel 0 []).map fun _ =>
          platformTpuSuspendExpired { cviTpuSuspend s with hw := hw }
      else some (cviTpuSuspend s) := by
  by_cases hpoll : PollsOnSuspend s
  · have hin : cviTpuSuspend s = { s with backup := backUp s.hw saved s.backup, pm := .polling } := by
      rw [cviTpuSuspend, if_pos hrun]
      exact if_pos hpoll
    rw [platformTpuSuspend, if_pos hpoll, hin]
    rfl
  · have hout : cviTpuSuspend s =
        { s with backup := backUp s.hw saved s.backup, en := s.en - 1, pm := .suspended } := by
      rw [cviTpuSuspend, if_pos hrun]
      exact if_neg hpoll
    rw [platformTpuSuspend, if_neg hpoll, hout]
    rfl

/-! ## Where the loop leaves -/

/-- The passes whose reading is an end of descriptor or of PMU. -/
def PollInput.seen (h : PollInput) : Set Nat := {k | IntDone (h.intMask k)}

/-- The passes that find the deadline over. -/
def PollInput.late (h : PollInput) : Set Nat := {k | timeAfter (h.jiffies k) h.expire = true}

theorem mem_seen {h : PollInput} {k : Nat} : k ∈ h.seen ↔ IntDone (h.intMask k) := Iff.rfl

theorem mem_late {h : PollInput} {k : Nat} :
    k ∈ h.late ↔ timeAfter (h.jiffies k) h.expire = true := Iff.rfl

/-- It leaves in the first pass that finds the deadline over. -/
theorem late_of_pollLoop {h : PollInput} {fuel : Nat} :
    ∀ {k e : Nat} {errors errors' : List (BitVec 32)},
      pollLoop h fuel k errors = some (e, errors') →
        k ≤ e ∧ e ∈ h.late ∧ ∀ j, k ≤ j → j ∈ h.late → e ≤ j := by
  induction fuel with
  | zero =>
    intro k e errors errors' hp
    cases hp
  | succ fuel ih =>
    intro k e errors errors' hp
    simp only [pollLoop] at hp
    split at hp
    · rename_i hlate
      obtain ⟨rfl, -⟩ := Prod.mk.inj (Option.some.inj hp)
      exact ⟨le_refl _, hlate, fun j hj _ => hj⟩
    · rename_i hearly
      obtain ⟨hle, hmem, hleast⟩ := ih hp
      refine ⟨by omega, hmem, fun j hj hjlate => hleast j ?_ hjlate⟩
      rcases Nat.lt_or_eq_of_le hj with hlt | rfl
      · exact hlt
      · exact absurd hjlate hearly

theorem pollLoop_of_late {h : PollInput} {e : Nat} (he : e ∈ h.late) :
    ∀ {n k : Nat} (errors : List (BitVec 32)), k + n = e → (∀ j, k ≤ j → j ∈ h.late → e ≤ j) →
      ∃ errors', pollLoop h (n + 1) k errors = some (e, errors') := by
  intro n
  induction n with
  | zero =>
    intro k errors hk hleast
    obtain rfl : k = e := by omega
    refine ⟨if IntDone (h.intMask k) then errors else errors ++ [h.intMask k], ?_⟩
    rw [pollLoop]
    exact if_pos he
  | succ n ih =>
    intro k errors hk hleast
    have hearly : ¬ k ∈ h.late := by
      intro hlate
      have := hleast k (le_refl k) hlate
      omega
    obtain ⟨errors', hp⟩ := ih (k := k + 1)
      (if IntDone (h.intMask k) then errors else errors ++ [h.intMask k]) (by omega)
      (fun j hj => hleast j (by omega))
    refine ⟨errors', ?_⟩
    rw [pollLoop]
    exact (if_neg hearly).trans hp

/-- The loop leaves in the pass `e`. -/
def PollInput.LeavesAt (h : PollInput) (e : Nat) : Prop :=
  ∃ fuel errors, pollLoop h fuel 0 [] = some (e, errors)

theorem leavesAt_iff (h : PollInput) (e : Nat) : h.LeavesAt e ↔ IsLeast h.late e := by
  constructor
  · rintro ⟨fuel, errors, hp⟩
    obtain ⟨-, hmem, hleast⟩ := late_of_pollLoop hp
    exact ⟨hmem, fun j hj => hleast j (Nat.zero_le j) hj⟩
  · rintro ⟨hmem, hleast⟩
    obtain ⟨errors, hp⟩ := pollLoop_of_late hmem [] (Nat.zero_add e) fun j _ hj => hleast hj
    exact ⟨e + 1, errors, hp⟩

/-- What it reports are the other readings. -/
theorem pollLoop_errors {h : PollInput} {fuel : Nat} :
    ∀ {k e : Nat} {errors errors' : List (BitVec 32)},
      pollLoop h fuel k errors = some (e, errors') →
        errors' = errors ++ ((List.range' k (e + 1 - k)).map h.intMask).filter (¬ IntDone ·) := by
  induction fuel with
  | zero =>
    intro k e errors errors' hp
    cases hp
  | succ fuel ih =>
    intro k e errors errors' hp
    obtain ⟨hke, -, -⟩ := late_of_pollLoop hp
    have hlen : e + 1 - k = (e - k) + 1 := by omega
    simp only [pollLoop] at hp
    split at hp
    · obtain ⟨rfl, rfl⟩ := Prod.mk.inj (Option.some.inj hp)
      by_cases hdone : IntDone (h.intMask k)
      · simp [hlen, hdone]
      · simp [hlen, hdone]
    · have hrest : e + 1 - (k + 1) = e - k := by omega
      rw [ih hp, hrest, hlen, List.range'_succ]
      by_cases hdone : IntDone (h.intMask k)
      · simp [hdone]
      · simp [hdone]

/-! ## What the suspend waits for -/

/-- The suspend waits for the command: it leaves the loop in the first pass that reads
an end of descriptor or of PMU, or else in the first one past the deadline, and marks
the command as handled only if it has read one. -/
structure SuspendWaits (s : Tpu) (h : PollInput) : Prop where
  leaves : ∀ k, IsLeast (h.seen ∪ h.late) k → h.LeavesAt k
  only : ∀ e, h.LeavesAt e → IsLeast (h.seen ∪ h.late) e
  marks : ∀ hw fuel s' e errors, pollLoop h fuel 0 [] = some (e, errors) →
    platformTpuSuspend s h hw fuel = some s' → s'.syncBackup = true → s'.suspendHandleInt = true →
      ∃ k ≤ e, k ∈ h.seen

/-- The command is marked whenever the loop is left. -/
theorem platformTpuSuspend_marks {s : Tpu} (hpoll : PollsOnSuspend s) {h : PollInput} {hw : TpuHw}
    {fuel : Nat} {r : Nat × List (BitVec 32)} (hp : pollLoop h fuel 0 [] = some r) :
    ∃ s', platformTpuSuspend s h hw fuel = some s' ∧ s'.syncBackup = true ∧
      s'.suspendHandleInt = true := by
  rw [platformTpuSuspend, if_pos hpoll, hp]
  exact ⟨_, rfl, rfl, rfl⟩

/-- A pass that it leaves in has then seen the end, and no pass before it has. -/
theorem SuspendWaits.isLeast_seen {s : Tpu} {h : PollInput} (hw : SuspendWaits s h)
    (hpoll : PollsOnSuspend s) {e : Nat} (he : IsLeast h.late e) : IsLeast h.seen e := by
  obtain ⟨fuel, errors, hp⟩ := (leavesAt_iff h e).mpr he
  obtain ⟨s', hs', hsync, hhandle⟩ := @platformTpuSuspend_marks s hpoll h s.hw _ _ hp
  obtain ⟨j, hj, hseen⟩ := hw.marks s.hw fuel s' e errors hp hs' hsync hhandle
  have hleast := hw.only e ⟨fuel, errors, hp⟩
  obtain rfl : j = e := le_antisymm hj (hleast.2 (.inl hseen))
  exact ⟨hseen, fun i hi => hleast.2 (.inl hi)⟩

/-- Where the end and the deadline come first in the same pass, that is the first of both. -/
theorem isLeast_union_iff {h : PollInput} (hsame : ∀ k, IsLeast h.seen k ↔ IsLeast h.late k)
    (k : Nat) : IsLeast (h.seen ∪ h.late) k ↔ IsLeast h.late k := by
  constructor
  · intro hk
    rcases hk.1 with hseen | hlate
    · exact (hsame k).mp ⟨hseen, fun i hi => hk.2 (.inl hi)⟩
    · exact ⟨hlate, fun i hi => hk.2 (.inr hi)⟩
  · intro hlate
    have hseen := (hsame k).mpr hlate
    refine ⟨.inl hseen.1, ?_⟩
    rintro j (hj | hj)
    · exact hseen.2 hj
    · exact hlate.2 hj

/-- **When the suspend waits for the running command.** For all readings and all
progress of `jiffies`: if and only if the first pass that reads an end of descriptor or
of PMU is the first one past the deadline, or there is neither. -/
theorem suspend_waits_iff {s : Tpu} (hpoll : PollsOnSuspend s) (h : PollInput) :
    SuspendWaits s h ↔ ∀ k, IsLeast h.seen k ↔ IsLeast h.late k := by
  constructor
  · intro hw k
    constructor
    · intro hk
      obtain ⟨e, he⟩ : ∃ e, IsLeast (h.seen ∪ h.late) e := by
        classical
        have hne : (h.seen ∪ h.late).Nonempty := ⟨k, .inl hk.1⟩
        exact ⟨Nat.find hne, hne.isLeast_natFind⟩
      have hlate := (leavesAt_iff h e).mp (hw.leaves e he)
      have hek : e = k := IsLeast.unique (hw.isLeast_seen hpoll hlate) hk
      rwa [hek] at hlate
    · exact hw.isLeast_seen hpoll
  · intro hsame
    refine ⟨fun k hk => ?_, fun e he => ?_, ?_⟩
    · exact (leavesAt_iff h k).mpr ((isLeast_union_iff hsame k).mp hk)
    · exact (isLeast_union_iff hsame e).mpr ((leavesAt_iff h e).mp he)
    · intro hw fuel s' e errors hp _ _ _
      have hlate := (leavesAt_iff h e).mp ⟨fuel, errors, hp⟩
      exact ⟨e, le_refl e, ((hsame e).mpr hlate).1⟩

/-- A device in a task whose TDMA is running. -/
def tdmaRunning : Tpu :=
  { probedTpu with runningCnt := true, hw.reg := Function.update (fun _ => 0) .TDMA_CTRL 1 }

/-- A minute at 250 ticks a second that is over in the second pass, with the readings of
the first pass and of the later ones. -/
def twoPasses (first later : BitVec 32) : PollInput where
  started := 0
  timeout := 15000
  intMask := fun k => if k = 0 then first else later
  jiffies := fun k => if k = 0 then 1 else 20000

/-- A command that ends between the two passes is waited for. -/
theorem suspend_waits_inTime : SuspendWaits tdmaRunning (twoPasses 0x20 0x00010020) := by
  have hsets : (twoPasses 0x20 0x00010020).seen = (twoPasses 0x20 0x00010020).late := by
    ext k
    rw [mem_seen, mem_late]
    by_cases hk : k = 0
    · subst hk
      decide
    · simp only [PollInput.expire, twoPasses, if_neg hk]
      decide
  refine (suspend_waits_iff (by decide) (twoPasses 0x20 0x00010020)).mpr fun k => ?_
  rw [hsets]

/-- One that is at its end in the first pass is polled for a minute, and one that never
ends is marked as handled. -/
theorem not_suspend_waits :
    PollsOnSuspend tdmaRunning ∧
      ¬ SuspendWaits tdmaRunning (twoPasses 0x00010020 0x00010020) ∧
      ¬ SuspendWaits tdmaRunning (twoPasses 0x20 0x20) := by
  have hpoll : PollsOnSuspend tdmaRunning := by decide
  refine ⟨hpoll, fun hw => ?_, fun hw => ?_⟩
  · have hseen : (0 : Nat) ∈ (twoPasses 0x00010020 0x00010020).seen := mem_seen.mpr (by decide)
    have hleaves := hw.leaves 0 ⟨.inl hseen, fun j _ => Nat.zero_le j⟩
    have hlate := mem_late.mp ((leavesAt_iff _ 0).mp hleaves).1
    exact absurd hlate (by decide)
  · have hp : pollLoop (twoPasses 0x20 0x20) 2 0 [] = some (1, [0x20, 0x20]) := by decide
    obtain ⟨s', hs', hsync, hhandle⟩ := @platformTpuSuspend_marks _ hpoll _ .reset _ _ hp
    obtain ⟨k, -, hseen⟩ := hw.marks .reset 2 s' 1 _ hp hs' hsync hhandle
    have hmask : (twoPasses 0x20 0x20).intMask k = 0x20 := by
      simp only [twoPasses, ite_self]
    rw [mem_seen, hmask] at hseen
    exact absurd hseen (by decide)

end LicheeRvNano
