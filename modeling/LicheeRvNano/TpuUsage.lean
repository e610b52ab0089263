import Mathlib.Data.BitVec
import Mathlib.Tactic.Ring
import LicheeRvNano.Machine

/-!
# The TPU usage figure

`/proc/tpu/usage_profiling` starts and stops a timer whose handler divides the time of
the tasks that ended since the last tick by the time since the last tick. The sum of
the task times starts from zero with each session, the handler's own copy of it
(`last_sum_us`, a static) does not.

The machine is the profiler with an account beside it: what the sum since the last
tick is, and from when. `Accounted` ties the two together. The figure is the account's
as long as sessions start with the static at zero, ticks come at least a microsecond
apart, and the tasks of an interval fit into it.
-/

namespace LicheeRvNano

/-! ## The clock -/

/-- `struct timespec64`. -/
structure Timespec where
  sec : Int
  nsec : Int
  nonneg : 0 ≤ nsec
  lt : nsec < 1000000000
  deriving DecidableEq

namespace Timespec

/-- The time in nanoseconds. -/
def ns (t : Timespec) : Int := t.sec * 1000000000 + t.nsec

/-- A time of a whole number of microseconds. -/
def ofUs (us : Nat) : Timespec where
  sec := us / 1000000
  nsec := us % 1000000 * 1000
  nonneg := by omega
  lt := by omega

end Timespec

/-- The sum in `get_duration_us`; C divides towards zero. -/
def durationUs (start stop : Timespec) : Int :=
  (stop.sec - start.sec) * 1000000 + (stop.nsec - start.nsec).tdiv 1000

/-- `get_duration_us`. -/
def getDurationUs (start stop : Timespec) : BitVec 32 := BitVec.ofInt 32 (durationUs start stop)

/-! ## The profiler -/

/-- `struct tpu_profiling_info`. -/
structure TpuProfilingInfo where
  enableUsageProfiling : BitVec 32
  runCurrentUs : BitVec 32
  runSumUs : BitVec 64
  timerStart : Timespec
  timerCurrentUs : BitVec 32
  usage : BitVec 32

/-- `memset(&info, 0, ..)`. -/
def TpuProfilingInfo.zero : TpuProfilingInfo := ⟨0, 0, 0, .ofUs 0, 0, 0⟩

/-- The statics of the profiler. -/
structure Profiler where
  info : TpuProfilingInfo
  lastSumUs : BitVec 64
  timerPending : Bool

/-- `do_div`; the processor divides by zero to all ones. -/
def doDiv (n : BitVec 64) (base : BitVec 32) : BitVec 64 :=
  if base = 0 then BitVec.allOnes 64 else n / base.setWidth 64

/-- `tpu_profile_timer_handler` with its two readings of the clock. -/
def tpuProfileTimerHandler (p : Profiler) (timerEnd timerStart : Timespec) : Profiler :=
  let timerCurrentUs := getDurationUs p.info.timerStart timerEnd
  let dividend := (p.info.runSumUs - p.lastSumUs) * 100
  { info := { p.info with
      timerCurrentUs := timerCurrentUs
      usage := (doDiv dividend timerCurrentUs).setWidth 32
      timerStart := timerStart }
    lastSumUs := p.info.runSumUs
    timerPending := true }

/-- `tpu_proc_write`; `none` is an input that is no number. -/
def tpuProcWrite (p : Profiler) (input : Option (BitVec 32)) (now : Timespec) : Profiler :=
  match input with
  | none => p
  | some inputParam =>
    if inputParam = 0 then { p with info := .zero, timerPending := false }
    else
      { p with
        info := { TpuProfilingInfo.zero with
          enableUsageProfiling := inputParam
          timerStart := now }
        timerPending := true }

/-- The first reading of `cvi_tpu_run_dmabuf`: `ts_start`, which is not set without
profiling. -/
def runTsStart (p : Profiler) (now stack : Timespec) : Timespec :=
  if p.info.enableUsageProfiling = 0 then stack else now

/-- What it accounts when the task has ended. -/
def runAccount (p : Profiler) (tsStart tsEnd : Timespec) : Profiler :=
  if p.info.enableUsageProfiling = 0 then p
  else
    let runCurrentUs := getDurationUs tsStart tsEnd
    { p with info := { p.info with
        runCurrentUs := runCurrentUs
        runSumUs := p.info.runSumUs + runCurrentUs.setWidth 64 } }

/-! ## The machine -/

/-- A task that is being executed. -/
structure Execution where
  began : Timespec
  tsStart : Timespec
  /-- profiling was on when it began -/
  timed : Bool
  /-- no tick and no session has begun since -/
  inside : Bool

/-- What the figure is about. -/
structure Account where
  /-- the last reading of the clock -/
  clock : Timespec
  /-- the last tick, or the start of the session -/
  since : Timespec
  /-- the time of the tasks accounted since then -/
  busy : Int
  /-- one of them began before -/
  straddled : Bool

structure UsageState where
  prof : Profiler
  account : Account
  task : Option Execution

/-- The operations with their readings of the clock. -/
inductive UsageOp where
  | write (input : Option (BitVec 32)) (now : Timespec)
  | runStart (now stack : Timespec)
  | runEnd (now : Timespec)
  | tick (timerEnd timerStart : Timespec)

/-- What a tick divided by and arrived at, beside the account. -/
structure Figure where
  divisor : BitVec 32
  usage : BitVec 32
  busy : Int
  elapsed : Int

/-- An interval begins: a task under way began before it. -/
def UsageState.newInterval (s : UsageState) (prof : Profiler) (now : Timespec) : UsageState where
  prof := prof
  account := ⟨now, now, 0, false⟩
  task := s.task.map fun t => { t with inside := false }

def usageStep (s : UsageState) : UsageOp → Option (UsageState × List Figure)
  | .write input now =>
    let prof := tpuProcWrite s.prof input now
    if input.getD 0 = 0 then some ({ s with prof := prof }, [])
    else some (s.newInterval prof now, [])
  | .runStart now stack =>
    match s.task with
    | some _ => none
    | none =>
      some ({ s with
        account := { s.account with clock := now }
        task := some ⟨now, runTsStart s.prof now stack,
          s.prof.info.enableUsageProfiling ≠ 0, true⟩ }, [])
  | .runEnd now =>
    match s.task with
    | none => none
    | some t =>
      let account := { s.account with clock := now }
      some ({ prof := runAccount s.prof t.tsStart now
              account :=
                if s.prof.info.enableUsageProfiling = 0 then account
                else { account with
                  busy := s.account.busy + durationUs t.began now
                  straddled := s.account.straddled || !t.inside }
              task := none }, [])
  | .tick timerEnd timerStart =>
    if s.prof.timerPending then
      let prof := tpuProfileTimerHandler s.prof timerEnd timerStart
      some (s.newInterval prof timerStart,
        [⟨prof.info.timerCurrentUs, prof.info.usage, s.account.busy,
          durationUs s.account.since timerEnd⟩])
    else none

def usageMachine : Machine UsageState UsageOp Figure := ⟨usageStep⟩

/-- The driver as it is loaded. -/
def usageLoaded (clock : Timespec) : UsageState := ⟨⟨.zero, 0, false⟩, ⟨clock, clock, 0, false⟩, none⟩

/-- The figure is meaningful. -/
def Figure.Meaningful (f : Figure) : Prop :=
  f.divisor ≠ 0 ∧ f.usage.toNat ≤ 100 ∧ (f.usage.toNat : Int) = 100 * f.busy / f.elapsed

/-! ## Durations add up

A duration is cut towards zero in its nanoseconds: one that crosses a full second may
be rounded up, any other is rounded down. `allowance` charges the rounding to the
seconds crossed, and unlike `durationUs` it is additive. -/

def allowance (a b : Timespec) : Int := b.ns - a.ns + 999 * (b.sec - a.sec)

theorem allowance_add (a b c : Timespec) : allowance a b + allowance b c = allowance a c := by
  simp only [allowance]
  ring

@[simp] theorem allowance_self (a : Timespec) : allowance a a = 0 := by
  simp only [allowance]
  ring

theorem sec_le_of_ns_le {a b : Timespec} (h : a.ns ≤ b.ns) : a.sec ≤ b.sec := by
  have ha := a.nonneg
  have hb := b.lt
  simp only [Timespec.ns] at h
  omega

theorem allowance_nonneg {a b : Timespec} (h : a.ns ≤ b.ns) : 0 ≤ allowance a b := by
  have hsec := sec_le_of_ns_le h
  rw [allowance]
  omega

/-- The nanoseconds of a duration, cut towards zero. -/
theorem tdiv_thousand (x : Int) :
    (0 ≤ x ∧ 1000 * x.tdiv 1000 ≤ x ∧ x < 1000 * x.tdiv 1000 + 1000) ∨
      (x < 0 ∧ x ≤ 1000 * x.tdiv 1000 ∧ 1000 * x.tdiv 1000 < x + 1000) := by
  rcases Int.le_total 0 x with h | h
  · left
    rw [Int.tdiv_eq_ediv_of_nonneg h]
    omega
  · rcases Int.lt_or_eq_of_le h with hlt | heq
    · right
      have hneg : x.tdiv 1000 = -((-x) / 1000) := by
        rw [← Int.tdiv_eq_ediv_of_nonneg (by omega), Int.neg_tdiv, Int.neg_neg]
      rw [hneg]
      omega
    · left
      subst heq
      simp

theorem durationUs_nonneg {a b : Timespec} (h : a.ns ≤ b.ns) : 0 ≤ durationUs a b := by
  have hsec := sec_le_of_ns_le h
  have ha := a.nonneg
  have ha' := a.lt
  have hb := b.nonneg
  have hb' := b.lt
  simp only [Timespec.ns] at h
  rw [durationUs]
  rcases tdiv_thousand (b.nsec - a.nsec) with ⟨h₁, h₂, h₃⟩ | ⟨h₁, h₂, h₃⟩
  · omega
  · omega

/-- A duration stays within its allowance. -/
theorem durationUs_le_allowance {a b : Timespec} (h : a.ns ≤ b.ns) :
    1000 * durationUs a b ≤ allowance a b := by
  have hsec := sec_le_of_ns_le h
  simp only [Timespec.ns] at h
  rw [durationUs, allowance]
  simp only [Timespec.ns]
  rcases tdiv_thousand (b.nsec - a.nsec) with ⟨h₁, h₂, h₃⟩ | ⟨h₁, h₂, h₃⟩
  · omega
  · omega

/-- What stays within the allowance of an interval is less than 1.01 of its duration:
an interval that crosses more than one second, or one that was rounded down, is long. -/
theorem busy_lt_of_allowance {a b : Timespec} {busy : Int} (h : a.ns ≤ b.ns)
    (hbusy : 1000 * busy ≤ allowance a b) (hpos : 0 < durationUs a b) :
    100 * busy < 101 * durationUs a b := by
  have hsec := sec_le_of_ns_le h
  have ha := a.nonneg
  have ha' := a.lt
  have hb := b.nonneg
  have hb' := b.lt
  simp only [allowance, Timespec.ns] at hbusy
  simp only [Timespec.ns] at h
  rw [durationUs] at hpos ⊢
  have hcases : b.sec - a.sec = 0 ∨ b.sec - a.sec = 1 ∨ 2 ≤ b.sec - a.sec := by omega
  rcases tdiv_thousand (b.nsec - a.nsec) with ⟨h₁, h₂, h₃⟩ | ⟨h₁, h₂, h₃⟩
  · rcases hcases with hs | hs | hs
    · have hle : busy ≤ (b.nsec - a.nsec).tdiv 1000 := by omega
      omega
    · omega
    · omega
  · rcases hcases with hs | hs | hs
    · omega
    · have hle : busy ≤ 1000000 + (b.nsec - a.nsec).tdiv 1000 := by omega
      omega
    · omega

/-! ## The figure of one tick -/

/-- The two sums differ by the account. -/
def SumsTo (p : Profiler) (busy : Int) : Prop :=
  p.info.runSumUs - p.lastSumUs = BitVec.ofInt 64 busy

theorem toNat_ofInt_of_lt {w : Nat} {x : Int} (h₀ : 0 ≤ x) (h : x < (2 ^ w : Nat)) :
    (BitVec.ofInt w x).toNat = x.toNat := by
  rw [BitVec.toNat_ofInt, Int.emod_eq_of_lt h₀ h]

/-- A handler that finds its sums in order, and tasks that fit into the interval, shows
their share of it. -/
theorem timerHandler_meaningful {p : Profiler} {busy : Int} {timerEnd timerStart : Timespec}
    (hsum : SumsTo p busy) (hbusy : 0 ≤ busy)
    (hpos : 0 < durationUs p.info.timerStart timerEnd)
    (hlt : durationUs p.info.timerStart timerEnd < 2 ^ 32)
    (hfits : 100 * busy < 101 * durationUs p.info.timerStart timerEnd) :
    Figure.Meaningful ⟨(tpuProfileTimerHandler p timerEnd timerStart).info.timerCurrentUs,
      (tpuProfileTimerHandler p timerEnd timerStart).info.usage, busy,
      durationUs p.info.timerStart timerEnd⟩ := by
  generalize hdur : durationUs p.info.timerStart timerEnd = elapsed at hpos hlt hfits ⊢
  have hdivisor : (getDurationUs p.info.timerStart timerEnd).toNat = elapsed.toNat := by
    rw [getDurationUs, hdur]
    exact toNat_ofInt_of_lt (by omega) (by omega)
  have hne : getDurationUs p.info.timerStart timerEnd ≠ 0 := by
    intro h0
    rw [h0] at hdivisor
    have hzero : (0 : BitVec 32).toNat = 0 := rfl
    omega
  have hdividend : ((p.info.runSumUs - p.lastSumUs) * 100).toNat = busy.toNat * 100 := by
    rw [hsum, BitVec.toNat_mul, toNat_ofInt_of_lt hbusy (by omega)]
    have hhundred : (100 : BitVec 64).toNat = 100 := rfl
    rw [hhundred]
    omega
  have hquot : busy.toNat * 100 / elapsed.toNat ≤ 100 := by
    rw [← Nat.lt_succ_iff, Nat.div_lt_iff_lt_mul (by omega)]
    omega
  have husage : (tpuProfileTimerHandler p timerEnd timerStart).info.usage.toNat =
      busy.toNat * 100 / elapsed.toNat := by
    simp only [tpuProfileTimerHandler, doDiv, if_neg hne]
    rw [BitVec.toNat_setWidth, BitVec.toNat_udiv, hdividend,
      BitVec.toNat_setWidth_of_le (by decide), hdivisor]
    exact Nat.mod_eq_of_lt (Nat.lt_of_le_of_lt hquot (by decide))
  refine ⟨hne, ?_, ?_⟩
  · rw [husage]
    exact hquot
  · have hcast : (100 * busy / elapsed) = ((busy.toNat * 100 / elapsed.toNat : ℕ) : Int) := by
      rw [Int.natCast_ediv, Int.natCast_mul, Int.toNat_of_nonneg hbusy,
        Int.toNat_of_nonneg (by omega), Int.mul_comm]
      rfl
    rw [husage]
    exact hcast.symm

/-- The next interval starts with the sums equal. -/
theorem sumsTo_timerHandler (p : Profiler) (timerEnd timerStart : Timespec) :
    SumsTo (tpuProfileTimerHandler p timerEnd timerStart) 0 := by
  rw [SumsTo]
  exact BitVec.sub_self _

/-- A task adds its duration. -/
theorem SumsTo.account {p : Profiler} {busy : Int} {tsStart tsEnd : Timespec}
    (h : SumsTo p busy) (hen : p.info.enableUsageProfiling ≠ 0)
    (hpos : 0 ≤ durationUs tsStart tsEnd) (hlt : durationUs tsStart tsEnd < 2 ^ 32) :
    SumsTo (runAccount p tsStart tsEnd) (busy + durationUs tsStart tsEnd) := by
  have hval : (getDurationUs tsStart tsEnd).setWidth 64 =
      BitVec.ofInt 64 (durationUs tsStart tsEnd) := by
    apply BitVec.eq_of_toNat_eq
    rw [BitVec.toNat_setWidth_of_le (by decide), getDurationUs,
      toNat_ofInt_of_lt hpos (by omega), toNat_ofInt_of_lt hpos (by omega)]
  rw [SumsTo] at h
  simp only [SumsTo, runAccount, if_neg hen]
  rw [hval, BitVec.ofInt_add, ← h]
  grind

/-! ## What holds along a run -/

/-- The profiler's sums and times are the account's. -/
structure Accounted (s : UsageState) : Prop where
  pending : s.prof.timerPending = true ↔ s.prof.info.enableUsageProfiling ≠ 0
  since : s.prof.timerPending = true → s.prof.info.timerStart = s.account.since
  sums : s.prof.timerPending = true → SumsTo s.prof s.account.busy
  busy : 0 ≤ s.account.busy
  forward : s.account.since.ns ≤ s.account.clock.ns
  /-- tasks that began inside the interval stay within its allowance -/
  fits : s.account.straddled = false →
    1000 * s.account.busy ≤ allowance s.account.since s.account.clock
  task : ∀ t, s.task = some t → t.began.ns ≤ s.account.clock.ns ∧
    (t.timed = true → t.tsStart = t.began) ∧
    (t.inside = true → s.account.since.ns ≤ t.began.ns ∧
      (s.account.straddled = false →
        1000 * s.account.busy ≤ allowance s.account.since t.began))

/-- The next reading of a clock that only moves forward, by less than `2^32`
microseconds. -/
def Timespec.Next (a b : Timespec) : Prop := a.ns ≤ b.ns ∧ b.ns < a.ns + 2 ^ 32 * 1000

instance (a b : Timespec) : Decidable (a.Next b) := inferInstanceAs (Decidable (_ ∧ _))

/-- So are all the readings of an operation. -/
def Forward (s : UsageState) : UsageOp → Prop
  | .write input now => input.getD 0 ≠ 0 → s.account.clock.Next now
  | .runStart now _ => s.account.clock.Next now
  | .runEnd now => s.account.clock.Next now
  | .tick timerEnd timerStart => s.account.clock.Next timerEnd ∧ timerEnd.Next timerStart

instance (s : UsageState) : (op : UsageOp) → Decidable (Forward s op)
  | .write _ _ => inferInstanceAs (Decidable (_ → _))
  | .runStart _ _ => inferInstanceAs (Decidable (Timespec.Next _ _))
  | .runEnd _ => inferInstanceAs (Decidable (Timespec.Next _ _))
  | .tick _ _ => inferInstanceAs (Decidable (_ ∧ _))

/-- The condition. A session starts with the handler's copy of the sum at zero; a task
that is accounted began with profiling on and took less than `2^32` microseconds; and a
tick comes 1 to `2^32 - 1` microseconds after the last one, with every task accounted
in between begun in between, or at least with all of them fitting in. -/
def UsageOk (s : UsageState) : UsageOp → Prop
  | .write input _ => input.getD 0 ≠ 0 → s.prof.lastSumUs = 0
  | .runStart _ _ => True
  | .runEnd now => s.prof.info.enableUsageProfiling ≠ 0 →
    ∀ t ∈ s.task, t.timed = true ∧ durationUs t.began now < 2 ^ 32
  | .tick timerEnd _ =>
    0 < durationUs s.account.since timerEnd ∧ durationUs s.account.since timerEnd < 2 ^ 32 ∧
      (s.account.straddled = false ∨
        100 * s.account.busy < 101 * durationUs s.account.since timerEnd)

instance (s : UsageState) : (op : UsageOp) → Decidable (UsageOk s op)
  | .write _ _ => inferInstanceAs (Decidable (_ → _))
  | .runStart _ _ => inferInstanceAs (Decidable True)
  | .runEnd _ => inferInstanceAs (Decidable (_ → _))
  | .tick _ _ => inferInstanceAs (Decidable (_ ∧ _))

theorem accounted_usageLoaded (clock : Timespec) : Accounted (usageLoaded clock) where
  pending := iff_of_false Bool.false_ne_true (not_not.mpr rfl)
  since := fun h => absurd h Bool.false_ne_true
  sums := fun h => absurd h Bool.false_ne_true
  busy := le_refl 0
  forward := le_refl _
  fits := fun _ => by simp [usageLoaded]
  task := fun _ h => absurd h (by simp [usageLoaded])

/-- A new interval: the sums are equal, and a task under way began before it. -/
theorem Accounted.newInterval {s : UsageState} (h : Accounted s) {prof : Profiler}
    {now : Timespec} (hforward : s.account.clock.ns ≤ now.ns)
    (hpending : prof.timerPending = true ↔ prof.info.enableUsageProfiling ≠ 0)
    (hsince : prof.info.timerStart = now) (hsums : SumsTo prof 0) :
    Accounted (s.newInterval prof now) where
  pending := hpending
  since := fun _ => hsince
  sums := fun _ => hsums
  busy := le_refl 0
  forward := le_refl _
  fits := fun _ => by simp [UsageState.newInterval]
  task := by
    intro t' ht'
    obtain ⟨t, ht, rfl⟩ := Option.map_eq_some_iff.mp ht'
    obtain ⟨hbegan, htimed, -⟩ := h.task t ht
    exact ⟨le_trans hbegan hforward, htimed, fun hin => absurd hin Bool.false_ne_true⟩

theorem Accounted.write {s s' : UsageState} {log : List Figure} {input : Option (BitVec 32)}
    {now : Timespec} (h : Accounted s) (hf : Forward s (.write input now))
    (hok : UsageOk s (.write input now)) (hs : usageStep s (.write input now) = some (s', log)) :
    Accounted s' := by
  simp only [usageStep] at hs
  split at hs
  · rename_i hzero
    obtain ⟨rfl, -⟩ := Prod.mk.inj (Option.some.inj hs)
    rcases input with _ | inputParam
    · exact h
    · -- profiling is off, and nothing is said about its sums
      have hoff : tpuProcWrite s.prof (some inputParam) now =
          { s.prof with info := .zero, timerPending := false } := if_pos hzero
      rw [hoff]
      exact ⟨iff_of_false Bool.false_ne_true (not_not.mpr rfl),
        fun hp => absurd hp Bool.false_ne_true, fun hp => absurd hp Bool.false_ne_true, h.busy,
        h.forward, h.fits, h.task⟩
  · rename_i hne
    obtain ⟨rfl, -⟩ := Prod.mk.inj (Option.some.inj hs)
    rcases input with _ | inputParam
    · exact absurd rfl hne
    · have hon : tpuProcWrite s.prof (some inputParam) now =
          { s.prof with
            info := { TpuProfilingInfo.zero with
              enableUsageProfiling := inputParam
              timerStart := now }
            timerPending := true } := if_neg hne
      rw [hon]
      refine h.newInterval (hf hne).1 (iff_of_true rfl hne) rfl ?_
      change (0 : BitVec 64) - s.prof.lastSumUs = BitVec.ofInt 64 0
      rw [hok hne]
      decide

theorem Accounted.runStart {s s' : UsageState} {log : List Figure} {now stack : Timespec}
    (h : Accounted s) (hf : Forward s (.runStart now stack))
    (hs : usageStep s (.runStart now stack) = some (s', log)) : Accounted s' := by
  simp only [usageStep] at hs
  split at hs
  · cases hs
  · obtain ⟨rfl, -⟩ := Prod.mk.inj (Option.some.inj hs)
    have hnow : s.account.clock.ns ≤ now.ns := hf.1
    have hsince := le_trans h.forward hnow
    have hclock : s.account.straddled = false →
        1000 * s.account.busy ≤ allowance s.account.since now := by
      intro hclean
      have hfits := h.fits hclean
      have hlater := allowance_nonneg hnow
      have hsplit := allowance_add s.account.since s.account.clock now
      omega
    refine ⟨h.pending, h.since, h.sums, h.busy, hsince, hclock, ?_⟩
    intro t ht
    obtain rfl := Option.some.inj ht
    refine ⟨le_refl _, fun htimed => ?_, fun _ => ⟨hsince, hclock⟩⟩
    have hen : s.prof.info.enableUsageProfiling ≠ 0 := of_decide_eq_true htimed
    exact if_neg hen

theorem Accounted.runEnd {s s' : UsageState} {log : List Figure} {now : Timespec}
    (h : Accounted s) (hf : Forward s (.runEnd now)) (hok : UsageOk s (.runEnd now))
    (hs : usageStep s (.runEnd now) = some (s', log)) : Accounted s' := by
  simp only [usageStep] at hs
  split at hs
  · cases hs
  rename_i t ht
  obtain ⟨rfl, -⟩ := Prod.mk.inj (Option.some.inj hs)
  obtain ⟨hbegan, htimed, hinside⟩ := h.task t ht
  have hnow : s.account.clock.ns ≤ now.ns := hf.1
  have hsince := le_trans h.forward hnow
  have hlater := allowance_nonneg hnow
  have hclock := allowance_add s.account.since s.account.clock now
  by_cases hen : s.prof.info.enableUsageProfiling = 0
  · -- nothing is accounted
    have hsame : runAccount s.prof t.tsStart now = s.prof := if_pos hen
    rw [hsame, if_pos hen]
    refine ⟨h.pending, h.since, h.sums, h.busy, hsince, fun hclean => ?_, fun t' h' => by cases h'⟩
    have hfits := h.fits hclean
    change 1000 * s.account.busy ≤ allowance s.account.since now
    omega
  · obtain ⟨hon, hlt⟩ := hok hen t ht
    have hdur := durationUs_nonneg (le_trans hbegan hnow)
    have hle := durationUs_le_allowance (le_trans hbegan hnow)
    rw [if_neg hen]
    refine ⟨?_, ?_, ?_, ?_, hsince, ?_, fun t' h' => by cases h'⟩
    · simp only [runAccount, if_neg hen]
      exact h.pending
    · simp only [runAccount, if_neg hen]
      exact h.since
    · intro _
      rw [htimed hon]
      exact (h.sums (h.pending.mpr hen)).account hen hdur hlt
    · exact Int.add_nonneg h.busy hdur
    · intro hclean
      obtain ⟨hclean, hin⟩ := Bool.or_eq_false_iff.mp hclean
      rw [Bool.not_eq_false'] at hin
      obtain ⟨-, hfits⟩ := hinside hin
      have hbusy := hfits hclean
      have hsplit := allowance_add s.account.since t.began now
      change 1000 * (s.account.busy + durationUs t.began now) ≤ allowance s.account.since now
      omega

theorem Accounted.tick {s s' : UsageState} {log : List Figure} {timerEnd timerStart : Timespec}
    (h : Accounted s) (hf : Forward s (.tick timerEnd timerStart))
    (hok : UsageOk s (.tick timerEnd timerStart))
    (hs : usageStep s (.tick timerEnd timerStart) = some (s', log)) :
    Accounted s' ∧ ∀ f ∈ log, f.Meaningful := by
  simp only [usageStep] at hs
  split at hs
  case isFalse => cases hs
  rename_i hpending
  obtain ⟨rfl, rfl⟩ := Prod.mk.inj (Option.some.inj hs)
  obtain ⟨⟨hend, -⟩, ⟨hstart, -⟩⟩ := hf
  obtain ⟨hpos, hlt, hfits⟩ := hok
  have hsince := h.since hpending
  have hbusy : 100 * s.account.busy < 101 * durationUs s.account.since timerEnd := by
    rcases hfits with hclean | hfits
    · have hallowed := h.fits hclean
      have hlater := allowance_nonneg hend
      have hsplit := allowance_add s.account.since s.account.clock timerEnd
      exact busy_lt_of_allowance (le_trans h.forward hend) (by omega) hpos
    · exact hfits
  refine ⟨h.newInterval (le_trans hend hstart) ?_ rfl (sumsTo_timerHandler ..), ?_⟩
  · exact iff_of_true rfl (h.pending.mp hpending)
  · intro f hfigure
    obtain rfl := List.mem_singleton.mp hfigure
    rw [← hsince] at hpos hlt hbusy ⊢
    exact timerHandler_meaningful (h.sums hpending) h.busy hpos hlt hbusy

/-- Only a tick shows a figure. -/
theorem usageStep_silent {s s' : UsageState} {log : List Figure} {op : UsageOp}
    (h : ∀ timerEnd timerStart, op ≠ .tick timerEnd timerStart)
    (hs : usageStep s op = some (s', log)) : log = [] := by
  cases op with
  | write input now =>
    simp only [usageStep] at hs
    split at hs
    · exact (Prod.mk.inj (Option.some.inj hs)).2.symm
    · exact (Prod.mk.inj (Option.some.inj hs)).2.symm
  | runStart now stack =>
    simp only [usageStep] at hs
    split at hs
    · cases hs
    · exact (Prod.mk.inj (Option.some.inj hs)).2.symm
  | runEnd now =>
    simp only [usageStep] at hs
    split at hs
    · cases hs
    · exact (Prod.mk.inj (Option.some.inj hs)).2.symm
  | tick timerEnd timerStart => exact absurd rfl (h timerEnd timerStart)

theorem Accounted.step {s s' : UsageState} {log : List Figure} {op : UsageOp}
    (h : Accounted s) (hf : Forward s op) (hok : UsageOk s op)
    (hs : usageStep s op = some (s', log)) : Accounted s' ∧ ∀ f ∈ log, f.Meaningful := by
  have hnone : log = [] → ∀ f ∈ log, f.Meaningful := by
    rintro rfl f hfigure
    cases hfigure
  cases op with
  | write input now =>
    exact ⟨h.write hf hok hs, hnone (usageStep_silent (fun _ _ => by simp) hs)⟩
  | runStart now stack =>
    exact ⟨h.runStart hf hs, hnone (usageStep_silent (fun _ _ => by simp) hs)⟩
  | runEnd now => exact ⟨h.runEnd hf hok hs, hnone (usageStep_silent (fun _ _ => by simp) hs)⟩
  | tick timerEnd timerStart => exact h.tick hf hok hs

/-- **The usage figure is meaningful.** In every run of a driver just loaded, with a
clock that only moves forward, whose steps meet `UsageOk`, every tick divides by a
number that is not zero and shows the share of the interval that the tasks accounted
in it took, at most 100. -/
theorem usage_figure_meaningful {clock : Timespec} {ops : List UsageOp} {s' : UsageState}
    {log : List Figure} (hf : usageMachine.Meets Forward (usageLoaded clock) ops)
    (hok : usageMachine.Meets UsageOk (usageLoaded clock) ops)
    (he : usageMachine.exec (usageLoaded clock) ops = some (s', log)) :
    ∀ f ∈ log, f.Meaningful := by
  have hrun : Accounted s' ∧ ∀ f ∈ log, f.Meaningful := by
    refine Machine.exec_invariant_start
      (I := fun s log => Accounted s ∧ ∀ f ∈ log, f.Meaningful)
      ⟨accounted_usageLoaded clock, fun f hfigure => by cases hfigure⟩ ?_ (hf.and hok) he
    rintro s₁ s₂ past figures op ⟨hacc, hpast⟩ ⟨hforward, hmeets⟩ hstep
    obtain ⟨hacc', hfigures⟩ := hacc.step hforward hmeets hstep
    refine ⟨hacc', fun f hfigure => ?_⟩
    rcases List.mem_append.mp hfigure with hold | hnew
    · exact hpast f hold
    · exact hfigures f hnew
  exact hrun.2

/-- A session of two seconds with a task of half a second in each. -/
def usageRun : List UsageOp :=
  [.write (some 1) (.ofUs 0), .runStart (.ofUs 100000) (.ofUs 0), .runEnd (.ofUs 600000),
    .tick (.ofUs 1000000) (.ofUs 1000002), .runStart (.ofUs 1200000) (.ofUs 0),
    .runEnd (.ofUs 1700000), .tick (.ofUs 2000002) (.ofUs 2000003)]

theorem usage_figure_meaningful_session :
    ∃ s' log, usageMachine.exec (usageLoaded (.ofUs 0)) usageRun = some (s', log) ∧
      log.length = 2 ∧ ∀ f ∈ log, f.Meaningful := by
  refine ⟨_, _, rfl, rfl, ?_⟩
  exact @usage_figure_meaningful _ usageRun _ _ (by decide) (by decide) rfl

/-- A second session, with no task, after a first one with a task of half a second. -/
def staleRun : List UsageOp :=
  [.write (some 1) (.ofUs 0), .runStart (.ofUs 100000) (.ofUs 0), .runEnd (.ofUs 600000),
    .tick (.ofUs 1000000) (.ofUs 1000000), .write (some 0) (.ofUs 1500000),
    .write (some 1) (.ofUs 2000000), .tick (.ofUs 3000000) (.ofUs 3000000)]

/-- The last tick of it shows 4154504635 percent. -/
theorem not_usage_figure_meaningful :
    ¬ ∀ (clock : Timespec) (ops : List UsageOp) (s' : UsageState) (log : List Figure),
      usageMachine.Meets Forward (usageLoaded clock) ops →
      usageMachine.exec (usageLoaded clock) ops = some (s', log) → ∀ f ∈ log, f.Meaningful := by
  intro h
  have hlast := (h (.ofUs 0) staleRun _ _ (by decide) rfl _ (List.mem_cons_of_mem _
    (List.mem_singleton_self _))).2.1
  exact absurd hlast (by decide)

end LicheeRvNano
