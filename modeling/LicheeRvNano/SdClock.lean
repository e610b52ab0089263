import Mathlib.Algebra.Group.Nat.Defs
import Mathlib.Order.Bounds.Basic
import LicheeRvNano.Kernel

/-!
# The clock of the SD card

`sdhci_set_clock` looks for the smallest divider of the base clock that does not exceed
the clock asked for, halves it and puts the half into two fields of Clock Control that do
not touch, next to the enable bits. `scripts/sd-bench.sh` reads the register back on the
board and was written separately: it is the second half of a round trip.

The callbacks `set_delay`, `config_dll` and `set_clock` of `struct sdhci_ops` are absent
here: `cv1800b_sdhci_sd_ops` does not set them.
-/

namespace LicheeRvNano

/-- The fields of `struct sdhci_host` that the clock depends on. -/
structure SdhciHost where
  version : BitVec 16
  clkMul : BitVec 32
  maxClk : BitVec 32

/-- What the controller answers at its `k`-th read: Present State, and the bit of Clock
Control that is its own. -/
structure SdhciController where
  presentState : Nat → BitVec 32
  intStable : Nat → Bool

def SDHCI_CLOCK_INT_EN : BitVec 16 := 1

def SDHCI_CLOCK_INT_STABLE : BitVec 16 := 2

def SDHCI_CLOCK_CARD_EN : BitVec 16 := 4

def SDHCI_PROG_CLOCK_MODE : BitVec 32 := 0x20

/-- Clock Control as it is read after `val` was written. -/
def readClockControl (val : BitVec 16) (stable : Bool) : BitVec 16 :=
  val &&& ~~~SDHCI_CLOCK_INT_STABLE ||| if stable then SDHCI_CLOCK_INT_STABLE else 0

/-! ## sdhci_set_clock -/

/-- `for (div = start; div < bound; div = next(div)) if (max_clk / div <= clock) break;`
The loop takes a step at most `fuel` times. -/
def divLoop (maxClk clock bound : Nat) (next : Nat → Nat) : (fuel div : Nat) → Nat
  | 0, div => div
  | fuel + 1, div =>
    if div < bound then
      if maxClk / div ≤ clock then div else divLoop maxClk clock bound next fuel (next div)
    else div

/-- Clock mode and divider field. -/
def sdhciDivider (host : SdhciHost) (clock : BitVec 32) : BitVec 32 × Nat :=
  let maxClk := host.maxClk.toNat
  let clock := clock.toNat
  if 2 ≤ host.version.toNat % 256 then
    if host.clkMul ≠ 0 then
      (SDHCI_PROG_CLOCK_MODE, divLoop maxClk clock 1025 (· + 1) 1025 1 - 1)
    else if maxClk ≤ clock then (0, 1 / 2)
    -- version 3.00 divisors must be a multiple of 2
    else (0, divLoop maxClk clock 2046 (· + 2) 2046 2 / 2)
  -- version 2.00 divisors must be a power of 2
  else (0, divLoop maxClk clock 256 (· * 2) 256 1 / 2)

/-- The word of Clock Control: eight low bits of the field at 8, the two high ones at 6. -/
def clockWord (clk : BitVec 32) (div : Nat) : BitVec 16 :=
  let div := BitVec.ofNat 32 div
  (clk ||| ((div &&& 0xff) <<< 8) ||| (((div &&& 0x300) >>> 8) <<< 6)).setWidth 16 |||
    SDHCI_CLOCK_INT_EN

/-- The card may still be busy with a command or with data. -/
def waitInhibit (hw : SdhciController) : (timeout k : Nat) → Bool
  | 0, k => hw.presentState k &&& 3 = 0
  | timeout + 1, k => if hw.presentState k &&& 3 = 0 then true else waitInhibit hw timeout (k + 1)

/-- The value of Clock Control at the first read with a stable clock. -/
def waitStable (hw : SdhciController) (val : BitVec 16) : (timeout k : Nat) → Option (BitVec 16)
  | 0, k => if hw.intStable k then some (readClockControl val true) else none
  | timeout + 1, k =>
    if hw.intStable k then some (readClockControl val true) else waitStable hw val timeout (k + 1)

/-- Return value of `sdhci_set_clock`, and what was written to Clock Control last; `old` is
what stood there before. -/
def sdhciSetClock (host : SdhciHost) (hw : SdhciController) (clock : BitVec 32) (old : BitVec 16) :
    Int × BitVec 16 :=
  if waitInhibit hw 200 0 then
    if clock = 0 then (0, 0)
    else
      let div := sdhciDivider host clock
      let clk := clockWord div.1 div.2
      match waitStable hw clk 20 0 with
      | none => (-EBUSY, clk)
      | some val => (0, val ||| SDHCI_CLOCK_CARD_EN)
  else (-EBUSY, old)

/-- The base clock, as `cv1800b_sdhci_probe` takes it from the clock tree: `max_clk` is an
`unsigned int`, the rate an `ulong`. -/
def probeMaxClk (rate : BitVec 64) : Option (BitVec 32) :=
  if rate = 0 ∨ -4095 ≤ rate then none else some (rate.setWidth 32)

/-! ## probe_host of sd-bench.sh -/

def sdBenchN (cc32 : Nat) : Nat :=
  let cc := cc32 &&& 0xffff
  ((cc >>> 8) &&& 0xff) ||| (((cc >>> 6) &&& 0x3) <<< 8)

def sdBenchRealDiv (cc32 : Nat) : Nat := if sdBenchN cc32 = 0 then 1 else 2 * sdBenchN cc32

/-- In Hz; the script prints it in MHz. -/
def sdBenchRealHz (src cc32 : Nat) : Nat := src / sdBenchRealDiv cc32

/-! ## The round trip of the divider -/

theorem testBit_sdBenchN (cc32 i : Nat) : (sdBenchN cc32).testBit i =
    (decide (i < 8) && cc32.testBit (8 + i) || decide (8 ≤ i ∧ i < 10) && cc32.testBit (i - 2)) := by
  have h16 (j : Nat) : Nat.testBit 0xffff j = decide (j < 16) := Nat.testBit_two_pow_sub_one 16 j
  have h8 (j : Nat) : Nat.testBit 0xff j = decide (j < 8) := Nat.testBit_two_pow_sub_one 8 j
  have h2 (j : Nat) : Nat.testBit 0x3 j = decide (j < 2) := Nat.testBit_two_pow_sub_one 2 j
  simp only [sdBenchN, Nat.testBit_or, Nat.testBit_and, Nat.testBit_shiftRight, Nat.testBit_shiftLeft,
    h16, h8, h2]
  by_cases hlow : i < 8
  · have hge : ¬ 8 ≤ i := Nat.not_le.mpr hlow
    have hword : 8 + i < 16 := by omega
    simp [hlow, hge, hword]
  · have hge : 8 ≤ i := Nat.not_lt.mp hlow
    by_cases hhigh : i < 10
    · have hfield : i - 8 < 2 := by omega
      have hpos : 6 + (i - 8) = i - 2 := by omega
      have hword : i - 2 < 16 := by omega
      simp [hlow, hhigh, hge, hfield, hpos, hword]
    · have hfield : ¬ i - 8 < 2 := by omega
      simp [hlow, hhigh, hfield]

/-- The bits of Clock Control from 6 on are the divider. -/
theorem getLsbD_clockWord (div : Nat) {i : Nat} (hi : i < 16) (h6 : 6 ≤ i) :
    (clockWord 0 div).getLsbD i =
      if 8 ≤ i then div.testBit (i - 8) else div.testBit (i + 2) := by
  have hlow : ∀ j < 32, (0xff : BitVec 32).getLsbD j = decide (j < 8) := by decide
  have hhigh : ∀ j < 32, (0x300 : BitVec 32).getLsbD j = decide (8 ≤ j ∧ j < 10) := by decide
  have hen : ∀ j < 16, 6 ≤ j → SDHCI_CLOCK_INT_EN.getLsbD j = false := by decide
  simp only [clockWord, BitVec.getLsbD_or, BitVec.getLsbD_setWidth, BitVec.getLsbD_shiftLeft,
    BitVec.getLsbD_ushiftRight, BitVec.getLsbD_and, BitVec.getLsbD_ofNat, hen i hi h6,
    hlow (i - 8) (by omega), hhigh (8 + (i - 6)) (by omega)]
  have h32 : i < 32 := by omega
  have hnot6 : ¬ i < 6 := Nat.not_lt.mpr h6
  split
  case isTrue h8 =>
    -- the lower eight bits; the field of the upper two is not reached
    have hnot8 : ¬ i < 8 := Nat.not_lt.mpr h8
    have hfield : i - 8 < 8 := by omega
    have hdiv : i - 8 < 32 := by omega
    have hupper : ¬ 8 + (i - 6) < 10 := by omega
    simp [hi, h32, hnot8, hnot6, hfield, hdiv, hupper]
  case isFalse h8 =>
    have hlt8 : i < 8 := Nat.not_le.mp h8
    have hpos : 8 + (i - 6) = i + 2 := by omega
    have hfield : i + 2 < 10 := by omega
    have hdiv : i + 2 < 32 := by omega
    have hupper : 8 ≤ i + 2 := by omega
    simp [hi, h32, hlt8, hnot6, hpos, hfield, hdiv, hupper]

/-- Only the stable bit is the controller's own. -/
theorem getLsbD_readClockControl (val : BitVec 16) (stable : Bool) {i : Nat} (hi : i < 16)
    (h : i ≠ 1) : (readClockControl val stable).getLsbD i = val.getLsbD i := by
  have hbit : ∀ j < 16, j ≠ 1 → SDHCI_CLOCK_INT_STABLE.getLsbD j = false := by decide
  rw [readClockControl, BitVec.getLsbD_or, BitVec.getLsbD_and, BitVec.getLsbD_not, hbit i hi h]
  cases stable with
  | false => simp [hi]
  | true =>
    rw [if_pos rfl, hbit i hi h]
    simp [hi]

theorem getLsbD_or_cardEn (val : BitVec 16) {i : Nat} (hi : i < 16) (h : i ≠ 2) :
    (val ||| SDHCI_CLOCK_CARD_EN).getLsbD i = val.getLsbD i := by
  have hbit : ∀ j < 16, j ≠ 2 → SDHCI_CLOCK_CARD_EN.getLsbD j = false := by decide
  rw [BitVec.getLsbD_or, hbit i hi h, Bool.or_false]

/-- The script reads the divider field back. -/
theorem sdBenchN_eq {div : Nat} (hdiv : div < 1024) {cc32 : BitVec 32}
    (hcc : ∀ i, i < 16 → 6 ≤ i → cc32.getLsbD i = (clockWord 0 div).getLsbD i) :
    sdBenchN cc32.toNat = div := by
  apply Nat.eq_of_testBit_eq
  intro i
  rw [testBit_sdBenchN, BitVec.testBit_toNat, BitVec.testBit_toNat]
  by_cases hlow : i < 8
  · have hge : ¬ 8 ≤ i := Nat.not_le.mpr hlow
    rw [hcc (8 + i) (by omega) (by omega), getLsbD_clockWord div (by omega) (by omega)]
    simp [hlow, hge]
  · have hge : 8 ≤ i := Nat.not_lt.mp hlow
    by_cases hhigh : i < 10
    · have hupper : ¬ 8 ≤ i - 2 := by omega
      have hpos : i - 2 + 2 = i := by omega
      rw [hcc (i - 2) (by omega) (by omega), getLsbD_clockWord div (by omega) (by omega)]
      simp [hlow, hhigh, hge, hupper, hpos]
    · have hzero : div.testBit i = false :=
        Nat.testBit_lt_two_pow (hdiv.trans_le (Nat.pow_le_pow_right Nat.two_pos (by omega : 10 ≤ i)))
      simp [hlow, hhigh, hzero]

/-! ## The search -/

/-- The dividers of a version 3.00 controller. -/
def SdDivider (d : Nat) : Prop := d = 1 ∨ 2 ∣ d ∧ 2 ≤ d ∧ d ≤ 2046

/-- What the loop with step two has found when it stops: nothing smaller would do, and the
divider does unless it is the last. -/
theorem divLoop_spec {maxClk clock fuel div : Nat} (hfuel : 2046 ≤ div + 2 * fuel) (heven : 2 ∣ div)
    (hdiv : div ≤ 2046) :
    2 ∣ divLoop maxClk clock 2046 (· + 2) fuel div ∧ div ≤ divLoop maxClk clock 2046 (· + 2) fuel div ∧
      divLoop maxClk clock 2046 (· + 2) fuel div ≤ 2046 ∧
      (∀ d, 2 ∣ d → div ≤ d → d < divLoop maxClk clock 2046 (· + 2) fuel div → clock < maxClk / d) ∧
      (divLoop maxClk clock 2046 (· + 2) fuel div < 2046 →
        maxClk / divLoop maxClk clock 2046 (· + 2) fuel div ≤ clock) := by
  induction fuel generalizing div with
  | zero =>
    refine ⟨heven, le_rfl, hdiv, fun d _ h h' => ?_, fun h => ?_⟩
    · rw [divLoop] at h'
      omega
    · rw [divLoop] at h
      omega
  | succ fuel ih =>
    rw [divLoop]
    split
    case isFalse h =>
      exact ⟨heven, le_rfl, hdiv, fun d _ h h' => absurd h' (by omega), fun h' => absurd h' h⟩
    case isTrue h =>
      split
      case isTrue hle =>
        exact ⟨heven, le_rfl, hdiv, fun d _ h h' => absurd h' (by omega), fun _ => hle⟩
      case isFalse hle =>
        obtain ⟨he, hge, hmax, hsmall, hfound⟩ :=
          @ih (div + 2) (by omega) (by omega) (by omega)
        refine ⟨he, by omega, hmax, ?_, hfound⟩
        intro d hd hlo hhi
        by_cases heq : d = div
        · rw [heq]
          omega
        · exact hsmall d hd (by omega) hhi

/-- The field of a version 3.00 controller stands for the smallest divider that does not
exceed the clock asked for. -/
theorem sdhciDivider_isLeast {host : SdhciHost} {clock : BitVec 32}
    (hversion : 2 ≤ host.version.toNat % 256) (hmul : host.clkMul = 0)
    (hmax : host.maxClk.toNat ≤ 2046 * clock.toNat) :
    ∃ div < 1024, sdhciDivider host clock = (0, div) ∧
      IsLeast { d | SdDivider d ∧ host.maxClk.toNat / d ≤ clock.toNat } (if div = 0 then 1 else 2 * div) := by
  simp only [sdhciDivider, hversion, hmul, if_true, ne_eq, not_true_eq_false, if_false]
  split
  case isTrue h =>
    refine ⟨0, by omega, rfl, ⟨Or.inl rfl, ?_⟩, fun d hd => ?_⟩
    · show host.maxClk.toNat / 1 ≤ clock.toNat
      rwa [Nat.div_one]
    · obtain ⟨rfl | ⟨_, h2, _⟩, _⟩ := hd
      · exact le_rfl
      · exact (by omega : 1 ≤ d)
  case isFalse h =>
    obtain ⟨heven, hge, hle, hsmall, hfound⟩ :=
      @divLoop_spec host.maxClk.toNat clock.toNat 2046 2 (by omega) (by omega) (by omega)
    revert heven hge hle hsmall hfound
    generalize divLoop host.maxClk.toNat clock.toNat 2046 (· + 2) 2046 2 = r
    intro heven hge hle hsmall hfound
    have hr : (if r / 2 = 0 then 1 else 2 * (r / 2)) = r := by
      rw [if_neg (by omega)]
      omega
    refine ⟨r / 2, by omega, rfl, ?_⟩
    rw [hr]
    refine ⟨⟨Or.inr ⟨heven, hge, hle⟩, ?_⟩, fun d hd => ?_⟩
    · by_cases hlast : r < 2046
      · exact hfound hlast
      · -- the last divider is not tried by the loop
        have : r = 2046 := by omega
        subst this
        exact Nat.div_le_of_le_mul hmax
    · obtain ⟨rfl | ⟨hd2, hlo, _⟩, hclk⟩ := hd
      · rw [Nat.div_one] at hclk
        exact absurd hclk h
      · by_contra hlt
        exact absurd (hsmall d hd2 hlo (by omega)) (by omega)

/-! ## Clock Control after a success -/

/-- A call that succeeds ends with the divider, the stable bit as it was read, and the
card enabled. -/
theorem sdhciSetClock_ok {host : SdhciHost} {hw : SdhciController} {clock : BitVec 32} {old : BitVec 16}
    (hclock : clock ≠ 0) (hok : (sdhciSetClock host hw clock old).1 = 0) :
    (sdhciSetClock host hw clock old).2 =
      readClockControl (clockWord (sdhciDivider host clock).1 (sdhciDivider host clock).2) true |||
        SDHCI_CLOCK_CARD_EN := by
  have hstable (val : BitVec 16) (timeout k : Nat) (v : BitVec 16)
      (h : waitStable hw val timeout k = some v) : v = readClockControl val true := by
    fun_induction waitStable hw val timeout k with
    | case1 => exact (Option.some.inj h).symm
    | case2 => cases h
    | case3 => exact (Option.some.inj h).symm
    | case4 _ _ _ ih => exact ih h
  revert hok
  simp only [sdhciSetClock, hclock, if_false]
  split
  case isFalse => exact fun h => absurd (show -EBUSY = 0 from h) (by decide)
  case isTrue =>
    split
    case h_1 => exact fun h => absurd (show -EBUSY = 0 from h) (by decide)
    case h_2 v hv => exact fun _ => by rw [hstable _ _ _ _ hv]

/-- The divider that `sd-bench.sh` reads from the 32 bit word at Clock Control is the
smallest one whose clock is not above the clock asked for, as soon as the largest divider
could reach that clock. -/
theorem sd_bench_reads_divider (host : SdhciHost) (hw : SdhciController) (clock : BitVec 32)
    (old : BitVec 16) (hversion : 2 ≤ host.version.toNat % 256) (hmul : host.clkMul = 0)
    (hbase : 0 < host.maxClk.toNat) (hmax : host.maxClk.toNat ≤ 2046 * clock.toNat)
    (hok : (sdhciSetClock host hw clock old).1 = 0) (cc32 : BitVec 32) (stable : Bool)
    (hread : cc32.setWidth 16 = readClockControl (sdhciSetClock host hw clock old).2 stable) :
    IsLeast { d | SdDivider d ∧ host.maxClk.toNat / d ≤ clock.toNat } (sdBenchRealDiv cc32.toNat) ∧
      sdBenchRealHz host.maxClk.toNat cc32.toNat ≤ clock.toNat ∧
      sdBenchN cc32.toNat = (sdhciDivider host clock).2 ∧
      cc32.getLsbD 0 = true ∧ cc32.getLsbD 2 = true := by
  have hne : clock ≠ 0 := by
    rintro rfl
    exact absurd (hbase.trans_le hmax) (by decide)
  obtain ⟨div, hdiv, hdivider, hleast⟩ := sdhciDivider_isLeast hversion hmul hmax
  rw [sdhciSetClock_ok hne hok, hdivider] at hread
  have hbit (i : Nat) (hi : i < 16) : cc32.getLsbD i = (readClockControl
      (readClockControl (clockWord 0 div) true ||| SDHCI_CLOCK_CARD_EN) stable).getLsbD i := by
    rw [← hread, BitVec.getLsbD_setWidth, decide_eq_true hi, Bool.true_and]
  have hn : sdBenchN cc32.toNat = div := by
    apply sdBenchN_eq hdiv
    intro i hi h6
    rw [hbit i hi, getLsbD_readClockControl _ _ hi (by omega), getLsbD_or_cardEn _ hi (by omega),
      getLsbD_readClockControl _ _ hi (by omega)]
  have hreal : sdBenchRealDiv cc32.toNat = if div = 0 then 1 else 2 * div := by
    rw [sdBenchRealDiv, hn]
  refine ⟨hreal ▸ hleast, ?_, by rw [hn, hdivider], ?_, ?_⟩
  · rw [sdBenchRealHz, hreal]
    exact hleast.1.2
  · rw [hbit 0 (by omega), getLsbD_readClockControl _ _ (by omega) (by omega),
      getLsbD_or_cardEn _ (by omega) (by omega), getLsbD_readClockControl _ _ (by omega) (by omega),
      clockWord, BitVec.getLsbD_or]
    exact Bool.or_true _
  · rw [hbit 2 (by omega), getLsbD_readClockControl _ _ (by omega) (by omega), BitVec.getLsbD_or]
    exact Bool.or_true _

/-- 25 MHz from a base clock of 100 MHz: divider 4, a card that is enabled and stable. -/
theorem sd_bench_reads_divider_25MHz :
    IsLeast { d | SdDivider d ∧ 100000000 / d ≤ 25000000 } (sdBenchRealDiv 0x207) ∧
      sdBenchRealHz 100000000 0x207 ≤ 25000000 := by
  have h := sd_bench_reads_divider ⟨2, 0, 100000000⟩ ⟨fun _ => 0, fun _ => true⟩ 25000000 0 (by decide)
    rfl (by decide) (by decide) (by decide +kernel) 0x207 true (by decide +kernel)
  exact ⟨h.1, h.2.1⟩

end LicheeRvNano
