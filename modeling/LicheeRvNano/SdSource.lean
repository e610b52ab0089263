import Mathlib.Algebra.Order.Ring.Abs
import LicheeRvNano.BitField
import LicheeRvNano.SdClock

/-!
# The source clock of the SD card

Two programs work out the clock that feeds the card's divider from the same registers:
U-Boot's clock driver, from which `cv1800b_sdhci_probe` takes its base clock, and
`scripts/sd-bench.sh`, which reads the registers on the board to tell a wrong base
clock from a right one.

Each knows something that the other does not. The driver has no rate for a clock that
is bypassed, which the script takes to be the oscillator; the script takes every source
to be the FPLL, where the driver looks at the source select field. Where neither
matters they differ by the direction of one rounding.
-/

namespace LicheeRvNano

/-- A 32-bit register of the bus by its address. -/
abbrev ReadReg := Nat → BitVec 32

def CLK_BASE : Nat := 0x03002000

/-! ## sd-bench.sh -/

def sdBenchOscHz : Nat := 25000000

/-- `[ "$x" -gt 0 ] || x=1`. -/
def orOne (x : Nat) : Nat := if 0 < x then x else 1

/-- `fpll_hz` of the script. -/
def sdBenchFpllHz (read32 : ReadReg) : Nat :=
  let fpllCsr := (read32 0x03002910).toNat
  let preDiv := orOne (fpllCsr &&& 0x7f)
  let postDiv := orOne ((fpllCsr >>> 8) &&& 0x7f)
  let pllDiv := (fpllCsr >>> 17) &&& 0x7f
  sdBenchOscHz * pllDiv / (preDiv * postDiv)

/-- `src_clk`: the register of the divider and the bit of the bypass. -/
def sdBenchSrcClk (read32 : ReadReg) (reg bit : Nat) : Nat :=
  let raw := (read32 reg).toNat
  let byp := ((read32 0x03002030).toNat >>> bit) &&& 1
  if byp = 1 then sdBenchOscHz
  else
    let d := if (raw >>> 3) &&& 1 = 1 then (raw >>> 16) &&& 0x1f else 15
    sdBenchFpllHz read32 / orOne d

/-- `clk_sd0` of the script. -/
def sdBenchClkSd0 (read32 : ReadReg) : Nat := sdBenchSrcClk read32 0x03002070 6

/-! ## The clock driver -/

/-- `struct cv1800b_clk_regbit`. -/
structure ClkRegbit where
  offset : Nat
  shift : Nat

/-- `struct cv1800b_clk_regfield`, inside its register. -/
structure ClkRegfield where
  offset : Nat
  shift : Nat
  width : Nat
  pos : 0 < width
  le : shift + width ≤ 32

def ClkRegfield.field (f : ClkRegfield) : BitField 32 :=
  ⟨f.shift + f.width - 1, f.shift, by have := f.pos; omega, by have := f.pos; have := f.le; omega⟩

/-- `cv1800b_clk_getbit`: not zero if the bit is set. -/
def cv1800bClkGetbit (read32 : ReadReg) (base : Nat) (bit : ClkRegbit) : BitVec 32 :=
  read32 (base + bit.offset) &&& BitVec.twoPow 32 bit.shift

/-- `cv1800b_clk_getfield`. -/
def cv1800bClkGetfield (read32 : ReadReg) (base : Nat) (f : ClkRegfield) : BitVec 32 :=
  f.field.get (read32 (base + f.offset))

/-- `DIV_ROUND_DOWN_ULL` and `DIV_ROUND_UP_ULL`. -/
def divRoundDownUll (ll d : BitVec 64) : BitVec 64 := ll / d

def divRoundUpUll (ll d : BitVec 64) : BitVec 64 := divRoundDownUll (ll + d - 1) d

def PLL_DIV_SEL : BitField 32 := .genmask 23 17
def PLL_POST_DIV_SEL : BitField 32 := .genmask 14 8
def PLL_PRE_DIV_SEL : BitField 32 := .genmask 6 0

/-- `cv1800b_ipll_get_rate`, for dividers that are not zero. -/
def cv1800bIpllGetRate (read32 : ReadReg) (base pllReg : Nat) (parentRate : BitVec 64) :
    BitVec 64 :=
  let reg := read32 (base + pllReg)
  let preDiv := PLL_PRE_DIV_SEL.get reg
  let postDiv := PLL_POST_DIV_SEL.get reg
  let div := PLL_DIV_SEL.get reg
  divRoundDownUll (parentRate * div.setWidth 64) ((preDiv * postDiv).setWidth 64)

/-- The clocks that a mux of the AXI4 family may hang from. -/
inductive ClkParent where
  | clkFpll
  | clkDisppll
  deriving DecidableEq, Repr

def clkAxi4Parents : List ClkParent := [.clkFpll, .clkDisppll]

/-- What `get_rate` and the registration read of `struct cv1800b_clk_bypass_mux`. -/
structure ClkBypassMux where
  parentNames : List ClkParent
  div : ClkRegfield
  divInit : Nat
  mux : ClkRegfield
  bypass : ClkRegbit

/-- The entry `CLK_SD0`. -/
def clkSd0 : ClkBypassMux where
  parentNames := clkAxi4Parents
  div := ⟨0x070, 16, 5, by decide, by decide⟩
  divInit := 15
  mux := ⟨0x070, 8, 2, by decide, by decide⟩
  bypass := ⟨0x030, 6⟩

abbrev CLK_DIV_EN_FACTOR : BitVec 32 := 0x8

/-- The divider `mux_get_rate` uses. -/
def muxGetDiv (read32 : ReadReg) (base : Nat) (mux : ClkBypassMux) : BitVec 64 :=
  if mux.divInit = 0 ∨ read32 (base + mux.div.offset) &&& CLK_DIV_EN_FACTOR ≠ 0 then
    (cv1800bClkGetfield read32 base mux.div).setWidth 64
  else BitVec.ofNat 64 mux.divInit

/-- `mux_get_rate`, for a divider that is not zero. -/
def muxGetRate (read32 : ReadReg) (base : Nat) (mux : ClkBypassMux) (parentRate : BitVec 64) :
    BitVec 64 :=
  divRoundUpUll parentRate (muxGetDiv read32 base mux)

/-- `bypass_mux_get_rate`. -/
def bypassMuxGetRate (read32 : ReadReg) (base : Nat) (mux : ClkBypassMux)
    (parentRate : BitVec 64) : BitVec 64 :=
  if cv1800bClkGetbit read32 base mux.bypass ≠ 0 then 0
  else muxGetRate read32 base mux parentRate

/-- The parent `cv1800b_register_clk` registers the mux under, `none` beyond the end of
`parent_names`. -/
def bypassMuxParent (read32 : ReadReg) (base : Nat) (mux : ClkBypassMux) : Option ClkParent :=
  mux.parentNames[(cv1800bClkGetfield read32 base mux.mux).toNat]?

/-- `clk_get_parent_rate`; the display PLL hangs from other registers. -/
def clkParentRate (read32 : ReadReg) (base : Nat) (osc disppll : BitVec 64) :
    ClkParent → BitVec 64
  | .clkFpll => cv1800bIpllGetRate read32 base 0x910 osc
  | .clkDisppll => disppll

/-- The rate of `CLK_SD0`. -/
def clkSd0Rate (read32 : ReadReg) (osc disppll : BitVec 64) : Option (BitVec 64) :=
  (bypassMuxParent read32 CLK_BASE clkSd0).map fun parent =>
    bypassMuxGetRate read32 CLK_BASE clkSd0 (clkParentRate read32 CLK_BASE osc disppll parent)

/-! ## The same numbers -/

/-- A nonzero divider of each PLL stage and of the mux, and a source that exists. A mux
whose divider is not taken from the register may have a zero there. -/
structure SdRegsValid (read32 : ReadReg) : Prop where
  preDiv : PLL_PRE_DIV_SEL.get (read32 0x03002910) ≠ 0
  postDiv : PLL_POST_DIV_SEL.get (read32 0x03002910) ≠ 0
  pllDiv : PLL_DIV_SEL.get (read32 0x03002910) ≠ 0
  div : (read32 0x03002070).getLsbD 3 → clkSd0.div.field.get (read32 0x03002070) ≠ 0
  source : clkSd0.mux.field.get (read32 0x03002070) = 0 ∨
    clkSd0.mux.field.get (read32 0x03002070) = 1

/-- The rate of the FPLL out of the 25 MHz oscillator. -/
def fpllHz (read32 : ReadReg) : Nat :=
  25000000 * (PLL_DIV_SEL.get (read32 0x03002910)).toNat /
    ((PLL_PRE_DIV_SEL.get (read32 0x03002910)).toNat *
      (PLL_POST_DIV_SEL.get (read32 0x03002910)).toNat)

/-- The divider between the source and the card's clock. -/
def sdDivider (read32 : ReadReg) : Nat :=
  if (read32 0x03002070).getLsbD 3 then (clkSd0.div.field.get (read32 0x03002070)).toNat else 15

theorem get_pos {f : BitField 32} {x : BitVec 32} (h : f.get x ≠ 0) : 0 < (f.get x).toNat :=
  Nat.pos_of_ne_zero fun h0 => h (BitVec.eq_of_toNat_eq h0)

/-- A field as the script takes it. -/
theorem shiftRight_and {f : BitField 32} {lo m : Nat} (hlo : lo = f.lo)
    (hm : m = 2 ^ f.width - 1) (x : BitVec 32) :
    (x.toNat >>> lo) &&& m = (f.get x).toNat := by
  rw [hlo, hm, Nat.and_two_pow_sub_one_eq_mod, Nat.shiftRight_eq_div_pow, BitField.toNat_get]

/-- A bit as the script takes it. -/
theorem shiftRight_and_one (x : BitVec 32) (i : Nat) :
    (x.toNat >>> i) &&& 1 = 1 ↔ x.getLsbD i = true := by
  rw [BitVec.getLsbD, Nat.testBit, Nat.and_comm]
  rcases Nat.mod_two_eq_zero_or_one (x.toNat >>> i) with h | h
  · simp [Nat.one_and_eq_mod_two, h]
  · simp [Nat.one_and_eq_mod_two, h]

theorem orOne_of_pos {x : Nat} (h : 0 < x) : orOne x = x := if_pos h

theorem get_lt (f : BitField 32) (x : BitVec 32) : (f.get x).toNat < 2 ^ f.width := by
  rw [BitField.toNat_get]
  exact Nat.mod_lt _ (Nat.two_pow_pos _)

theorem sdBenchFpllHz_eq {read32 : ReadReg} (h : SdRegsValid read32) :
    sdBenchFpllHz read32 = fpllHz read32 := by
  have hpre : (read32 0x03002910).toNat &&& 0x7f = _ :=
    @shiftRight_and PLL_PRE_DIV_SEL 0 _ rfl rfl (read32 0x03002910)
  have hpost : ((read32 0x03002910).toNat >>> 8) &&& 0x7f = _ :=
    shiftRight_and (f := PLL_POST_DIV_SEL) rfl rfl (read32 0x03002910)
  have hdiv : ((read32 0x03002910).toNat >>> 17) &&& 0x7f = _ :=
    shiftRight_and (f := PLL_DIV_SEL) rfl rfl (read32 0x03002910)
  simp only [sdBenchFpllHz, fpllHz]
  rw [hpre, hpost, hdiv, orOne_of_pos (get_pos h.preDiv), orOne_of_pos (get_pos h.postDiv)]
  rfl

theorem cv1800bIpllGetRate_toNat {read32 : ReadReg} :
    (cv1800bIpllGetRate read32 CLK_BASE 0x910 25000000).toNat = fpllHz read32 := by
  have hdiv : (PLL_DIV_SEL.get (read32 0x03002910)).toNat < 128 := get_lt _ _
  have hpre : (PLL_PRE_DIV_SEL.get (read32 0x03002910)).toNat < 128 := get_lt _ _
  have hpost : (PLL_POST_DIV_SEL.get (read32 0x03002910)).toNat < 128 := get_lt _ _
  have hdivisor := Nat.mul_lt_mul'' hpre hpost
  have hreg : read32 (CLK_BASE + 0x910) = read32 0x03002910 := rfl
  simp only [cv1800bIpllGetRate, divRoundDownUll, hreg, fpllHz]
  rw [BitVec.toNat_udiv, BitVec.toNat_setWidth_of_le (by decide), BitVec.toNat_mul,
    BitVec.toNat_mul, BitVec.toNat_setWidth_of_le (by decide), Nat.mod_eq_of_lt,
    Nat.mod_eq_of_lt]
  · rfl
  · omega
  · change 25000000 * _ < 2 ^ 64
    omega

theorem sdDivider_pos {read32 : ReadReg} (h : SdRegsValid read32) : 0 < sdDivider read32 := by
  rw [sdDivider]
  split_ifs with h3
  · exact get_pos (h.div h3)
  · decide

theorem sdDivider_lt (read32 : ReadReg) : sdDivider read32 < 32 := by
  rw [sdDivider]
  split_ifs
  · exact get_lt clkSd0.div.field (read32 0x03002070)
  · decide

/-- The script's source, unless it is bypassed, is the FPLL. -/
theorem sdBenchClkSd0_eq {read32 : ReadReg} (h : SdRegsValid read32) :
    sdBenchClkSd0 read32 =
      if (read32 0x03002030).getLsbD 6 then 25000000 else fpllHz read32 / sdDivider read32 := by
  have hdiv : ((read32 0x03002070).toNat >>> 16) &&& 0x1f = _ :=
    shiftRight_and (f := clkSd0.div.field) rfl rfl (read32 0x03002070)
  simp only [sdBenchClkSd0, sdBenchSrcClk, shiftRight_and_one, hdiv, sdBenchFpllHz_eq h]
  have hpos := sdDivider_pos h
  rw [sdDivider] at hpos ⊢
  rw [orOne_of_pos hpos]
  rfl

/-- The bit the driver tests. -/
theorem and_twoPow_ne_zero (x : BitVec 32) (i : Nat) (hi : i < 32) :
    x &&& BitVec.twoPow 32 i ≠ 0 ↔ x.getLsbD i = true := by
  rw [BitVec.and_twoPow]
  split_ifs with h
  · refine iff_of_true (fun h0 => ?_) h
    have hbit := congrArg (fun v => BitVec.getLsbD v i) h0
    simp [hi] at hbit
  · exact iff_of_false (fun h0 => h0 rfl) h

theorem muxGetDiv_toNat (read32 : ReadReg) :
    (muxGetDiv read32 CLK_BASE clkSd0).toNat = sdDivider read32 := by
  have hbit := and_twoPow_ne_zero (read32 0x03002070) 3 (by decide)
  have hinit : ¬ clkSd0.divInit = 0 := by decide
  have hen : (read32 (CLK_BASE + clkSd0.div.offset) &&& CLK_DIV_EN_FACTOR ≠ 0) ↔
      (read32 0x03002070).getLsbD 3 = true := hbit
  rw [muxGetDiv, sdDivider]
  simp only [hinit, hen, false_or]
  split_ifs
  · exact BitVec.toNat_setWidth_of_le (by decide)
  · rfl

/-- The driver's rate of a source that is not bypassed, rounded up. -/
theorem muxGetRate_toNat (read32 : ReadReg) (parentRate : BitVec 64) :
    (muxGetRate read32 CLK_BASE clkSd0 parentRate).toNat =
      (parentRate + muxGetDiv read32 CLK_BASE clkSd0 - 1).toNat / sdDivider read32 := by
  rw [muxGetRate, divRoundUpUll, divRoundDownUll, BitVec.toNat_udiv, muxGetDiv_toNat]

/-! ## Where they agree -/

/-- A rate from which a division by `d`, rounded up, comes within one of `q`. -/
def InWindow (q d rate : Nat) : Prop := q * d < rate + 2 * d ∧ rate ≤ q * d + d

/-- Rounding the other way moves a quotient by at most one. -/
theorem inWindow_self (rate : Nat) {d : Nat} (hd : 0 < d) : InWindow (rate / d) d rate := by
  have hdiv := Nat.div_add_mod rate d
  have hmod := Nat.mod_lt rate hd
  rw [Nat.mul_comm] at hdiv
  constructor
  · omega
  · omega

/-- The sum in `DIV_ROUND_UP_ULL` may wrap; the quotient is zero then. -/
theorem near_roundUp_iff {q d rate : Nat} (hq : 2 ≤ q) (hd : 0 < d) (hd' : d < 32)
    (hqd : q * d < 2 ^ 32) (hrate : rate < 2 ^ 64) :
    |(q : ℤ) - ((rate + d - 1) % 2 ^ 64 / d : ℕ)| ≤ 1 ↔ InWindow q d rate := by
  have hnear (u : Nat) : |(q : ℤ) - u| ≤ 1 ↔ q ≤ u + 1 ∧ u ≤ q + 1 := by
    rw [abs_le]
    constructor
    · rintro ⟨h₁, h₂⟩
      omega
    · rintro ⟨h₁, h₂⟩
      omega
  rw [hnear, InWindow]
  by_cases hwrap : rate + d - 1 < 2 ^ 64
  · rw [Nat.mod_eq_of_lt hwrap]
    have hlow : q ≤ (rate + d - 1) / d + 1 ↔ q * d < rate + 2 * d := by
      rw [← Nat.sub_le_iff_le_add, Nat.le_div_iff_mul_le hd, Nat.sub_mul]
      omega
    have hhigh : (rate + d - 1) / d ≤ q + 1 ↔ rate ≤ q * d + d := by
      rw [← Nat.lt_succ_iff, Nat.div_lt_iff_lt_mul hd, Nat.succ_eq_add_one, Nat.add_mul,
        Nat.add_mul]
      omega
    rw [hlow, hhigh]
  · have hzero : (rate + d - 1) % 2 ^ 64 / d = 0 := by
      apply Nat.div_eq_of_lt
      omega
    rw [hzero]
    constructor
    · omega
    · omega

/-- The clock is not bypassed, and its source is the FPLL or happens to run as fast, up
to a step or two of the divider. -/
def SameSource (read32 : ReadReg) (disppll : BitVec 64) : Prop :=
  (read32 0x03002030).getLsbD 6 = false ∧
    (clkSd0.mux.field.get (read32 0x03002070) = 0 ∨
      InWindow (fpllHz read32 / sdDivider read32) (sdDivider read32) disppll.toNat)

theorem fpllHz_bounds {read32 : ReadReg} (h : SdRegsValid read32) :
    2 ≤ fpllHz read32 / sdDivider read32 ∧ fpllHz read32 < 2 ^ 32 := by
  have hdiv : (PLL_DIV_SEL.get (read32 0x03002910)).toNat < 128 := get_lt _ _
  have hpre : (PLL_PRE_DIV_SEL.get (read32 0x03002910)).toNat < 128 := get_lt _ _
  have hpost : (PLL_POST_DIV_SEL.get (read32 0x03002910)).toNat < 128 := get_lt _ _
  have hdivisor := Nat.mul_lt_mul'' hpre hpost
  have hpos := Nat.mul_pos (get_pos h.preDiv) (get_pos h.postDiv)
  have hfb := get_pos h.pllDiv
  have hlow : 62 ≤ fpllHz read32 := by
    rw [fpllHz, Nat.le_div_iff_mul_le hpos]
    omega
  have hhigh := Nat.div_le_self (25000000 * (PLL_DIV_SEL.get (read32 0x03002910)).toNat)
    ((PLL_PRE_DIV_SEL.get (read32 0x03002910)).toNat *
      (PLL_POST_DIV_SEL.get (read32 0x03002910)).toNat)
  rw [← fpllHz] at hhigh
  have hd := sdDivider_lt read32
  refine ⟨?_, by omega⟩
  rw [Nat.le_div_iff_mul_le (sdDivider_pos h)]
  omega

/-- The two figures for a source that is not bypassed. -/
theorem muxGetRate_near_iff {read32 : ReadReg} (h : SdRegsValid read32) (parentRate : BitVec 64) :
    |((fpllHz read32 / sdDivider read32 : ℕ) : ℤ) -
        (muxGetRate read32 CLK_BASE clkSd0 parentRate).toNat| ≤ 1 ↔
      InWindow (fpllHz read32 / sdDivider read32) (sdDivider read32) parentRate.toNat := by
  have hd := sdDivider_pos h
  have hd' := sdDivider_lt read32
  obtain ⟨hq, hfpll⟩ := fpllHz_bounds h
  have hqd := Nat.div_mul_le_self (fpllHz read32) (sdDivider read32)
  rw [← near_roundUp_iff hq hd hd' (by omega) parentRate.isLt, muxGetRate_toNat]
  have hval := muxGetDiv_toNat read32
  have hrate := parentRate.isLt
  have hsum : (parentRate + muxGetDiv read32 CLK_BASE clkSd0 - 1).toNat =
      (parentRate.toNat + sdDivider read32 - 1) % 2 ^ 64 := by
    rw [BitVec.toNat_sub, BitVec.toNat_add, hval]
    have hone : (1 : BitVec 64).toNat = 1 := rfl
    rw [hone]
    omega
  rw [hsum]

/-- The driver's test of the bypass bit. -/
theorem bypass_ne_zero_iff (read32 : ReadReg) :
    cv1800bClkGetbit read32 CLK_BASE clkSd0.bypass ≠ 0 ↔ (read32 0x03002030).getLsbD 6 = true :=
  and_twoPow_ne_zero _ 6 (by decide)

/-- A bypassed clock has a parent, and no rate. -/
theorem clkSd0Rate_of_bypassed {read32 : ReadReg} (h : SdRegsValid read32) (osc disppll : BitVec 64)
    (hb : (read32 0x03002030).getLsbD 6 = true) : clkSd0Rate read32 osc disppll = some 0 := by
  have hmux : cv1800bClkGetfield read32 CLK_BASE clkSd0.mux =
      clkSd0.mux.field.get (read32 0x03002070) := rfl
  have hparent : ∃ parent, bypassMuxParent read32 CLK_BASE clkSd0 = some parent := by
    rw [bypassMuxParent, hmux]
    rcases h.source with h0 | h1
    · rw [h0]
      exact ⟨.clkFpll, rfl⟩
    · rw [h1]
      exact ⟨.clkDisppll, rfl⟩
  obtain ⟨parent, hparent⟩ := hparent
  rw [clkSd0Rate, hparent, Option.map_some, bypassMuxGetRate,
    if_pos ((bypass_ne_zero_iff read32).mpr hb)]

/-- Otherwise it has the rate of its source through the divider. -/
theorem clkSd0Rate_of_clear {read32 : ReadReg} (osc disppll : BitVec 64)
    (hb : ¬ (read32 0x03002030).getLsbD 6 = true) :
    (clkSd0.mux.field.get (read32 0x03002070) = 0 → clkSd0Rate read32 osc disppll =
        some (muxGetRate read32 CLK_BASE clkSd0 (cv1800bIpllGetRate read32 CLK_BASE 0x910 osc))) ∧
      (clkSd0.mux.field.get (read32 0x03002070) = 1 → clkSd0Rate read32 osc disppll =
        some (muxGetRate read32 CLK_BASE clkSd0 disppll)) := by
  have hmux : cv1800bClkGetfield read32 CLK_BASE clkSd0.mux =
      clkSd0.mux.field.get (read32 0x03002070) := rfl
  have hrate (parentRate : BitVec 64) : bypassMuxGetRate read32 CLK_BASE clkSd0 parentRate =
      muxGetRate read32 CLK_BASE clkSd0 parentRate := by
    rw [bypassMuxGetRate, if_neg (fun hne => hb ((bypass_ne_zero_iff read32).mp hne))]
  refine ⟨fun h0 => ?_, fun h1 => ?_⟩
  · rw [clkSd0Rate, bypassMuxParent, hmux, h0, ← hrate]
    rfl
  · rw [clkSd0Rate, bypassMuxParent, hmux, h1, ← hrate]
    rfl

/-- **When the two decoders of the SD source clock agree.** For all registers with
nonzero dividers and one of the two sources, and any rate of the display PLL: the
driver has a rate, and the script's is within 1 Hz of it, up or down, if and only if
the clock is not bypassed and its source is the FPLL or as fast. -/
theorem sd_source_decoders_agree_iff (read32 : ReadReg) (disppll : BitVec 64)
    (h : SdRegsValid read32) :
    ∃ rate, clkSd0Rate read32 25000000 disppll = some rate ∧
      (|(sdBenchClkSd0 read32 : ℤ) - rate.toNat| ≤ 1 ↔ SameSource read32 disppll) := by
  have hscript := sdBenchClkSd0_eq h
  by_cases hb : (read32 0x03002030).getLsbD 6 = true
  · -- the script has the oscillator, the driver nothing
    refine ⟨0, clkSd0Rate_of_bypassed h _ _ hb, ?_⟩
    rw [hscript, if_pos hb]
    refine iff_of_false (by decide) ?_
    rintro ⟨hclear, -⟩
    rw [hb] at hclear
    cases hclear
  · have hclear : (read32 0x03002030).getLsbD 6 = false := Bool.eq_false_iff.mpr hb
    obtain ⟨hfpll, hdisppll⟩ := clkSd0Rate_of_clear 25000000 disppll hb
    rw [hscript, if_neg hb]
    rcases h.source with h0 | h1
    · refine ⟨_, hfpll h0, ?_⟩
      rw [muxGetRate_near_iff h, cv1800bIpllGetRate_toNat]
      exact iff_of_true (inWindow_self _ (sdDivider_pos h)) ⟨hclear, .inl h0⟩
    · refine ⟨_, hdisppll h1, ?_⟩
      rw [muxGetRate_near_iff h]
      refine ⟨fun hw => ⟨hclear, .inr hw⟩, ?_⟩
      rintro ⟨-, h0 | hw⟩
      · rw [h1] at h0
        cases h0
      · exact hw

/-- The registers of a board out of U-Boot: the FPLL at 1500 MHz, the divider not taken
from its register. -/
def boardRegs (clkByp0 divClkSd0 : BitVec 32) : ReadReg := fun addr =>
  if addr = 0x03002910 then 0x07788101
  else if addr = 0x03002030 then clkByp0
  else if addr = 0x03002070 then divClkSd0
  else 0

theorem boardRegs_valid (clkByp0 : BitVec 32) {divClkSd0 : BitVec 32}
    (h3 : divClkSd0.getLsbD 3 → clkSd0.div.field.get divClkSd0 ≠ 0)
    (hsource : clkSd0.mux.field.get divClkSd0 = 0 ∨ clkSd0.mux.field.get divClkSd0 = 1) :
    SdRegsValid (boardRegs clkByp0 divClkSd0) := by
  have hfpll : boardRegs clkByp0 divClkSd0 0x03002910 = 0x07788101 := rfl
  refine ⟨?_, ?_, ?_, h3, hsource⟩
  · rw [hfpll]
    decide
  · rw [hfpll]
    decide
  · rw [hfpll]
    decide

theorem sd_source_decoders_agree_board :
    ∃ rate, clkSd0Rate (boardRegs 0 1) 25000000 1188000000 = some rate ∧
      (|(sdBenchClkSd0 (boardRegs 0 1) : ℤ) - rate.toNat| ≤ 1 ↔
        SameSource (boardRegs 0 1) 1188000000) :=
  sd_source_decoders_agree_iff (boardRegs 0 1) 1188000000
    (boardRegs_valid 0 (by decide) (by decide))

/-- Bypassed the clock runs at 25 MHz for the script and not at all for the driver; fed
from a display PLL of 1188 MHz it runs at 100 MHz and at 79.2 MHz. -/
theorem sd_source_decoders_disagree :
    SdRegsValid (boardRegs 0x40 0x000f0001) ∧
      sdBenchClkSd0 (boardRegs 0x40 0x000f0001) = 25000000 ∧
      clkSd0Rate (boardRegs 0x40 0x000f0001) 25000000 1188000000 = some 0 ∧
    SdRegsValid (boardRegs 0 0x000f0101) ∧
      sdBenchClkSd0 (boardRegs 0 0x000f0101) = 100000000 ∧
      clkSd0Rate (boardRegs 0 0x000f0101) 25000000 1188000000 = some 79200000 :=
  ⟨boardRegs_valid _ (by decide) (by decide), by decide, by decide,
    boardRegs_valid _ (by decide) (by decide), by decide, by decide⟩

/-- `cv1800b_sdhci_probe` takes no base clock from a bypassed source. -/
theorem probe_of_bypassed {read32 : ReadReg} {osc disppll rate : BitVec 64}
    (hb : (read32 0x03002030).getLsbD 6 = true) (h : clkSd0Rate read32 osc disppll = some rate) :
    probeMaxClk rate = none := by
  have hbyp := (bypass_ne_zero_iff read32).mpr hb
  rw [clkSd0Rate, Option.map_eq_some_iff] at h
  obtain ⟨parent, -, hrate⟩ := h
  rw [bypassMuxGetRate, if_pos hbyp] at hrate
  rw [← hrate, probeMaxClk, if_pos (.inl rfl)]

end LicheeRvNano
