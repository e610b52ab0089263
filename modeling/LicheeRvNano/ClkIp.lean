import Mathlib.Algebra.Order.Floor.Div
import Mathlib.GroupTheory.GroupAction.Ring
import LicheeRvNano.ClkPll
import LicheeRvNano.Footprint

/-!
# U-Boot's clock driver: dividers and the audio clock

The dividers, the muxes and the multi-muxes of the clock driver set their rate in one way:
the divider is the quotient of the rates rounded up and cut to its field, and bit 3 of the
same register makes the field count. `ClkDivider.set_rate_best` says which rate that is, and
that `get_rate` reads it back.

The audio clock has a fraction, which `aclk_determine_mn` reduces by the greatest common
divisor. Whether the rate is the one asked for depends on whether the reduced fraction fits
(`aclk_set_rate_exact`).
-/

namespace LicheeRvNano

/-! ## Registers -/

/-- `setbits_le32`. -/
def setbitsLe32 (read32 : ReadReg) (addr : Nat) (set : BitVec 32) : ReadReg :=
  Function.update read32 addr (read32 addr ||| set)

/-- `clrbits_le32`. -/
def clrbitsLe32 (read32 : ReadReg) (addr : Nat) (clear : BitVec 32) : ReadReg :=
  Function.update read32 addr (read32 addr &&& ~~~clear)

/-- `cv1800b_clk_setbit`. -/
def cv1800bClkSetbit (read32 : ReadReg) (base : Nat) (bit : ClkRegbit) : ReadReg :=
  setbitsLe32 read32 (base + bit.offset) (BitVec.twoPow 32 bit.shift)

/-- `cv1800b_clk_clrbit`. -/
def cv1800bClkClrbit (read32 : ReadReg) (base : Nat) (bit : ClkRegbit) : ReadReg :=
  clrbitsLe32 read32 (base + bit.offset) (BitVec.twoPow 32 bit.shift)

/-- `cv1800b_clk_setfield`. -/
def cv1800bClkSetfield (read32 : ReadReg) (base : Nat) (f : ClkRegfield) (val : BitVec 32) :
    ReadReg :=
  Function.update read32 (base + f.offset) (f.field.replace (read32 (base + f.offset)) val)

/-! ### What they touch -/

section Touch

open Footprint

variable (read32 : ReadReg) (base : Nat)

/-- The bit as a footprint. -/
def ClkRegbit.print (bit : ClkRegbit) : Nat × BitVec 32 := (bit.offset, BitVec.twoPow 32 bit.shift)

/-- The field as a footprint. -/
def ClkRegfield.print (f : ClkRegfield) : Nat × BitVec 32 := (f.offset, f.field.mask)

theorem keeps_setbit (bit : ClkRegbit) :
    Keeps [bit.print] base read32 (cv1800bClkSetbit read32 base bit) := by
  refine keeps_update fun i hi => ?_
  rw [BitVec.getLsbD_or, hi, Bool.or_false]

theorem keeps_clrbit (bit : ClkRegbit) :
    Keeps [bit.print] base read32 (cv1800bClkClrbit read32 base bit) := by
  refine keeps_update fun i hi => ?_
  rw [BitVec.getLsbD_and, BitVec.getLsbD_not, hi]
  by_cases hlt : i < 32
  · simp [hlt]
  · rw [BitVec.getLsbD_of_ge _ _ (Nat.le_of_not_lt hlt), Bool.false_and]

theorem keeps_setfield (f : ClkRegfield) (val : BitVec 32) :
    Keeps [f.print] base read32 (cv1800bClkSetfield read32 base f val) := by
  refine keeps_update fun i hi => ?_
  rw [BitField.getLsbD_mask, decide_eq_false_iff_not] at hi
  exact BitField.getLsbD_replace_of_not hi _ _

variable {read32 base} {read32' : ReadReg}

theorem getbit_congr (bit : ClkRegbit) {F : Footprint 32} (h : Agree F base read32 read32')
    (hbit : bit.print ∈ F) :
    cv1800bClkGetbit read32' base bit = cv1800bClkGetbit read32 base bit :=
  h.and_eq hbit

theorem getfield_congr {f : ClkRegfield} {F : Footprint 32} (h : Agree F base read32 read32')
    (hf : f.print ∈ F) :
    cv1800bClkGetfield read32' base f = cv1800bClkGetfield read32 base f := by
  rw [cv1800bClkGetfield, cv1800bClkGetfield, BitField.get, BitField.get, h.and_eq hf]

end Touch

/-! ## Dividers -/

/-- `div` and `div_init` of a clock, whose field leaves the bit `CLK_DIV_EN_FACTOR` alone. -/
structure ClkDivider where
  div : ClkRegfield
  divInit : Nat
  factor : 3 < div.shift

namespace ClkDivider

/-- `val` of `get_rate`. -/
def val (d : ClkDivider) (read32 : ReadReg) (base : Nat) : BitVec 64 :=
  if d.divInit = 0 ∨ read32 (base + d.div.offset) &&& CLK_DIV_EN_FACTOR ≠ 0 then
    (cv1800bClkGetfield read32 base d.div).setWidth 64
  else BitVec.ofNat 64 d.divInit

/-- `get_rate`, for a divider that is not zero. -/
def getRate (d : ClkDivider) (read32 : ReadReg) (base : Nat) (parentRate : BitVec 64) :
    BitVec 64 :=
  divRoundUpUll parentRate (d.val read32 base)

/-- `clk_div_mask`. -/
def mask (d : ClkDivider) : BitVec 32 := (1 : BitVec 32) <<< d.div.width - 1

/-- `val` of `set_rate`, for a rate that is not zero in 32 bits. -/
def setVal (d : ClkDivider) (parentRate rate : BitVec 64) : BitVec 32 :=
  let val := (doDivRem (parentRate + rate - 1) rate).1.setWidth 32
  if val < d.mask then val else d.mask

/-- `set_rate`: the registers and the return value. -/
def setRate (d : ClkDivider) (read32 : ReadReg) (base : Nat) (parentRate rate : BitVec 64) :
    ReadReg × BitVec 64 :=
  let val := d.setVal parentRate rate
  let read32 := cv1800bClkSetfield read32 base d.div val
  let read32 :=
    if 0 < d.divInit then setbitsLe32 read32 (base + d.div.offset) CLK_DIV_EN_FACTOR else read32
  (read32, divRoundUpUll parentRate (val.setWidth 64))

/-- `set_rate` divides by the rate that is asked for, cut to 32 bits, and by the divider that it
has chosen. Neither is zero. -/
def setRateDivides (d : ClkDivider) (parentRate rate : BitVec 64) : Bool :=
  decide (rate.setWidth 32 ≠ 0) && decide (d.setVal parentRate rate ≠ 0)

end ClkDivider

/-! ## What the driver's functions are -/

/-- `div_get_rate`. -/
def divGetRate (read32 : ReadReg) (base : Nat) (d : ClkDivider) (parentRate : BitVec 64) :
    BitVec 64 :=
  d.getRate read32 base parentRate

/-- `div_set_rate` and `mux_set_rate`. -/
def divSetRate (read32 : ReadReg) (base : Nat) (d : ClkDivider) (parentRate rate : BitVec 64) :
    ReadReg × BitVec 64 :=
  d.setRate read32 base parentRate rate

/-- `bypass_div_get_rate`. -/
def bypassDivGetRate (read32 : ReadReg) (base : Nat) (d : ClkDivider) (bypass : ClkRegbit)
    (parentRate : BitVec 64) : BitVec 64 :=
  if cv1800bClkGetbit read32 base bypass ≠ 0 then 0 else divGetRate read32 base d parentRate

/-- `bypass_div_set_rate` and `bypass_mux_set_rate`. -/
def bypassDivSetRate (read32 : ReadReg) (base : Nat) (d : ClkDivider) (bypass : ClkRegbit)
    (parentRate rate : BitVec 64) : ReadReg × BitVec 64 :=
  if cv1800bClkGetbit read32 base bypass ≠ 0 then (read32, 0)
  else divSetRate read32 base d parentRate rate

/-- `div`, `div_init`, `bypass` and `clk_sel` of `struct cv1800b_clk_mmux`, for the two
values of the variable `clk_sel`. -/
structure ClkMmux where
  div : Bool → ClkDivider
  bypass : ClkRegbit
  clkSel : ClkRegbit

/-- The variable `clk_sel`: the bit of that name is set when it is zero. -/
def mmuxClkSel (read32 : ReadReg) (base : Nat) (mmux : ClkMmux) : Bool :=
  decide (cv1800bClkGetbit read32 base mmux.clkSel = 0)

/-- `mmux_get_rate`. -/
def mmuxGetRate (read32 : ReadReg) (base : Nat) (mmux : ClkMmux) (parentRate : BitVec 64) :
    BitVec 64 :=
  if cv1800bClkGetbit read32 base mmux.bypass ≠ 0 then 0
  else (mmux.div (mmuxClkSel read32 base mmux)).getRate read32 base parentRate

/-- `mmux_set_rate`. -/
def mmuxSetRate (read32 : ReadReg) (base : Nat) (mmux : ClkMmux) (parentRate rate : BitVec 64) :
    ReadReg × BitVec 64 :=
  if cv1800bClkGetbit read32 base mmux.bypass ≠ 0 then (read32, 0)
  else (mmux.div (mmuxClkSel read32 base mmux)).setRate read32 base parentRate rate

/-- A bypass mux of the table is a divider with a bypass. -/
theorem bypassMuxGetRate_eq (read32 : ReadReg) (base : Nat) (mux : ClkBypassMux)
    (h : 3 < mux.div.shift) (parentRate : BitVec 64) :
    bypassMuxGetRate read32 base mux parentRate =
      bypassDivGetRate read32 base ⟨mux.div, mux.divInit, h⟩ mux.bypass parentRate := rfl

/-! ## The rate that is set -/

namespace ClkDivider

variable (d : ClkDivider)

/-- The rates the field can make of a parent of `p` Hz. -/
def rates (p : Nat) : Set Nat :=
  {q | ∃ k, 1 ≤ k ∧ k ≤ 2 ^ d.div.width - 1 ∧ p ⌈/⌉ k = q}

theorem width_lt : d.div.width < 29 := by
  have := d.factor
  have := d.div.le
  omega

theorem toNat_mask : d.mask.toNat = 2 ^ d.div.width - 1 := by
  have hlt : 2 ^ d.div.width ≤ 2 ^ 28 :=
    Nat.pow_le_pow_right (by decide) (Nat.le_of_lt_succ d.width_lt)
  have hpos : 0 < 2 ^ d.div.width := Nat.two_pow_pos _
  have hone : ((1 : BitVec 32) <<< d.div.width).toNat = 2 ^ d.div.width := by
    rw [BitVec.toNat_shiftLeft, show (1 : BitVec 32).toNat = 1 from rfl, Nat.shiftLeft_eq, one_mul,
      Nat.mod_eq_of_lt (by omega)]
  rw [mask, BitVec.toNat_sub, hone, show (1 : BitVec 32).toNat = 1 from rfl]
  omega

variable {d} {p rate : BitVec 64}

/-- The divider that is written. -/
theorem toNat_setVal (hp : p.toNat < 2 ^ 32) (hpos : 0 < rate.toNat) (hrate : rate.toNat < 2 ^ 32) :
    (d.setVal p rate).toNat = min (p.toNat ⌈/⌉ rate.toNat) (2 ^ d.div.width - 1) := by
  have hle : p.toNat ⌈/⌉ rate.toNat ≤ p.toNat := by
    rw [ceilDiv_le_iff_le_mul hpos]
    exact Nat.le_mul_of_pos_left _ hpos
  have hquot : ((doDivRem (p + rate - 1) rate).1.setWidth 32).toNat = p.toNat ⌈/⌉ rate.toNat := by
    have hbase : ((rate.setWidth 32).setWidth 64).toNat = rate.toNat := by
      rw [BitVec.toNat_setWidth_of_le (by decide), BitVec.toNat_setWidth, Nat.mod_eq_of_lt hrate]
    have hsum : (p + rate - 1).toNat = p.toNat + rate.toNat - 1 := by bv_omega
    rw [doDivRem, BitVec.toNat_setWidth, BitVec.toNat_udiv, hbase, hsum,
      ← Nat.ceilDiv_eq_add_pred_div, Nat.mod_eq_of_lt (hle.trans_lt hp)]
  simp only [setVal]
  split_ifs with hlt
  · rw [BitVec.lt_def, d.toNat_mask, hquot] at hlt
    rw [hquot, min_eq_left hlt.le]
  · rw [BitVec.lt_def, d.toNat_mask, hquot, not_lt] at hlt
    rw [d.toNat_mask, min_eq_right hlt]

/-- What the quotient makes of the parent: the greatest rate not above the one asked for,
or the smallest there is. -/
theorem rates_best {p rate m : Nat} (hp : 0 < p) (hrate : 0 < rate) (hm : 0 < m) :
    IsGreatest {q | (∃ k, 1 ≤ k ∧ k ≤ m ∧ p ⌈/⌉ k = q) ∧ q ≤ rate} (p ⌈/⌉ min (p ⌈/⌉ rate) m) ∨
      rate < p ⌈/⌉ min (p ⌈/⌉ rate) m ∧
        IsLeast {q | ∃ k, 1 ≤ k ∧ k ≤ m ∧ p ⌈/⌉ k = q} (p ⌈/⌉ min (p ⌈/⌉ rate) m) := by
  have hquot : 1 ≤ p ⌈/⌉ rate := by
    rw [Nat.one_le_iff_ne_zero, Ne, ← Nat.le_zero, ceilDiv_le_iff_le_mul hrate]
    omega
  -- a divider makes at most `rate` of the parent when it is at least the quotient
  have hgalois : ∀ {k}, 1 ≤ k → (p ⌈/⌉ k ≤ rate ↔ p ⌈/⌉ rate ≤ k) := by
    intro k hk
    rw [ceilDiv_le_iff_le_mul hk, ceilDiv_le_iff_le_mul hrate, mul_comm]
  have hanti : ∀ {k l}, 1 ≤ k → k ≤ l → p ⌈/⌉ l ≤ p ⌈/⌉ k := by
    intro k l hk hkl
    rw [ceilDiv_le_iff_le_mul (hk.trans hkl)]
    have hmul : p ≤ k * (p ⌈/⌉ k) := (ceilDiv_le_iff_le_mul hk).mp le_rfl
    exact hmul.trans (Nat.mul_le_mul_right _ hkl)
  rcases le_or_gt (p ⌈/⌉ rate) m with hfits | hclipped
  · rw [min_eq_left hfits]
    refine .inl ⟨⟨⟨_, hquot, hfits, rfl⟩, (hgalois hquot).mpr le_rfl⟩, ?_⟩
    rintro q ⟨⟨k, hk, -, rfl⟩, hq⟩
    exact hanti hquot ((hgalois hk).mp hq)
  · rw [min_eq_right hclipped.le]
    refine .inr ⟨?_, ⟨m, hm, le_rfl, rfl⟩, ?_⟩
    · rw [← not_le, hgalois hm, not_le]
      exact hclipped
    · rintro q ⟨k, hk, hkm, rfl⟩
      exact hanti hk hkm

/-! ## What is read back -/

theorem getLsbD_factor (factor : Bool) {i : Nat} (hi : i ≠ 3) :
    (bif factor then CLK_DIV_EN_FACTOR else 0 : BitVec 32).getLsbD i = false := by
  cases factor
  · exact BitVec.getLsbD_zero
  · have hbit : CLK_DIV_EN_FACTOR = BitVec.twoPow 32 3 := rfl
    rw [cond_true, hbit, BitVec.getLsbD_twoPow]
    simp [hi.symm]

/-- The field that was written, after the factor bit. -/
theorem get_field_written (d : ClkDivider) (old : BitVec 32) {v : BitVec 32}
    (hv : v.toNat < 2 ^ d.div.width) (factor : Bool) :
    d.div.field.get (d.div.field.replace old v ||| bif factor then CLK_DIV_EN_FACTOR else 0) =
      v := by
  have hwidth : d.div.field.width = d.div.width := by
    have := d.div.pos
    simp only [BitField.width, ClkRegfield.field]
    omega
  refine get_of_bits (hwidth ▸ hv) fun i hi => ?_
  have hlo : 3 < i := d.factor.trans_le hi.1
  rw [BitVec.getLsbD_or, getLsbD_factor factor hlo.ne', Bool.or_false, BitField.getLsbD_replace,
    if_pos hi]

/-- The register of the divider after `set_rate`. -/
theorem setRate_reg (d : ClkDivider) (read32 : ReadReg) (base : Nat) (p rate : BitVec 64) :
    (d.setRate read32 base p rate).1 =
      Function.update read32 (base + d.div.offset)
        (d.div.field.replace (read32 (base + d.div.offset)) (d.setVal p rate) |||
          bif decide (0 < d.divInit) then CLK_DIV_EN_FACTOR else 0) := by
  simp only [setRate, cv1800bClkSetfield, setbitsLe32]
  split_ifs with hinit
  · rw [Function.update_self, Function.update_idem, decide_eq_true hinit, cond_true]
  · rw [decide_eq_false hinit, cond_false]
    simp

theorem setVal_lt (d : ClkDivider) (p rate : BitVec 64) : (d.setVal p rate).toNat < 2 ^ d.div.width := by
  have hpos : 0 < 2 ^ d.div.width := Nat.two_pow_pos _
  simp only [setVal]
  split_ifs with hlt
  · rw [BitVec.lt_def, d.toNat_mask] at hlt
    omega
  · rw [d.toNat_mask]
    omega

/-- `get_rate` uses the divider that `set_rate` has written. -/
theorem val_setRate (d : ClkDivider) (read32 : ReadReg) (base : Nat) (p rate : BitVec 64) :
    d.val (d.setRate read32 base p rate).1 base = (d.setVal p rate).setWidth 64 := by
  have hget : cv1800bClkGetfield (d.setRate read32 base p rate).1 base d.div = d.setVal p rate := by
    rw [cv1800bClkGetfield, setRate_reg, Function.update_self,
      get_field_written d _ (d.setVal_lt p rate)]
  have hcounts : d.divInit = 0 ∨
      (d.setRate read32 base p rate).1 (base + d.div.offset) &&& CLK_DIV_EN_FACTOR ≠ 0 := by
    rcases Nat.eq_zero_or_pos d.divInit with hinit | hinit
    · exact .inl hinit
    · refine .inr fun hzero => ?_
      have hbit := congrArg (BitVec.getLsbD · 3) hzero
      rw [setRate_reg, Function.update_self, decide_eq_true hinit, cond_true] at hbit
      simp at hbit
  rw [val, if_pos hcounts, hget]

theorem getRate_setRate (d : ClkDivider) (read32 : ReadReg) (base : Nat) (p rate : BitVec 64) :
    d.getRate (d.setRate read32 base p rate).1 base p = (d.setRate read32 base p rate).2 := by
  rw [getRate, val_setRate]
  rfl

theorem mask_pos (d : ClkDivider) : 0 < 2 ^ d.div.width - 1 := by
  have hwidth : 1 < 2 ^ d.div.width := Nat.one_lt_two_pow d.div.pos.ne'
  omega

theorem setVal_pos {d : ClkDivider} {p rate : BitVec 64} (hpos : 0 < p.toNat)
    (hp : p.toNat < 2 ^ 32) (hrate : 0 < rate.toNat) (hrate' : rate.toNat < 2 ^ 32) :
    0 < (d.setVal p rate).toNat := by
  rw [toNat_setVal hp hrate hrate']
  refine Nat.lt_min.mpr ⟨?_, d.mask_pos⟩
  rw [Nat.pos_iff_ne_zero, Ne, ← Nat.le_zero, ceilDiv_le_iff_le_mul hrate]
  omega

theorem toNat_setRate {d : ClkDivider} {read32 : ReadReg} {base : Nat} {p rate : BitVec 64}
    (hpos : 0 < p.toNat) (hp : p.toNat < 2 ^ 32) (hrate : 0 < rate.toNat)
    (hrate' : rate.toNat < 2 ^ 32) :
    (d.setRate read32 base p rate).2.toNat =
      p.toNat ⌈/⌉ min (p.toNat ⌈/⌉ rate.toNat) (2 ^ d.div.width - 1) := by
  have hval := toNat_setVal (d := d) hp hrate hrate'
  have hvalpos := setVal_pos (d := d) hpos hp hrate hrate'
  rw [← hval, Nat.ceilDiv_eq_add_pred_div]
  generalize hv : d.setVal p rate = v at hvalpos
  have hwide : (v.setWidth 64).toNat = v.toNat := BitVec.toNat_setWidth_of_le (by decide)
  have hsum : (p + v.setWidth 64 - 1).toNat = p.toNat + v.toNat - 1 := by
    have := v.isLt
    rw [BitVec.toNat_sub, BitVec.toNat_add, hwide, show (1 : BitVec 64).toNat = 1 from rfl]
    omega
  have hsnd : (d.setRate read32 base p rate).2 = divRoundUpUll p (v.setWidth 64) := by
    rw [← hv]
    rfl
  rw [hsnd, divRoundUpUll, divRoundDownUll, BitVec.toNat_udiv, hsum, hwide]

/-- **Setting the rate of a divider.** With the rate of the parent and the rate that is asked for
from 1 to 2^32 - 1 (`do_div` cuts its base to 32 bits, and a parent of 0 Hz makes the divider
zero), the rate that is returned is the greatest one the
field can make of the parent without exceeding the one asked for, or, when all of them do,
the smallest. `get_rate` reads it back, and no other register and no other bit of this one
changes. -/
theorem set_rate_best (d : ClkDivider) (read32 : ReadReg) (base : Nat) {p rate : BitVec 64}
    (hpos : 0 < p.toNat) (hp : p.toNat < 2 ^ 32) (hrate : 0 < rate.toNat)
    (hrate' : rate.toNat < 2 ^ 32) :
    (IsGreatest {q | q ∈ d.rates p.toNat ∧ q ≤ rate.toNat} (d.setRate read32 base p rate).2.toNat ∨
      rate.toNat < (d.setRate read32 base p rate).2.toNat ∧
        IsLeast (d.rates p.toNat) (d.setRate read32 base p rate).2.toNat) ∧
    d.getRate (d.setRate read32 base p rate).1 base p = (d.setRate read32 base p rate).2 ∧
    (∀ addr, addr ≠ base + d.div.offset → (d.setRate read32 base p rate).1 addr = read32 addr) ∧
    ∀ i, ¬ d.div.field.Has i → i ≠ 3 →
      ((d.setRate read32 base p rate).1 (base + d.div.offset)).getLsbD i =
        (read32 (base + d.div.offset)).getLsbD i := by
  rw [toNat_setRate hpos hp hrate hrate']
  refine ⟨rates_best hpos hrate d.mask_pos, getRate_setRate d read32 base p rate,
    fun addr hne => ?_, fun i hi h3 => ?_⟩
  · rw [setRate_reg, Function.update_of_ne hne]
  · rw [setRate_reg, Function.update_self, BitVec.getLsbD_or, getLsbD_factor _ h3, Bool.or_false,
      BitField.getLsbD_replace_of_not hi]

/-- The divider of the entry `CLK_SD0`. -/
def sd0 : ClkDivider := ⟨clkSd0.div, clkSd0.divInit, by decide⟩

/-- The divider of the SD card under the FPLL at 1.5 GHz, asked for 400 MHz. -/
theorem set_rate_best_sd0 :
    sd0.getRate (sd0.setRate (fun _ => 0) CLK_BASE 1500000000 400000000).1 CLK_BASE 1500000000 =
      375000000 := by
  rw [(set_rate_best sd0 (fun _ => 0) CLK_BASE (by decide) (by decide) (by decide)
    (by decide)).2.1]
  decide

end ClkDivider

/-! ## The audio clock -/

/-- What the operations read of `struct cv1800b_clk_audio`. -/
structure ClkAudio where
  srcEn : ClkRegbit
  outputEn : ClkRegbit
  divEn : ClkRegbit
  divUp : ClkRegbit
  m : ClkRegfield
  n : ClkRegfield

/-- The entry `CLK_A24M`. -/
def clkA24m : ClkAudio where
  srcEn := ⟨0x890, 0⟩
  outputEn := ⟨0x890, 3⟩
  divEn := ⟨0x890, 1⟩
  divUp := ⟨0x890, 2⟩
  m := ⟨0x894, 0, 22, by decide, by decide⟩
  n := ⟨0x898, 0, 22, by decide, by decide⟩

/-- `gcd`. -/
def clkGcd (a b : BitVec 32) : BitVec 32 :=
  if _h : b = 0 then a else clkGcd b (a % b)
  termination_by b.toNat
  decreasing_by
    rw [BitVec.toNat_umod]
    exact Nat.mod_lt _ (Nat.pos_of_ne_zero fun hzero => _h (BitVec.eq_of_toNat_eq hzero))

/-- `aclk_determine_mn`. -/
def aclkDetermineMn (parentRate rate : BitVec 64) : BitVec 32 × BitVec 32 :=
  let tm := (parentRate / 2).setWidth 32
  let tn := rate.setWidth 32
  let tcommon := clkGcd tm tn
  (tm / tcommon, tn / tcommon)

/-- `aclk_set_rate`: the registers and the return value. -/
def aclkSetRate (read32 : ReadReg) (base : Nat) (aclk : ClkAudio) (parentRate rate : BitVec 64) :
    ReadReg × BitVec 64 :=
  let mn := aclkDetermineMn parentRate rate
  let read32 := cv1800bClkSetfield read32 base aclk.m mn.1
  let read32 := cv1800bClkSetfield read32 base aclk.n mn.2
  let read32 := cv1800bClkSetbit read32 base aclk.divEn
  let read32 := cv1800bClkSetbit read32 base aclk.divUp
  (read32, divRoundUpUll (parentRate * mn.2.setWidth 64) ((mn.1 * 2).setWidth 64))

/-- `aclk_get_rate`, for an `m` that is not zero. -/
def aclkGetRate (read32 : ReadReg) (base : Nat) (aclk : ClkAudio) (parentRate : BitVec 64) :
    BitVec 64 :=
  if cv1800bClkGetbit read32 base aclk.divEn = 0 then 0
  else
    let m := cv1800bClkGetfield read32 base aclk.m
    let n := cv1800bClkGetfield read32 base aclk.n
    divRoundUpUll (n.setWidth 64 * parentRate) ((m * 2).setWidth 64)

/-- The fields and the bits are in registers of their own. -/
structure ClkAudio.Apart (aclk : ClkAudio) : Prop where
  fields : aclk.m.offset ≠ aclk.n.offset
  en_m : aclk.divEn.offset ≠ aclk.m.offset
  en_n : aclk.divEn.offset ≠ aclk.n.offset
  up_m : aclk.divUp.offset ≠ aclk.m.offset
  up_n : aclk.divUp.offset ≠ aclk.n.offset
  shift : aclk.divEn.shift < 32

theorem clkA24m_apart : clkA24m.Apart :=
  ⟨by decide, by decide, by decide, by decide, by decide, by decide⟩

theorem toNat_clkGcd (a b : BitVec 32) : (clkGcd a b).toNat = Nat.gcd a.toNat b.toNat := by
  fun_induction clkGcd a b with
  | case1 a => simp
  | case2 a b hb ih => rw [ih, BitVec.toNat_umod, Nat.gcd_comm, ← Nat.gcd_rec, Nat.gcd_comm]

/-- The reduced fraction. -/
theorem toNat_determineMn {p rate : BitVec 64} (hp : p.toNat < 2 ^ 32) (hrate : rate.toNat < 2 ^ 32) :
    (aclkDetermineMn p rate).1.toNat = p.toNat / 2 / Nat.gcd (p.toNat / 2) rate.toNat ∧
      (aclkDetermineMn p rate).2.toNat = rate.toNat / Nat.gcd (p.toNat / 2) rate.toNat := by
  have htm : ((p / 2).setWidth 32).toNat = p.toNat / 2 := by
    rw [BitVec.toNat_setWidth, BitVec.toNat_udiv, show (2 : BitVec 64).toNat = 2 from rfl,
      Nat.mod_eq_of_lt (by omega)]
  have htn : (rate.setWidth 32).toNat = rate.toNat := by
    rw [BitVec.toNat_setWidth, Nat.mod_eq_of_lt hrate]
  simp only [aclkDetermineMn]
  rw [BitVec.toNat_udiv, BitVec.toNat_udiv, toNat_clkGcd, htm, htn]
  exact ⟨rfl, rfl⟩

theorem ceilDiv_mul_right {a b g : Nat} (hb : 0 < b) (hg : 0 < g) :
    (a * g) ⌈/⌉ (b * g) = a ⌈/⌉ b := by
  refine eq_of_forall_ge_iff fun c => ?_
  rw [ceilDiv_le_iff_le_mul (Nat.mul_pos hb hg), ceilDiv_le_iff_le_mul hb, mul_right_comm]
  exact Nat.mul_le_mul_right_iff hg

/-- The rate of a fraction: `n` times the parent over twice `m`. -/
theorem toNat_fraction {p x : BitVec 64} {m n : BitVec 32} (hx : x.toNat = p.toNat * n.toNat)
    (hp : p.toNat < 2 ^ 32) (hm : 0 < m.toNat) (hm' : m.toNat < 2 ^ 31) :
    (divRoundUpUll x ((m * 2).setWidth 64)).toNat = (p.toNat * n.toNat) ⌈/⌉ (2 * m.toNat) := by
  have hprod : p.toNat * n.toNat ≤ (2 ^ 32 - 1) * (2 ^ 32 - 1) :=
    Nat.mul_le_mul (by omega) (by omega)
  have hdivisor : ((m * 2).setWidth 64).toNat = 2 * m.toNat := by
    rw [BitVec.toNat_setWidth_of_le (by decide), BitVec.toNat_mul,
      show (2 : BitVec 32).toNat = 2 from rfl]
    omega
  have hsum : (x + (m * 2).setWidth 64 - 1).toNat = p.toNat * n.toNat + 2 * m.toNat - 1 := by
    rw [BitVec.toNat_sub, BitVec.toNat_add, hx, hdivisor, show (1 : BitVec 64).toNat = 1 from rfl]
    omega
  rw [divRoundUpUll, divRoundDownUll, BitVec.toNat_udiv, hsum, hdivisor,
    ← Nat.ceilDiv_eq_add_pred_div]

/-- The rate that is returned does not depend on the reduction. -/
theorem toNat_aclkSetRate (read32 : ReadReg) (base : Nat) (aclk : ClkAudio) {p rate : BitVec 64}
    (hp : 2 ≤ p.toNat) (hp' : p.toNat < 2 ^ 32) (hrate : rate.toNat < 2 ^ 32) :
    (aclkSetRate read32 base aclk p rate).2.toNat =
      (p.toNat * rate.toNat) ⌈/⌉ (2 * (p.toNat / 2)) := by
  obtain ⟨hm, hn⟩ := toNat_determineMn hp' hrate
  have hhalf : 0 < p.toNat / 2 := by omega
  have hg : 0 < Nat.gcd (p.toNat / 2) rate.toNat := Nat.gcd_pos_of_pos_left _ hhalf
  have hmpos : 0 < (aclkDetermineMn p rate).1.toNat := by
    rw [hm]
    exact Nat.div_pos (Nat.gcd_le_left _ hhalf) hg
  have hmlt : (aclkDetermineMn p rate).1.toNat < 2 ^ 31 := by
    rw [hm]
    exact (Nat.div_le_self _ _).trans_lt (by omega)
  have hmul : (p * (aclkDetermineMn p rate).2.setWidth 64).toNat =
      p.toNat * (aclkDetermineMn p rate).2.toNat := by
    have hprod : p.toNat * (aclkDetermineMn p rate).2.toNat ≤ (2 ^ 32 - 1) * (2 ^ 32 - 1) :=
      Nat.mul_le_mul (by omega) (by omega)
    rw [BitVec.toNat_mul, BitVec.toNat_setWidth_of_le (by decide), Nat.mod_eq_of_lt (by omega)]
  have hret : (aclkSetRate read32 base aclk p rate).2.toNat =
      (p.toNat * (aclkDetermineMn p rate).2.toNat) ⌈/⌉ (2 * (aclkDetermineMn p rate).1.toNat) :=
    toNat_fraction hmul hp' hmpos hmlt
  rw [hret, ← ceilDiv_mul_right (Nat.mul_pos (by decide) hmpos) hg, hm, hn, mul_assoc, mul_assoc,
    Nat.div_mul_cancel (Nat.gcd_dvd_left _ _), Nat.div_mul_cancel (Nat.gcd_dvd_right _ _)]

section Registers

variable {read32 : ReadReg} {base : Nat}

theorem setbit_other {bit : ClkRegbit} {addr : Nat} (h : addr ≠ base + bit.offset) :
    cv1800bClkSetbit read32 base bit addr = read32 addr :=
  Function.update_of_ne h _ _

theorem setfield_other {f : ClkRegfield} {v : BitVec 32} {addr : Nat} (h : addr ≠ base + f.offset) :
    cv1800bClkSetfield read32 base f v addr = read32 addr :=
  Function.update_of_ne h _ _

theorem add_ne {a b : Nat} (h : a ≠ b) : base + a ≠ base + b := fun heq => h (Nat.add_left_cancel heq)

/-- A bit stays set when another one is set. -/
theorem getbit_setbit_setbit (en up : ClkRegbit) (hen : en.shift < 32) :
    cv1800bClkGetbit (cv1800bClkSetbit (cv1800bClkSetbit read32 base en) base up) base en ≠ 0 := by
  intro hzero
  have hbit := congrArg (BitVec.getLsbD · en.shift) hzero
  simp only [cv1800bClkGetbit, cv1800bClkSetbit, setbitsLe32, BitVec.getLsbD_and,
    BitVec.getLsbD_twoPow] at hbit
  by_cases hreg : base + en.offset = base + up.offset
  · simp [hreg, hen] at hbit
  · simp [Function.update_of_ne hreg, hen] at hbit

theorem ClkRegfield.width_field (f : ClkRegfield) : f.field.width = f.width := by
  have := f.pos
  simp only [BitField.width, ClkRegfield.field]
  omega

theorem getfield_n (read32 : ReadReg) (base : Nat) {aclk : ClkAudio} (hapart : aclk.Apart)
    {p rate : BitVec 64}
    (hn : (aclkDetermineMn p rate).2.toNat < 2 ^ aclk.n.width) :
    cv1800bClkGetfield (aclkSetRate read32 base aclk p rate).1 base aclk.n =
      (aclkDetermineMn p rate).2 := by
  simp only [cv1800bClkGetfield, aclkSetRate]
  rw [setbit_other (add_ne hapart.up_n.symm), setbit_other (add_ne hapart.en_n.symm),
    cv1800bClkSetfield, Function.update_self]
  exact BitField.get_replace_of_lt (aclk.n.width_field.symm ▸ hn) _

theorem getfield_m (read32 : ReadReg) (base : Nat) {aclk : ClkAudio} (hapart : aclk.Apart)
    {p rate : BitVec 64}
    (hm : (aclkDetermineMn p rate).1.toNat < 2 ^ aclk.m.width) :
    cv1800bClkGetfield (aclkSetRate read32 base aclk p rate).1 base aclk.m =
      (aclkDetermineMn p rate).1 := by
  simp only [cv1800bClkGetfield, aclkSetRate]
  rw [setbit_other (add_ne hapart.up_m.symm), setbit_other (add_ne hapart.en_m.symm),
    setfield_other (add_ne hapart.fields), cv1800bClkSetfield, Function.update_self]
  exact BitField.get_replace_of_lt (aclk.m.width_field.symm ▸ hm) _

end Registers

/-- **Setting the rate of the audio clock.** The parent has from 2 to 2^32 - 1 Hz, the half of it
is a divisor, and the rate that is asked for is below 2^32. With a fraction that fits its fields
the rate that is returned is read back. It is the one asked for if the rate of the parent is
even. -/
theorem aclk_set_rate_exact (read32 : ReadReg) (base : Nat) {aclk : ClkAudio} (hapart : aclk.Apart)
    {p rate : BitVec 64} (hp : 2 ≤ p.toNat) (hp' : p.toNat < 2 ^ 32)
    (hrate : rate.toNat < 2 ^ 32) :
    (aclkSetRate read32 base aclk p rate).2.toNat =
      (p.toNat * rate.toNat) ⌈/⌉ (2 * (p.toNat / 2)) ∧
    (p.toNat % 2 = 0 → (aclkSetRate read32 base aclk p rate).2 = rate) ∧
    (p.toNat / 2 / Nat.gcd (p.toNat / 2) rate.toNat < 2 ^ aclk.m.width →
      rate.toNat / Nat.gcd (p.toNat / 2) rate.toNat < 2 ^ aclk.n.width →
      aclkGetRate (aclkSetRate read32 base aclk p rate).1 base aclk p =
        (aclkSetRate read32 base aclk p rate).2) := by
  have hret := toNat_aclkSetRate read32 base aclk hp hp' hrate
  refine ⟨hret, fun heven => ?_, fun hm hn => ?_⟩
  · apply BitVec.eq_of_toNat_eq
    have hhalf : 2 * (p.toNat / 2) = p.toNat := by omega
    rw [hret, hhalf]
    exact smul_ceilDiv (by omega : 0 < p.toNat) _
  · obtain ⟨hmval, hnval⟩ := toNat_determineMn hp' hrate
    rw [← hmval] at hm
    rw [← hnval] at hn
    have hgetM := getfield_m read32 base hapart hm
    have hgetN := getfield_n read32 base hapart hn
    have hen : cv1800bClkGetbit (aclkSetRate read32 base aclk p rate).1 base aclk.divEn ≠ 0 :=
      getbit_setbit_setbit _ _ hapart.shift
    rw [aclkGetRate, if_neg hen, hgetM, hgetN]
    dsimp only
    rw [mul_comm]
    rfl

/-- The clock `CLK_A24M` under its parent at 900 MHz, asked for 24.576 MHz: the fraction is
512/9375. -/
theorem aclk_set_rate_exact_a24m :
    aclkGetRate (aclkSetRate (fun _ => 0) CLK_BASE clkA24m 900000000 24576000).1 CLK_BASE clkA24m
      900000000 = 24576000 := by
  have hset := aclk_set_rate_exact (fun _ => 0) CLK_BASE clkA24m_apart
    (by decide : 2 ≤ (900000000 : BitVec 64).toNat) (by decide)
    (by decide : (24576000 : BitVec 64).toNat < 2 ^ 32)
  rw [hset.2.2 (by decide) (by decide)]
  exact hset.2.1 (by decide)

end LicheeRvNano
