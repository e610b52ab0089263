import Mathlib.Data.List.Monad
import LicheeRvNano.SdSource
import LicheeRvNano.Selection

/-!
# U-Boot's clock driver: setting the rate of a PLL

`cv1800b_ipll_set_rate` tries every pair of dividers with every multiplier and keeps what
comes closest; `ipll_set_rate_best` says that this is the greatest rate not above the one
asked for, and that `get_rate` reads it back.

A fractional PLL whose synthesizer is on has a third divider, of 32 bits, for which
`cv1800b_find_syn` halves an interval. Each turn leaves the middle inside, so the interval
never closes and the search ends with a hit or not at all (`findSyn_exact`). No rate is hit
for all multipliers, so the call that tries them all does not return
(`fpll_set_rate_synthesizer`).
-/

namespace LicheeRvNano

/-! ## The integer PLL -/

def PLL_ICTRL : BitField 32 := .genmask 26 24
def PLL_SEL_MODE : BitField 32 := .genmask 16 15

def PLL_MASK_ALL : BitVec 32 :=
  PLL_ICTRL.mask ||| PLL_DIV_SEL.mask ||| PLL_SEL_MODE.mask ||| PLL_POST_DIV_SEL.mask |||
    PLL_PRE_DIV_SEL.mask

/-- `FOR_RANGE`, over `min` to `max`. -/
def forRange (min max : Nat) : List Nat := List.range' min (max + 1 - min)

abbrev pllPreDivs : List Nat := forRange 1 127
abbrev pllPostDivs : List Nat := forRange 1 127
abbrev pllDivs : List Nat := forRange 6 127
abbrev pllIctrls : List Nat := forRange 0 7
abbrev pllModes : List Nat := forRange 0 3

/-- `pre_div_sel`, `post_div_sel` and `div_sel`. -/
structure PllSel where
  preDiv : Nat
  postDiv : Nat
  div : Nat

/-- `new_rate`. -/
def ipllNewRate (parentRate : BitVec 64) (preDiv postDiv div : Nat) : BitVec 64 :=
  divRoundDownUll (parentRate * BitVec.ofNat 64 div)
    ((BitVec.ofNat 32 preDiv * BitVec.ofNat 32 postDiv).setWidth 64)

/-- The body of the three loops. -/
def ipllTry (parentRate rate : BitVec 64) (best : BitVec 64 × Option PllSel)
    (preDiv postDiv div : Nat) : BitVec 64 × Option PllSel :=
  let newRate := ipllNewRate parentRate preDiv postDiv div
  if rate - newRate < rate - best.1 then (newRate, some ⟨preDiv, postDiv, div⟩) else best

/-- The three loops: `best_rate` and the selection, which is not assigned before the first
improvement. -/
def ipllSearch (parentRate rate : BitVec 64) : BitVec 64 × Option PllSel :=
  pllPreDivs.foldl (fun best preDiv =>
    pllPostDivs.foldl (fun best postDiv =>
      pllDivs.foldl (fun best div => ipllTry parentRate rate best preDiv postDiv div) best) best)
    (0, none)

/-- `test`, for a charge pump current and a mode. -/
def pllTest (mode ictrl : Nat) : Nat := 184 * (1 + mode) * (1 + ictrl) / 2

/-- The first mode and current that pass. -/
def pllPump (ok : Nat → Bool) : Option (Nat × Nat) :=
  pllModes.findSome? fun mode => pllIctrls.findSome? fun ictrl =>
    if ok (pllTest mode ictrl) then some (mode, ictrl) else none

/-- `val`. -/
def pllVal (sel : PllSel) (mode ictrl : Nat) : BitVec 32 :=
  PLL_PRE_DIV_SEL.prep (BitVec.ofNat 32 sel.preDiv) |||
    PLL_POST_DIV_SEL.prep (BitVec.ofNat 32 sel.postDiv) |||
    PLL_DIV_SEL.prep (BitVec.ofNat 32 sel.div) |||
    PLL_ICTRL.prep (BitVec.ofNat 32 ictrl) |||
    PLL_SEL_MODE.prep (BitVec.ofNat 32 mode)

/-- `clrsetbits_le32`. -/
def clrsetbits (read32 : ReadReg) (addr : Nat) (clear set : BitVec 32) : ReadReg :=
  Function.update read32 addr (read32 addr &&& ~~~clear ||| set)

/-- The second half: the charge pump for the selection, and the write. -/
def ipllProgram (read32 : ReadReg) (addr : Nat) (bestRate : BitVec 64) (sel : PllSel) :
    ReadReg × BitVec 64 :=
  match pllPump fun test => decide (20 * sel.div < test ∧ test < 35 * sel.div) with
  | some (mode, ictrl) =>
    (clrsetbits read32 addr PLL_MASK_ALL (pllVal sel mode ictrl), bestRate)
  | none => (read32, BitVec.ofInt 64 (-EINVAL))

/-- `cv1800b_ipll_set_rate`: the registers and the return value. `none` is a selection that
is used without having been assigned. -/
def cv1800bIpllSetRate (read32 : ReadReg) (base pllReg : Nat) (parentRate rate : BitVec 64) :
    Option (ReadReg × BitVec 64) :=
  let found := ipllSearch parentRate rate
  found.2.map fun sel => ipllProgram read32 (base + pllReg) found.1 sel

/-! ## What the search finds -/

/-- The candidates, in the order of the loops. -/
def pllSels : List PllSel :=
  pllPreDivs.flatMap fun preDiv => pllPostDivs.flatMap fun postDiv =>
    pllDivs.map fun div => ⟨preDiv, postDiv, div⟩

/-- The dividers and the multiplier are in their ranges. -/
structure PllSel.InRange (s : PllSel) : Prop where
  preDiv : 1 ≤ s.preDiv ∧ s.preDiv ≤ 127
  postDiv : 1 ≤ s.postDiv ∧ s.postDiv ≤ 127
  div : 6 ≤ s.div ∧ s.div ≤ 127

theorem mem_forRange {min max x : Nat} (h : min ≤ max) : x ∈ forRange min max ↔ min ≤ x ∧ x ≤ max := by
  rw [forRange, List.mem_range'_1]
  omega

theorem mem_pllSels {s : PllSel} : s ∈ pllSels ↔ s.InRange := by
  simp only [pllSels, List.mem_flatMap, List.mem_map]
  constructor
  · rintro ⟨preDiv, hpre, postDiv, hpost, div, hdiv, rfl⟩
    exact ⟨(mem_forRange (by decide)).mp hpre, (mem_forRange (by decide)).mp hpost,
      (mem_forRange (by decide)).mp hdiv⟩
  · rintro ⟨hpre, hpost, hdiv⟩
    exact ⟨_, (mem_forRange (by decide)).mpr hpre, _, (mem_forRange (by decide)).mpr hpost, _,
      (mem_forRange (by decide)).mpr hdiv, rfl⟩

/-- The rate of a candidate, in 64 bits. -/
def PllSel.rate (p : BitVec 64) (s : PllSel) : BitVec 64 := ipllNewRate p s.preDiv s.postDiv s.div

/-- The differences are unsigned: a rate above the one asked for is never closer. -/
theorem closer_iff {rate best new : BitVec 64} (h : best ≤ rate) :
    rate - new < rate - best ↔ new ≤ rate ∧ best < new := by
  bv_omega

/-- The loops keep the best rate not above the one asked for. -/
theorem ipllSearch_eq (p rate : BitVec 64) : (ipllSearch p rate).map BitVec.toNat id =
    pllSels.foldl (Selection.improve (fun s => (s.rate p).toNat) (fun s => s.rate p ≤ rate))
      (0, none) := by
  have hloop : ∀ (l : List PllSel) (best : BitVec 64 × Option PllSel), best.1 ≤ rate →
      (l.foldl (fun best s => ipllTry p rate best s.preDiv s.postDiv s.div) best).map BitVec.toNat id =
        l.foldl (Selection.improve (fun s => (s.rate p).toNat) (fun s => s.rate p ≤ rate))
          (best.map BitVec.toNat id) := by
    intro l
    induction l with
    | nil => exact fun _ _ => rfl
    | cons s l ih =>
      intro best hbest
      have htry : ipllTry p rate best s.preDiv s.postDiv s.div =
          if s.rate p ≤ rate ∧ best.1 < s.rate p then (s.rate p, some s) else best :=
        if_congr (closer_iff hbest) rfl rfl
      have hkeep : Selection.improve (fun s => (s.rate p).toNat) (fun s => s.rate p ≤ rate)
          (best.map BitVec.toNat id) s =
          (if s.rate p ≤ rate ∧ best.1 < s.rate p then (s.rate p, some s) else best).map
            BitVec.toNat id := by
        rw [apply_ite (Prod.map BitVec.toNat id)]
        exact if_congr Iff.rfl rfl rfl
      rw [List.foldl_cons, List.foldl_cons, htry, hkeep]
      refine ih _ ?_
      split_ifs with hbetter
      · exact hbetter.1
      · exact hbest
  have hsearch : ipllSearch p rate =
      pllSels.foldl (fun best s => ipllTry p rate best s.preDiv s.postDiv s.div) (0, none) := by
    simp only [pllSels, List.foldl_flatMap, List.foldl_map, ipllSearch]
  have hzero : (0 : BitVec 64) ≤ rate := Nat.zero_le _
  rw [hsearch, hloop pllSels (0, none) hzero]
  rfl

/-- The rates a parent of `p` Hz can be turned into. -/
def ipllRates (p : Nat) : Set Nat :=
  {q | ∃ s : PllSel, s.InRange ∧ p * s.div / (s.preDiv * s.postDiv) = q}

theorem toNat_rate {p : BitVec 64} (hp : p.toNat * 127 < 2 ^ 64) {s : PllSel} (hs : s.InRange) :
    (s.rate p).toNat = p.toNat * s.div / (s.preDiv * s.postDiv) := by
  obtain ⟨⟨-, hpre⟩, ⟨-, hpost⟩, -, hdiv⟩ := hs
  have hprod : s.preDiv * s.postDiv ≤ 127 * 127 := Nat.mul_le_mul hpre hpost
  have hmul : p.toNat * s.div ≤ p.toNat * 127 := Nat.mul_le_mul_left _ hdiv
  rw [PllSel.rate, ipllNewRate, divRoundDownUll, BitVec.toNat_udiv, BitVec.toNat_mul,
    BitVec.toNat_ofNat, BitVec.toNat_setWidth_of_le (by decide), BitVec.toNat_mul,
    BitVec.toNat_ofNat, BitVec.toNat_ofNat, Nat.mod_eq_of_lt (by omega : s.div < 2 ^ 64),
    Nat.mod_eq_of_lt (by omega : p.toNat * s.div < 2 ^ 64),
    Nat.mod_eq_of_lt (by omega : s.preDiv < 2 ^ 32),
    Nat.mod_eq_of_lt (by omega : s.postDiv < 2 ^ 32), Nat.mod_eq_of_lt (by omega)]

/-- The search has found the greatest rate not above the one asked for, or there is none. -/
theorem ipllSearch_best {p : BitVec 64} (hp : p.toNat * 127 < 2 ^ 64) (rate : BitVec 64) :
    ((ipllSearch p rate).2 = none ∧ ∀ q ∈ ipllRates p.toNat, q ≤ rate.toNat → q = 0) ∨
      ∃ s : PllSel, s.InRange ∧ ipllSearch p rate = (s.rate p, some s) ∧ 0 < (s.rate p).toNat ∧
        IsGreatest {q | q ∈ ipllRates p.toNat ∧ q ≤ rate.toNat} (s.rate p).toNat := by
  have hbest := @Selection.best_foldl PllSel Nat _ (fun s => (s.rate p).toNat)
    (fun s => s.rate p ≤ rate) _ 0 pllSels
  rw [← ipllSearch_eq] at hbest
  generalize ipllSearch p rate = r at hbest ⊢
  obtain ⟨best, sel⟩ := r
  cases sel with
  | none =>
    refine .inl ⟨rfl, ?_⟩
    rintro q ⟨s, hs, rfl⟩ hle
    rw [← toNat_rate hp hs] at hle ⊢
    by_contra hne
    obtain ⟨c, hc⟩ := hbest.found (mem_pllSels.mpr hs) hle (Nat.pos_of_ne_zero hne)
    exact absurd hc.symm (Option.some_ne_none c)
  | some s =>
    obtain ⟨hmem, hle, hscore, hpos⟩ := hbest.chosen s rfl
    have hs := mem_pllSels.mp hmem
    have hrate : s.rate p = best := BitVec.eq_of_toNat_eq hscore
    subst hrate
    refine .inr ⟨s, hs, rfl, hpos, ⟨⟨s, hs, (toNat_rate hp hs).symm⟩, hle⟩, ?_⟩
    rintro q ⟨⟨c, hc, rfl⟩, hcle⟩
    rw [← toNat_rate hp hc] at hcle ⊢
    exact hbest.bound c (mem_pllSels.mpr hc) hcle

/-! ## What is written -/

/-- There is a charge pump current for every multiplier. -/
theorem pllPump_isSome : ∀ div ∈ pllDivs,
    (pllPump fun test => decide (20 * div < test ∧ test < 35 * div)).isSome = true := by
  decide +kernel

/-- The new word, bit by bit. -/
theorem getLsbD_pllWord (old : BitVec 32) (sel : PllSel) (mode ictrl i : Nat) :
    (old &&& ~~~PLL_MASK_ALL ||| pllVal sel mode ictrl).getLsbD i =
      if PLL_PRE_DIV_SEL.Has i then (BitVec.ofNat 32 sel.preDiv).getLsbD (i - 0)
      else if PLL_POST_DIV_SEL.Has i then (BitVec.ofNat 32 sel.postDiv).getLsbD (i - 8)
      else if PLL_DIV_SEL.Has i then (BitVec.ofNat 32 sel.div).getLsbD (i - 17)
      else if PLL_ICTRL.Has i then (BitVec.ofNat 32 ictrl).getLsbD (i - 24)
      else if PLL_SEL_MODE.Has i then (BitVec.ofNat 32 mode).getLsbD (i - 15)
      else old.getLsbD i := by
  have hpre : PLL_PRE_DIV_SEL.lo = 0 ∧ PLL_PRE_DIV_SEL.hi = 6 := ⟨rfl, rfl⟩
  have hpost : PLL_POST_DIV_SEL.lo = 8 ∧ PLL_POST_DIV_SEL.hi = 14 := ⟨rfl, rfl⟩
  have hdiv : PLL_DIV_SEL.lo = 17 ∧ PLL_DIV_SEL.hi = 23 := ⟨rfl, rfl⟩
  have hictrl : PLL_ICTRL.lo = 24 ∧ PLL_ICTRL.hi = 26 := ⟨rfl, rfl⟩
  have hmode : PLL_SEL_MODE.lo = 15 ∧ PLL_SEL_MODE.hi = 16 := ⟨rfl, rfl⟩
  simp only [PLL_MASK_ALL, pllVal, BitVec.getLsbD_or, BitVec.getLsbD_and, BitVec.getLsbD_not,
    BitField.getLsbD_mask, BitField.getLsbD_prep, BitField.Has, hpre, hpost, hdiv, hictrl, hmode]
  grind

/-- A field that was written in whole is read back. -/
theorem get_of_bits {f : BitField 32} {x v : BitVec 32} (hv : v.toNat < 2 ^ f.width)
    (h : ∀ i, f.Has i → x.getLsbD i = v.getLsbD (i - f.lo)) : f.get x = v := by
  refine BitVec.eq_of_getLsbD_eq fun j hj => ?_
  rw [BitField.getLsbD_get]
  by_cases hin : f.lo + j ≤ f.hi
  · rw [h _ ⟨Nat.le_add_right _ _, hin⟩, Nat.add_sub_cancel_left]
    simp [hin]
  · have hbig : f.width ≤ j := by
      rw [BitField.width]
      omega
    have hzero : v.getLsbD j = false :=
      Nat.testBit_lt_two_pow (hv.trans_le (Nat.pow_le_pow_right (by decide) hbig))
    simp [hin, hzero]

/-- The multiplier and the dividers fit their fields. -/
theorem toNat_field_lt {f : BitField 32} (hf : f.width = 7) {x : Nat} (hx : x ≤ 127) :
    (BitVec.ofNat 32 x).toNat < 2 ^ f.width := by
  rw [hf, BitVec.toNat_ofNat]
  omega

theorem setWidth_div {x : Nat} (hx : x ≤ 127) :
    (BitVec.ofNat 32 x).setWidth 64 = BitVec.ofNat 64 x := by
  apply BitVec.eq_of_toNat_eq
  rw [BitVec.toNat_setWidth_of_le (by decide), BitVec.toNat_ofNat, BitVec.toNat_ofNat]
  omega

/-- The three fields that the rate depends on. -/
theorem get_pllWord (old : BitVec 32) {sel : PllSel} (hsel : sel.InRange) (mode ictrl : Nat) :
    PLL_PRE_DIV_SEL.get (old &&& ~~~PLL_MASK_ALL ||| pllVal sel mode ictrl) =
        BitVec.ofNat 32 sel.preDiv ∧
      PLL_POST_DIV_SEL.get (old &&& ~~~PLL_MASK_ALL ||| pllVal sel mode ictrl) =
        BitVec.ofNat 32 sel.postDiv ∧
      PLL_DIV_SEL.get (old &&& ~~~PLL_MASK_ALL ||| pllVal sel mode ictrl) =
        BitVec.ofNat 32 sel.div := by
  refine ⟨get_of_bits (toNat_field_lt rfl hsel.preDiv.2) fun i hi => ?_,
    get_of_bits (toNat_field_lt rfl hsel.postDiv.2) fun i hi => ?_,
    get_of_bits (toNat_field_lt rfl hsel.div.2) fun i hi => ?_⟩
  · rw [getLsbD_pllWord, if_pos hi, show PLL_PRE_DIV_SEL.lo = 0 from rfl]
  · have hnot : ¬ PLL_PRE_DIV_SEL.Has i := fun h => absurd (hi.1.trans h.2) (by decide)
    rw [getLsbD_pllWord, if_neg hnot, if_pos hi, show PLL_POST_DIV_SEL.lo = 8 from rfl]
  · have hnotPre : ¬ PLL_PRE_DIV_SEL.Has i := fun h => absurd (hi.1.trans h.2) (by decide)
    have hnotPost : ¬ PLL_POST_DIV_SEL.Has i := fun h => absurd (hi.1.trans h.2) (by decide)
    rw [getLsbD_pllWord, if_neg hnotPre, if_neg hnotPost, if_pos hi,
      show PLL_DIV_SEL.lo = 17 from rfl]

/-- `get_rate` reads the selection back. -/
theorem ipllGetRate_written (read32 : ReadReg) (base pllReg : Nat) (p : BitVec 64) {sel : PllSel}
    (hsel : sel.InRange) (mode ictrl : Nat) :
    cv1800bIpllGetRate
      (clrsetbits read32 (base + pllReg) PLL_MASK_ALL (pllVal sel mode ictrl)) base pllReg p =
      sel.rate p := by
  obtain ⟨hgetPre, hgetPost, hgetDiv⟩ := get_pllWord (read32 (base + pllReg)) hsel mode ictrl
  have hreg : clrsetbits read32 (base + pllReg) PLL_MASK_ALL (pllVal sel mode ictrl) (base + pllReg) =
      read32 (base + pllReg) &&& ~~~PLL_MASK_ALL ||| pllVal sel mode ictrl :=
    Function.update_self ..
  simp only [cv1800bIpllGetRate, hreg, hgetPre, hgetPost, hgetDiv, setWidth_div hsel.div.2]
  rw [PllSel.rate, ipllNewRate]

/-- The call, when the search has not found anything. -/
theorem ipllSetRate_none (read32 : ReadReg) (base pllReg : Nat) {p rate : BitVec 64}
    (h : (ipllSearch p rate).2 = none) : cv1800bIpllSetRate read32 base pllReg p rate = none := by
  rw [cv1800bIpllSetRate, h, Option.map_none]

/-- The call, when it has. -/
theorem ipllSetRate_some (read32 : ReadReg) (base pllReg : Nat) {p rate bestRate : BitVec 64}
    {sel : PllSel} (h : ipllSearch p rate = (bestRate, some sel)) (hdiv : sel.InRange) :
    ∃ mode ictrl, cv1800bIpllSetRate read32 base pllReg p rate =
      some (clrsetbits read32 (base + pllReg) PLL_MASK_ALL (pllVal sel mode ictrl), bestRate) := by
  obtain ⟨⟨mode, ictrl⟩, hpump⟩ :=
    Option.isSome_iff_exists.mp (pllPump_isSome sel.div ((mem_forRange (by decide)).mpr hdiv.div))
  refine ⟨mode, ictrl, ?_⟩
  rw [cv1800bIpllSetRate, h, Option.map_some, ipllProgram, hpump]

/-- Outside the fields of the PLL the word stays. -/
theorem getLsbD_pllWord_outside (old : BitVec 32) (sel : PllSel) (mode ictrl : Nat) {i : Nat}
    (hi : PLL_MASK_ALL.getLsbD i = false) :
    (old &&& ~~~PLL_MASK_ALL ||| pllVal sel mode ictrl).getLsbD i = old.getLsbD i := by
  rw [getLsbD_pllWord]
  simp only [PLL_MASK_ALL, BitVec.getLsbD_or, BitField.getLsbD_mask, Bool.or_eq_false_iff,
    decide_eq_false_iff_not] at hi
  obtain ⟨⟨⟨⟨hictrl, hdiv⟩, hmode⟩, hpost⟩, hpre⟩ := hi
  rw [if_neg hpre, if_neg hpost, if_neg hdiv, if_neg hictrl, if_neg hmode]

/-- **Setting the rate of an integer PLL.** The rate of the parent times 127, the greatest
multiplier, is below 2^64: any rate below 145 PHz is. The selection is assigned unless every
rate the PLL has is zero or above the one asked for. Then the call programs and returns the greatest
rate not above it, `get_rate` reads the same rate back, and of the registers nothing but the
fields of the PLL changes. -/
theorem ipll_set_rate_best (read32 : ReadReg) (base pllReg : Nat) {p : BitVec 64}
    (hp : p.toNat * 127 < 2 ^ 64) (rate : BitVec 64) :
    (cv1800bIpllSetRate read32 base pllReg p rate = none ↔
      ∀ q ∈ ipllRates p.toNat, q ≤ rate.toNat → q = 0) ∧
    ∀ regs best, cv1800bIpllSetRate read32 base pllReg p rate = some (regs, best) →
      IsGreatest {q | q ∈ ipllRates p.toNat ∧ q ≤ rate.toNat} best.toNat ∧
      cv1800bIpllGetRate regs base pllReg p = best ∧
      (∀ addr, addr ≠ base + pllReg → regs addr = read32 addr) ∧
      ∀ i, PLL_MASK_ALL.getLsbD i = false →
        (regs (base + pllReg)).getLsbD i = (read32 (base + pllReg)).getLsbD i := by
  rcases ipllSearch_best hp rate with ⟨hnone, hzero⟩ | ⟨sel, hsel, hfound, hpos, hgreatest⟩
  · rw [ipllSetRate_none read32 base pllReg hnone]
    exact ⟨iff_of_true rfl hzero, fun _ _ h => absurd h.symm (Option.some_ne_none _)⟩
  · obtain ⟨mode, ictrl, hcall⟩ := ipllSetRate_some read32 base pllReg hfound hsel
    rw [hcall]
    refine ⟨iff_of_false (Option.some_ne_none _) fun h => ?_, fun regs best h => ?_⟩
    · exact absurd (h _ hgreatest.1.1 hgreatest.1.2) hpos.ne'
    · obtain ⟨rfl, rfl⟩ := Prod.mk.inj (Option.some.inj h)
      refine ⟨hgreatest, ipllGetRate_written read32 base pllReg p hsel mode ictrl,
        fun addr hne => Function.update_of_ne hne _ _, fun i hi => ?_⟩
      rw [clrsetbits, Function.update_self, getLsbD_pllWord_outside _ _ _ _ hi]

/-- The FPLL of the oscillator, which can run at 150 MHz. -/
theorem ipll_set_rate_best_osc :
    cv1800bIpllSetRate (fun _ => 0) CLK_BASE 0x910 25000000 1500000000 ≠ none := by
  intro h
  have hzero := (ipll_set_rate_best (fun _ => 0) CLK_BASE 0x910 (by decide) 1500000000).1.mp h
    150000000 ⟨⟨1, 1, 6⟩, ⟨by decide, by decide, by decide⟩, by decide⟩ (by decide)
  exact absurd hzero (by decide)

/-! ## The synthesizer -/

/-- What `get_rate` and `set_rate` read of `struct cv1800b_clk_fpll`. -/
structure ClkFpll where
  pllReg : Nat
  en : ClkRegbit
  clkHalf : ClkRegbit
  set : Nat

/-- The entry `CLK_DISPPLL`. -/
def clkDisppll : ClkFpll := ⟨0x810, ⟨0x840, 3⟩, ⟨0x840, 0⟩, 0x864⟩

/-- `do_div`: the quotient and the remainder; the base is cut to 32 bits. -/
def doDivRem (n base : BitVec 64) : BitVec 64 × BitVec 64 :=
  let base := (base.setWidth 32).setWidth 64
  (n / base, n % base)

/-- `DIV_ROUND_CLOSEST_ULL`. -/
def divRoundClosestUll (x divisor : BitVec 64) : BitVec 64 := (doDivRem (x + divisor / 2) divisor).1

/-- `cv1800b_fpll_get_rate`, for dividers that are not zero. -/
def cv1800bFpllGetRate (read32 : ReadReg) (base : Nat) (pll : ClkFpll) (parentRate : BitVec 64) :
    BitVec 64 :=
  if cv1800bClkGetbit read32 base pll.en = 0 then
    cv1800bIpllGetRate read32 base pll.pllReg parentRate
  else
    let synSet := read32 (base + pll.set)
    if synSet = 0 then 0
    else
      let val := read32 (base + pll.pllReg)
      let preDiv := PLL_PRE_DIV_SEL.get val
      let postDiv := PLL_POST_DIV_SEL.get val
      let div := PLL_DIV_SEL.get val
      let mult : BitVec 64 := if cv1800bClkGetbit read32 base pll.clkHalf ≠ 0 then 2 else 1
      let divisor := preDiv.setWidth 64 * postDiv.setWidth 64 * synSet.setWidth 64
      let rate := (parentRate * div.setWidth 64) <<< 25
      rate / divisor * mult + divRoundClosestUll (rate % divisor * mult) divisor

/-- `new_rate` of `cv1800b_find_syn`, whose `mult` is always one, for a divisor that is not
zero. -/
def synRate (parentRate preDiv postDiv div : BitVec 64) (mid : BitVec 32) : BitVec 64 :=
  let divisor := preDiv * postDiv * mid.setWidth 64
  let divided := doDivRem ((parentRate * div) <<< 25) divisor
  divided.1 * 1 + divRoundClosestUll (divided.2 * 1) divisor

def synMid (synMin synMax : BitVec 32) : BitVec 32 :=
  ((synMin.setWidth 64 + synMax.setWidth 64) / 2).setWidth 32

/-- The loop of `cv1800b_find_syn` with at most `fuel` turns: `new_rate` and `*syn`. -/
def findSynLoop (newRateOf : BitVec 32 → BitVec 64) (rate : BitVec 64) :
    Nat → BitVec 32 → BitVec 32 → BitVec 64 → Option (BitVec 64 × BitVec 32)
  | 0, _, _, _ => none
  | fuel + 1, synMin, synMax, newRate =>
    if synMin < synMax then
      let mid := synMid synMin synMax
      let newRate := newRateOf mid
      if rate < newRate then findSynLoop newRateOf rate fuel synMin (mid + 1) newRate
      else if newRate < rate then findSynLoop newRateOf rate fuel (mid - 1) synMax newRate
      else some (newRate, mid)
    else some (newRate, synMin)

/-- `cv1800b_find_syn`. The loop is entered, so `new_rate` needs no value at first. -/
def cv1800bFindSyn (fuel : Nat) (rate parentRate preDiv postDiv div : BitVec 64) :
    Option (BitVec 64 × BitVec 32) :=
  findSynLoop (synRate parentRate preDiv postDiv div) rate fuel (4 <<< 26 + 1) 0xffffffff 0

/-- The body of the three loops. -/
def fpllTry (fuel : Nat) (parentRate rate : BitVec 64)
    (best : BitVec 64 × Option (PllSel × BitVec 32)) (preDiv postDiv div : Nat) :
    Option (BitVec 64 × Option (PllSel × BitVec 32)) :=
  (cv1800bFindSyn fuel rate parentRate (BitVec.ofNat 64 preDiv) (BitVec.ofNat 64 postDiv)
      (BitVec.ofNat 64 div)).map fun found =>
    if rate - found.1 < rate - best.1 then (found.1, some (⟨preDiv, postDiv, div⟩, found.2))
    else best

/-- The three loops of `cv1800b_fpll_set_rate`. -/
def fpllSearch (fuel : Nat) (parentRate rate : BitVec 64) :
    Option (BitVec 64 × Option (PllSel × BitVec 32)) :=
  pllPreDivs.foldlM (fun best preDiv =>
    pllPostDivs.foldlM (fun best postDiv =>
      pllDivs.foldlM (fun best div => fpllTry fuel parentRate rate best preDiv postDiv div) best)
      best)
    (0, none)

/-- The second half of `cv1800b_fpll_set_rate`. -/
def fpllProgram (read32 : ReadReg) (base : Nat) (pll : ClkFpll) (bestRate : BitVec 64)
    (sel : PllSel) (syn : BitVec 32) : ReadReg × BitVec 64 :=
  match pllPump fun test => decide (10 * sel.div < test ∧ test ≤ 24 * sel.div) with
  | some (mode, ictrl) =>
    (Function.update (clrsetbits read32 (base + pll.pllReg) PLL_MASK_ALL (pllVal sel mode ictrl))
      (base + pll.set) syn, bestRate)
  | none => (read32, BitVec.ofInt 64 (-EINVAL))

/-- `cv1800b_fpll_set_rate`, in which no search takes more than `fuel` turns; the outer `none`
is a call that has not returned by then. -/
def cv1800bFpllSetRate (fuel : Nat) (read32 : ReadReg) (base : Nat) (pll : ClkFpll)
    (parentRate rate : BitVec 64) : Option (Option (ReadReg × BitVec 64)) :=
  if cv1800bClkGetbit read32 base pll.en = 0 then
    some (cv1800bIpllSetRate read32 base pll.pllReg parentRate rate)
  else
    (fpllSearch fuel parentRate rate).map fun found =>
      found.2.map fun sel => fpllProgram read32 base pll found.1 sel.1 sel.2

/-! ### The interval never closes -/

/-- The intervals that the loop of `cv1800b_find_syn` goes through. From the second kind it
never gets out: the middle is `2 ^ 28 + 1` every time. -/
def SynInterval (synMin synMax : Nat) : Prop :=
  (2 ^ 28 + 1 ≤ synMin ∧ synMin < synMax ∧ synMax ≤ 2 ^ 32 - 1) ∨
    (synMin = 2 ^ 28 ∧ synMax = 2 ^ 28 + 2)

theorem toNat_synMid (synMin synMax : BitVec 32) :
    (synMid synMin synMax).toNat = (synMin.toNat + synMax.toNat) / 2 := by
  rw [synMid, BitVec.toNat_setWidth, BitVec.toNat_udiv, BitVec.toNat_add,
    BitVec.toNat_setWidth_of_le (by decide), BitVec.toNat_setWidth_of_le (by decide),
    show (2 : BitVec 64).toNat = 2 from rfl]
  omega

/-- What one turn does. -/
theorem SynInterval.turn {synMin synMax : Nat} (h : SynInterval synMin synMax) :
    synMin < synMax ∧ 2 ^ 28 + 1 ≤ (synMin + synMax) / 2 ∧ (synMin + synMax) / 2 < 2 ^ 32 - 1 ∧
      SynInterval synMin ((synMin + synMax) / 2 + 1) ∧
      SynInterval ((synMin + synMax) / 2 - 1) synMax := by
  unfold SynInterval at *
  omega

/-- The search ends with a hit. -/
theorem findSynLoop_exact {newRateOf : BitVec 32 → BitVec 64} {rate : BitVec 64} (fuel : Nat) :
    ∀ {synMin synMax : BitVec 32} {newRate : BitVec 64} {found : BitVec 64 × BitVec 32},
      SynInterval synMin.toNat synMax.toNat →
      findSynLoop newRateOf rate fuel synMin synMax newRate = some found →
      found.1 = rate ∧ newRateOf found.2 = rate ∧ 2 ^ 28 < found.2.toNat := by
  induction fuel with
  | zero => exact fun _ h => absurd h.symm (Option.some_ne_none _)
  | succ fuel ih =>
    intro synMin synMax newRate found hint h
    obtain ⟨hlt, hlo, hhi, hdown, hup⟩ := hint.turn
    have hmid := toNat_synMid synMin synMax
    rw [← hmid] at hlo hhi hdown hup
    have hadd : (synMid synMin synMax + 1).toNat = (synMid synMin synMax).toNat + 1 := by bv_omega
    have hsub : (synMid synMin synMax - 1).toNat = (synMid synMin synMax).toNat - 1 := by bv_omega
    rw [findSynLoop, if_pos (BitVec.lt_def.mpr hlt)] at h
    dsimp only at h
    split_ifs at h with habove hbelow
    · exact ih (by rwa [hadd]) h
    · exact ih (by rwa [hsub]) h
    · obtain rfl := Option.some.inj h
      have hrate : newRateOf (synMid synMin synMax) = rate :=
        BitVec.le_antisymm (BitVec.not_lt.mp habove) (BitVec.not_lt.mp hbelow)
      exact ⟨hrate, hrate, hlo⟩

theorem findSyn_exact {fuel : Nat} {rate p preDiv postDiv div : BitVec 64}
    {found : BitVec 64 × BitVec 32}
    (h : cv1800bFindSyn fuel rate p preDiv postDiv div = some found) :
    found.1 = rate ∧ synRate p preDiv postDiv div found.2 = rate ∧
      2 ^ 28 < found.2.toNat := by
  have hstart : SynInterval (4 <<< 26 + 1 : BitVec 32).toNat (0xffffffff : BitVec 32).toNat :=
    .inl (by decide)
  exact findSynLoop_exact fuel hstart h

/-- The rate of a setting with both dividers at one, for a parent of less than 2^32 Hz. -/
theorem toNat_synRate {p : BitVec 64} (hp : p.toNat < 2 ^ 32) {div : Nat} (hdiv : div ≤ 127)
    {mid : BitVec 32} (hmid : 2 ^ 28 < mid.toNat) :
    (synRate p 1 1 (BitVec.ofNat 64 div) mid).toNat =
      p.toNat * div * 2 ^ 25 / mid.toNat +
        (p.toNat * div * 2 ^ 25 % mid.toNat + mid.toNat / 2) / mid.toNat := by
  have hmul : p.toNat * div ≤ (2 ^ 32 - 1) * 127 := Nat.mul_le_mul (by omega) hdiv
  have hwide : (mid.setWidth 64).toNat = mid.toNat := BitVec.toNat_setWidth_of_le (by decide)
  have hbase : ((mid.setWidth 64).setWidth 32).setWidth 64 = mid.setWidth 64 := by
    apply BitVec.eq_of_toNat_eq
    rw [BitVec.toNat_setWidth_of_le (by decide), BitVec.toNat_setWidth, hwide,
      Nat.mod_eq_of_lt mid.isLt]
  have hshift : ((p * BitVec.ofNat 64 div) <<< 25).toNat = p.toNat * div * 2 ^ 25 := by
    rw [BitVec.toNat_shiftLeft, BitVec.toNat_mul, BitVec.toNat_ofNat,
      Nat.mod_eq_of_lt (by omega : div < 2 ^ 64),
      Nat.mod_eq_of_lt (by omega : p.toNat * div < 2 ^ 64), Nat.shiftLeft_eq]
    omega
  have hquot : p.toNat * div * 2 ^ 25 / mid.toNat < 2 ^ 36 := by
    rw [Nat.div_lt_iff_lt_mul (by omega)]
    omega
  have hrem : p.toNat * div * 2 ^ 25 % mid.toNat < mid.toNat := Nat.mod_lt _ (by omega)
  have hround : (p.toNat * div * 2 ^ 25 % mid.toNat + mid.toNat / 2) / mid.toNat < 2 := by
    rw [Nat.div_lt_iff_lt_mul (by omega)]
    omega
  have hclosest : (divRoundClosestUll ((p * BitVec.ofNat 64 div) <<< 25 % mid.setWidth 64)
      (mid.setWidth 64)).toNat =
      (p.toNat * div * 2 ^ 25 % mid.toNat + mid.toNat / 2) / mid.toNat := by
    have hsum : p.toNat * div * 2 ^ 25 % mid.toNat + mid.toNat / 2 < 2 ^ 64 := by omega
    simp only [divRoundClosestUll, doDivRem, hbase]
    rw [BitVec.toNat_udiv, BitVec.toNat_add, BitVec.toNat_umod, BitVec.toNat_udiv, hshift, hwide,
      show (2 : BitVec 64).toNat = 2 from rfl, Nat.mod_eq_of_lt hsum]
  simp only [synRate, doDivRem, mul_one, one_mul, hbase]
  rw [BitVec.toNat_add, BitVec.toNat_udiv, hclosest, hshift, hwide]
  exact Nat.mod_eq_of_lt (by omega)

/-- With the smallest multiplier: at most three quarters of the parent, and one for the
rounding. -/
theorem synRate_six_le {p : BitVec 64} (hp : p.toNat < 2 ^ 32) {mid : BitVec 32}
    (hmid : 2 ^ 28 < mid.toNat) :
    (synRate p 1 1 (BitVec.ofNat 64 6) mid).toNat ≤ p.toNat * 6 / 8 + 1 := by
  rw [toNat_synRate hp (by decide) hmid]
  have hquot : p.toNat * 6 * 2 ^ 25 / mid.toNat ≤ p.toNat * 6 / 8 := by
    calc p.toNat * 6 * 2 ^ 25 / mid.toNat ≤ p.toNat * 6 * 2 ^ 25 / 2 ^ 28 :=
          Nat.div_le_div_left hmid.le (by decide)
      _ = p.toNat * 6 / 8 := by omega
  have hround : (p.toNat * 6 * 2 ^ 25 % mid.toNat + mid.toNat / 2) / mid.toNat < 2 := by
    have hrem : p.toNat * 6 * 2 ^ 25 % mid.toNat < mid.toNat := Nat.mod_lt _ (by omega)
    rw [Nat.div_lt_iff_lt_mul (by omega)]
    omega
  exact Nat.add_le_add hquot (Nat.le_of_lt_succ hround)

/-- With the greatest: at least 127/128 of it. -/
theorem le_synRate_most {p : BitVec 64} (hp : p.toNat < 2 ^ 32) {mid : BitVec 32}
    (hmid : 2 ^ 28 < mid.toNat) :
    p.toNat * 127 / 128 ≤ (synRate p 1 1 (BitVec.ofNat 64 127) mid).toNat := by
  rw [toNat_synRate hp (by decide) hmid]
  calc p.toNat * 127 / 128 = p.toNat * 127 * 2 ^ 25 / 2 ^ 32 := by omega
    _ ≤ p.toNat * 127 * 2 ^ 25 / mid.toNat := Nat.div_le_div_left mid.isLt.le (by omega)
    _ ≤ _ := Nat.le_add_right _ _

/-- No rate is a hit with both. -/
theorem synRate_disjoint {p : BitVec 64} (hlo : 9 ≤ p.toNat) (hhi : p.toNat < 2 ^ 32)
    {mid₁ mid₂ : BitVec 32} (h₁ : 2 ^ 28 < mid₁.toNat) (h₂ : 2 ^ 28 < mid₂.toNat) :
    synRate p 1 1 (BitVec.ofNat 64 6) mid₁ ≠ synRate p 1 1 (BitVec.ofNat 64 127) mid₂ := by
  intro heq
  have hsix := synRate_six_le hhi h₁
  have hmost := le_synRate_most hhi h₂
  rw [← heq] at hmost
  omega

/-- A loop with a turn that never returns does not return. -/
theorem foldlM_none {α β : Type*} {f : β → α → Option β} {l : List α} {a : α} (ha : a ∈ l)
    (h : ∀ b, f b a = none) (b : β) : l.foldlM f b = none := by
  induction l generalizing b with
  | nil => exact absurd ha List.not_mem_nil
  | cons c l ih =>
    rw [List.foldlM_cons, Option.bind_eq_bind, Option.bind_eq_none_iff]
    intro b' hb'
    rcases List.mem_cons.mp ha with rfl | hrest
    · exact absurd ((h b).symm.trans hb') (Option.some_ne_none b').symm
    · exact ih hrest b'

theorem fpllSearch_none (fuel : Nat) {p : BitVec 64} (hlo : 9 ≤ p.toNat) (hhi : p.toNat < 2 ^ 32)
    (rate : BitVec 64) : fpllSearch fuel p rate = none := by
  -- the very first pair of dividers already has a multiplier that is never hit
  have hmiss : ∃ div ∈ pllDivs, cv1800bFindSyn fuel rate p (BitVec.ofNat 64 1)
      (BitVec.ofNat 64 1) (BitVec.ofNat 64 div) = none := by
    by_contra hhits
    push Not at hhits
    have hsix := hhits 6 ((mem_forRange (by decide)).mpr (by decide))
    have hmost := hhits 127 ((mem_forRange (by decide)).mpr (by decide))
    obtain ⟨found₁, hfound₁⟩ := Option.ne_none_iff_exists'.mp hsix
    obtain ⟨found₂, hfound₂⟩ := Option.ne_none_iff_exists'.mp hmost
    obtain ⟨-, hhit₁, hmid₁⟩ := findSyn_exact hfound₁
    obtain ⟨-, hhit₂, hmid₂⟩ := findSyn_exact hfound₂
    exact synRate_disjoint hlo hhi hmid₁ hmid₂ (hhit₁.trans hhit₂.symm)
  obtain ⟨div, hdiv, hnone⟩ := hmiss
  have hone : (1 : Nat) ∈ forRange 1 127 := (mem_forRange (by decide)).mpr (by decide)
  refine foldlM_none hone (fun best => foldlM_none hone (fun best => ?_) best) _
  refine foldlM_none hdiv (fun best => ?_) best
  rw [fpllTry, hnone, Option.map_none]

/-- The call, when it returns. -/
theorem fpllSetRate_some {fuel : Nat} {read32 read32' : ReadReg} {base : Nat} {pll : ClkFpll}
    {p rate v : BitVec 64}
    (h : (cv1800bFpllSetRate fuel read32 base pll p rate).join = some (read32', v)) :
    cv1800bIpllSetRate read32 base pll.pllReg p rate = some (read32', v) ∨
      ∃ bestRate sel syn, fpllProgram read32 base pll bestRate sel syn = (read32', v) := by
  rw [cv1800bFpllSetRate] at h
  split_ifs at h with hen
  · rw [Option.join_some] at h
    exact .inl h
  · generalize fpllSearch fuel p rate = found at h
    cases found with
    | none => exact absurd h.symm (Option.some_ne_none _)
    | some found =>
      obtain ⟨bestRate, sel⟩ := found
      rw [Option.map_some, Option.join_some] at h
      obtain ⟨sel, -, hprogram⟩ := Option.map_eq_some_iff.mp h
      exact .inr ⟨bestRate, sel.1, sel.2, hprogram⟩

/-- **Setting the rate of a fractional PLL.** With the synthesizer off the call is that of
an integer PLL. With it on, and a parent of 9 Hz to 2^32 - 1 Hz, the call never returns, whatever
rate is asked for. -/
theorem fpll_set_rate_synthesizer (fuel : Nat) (read32 : ReadReg) (base : Nat) (pll : ClkFpll)
    {p : BitVec 64} (hlo : 9 ≤ p.toNat) (hhi : p.toNat < 2 ^ 32) (rate : BitVec 64) :
    cv1800bFpllSetRate fuel read32 base pll p rate =
      if cv1800bClkGetbit read32 base pll.en = 0 then
        some (cv1800bIpllSetRate read32 base pll.pllReg p rate)
      else none := by
  rw [cv1800bFpllSetRate, fpllSearch_none fuel hlo hhi rate, Option.map_none]

/-- The display PLL under its parent at 900 MHz. -/
theorem fpll_set_rate_synthesizer_disppll :
    cv1800bFpllSetRate 1000 (fun _ => 0xffffffff) CLK_BASE clkDisppll 900000000 1200000000 =
      none := by
  rw [fpll_set_rate_synthesizer 1000 _ CLK_BASE clkDisppll (by decide) (by decide) 1200000000]
  exact if_neg (by decide)

end LicheeRvNano
