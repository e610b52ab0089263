import LicheeRvNano.ClkTable
import LicheeRvNano.Kernel

/-!
# U-Boot's clock driver: the operations of the drivers

`enable`, `disable`, `get_rate`, `set_rate` and `set_parent` for each kind of clock, as
functions of the registers and of the rate of the parent. Each has a footprint of its own,
and over the whole table these are apart: no operation but `enable` and `disable` touches a
switch, and `set_rate` and `set_parent` on one clock leave alone what the rate of any other
one depends on, but for three clocks with one divider between them (`changes_apart_reads`).
-/

namespace LicheeRvNano

namespace ClkTable

open Footprint

/-! ## enable and disable -/

/-- `enable` of the driver; none of them fails. A fixed rate has no such operation. -/
def ClkHw.enable (read32 : ReadReg) (base : Nat) : ClkHw → ReadReg
  | .fixedRate => read32
  | .gate bit | .div bit .. | .bypassDiv bit .. | .fixedDiv bit .. | .bypassFixedDiv bit ..
  | .mux bit .. | .bypassMux bit .. | .mmux bit .. => cv1800bClkSetbit read32 base bit
  | .audio aclk => cv1800bClkSetbit (cv1800bClkSetbit read32 base aclk.srcEn) base aclk.outputEn
  | .ipll _ pllPwd | .fpll pllPwd _ => cv1800bClkClrbit read32 base pllPwd

/-- `disable` of the driver. -/
def ClkHw.disable (read32 : ReadReg) (base : Nat) : ClkHw → ReadReg
  | .fixedRate => read32
  | .gate bit | .div bit .. | .bypassDiv bit .. | .fixedDiv bit .. | .bypassFixedDiv bit ..
  | .mux bit .. | .bypassMux bit .. | .mmux bit .. => cv1800bClkClrbit read32 base bit
  | .audio aclk => cv1800bClkClrbit (cv1800bClkClrbit read32 base aclk.srcEn) base aclk.outputEn
  | .ipll _ pllPwd | .fpll pllPwd _ => cv1800bClkSetbit read32 base pllPwd

/-! ## set_parent -/

/-- `get_parent_index`, which answers -1 for no index. -/
def getParentIndex (p : ClkId) (parents : List ClkId) : Option Nat := parents.idxOf? p

/-- `bypass_div_set_parent` and `bypass_fixed_div_set_parent`. -/
def bypassDivSetParent (read32 : ReadReg) (base : Nat) (parents : List ClkId) (bypass : ClkRegbit)
    (p : ClkId) : Except Int ReadReg :=
  if p = .bypass then .ok (cv1800bClkSetbit read32 base bypass)
  else if p ∉ parents then .error (-EINVAL)
  else .ok (cv1800bClkClrbit read32 base bypass)

/-- `mux_set_parent`. -/
def muxSetParent (read32 : ReadReg) (base : Nat) (parents : List ClkId) (mux : ClkRegfield)
    (p : ClkId) : Except Int ReadReg :=
  match getParentIndex p parents with
  | none => .error (-EINVAL)
  | some index => .ok (cv1800bClkSetfield read32 base mux (BitVec.ofNat 32 index))

/-- `bypass_mux_set_parent`. -/
def bypassMuxSetParent (read32 : ReadReg) (base : Nat) (parents : List ClkId) (mux : ClkRegfield)
    (bypass : ClkRegbit) (p : ClkId) : Except Int ReadReg :=
  if p = .bypass then .ok (cv1800bClkSetbit read32 base bypass)
  else
    match getParentIndex p parents with
    | none => .error (-EINVAL)
    | some index =>
      let read32 := cv1800bClkClrbit read32 base bypass
      .ok (cv1800bClkSetfield read32 base mux (BitVec.ofNat 32 index))

/-- `mmux_set_parent`. -/
def mmuxSetParent (read32 : ReadReg) (base : Nat) (mmux : ClkMmux) (mux : Bool → ClkRegfield)
    (parentInfos : List MmuxParent) (p : ClkId) : Except Int ReadReg :=
  if p = .bypass then .ok (cv1800bClkSetbit read32 base mmux.bypass)
  else
    match parentInfos.find? fun info => decide (info.id = p) with
    | none => .error (-EINVAL)
    | some info =>
      let read32 := cv1800bClkClrbit read32 base mmux.bypass
      let read32 :=
        if info.clkSel then cv1800bClkClrbit read32 base mmux.clkSel
        else cv1800bClkSetbit read32 base mmux.clkSel
      .ok (cv1800bClkSetfield read32 base (mux info.clkSel) (BitVec.ofNat 32 info.index))

/-- `cv1800b_fpll_set_parent`, which takes any clock. -/
def cv1800bFpllSetParent (read32 : ReadReg) (base : Nat) (pll : ClkFpll) (p : ClkId) :
    Except Int ReadReg :=
  if p = .bypass then .ok (cv1800bClkSetbit read32 base pll.en)
  else .ok (cv1800bClkClrbit read32 base pll.en)

/-- `set_parent` of the driver. -/
def ClkRow.setParent (row : ClkRow) (read32 : ReadReg) (base : Nat) (p : ClkId) :
    Except Int ReadReg :=
  match row.hw with
  | .bypassDiv _ _ bypass | .bypassFixedDiv _ _ bypass =>
    bypassDivSetParent read32 base row.parents bypass p
  | .mux _ _ sel => muxSetParent read32 base row.parents sel p
  | .bypassMux _ _ sel bypass => bypassMuxSetParent read32 base row.parents sel bypass p
  | .mmux _ m sel parentInfos => mmuxSetParent read32 base m sel parentInfos p
  | .fpll _ pll => cv1800bFpllSetParent read32 base pll p
  | .fixedRate | .gate .. | .div .. | .fixedDiv .. | .audio .. | .ipll .. => .error (-ENOSYS)

/-! ## get_rate and set_rate -/

/-- `get_rate` asks for the rate of the parent. -/
def ClkHw.asksParent (read32 : ReadReg) (base : Nat) : ClkHw → Bool
  | .fixedRate => false
  | .bypassDiv _ _ bypass | .bypassFixedDiv _ _ bypass | .bypassMux _ _ _ bypass =>
    decide (cv1800bClkGetbit read32 base bypass = 0)
  | .mmux _ m _ _ => decide (cv1800bClkGetbit read32 base m.bypass = 0)
  | .fpll _ pll =>
    decide (cv1800bClkGetbit read32 base pll.en = 0 ∨ read32 (base + pll.set) ≠ 0)
  | .gate .. | .div .. | .fixedDiv .. | .mux .. | .audio .. | .ipll .. => true

/-- `get_rate` of the driver, from the rate of the parent; `oscRate` is the rate that `osc`
and `bypass` were registered with. -/
def ClkHw.getRate (read32 : ReadReg) (base : Nat) (oscRate parentRate : BitVec 64) :
    ClkHw → BitVec 64
  | .fixedRate => oscRate
  | .gate _ => parentRate
  | .div _ d | .mux _ d _ => divGetRate read32 base d parentRate
  | .bypassDiv _ d bypass | .bypassMux _ d _ bypass =>
    bypassDivGetRate read32 base d bypass parentRate
  | .fixedDiv _ k => divRoundUpUll parentRate (BitVec.ofNat 64 k)
  | .bypassFixedDiv _ k bypass =>
    if cv1800bClkGetbit read32 base bypass ≠ 0 then 0
    else divRoundUpUll parentRate (BitVec.ofNat 64 k)
  | .mmux _ m _ _ => mmuxGetRate read32 base m parentRate
  | .audio aclk => aclkGetRate read32 base aclk parentRate
  | .ipll pllReg _ => cv1800bIpllGetRate read32 base pllReg parentRate
  | .fpll _ pll => cv1800bFpllGetRate read32 base pll parentRate

/-- The driver has `set_rate`. -/
def ClkHw.hasSetRate : ClkHw → Bool
  | .fixedRate | .gate .. | .fixedDiv .. | .bypassFixedDiv .. => false
  | .div .. | .bypassDiv .. | .mux .. | .bypassMux .. | .mmux .. | .audio .. | .ipll ..
  | .fpll .. => true

/-- A PLL, integer or fractional. -/
def isPll : ClkHw → Bool
  | .ipll .. | .fpll .. => true
  | .fixedRate | .gate .. | .div .. | .bypassDiv .. | .fixedDiv .. | .bypassFixedDiv .. | .mux ..
  | .bypassMux .. | .mmux .. | .audio .. => false

/-- `set_rate` asks for the rate of the parent. -/
def ClkHw.setRateAsksParent (read32 : ReadReg) (base : Nat) : ClkHw → Bool
  | .bypassDiv _ _ bypass | .bypassMux _ _ _ bypass =>
    decide (cv1800bClkGetbit read32 base bypass = 0)
  | _ => true

/-- `set_rate` of the driver, from the rate of the parent: the registers and the return
value. `none` is a search that takes more than `fuel` turns or that uses what it has not
found. -/
def ClkHw.setRate (fuel : Nat) (read32 : ReadReg) (base : Nat) (parentRate rate : BitVec 64) :
    ClkHw → Option (ReadReg × BitVec 64)
  | .div _ d | .mux _ d _ => some (divSetRate read32 base d parentRate rate)
  | .bypassDiv _ d bypass | .bypassMux _ d _ bypass =>
    some (bypassDivSetRate read32 base d bypass parentRate rate)
  | .mmux _ m _ _ => some (mmuxSetRate read32 base m parentRate rate)
  | .audio aclk => some (aclkSetRate read32 base aclk parentRate rate)
  | .ipll pllReg _ => cv1800bIpllSetRate read32 base pllReg parentRate rate
  | .fpll _ pll => (cv1800bFpllSetRate fuel read32 base pll parentRate rate).join
  | .fixedRate | .gate .. | .fixedDiv .. | .bypassFixedDiv .. =>
    some (read32, BitVec.ofInt 64 (-ENOSYS))

/-! ### Divisions -/

/-- The divisor of `cv1800b_ipll_get_rate`. -/
def ipllDivisor (read32 : ReadReg) (base pllReg : Nat) : BitVec 32 :=
  PLL_PRE_DIV_SEL.get (read32 (base + pllReg)) * PLL_POST_DIV_SEL.get (read32 (base + pllReg))

/-- The divisor of `cv1800b_fpll_get_rate` with the synthesizer on, as `do_div` takes it. -/
def fpllDivisor (read32 : ReadReg) (base : Nat) (pll : ClkFpll) : BitVec 32 :=
  ipllDivisor read32 base pll.pllReg * read32 (base + pll.set)

/-- `get_rate` divides by nothing that is zero. The drivers do not look. -/
def ClkHw.getRateDivides (read32 : ReadReg) (base : Nat) : ClkHw → Bool
  | .fixedRate | .gate _ => true
  | .div _ d | .mux _ d _ => decide (d.val read32 base ≠ 0)
  | .bypassDiv _ d bypass | .bypassMux _ d _ bypass =>
    decide (cv1800bClkGetbit read32 base bypass ≠ 0) || decide (d.val read32 base ≠ 0)
  | .fixedDiv _ k => decide (k ≠ 0)
  | .bypassFixedDiv _ k bypass => decide (cv1800bClkGetbit read32 base bypass ≠ 0) || decide (k ≠ 0)
  | .mmux _ m _ _ =>
    decide (cv1800bClkGetbit read32 base m.bypass ≠ 0) ||
      decide ((m.div (mmuxClkSel read32 base m)).val read32 base ≠ 0)
  | .audio aclk =>
    decide (cv1800bClkGetbit read32 base aclk.divEn = 0) ||
      decide (cv1800bClkGetfield read32 base aclk.m * 2 ≠ 0)
  | .ipll pllReg _ => decide (ipllDivisor read32 base pllReg ≠ 0)
  | .fpll _ pll =>
    if cv1800bClkGetbit read32 base pll.en = 0 then decide (ipllDivisor read32 base pll.pllReg ≠ 0)
    else decide (read32 (base + pll.set) = 0) || decide (fpllDivisor read32 base pll ≠ 0)

/-- `set_rate` divides by nothing that is zero. -/
def ClkHw.setRateDivides (read32 : ReadReg) (base : Nat) (parentRate rate : BitVec 64) :
    ClkHw → Bool
  | .div _ d | .mux _ d _ => d.setRateDivides parentRate rate
  | .bypassDiv _ d bypass | .bypassMux _ d _ bypass =>
    decide (cv1800bClkGetbit read32 base bypass ≠ 0) || d.setRateDivides parentRate rate
  | .mmux _ m _ _ =>
    decide (cv1800bClkGetbit read32 base m.bypass ≠ 0) ||
      (m.div (mmuxClkSel read32 base m)).setRateDivides parentRate rate
  | .audio _ => decide ((aclkDetermineMn parentRate rate).1 * 2 ≠ 0)
  | .fixedRate | .gate .. | .fixedDiv .. | .bypassFixedDiv .. | .ipll .. | .fpll .. => true

/-! ## Footprints -/

def ClkHw.switchPrint (hw : ClkHw) : Footprint 32 := hw.switches.map fun s => s.1.print

/-- The register of a divider: its field and the factor bit. -/
def dividerPrint (d : ClkDivider) : Footprint 32 :=
  [d.div.print, (d.div.offset, CLK_DIV_EN_FACTOR)]

/-- What `get_rate` reads, but for the bit `clk_half`. -/
def ClkHw.reads : ClkHw → Footprint 32
  | .fixedRate | .gate .. | .fixedDiv .. => []
  | .div _ d | .mux _ d _ => dividerPrint d
  | .bypassDiv _ d bypass | .bypassMux _ d _ bypass => bypass.print :: dividerPrint d
  | .bypassFixedDiv _ _ bypass => [bypass.print]
  | .mmux _ m _ _ =>
    m.bypass.print :: m.clkSel.print :: (dividerPrint (m.div false) ++ dividerPrint (m.div true))
  | .audio aclk => [aclk.divEn.print, aclk.m.print, aclk.n.print]
  | .ipll pllReg _ => [(pllReg, PLL_MASK_ALL)]
  | .fpll _ pll => [(pll.pllReg, PLL_MASK_ALL), pll.en.print, (pll.set, BitVec.allOnes 32)]

/-- The bit `clk_half`, which PLLs share and only `get_rate` looks at. -/
def ClkHw.half : ClkHw → Footprint 32
  | .fpll _ pll => [pll.clkHalf.print]
  | _ => []

/-- What `set_rate` writes. -/
def ClkHw.writes : ClkHw → Footprint 32
  | .div _ d | .mux _ d _ | .bypassDiv _ d _ | .bypassMux _ d _ _ => dividerPrint d
  | .mmux _ m _ _ => dividerPrint (m.div false) ++ dividerPrint (m.div true)
  | .audio aclk => [aclk.m.print, aclk.n.print, aclk.divEn.print, aclk.divUp.print]
  | .ipll pllReg _ => [(pllReg, PLL_MASK_ALL)]
  | .fpll _ pll => [(pll.pllReg, PLL_MASK_ALL), (pll.set, BitVec.allOnes 32)]
  | .fixedRate | .gate .. | .fixedDiv .. | .bypassFixedDiv .. => []

/-- What `set_parent` writes. -/
def ClkHw.parentWrites : ClkHw → Footprint 32
  | .bypassDiv _ _ bypass | .bypassFixedDiv _ _ bypass => [bypass.print]
  | .mux _ _ sel => [sel.print]
  | .bypassMux _ _ sel bypass => [bypass.print, sel.print]
  | .mmux _ m sel _ => [m.bypass.print, m.clkSel.print, (sel false).print, (sel true).print]
  | .fpll _ pll => [pll.en.print]
  | .fixedRate | .gate .. | .div .. | .fixedDiv .. | .audio .. | .ipll .. => []

/-- What a call may write, but for the switches. -/
def ClkHw.changes (hw : ClkHw) : Footprint 32 := hw.writes ++ hw.parentWrites

/-! ### Over the table -/

/-- The clocks with one divider between them. -/
def sharedDiv : List ClkId := [.clkGpioDb, .clkEth0_500m, .clkEth1_500m]

/-- The clocks with one gate between them. -/
def sharedGate : List ClkId := [.clkSdmaAud1, .clkSdmaAud2, .clkSdmaAud3]

/-- The rows of the clocks that are in a list, and of the others. -/
def rowsIn (l : List ClkId) : List ClkRow := clkTable.filter fun row => decide (row.id ∈ l)

def rowsOut (l : List ClkId) : List ClkRow := clkTable.filter fun row => decide (row.id ∉ l)

/-- All the bits of a kind that some rows have. -/
def allBits (print : ClkHw → Footprint 32) (rows : List ClkRow) : Nat :=
  toBits (rows.flatMap fun row => print row.hw)

/-- No two rows have a bit in common, but for those of the clocks with one divider or one gate
between them. -/
theorem table_disjoint :
    disjointAll 0
      ((rowsOut sharedDiv).map fun row => toBits (row.hw.reads ++ row.hw.changes)) = true ∧
    disjointAll 0 ((rowsOut sharedGate).map fun row => toBits row.hw.switchPrint) = true ∧
    disjointAll 0 (clkTable.map fun row => toBits row.hw.parentWrites) = true := by
  decide +kernel

/-- No bits of these kinds are in common, whatever the rows. -/
theorem table_apart :
    allBits ClkHw.changes (rowsIn sharedDiv) &&& allBits ClkHw.reads (rowsOut sharedDiv) = 0 ∧
    allBits ClkHw.changes clkTable &&& allBits ClkHw.half clkTable = 0 ∧
    allBits ClkHw.switchPrint (rowsIn sharedGate) &&&
      allBits ClkHw.switchPrint (rowsOut sharedGate) = 0 ∧
    allBits ClkHw.switchPrint clkTable &&&
      allBits (fun hw => hw.reads ++ hw.half ++ hw.writes ++ hw.parentWrites) clkTable = 0 ∧
    allBits ClkHw.writes clkTable &&& allBits ClkHw.parentWrites clkTable = 0 ∧
    ∀ row ∈ clkTable, ∀ s ∈ row.hw.switches, s.1.shift < 32 := by
  decide +kernel

theorem switches_in_word : ∀ row ∈ clkTable, ∀ s ∈ row.hw.switches, s.1.shift < 32 :=
  table_apart.2.2.2.2.2

theorem writes_parents_disjoint :
    allBits ClkHw.writes clkTable &&& allBits ClkHw.parentWrites clkTable = 0 :=
  table_apart.2.2.2.2.1

variable {row row' : ClkRow}

theorem mem_rowsOut {l : List ClkId} (hrow : row ∈ clkTable) (hl : row.id ∉ l) : row ∈ rowsOut l :=
  List.mem_filter.mpr ⟨hrow, decide_eq_true hl⟩

theorem mem_rowsIn {l : List ClkId} (hrow : row ∈ clkTable) (hl : row.id ∈ l) : row ∈ rowsIn l :=
  List.mem_filter.mpr ⟨hrow, decide_eq_true hl⟩

/-- Two rows of two lists of rows whose bits are apart. -/
theorem apart_of_allBits {F G : ClkHw → Footprint 32} {rows rows' : List ClkRow}
    (h : allBits F rows &&& allBits G rows' = 0) (hrow : row ∈ rows) (hrow' : row' ∈ rows') :
    Separate (F row.hw) (G row'.hw) := by
  intro o i hF hG
  have hall : ∀ {H : ClkHw → Footprint 32} {l : List ClkRow} {r : ClkRow}, r ∈ l →
      (H r.hw).Has o i → Footprint.Has (l.flatMap fun row => H row.hw) o i :=
    fun hr ⟨m, hm, hbit⟩ => ⟨m, List.mem_flatMap.mpr ⟨_, hr, hm⟩, hbit⟩
  exact apart_of_land h o i (hall hrow hF) (hall hrow' hG)

/-- What a call on one clock writes is not what `get_rate` of another clock reads. -/
theorem changes_apart_reads (hrow : row ∈ clkTable) (hrow' : row' ∈ clkTable)
    (hne : row.id ≠ row'.id) (hshared : row'.id ∉ sharedDiv) :
    Separate row.hw.changes (row'.hw.reads ++ row'.hw.half) := by
  intro o i hchanges ⟨m, hm, hbit⟩
  rcases List.mem_append.mp hm with hreads | hhalf
  · by_cases hin : row.id ∈ sharedDiv
    · exact apart_of_allBits table_apart.1 (mem_rowsIn hrow hin)
        (mem_rowsOut hrow' hshared) o i hchanges ⟨m, hreads, hbit⟩
    · have hrows : row ≠ row' := fun heq => hne (congrArg ClkRow.id heq)
      have hapart : Separate (row.hw.reads ++ row.hw.changes) (row'.hw.reads ++ row'.hw.changes) :=
        @apart_of_disjointAll 32 ClkRow _ (fun row => row.hw.reads ++ row.hw.changes)
          table_disjoint.1 _ _ (mem_rowsOut hrow hin) (mem_rowsOut hrow' hshared) hrows
      exact hapart o i (hchanges.append_right _)
        (Has.append_left (F := row'.hw.reads) ⟨m, hreads, hbit⟩ _)
  · exact apart_of_allBits table_apart.2.1 hrow hrow' o i hchanges ⟨m, hhalf, hbit⟩

/-- No two clocks are switched by one bit, but for three of the audio DMA. -/
theorem switches_apart (hrow : row ∈ clkTable) (hrow' : row' ∈ clkTable)
    (hne : row.id ≠ row'.id) (hshared : row.id ∉ sharedGate) :
    Separate row'.hw.switchPrint row.hw.switchPrint := by
  by_cases hin : row'.id ∈ sharedGate
  · exact apart_of_allBits table_apart.2.2.1 (mem_rowsIn hrow' hin) (mem_rowsOut hrow hshared)
  · exact @apart_of_disjointAll 32 ClkRow _ (fun row => row.hw.switchPrint) table_disjoint.2.1 _ _
      (mem_rowsOut hrow' hin) (mem_rowsOut hrow hshared) fun heq =>
        hne (congrArg ClkRow.id heq.symm)

/-- The switches of a clock are nothing that rates or parents depend on. -/
theorem switches_apart_others (hrow : row ∈ clkTable) (hrow' : row' ∈ clkTable) :
    Separate row.hw.switchPrint
      (row'.hw.reads ++ row'.hw.half ++ row'.hw.writes ++ row'.hw.parentWrites) :=
  @apart_of_allBits row row' ClkHw.switchPrint
    (fun hw => hw.reads ++ hw.half ++ hw.writes ++ hw.parentWrites) _ _ table_apart.2.2.2.1
    hrow hrow'

/-- No two clocks select their parents by one bit. -/
theorem parents_apart (hrow : row ∈ clkTable) (hrow' : row' ∈ clkTable) (hne : row.id ≠ row'.id) :
    Separate row.hw.parentWrites row'.hw.parentWrites :=
  @apart_of_disjointAll 32 ClkRow _ (fun row => row.hw.parentWrites) table_disjoint.2.2 _ _ hrow hrow'
    fun heq => hne (congrArg ClkRow.id heq)

/-! ### Of the operations -/

section Operations

variable (read32 : ReadReg) (base : Nat)

theorem keeps_enable (hw : ClkHw) : Keeps hw.switchPrint base read32 (hw.enable read32 base) := by
  cases hw with
  | fixedRate => exact Keeps.refl _ _ _
  | audio aclk =>
    refine ((keeps_setbit read32 base aclk.srcEn).mono ?_).trans
      ((keeps_setbit _ base aclk.outputEn).mono ?_) <;>
    simp [ClkHw.switchPrint, ClkHw.switches]
  | ipll pllReg pllPwd => exact keeps_clrbit read32 base pllPwd
  | fpll pllPwd pll => exact keeps_clrbit read32 base pllPwd
  | gate bit | div bit | bypassDiv bit | fixedDiv bit | bypassFixedDiv bit | mux bit
  | bypassMux bit | mmux bit => exact keeps_setbit read32 base bit

theorem keeps_disable (hw : ClkHw) : Keeps hw.switchPrint base read32 (hw.disable read32 base) := by
  cases hw with
  | fixedRate => exact Keeps.refl _ _ _
  | audio aclk =>
    refine ((keeps_clrbit read32 base aclk.srcEn).mono ?_).trans
      ((keeps_clrbit _ base aclk.outputEn).mono ?_) <;>
    simp [ClkHw.switchPrint, ClkHw.switches]
  | ipll pllReg pllPwd => exact keeps_setbit read32 base pllPwd
  | fpll pllPwd pll => exact keeps_setbit read32 base pllPwd
  | gate bit | div bit | bypassDiv bit | fixedDiv bit | bypassFixedDiv bit | mux bit
  | bypassMux bit | mmux bit => exact keeps_clrbit read32 base bit

/-- A clock is running: its switches have the values for it. -/
def ClkHw.Running (read32 : ReadReg) (base : Nat) (hw : ClkHw) : Prop :=
  ∀ s ∈ hw.switches, (read32 (base + s.1.offset)).getLsbD s.1.shift = s.2

theorem setbit_get {bit : ClkRegbit} (h : bit.shift < 32) :
    (cv1800bClkSetbit read32 base bit (base + bit.offset)).getLsbD bit.shift = true := by
  simp [cv1800bClkSetbit, setbitsLe32, h]

theorem clrbit_get (bit : ClkRegbit) :
    (cv1800bClkClrbit read32 base bit (base + bit.offset)).getLsbD bit.shift = false := by
  simp [cv1800bClkClrbit, clrbitsLe32]

/-- A bit that is set stays set when another one is. -/
theorem setbit_mono {bit : ClkRegbit} {addr i : Nat} (h : (read32 addr).getLsbD i = true) :
    (cv1800bClkSetbit read32 base bit addr).getLsbD i = true := by
  by_cases haddr : addr = base + bit.offset
  · subst haddr
    simp [cv1800bClkSetbit, setbitsLe32, h]
  · rwa [setbit_other haddr]

theorem running_enable {hw : ClkHw} (h : ∀ s ∈ hw.switches, s.1.shift < 32) :
    hw.Running (hw.enable read32 base) base := by
  intro s hs
  cases hw with
  | fixedRate => exact absurd hs List.not_mem_nil
  | audio aclk =>
    rcases List.mem_cons.mp hs with rfl | hs'
    · exact setbit_mono _ base (setbit_get read32 base (h _ hs))
    · obtain rfl := List.mem_singleton.mp hs'
      exact setbit_get _ base (h _ hs)
  | ipll pllReg pllPwd | fpll pllPwd pll =>
    obtain rfl := List.mem_singleton.mp hs
    exact clrbit_get read32 base _
  | gate bit | div bit | bypassDiv bit | fixedDiv bit | bypassFixedDiv bit | mux bit
  | bypassMux bit | mmux bit =>
    obtain rfl := List.mem_singleton.mp hs
    exact setbit_get read32 base (h _ hs)

/-- What does not touch the switches does not stop the clock. -/
theorem ClkHw.Running.congr {hw : ClkHw} {read32 read32' : ReadReg} {base : Nat}
    (hword : ∀ s ∈ hw.switches, s.1.shift < 32) (h : Agree hw.switchPrint base read32 read32')
    (hrunning : hw.Running read32 base) : hw.Running read32' base := by
  intro s hs
  have hprint : hw.switchPrint.Has s.1.offset s.1.shift :=
    ⟨_, List.mem_map_of_mem hs, by simp [hword s hs]⟩
  rw [h _ _ hprint, hrunning s hs]

theorem keeps_setParent {row : ClkRow} {p : ClkId} {read32' : ReadReg}
    (h : row.setParent read32 base p = .ok read32') :
    Keeps row.hw.parentWrites base read32 read32' := by
  rw [ClkRow.setParent] at h
  cases hhw : row.hw with
  | fixedRate | gate | div | fixedDiv | audio | ipll =>
    rw [hhw] at h
    cases h
  | bypassDiv bit d bypass | bypassFixedDiv bit k bypass =>
    rw [hhw] at h
    dsimp only [bypassDivSetParent] at h
    split_ifs at h
    · obtain rfl := Except.ok.inj h
      exact keeps_setbit read32 base bypass
    · obtain rfl := Except.ok.inj h
      exact keeps_clrbit read32 base bypass
  | mux bit d sel =>
    rw [hhw] at h
    dsimp only [muxSetParent] at h
    split at h
    · cases h
    · obtain rfl := Except.ok.inj h
      exact keeps_setfield read32 base sel _
  | bypassMux bit d sel bypass =>
    rw [hhw] at h
    dsimp only [bypassMuxSetParent] at h
    split_ifs at h
    · obtain rfl := Except.ok.inj h
      exact (keeps_setbit read32 base bypass).mono (by simp [ClkHw.parentWrites])
    · split at h
      · cases h
      · obtain rfl := Except.ok.inj h
        refine ((keeps_clrbit read32 base bypass).mono ?_).trans
          ((keeps_setfield _ base sel _).mono ?_) <;>
        simp [ClkHw.parentWrites]
  | mmux bit m sel parentInfos =>
    rw [hhw] at h
    dsimp only [mmuxSetParent] at h
    split_ifs at h
    · obtain rfl := Except.ok.inj h
      exact (keeps_setbit read32 base m.bypass).mono (by simp [ClkHw.parentWrites])
    · split at h
      · cases h
      · rename_i info _
        obtain rfl := Except.ok.inj h
        refine ((keeps_clrbit read32 base m.bypass).mono ?_).trans (.trans ?_
          ((keeps_setfield _ base (sel info.clkSel) _).mono ?_))
        · simp [ClkHw.parentWrites]
        · split_ifs
          · exact (keeps_clrbit _ base m.clkSel).mono (by simp [ClkHw.parentWrites])
          · exact (keeps_setbit _ base m.clkSel).mono (by simp [ClkHw.parentWrites])
        · cases info.clkSel <;> simp [ClkHw.parentWrites]
  | fpll pwd pll =>
    rw [hhw] at h
    dsimp only [cv1800bFpllSetParent] at h
    split_ifs at h
    · obtain rfl := Except.ok.inj h
      exact keeps_setbit read32 base pll.en
    · obtain rfl := Except.ok.inj h
      exact keeps_clrbit read32 base pll.en

/-! ### Of the rates -/

theorem keeps_dividerSetRate (d : ClkDivider) (parentRate rate : BitVec 64) :
    Keeps (dividerPrint d) base read32 (d.setRate read32 base parentRate rate).1 := by
  simp only [ClkDivider.setRate]
  refine ((keeps_setfield read32 base d.div (d.setVal parentRate rate)).mono ?_).trans ?_
  · simp [dividerPrint]
  · split_ifs
    · have hset : Keeps [(d.div.offset, CLK_DIV_EN_FACTOR)] base
          (cv1800bClkSetfield read32 base d.div (d.setVal parentRate rate))
          (setbitsLe32 (cv1800bClkSetfield read32 base d.div (d.setVal parentRate rate))
            (base + d.div.offset) CLK_DIV_EN_FACTOR) :=
        keeps_update fun i hi => by rw [BitVec.getLsbD_or, hi, Bool.or_false]
      exact hset.mono (by simp [dividerPrint])
    · exact Keeps.refl _ _ _

theorem keeps_bypassDivSetRate (d : ClkDivider) (bypass : ClkRegbit) (parentRate rate : BitVec 64) :
    Keeps (dividerPrint d) base read32
      (bypassDivSetRate read32 base d bypass parentRate rate).1 := by
  rw [bypassDivSetRate]
  split_ifs
  · exact Keeps.refl _ _ _
  · exact keeps_dividerSetRate read32 base d parentRate rate

theorem keeps_pllWrite (pllReg : Nat) (sel : PllSel) (mode ictrl : Nat) :
    Keeps [(pllReg, PLL_MASK_ALL)] base read32
      (clrsetbits read32 (base + pllReg) PLL_MASK_ALL (pllVal sel mode ictrl)) :=
  keeps_update fun _ hi => getLsbD_pllWord_outside _ _ _ _ hi

theorem keeps_ipllSetRate {pllReg : Nat} {parentRate rate v : BitVec 64} {read32' : ReadReg}
    (h : cv1800bIpllSetRate read32 base pllReg parentRate rate = some (read32', v)) :
    Keeps [(pllReg, PLL_MASK_ALL)] base read32 read32' := by
  obtain ⟨sel, -, hprogram⟩ := Option.map_eq_some_iff.mp h
  rw [ipllProgram] at hprogram
  split at hprogram
  · obtain ⟨rfl, -⟩ := Prod.mk.inj hprogram
    exact keeps_pllWrite read32 base pllReg sel _ _
  · obtain ⟨rfl, -⟩ := Prod.mk.inj hprogram
    exact Keeps.refl _ _ _

theorem keeps_fpllSetRate {fuel : Nat} {pll : ClkFpll} {parentRate rate v : BitVec 64}
    {read32' : ReadReg}
    (h : (cv1800bFpllSetRate fuel read32 base pll parentRate rate).join = some (read32', v)) :
    Keeps [(pll.pllReg, PLL_MASK_ALL), (pll.set, BitVec.allOnes 32)] base read32 read32' := by
  rcases fpllSetRate_some h with hipll | ⟨bestRate, sel, syn, hprogram⟩
  · exact (keeps_ipllSetRate read32 base hipll).mono (by simp)
  · rw [fpllProgram] at hprogram
    split at hprogram
    · obtain ⟨rfl, -⟩ := Prod.mk.inj hprogram
      refine ((keeps_pllWrite read32 base pll.pllReg sel _ _).mono (by simp)).trans
        (Keeps.mono (keeps_update (o := pll.set) (m := BitVec.allOnes 32) fun i hi => ?_) (by simp))
      rw [BitVec.getLsbD_allOnes, decide_eq_false_iff_not, not_lt] at hi
      rw [BitVec.getLsbD_of_ge _ _ hi, BitVec.getLsbD_of_ge _ _ hi]
    · obtain ⟨rfl, -⟩ := Prod.mk.inj hprogram
      exact Keeps.refl _ _ _

theorem keeps_setRate {fuel : Nat} {hw : ClkHw} {parentRate rate v : BitVec 64}
    {read32' : ReadReg}
    (h : hw.setRate fuel read32 base parentRate rate = some (read32', v)) :
    Keeps hw.writes base read32 read32' := by
  cases hw with
  | fixedRate | gate | fixedDiv | bypassFixedDiv =>
    obtain ⟨rfl, -⟩ := Prod.mk.inj (Option.some.inj h)
    exact Keeps.refl _ _ _
  | div bit d | mux bit d sel =>
    obtain rfl : (d.setRate read32 base parentRate rate).1 = read32' :=
      congrArg Prod.fst (Option.some.inj h)
    exact keeps_dividerSetRate read32 base d parentRate rate
  | bypassDiv bit d bypass | bypassMux bit d sel bypass =>
    obtain rfl : (bypassDivSetRate read32 base d bypass parentRate rate).1 = read32' :=
      congrArg Prod.fst (Option.some.inj h)
    exact keeps_bypassDivSetRate read32 base d bypass parentRate rate
  | mmux bit m sel infos =>
    obtain rfl : (mmuxSetRate read32 base m parentRate rate).1 = read32' :=
      congrArg Prod.fst (Option.some.inj h)
    rw [mmuxSetRate]
    split_ifs
    · exact Keeps.refl _ _ _
    · refine (keeps_dividerSetRate read32 base _ parentRate rate).mono ?_
      cases mmuxClkSel read32 base m
      · exact List.subset_append_left _ _
      · exact List.subset_append_right _ _
  | audio aclk =>
    obtain rfl : (aclkSetRate read32 base aclk parentRate rate).1 = read32' :=
      congrArg Prod.fst (Option.some.inj h)
    refine ((keeps_setfield read32 base aclk.m _).mono ?_).trans
      (((keeps_setfield _ base aclk.n _).mono ?_).trans
        (((keeps_setbit _ base aclk.divEn).mono ?_).trans
          ((keeps_setbit _ base aclk.divUp).mono ?_))) <;>
    simp [ClkHw.writes]
  | ipll pllReg pllPwd => exact keeps_ipllSetRate read32 base h
  | fpll pllPwd pll => exact keeps_fpllSetRate read32 base h

end Operations

section Congr

variable {read32 read32' : ReadReg} {base : Nat} {F : Footprint 32}

theorem divider_val_congr (h : Agree F base read32 read32') {d : ClkDivider}
    (hd : dividerPrint d ⊆ F) : d.val read32' base = d.val read32 base := by
  have hfield : d.div.print ∈ F := hd (by simp [dividerPrint])
  have hfactor : (d.div.offset, CLK_DIV_EN_FACTOR) ∈ F := hd (by simp [dividerPrint])
  rw [ClkDivider.val, ClkDivider.val, getfield_congr h hfield, h.and_eq hfactor]

theorem divider_getRate_congr (h : Agree F base read32 read32') {d : ClkDivider}
    (hd : dividerPrint d ⊆ F) (p : BitVec 64) : d.getRate read32' base p = d.getRate read32 base p := by
  rw [ClkDivider.getRate, ClkDivider.getRate, divider_val_congr h hd]

theorem bypassDivGetRate_congr (h : Agree F base read32 read32') {d : ClkDivider}
    {bypass : ClkRegbit} (hd : dividerPrint d ⊆ F) (hbypass : bypass.print ∈ F) (p : BitVec 64) :
    bypassDivGetRate read32' base d bypass p = bypassDivGetRate read32 base d bypass p := by
  rw [bypassDivGetRate, bypassDivGetRate, getbit_congr bypass h hbypass, divGetRate, divGetRate,
    divider_getRate_congr h hd]

/-- The fields of a PLL are in the mask of its register. -/
theorem pllField_congr {pllReg : Nat} (h : Agree F base read32 read32')
    (hreg : (pllReg, PLL_MASK_ALL) ∈ F) {f : BitField 32}
    (hf : ∀ i, f.Has i → PLL_MASK_ALL.getLsbD i = true) :
    f.get (read32' (base + pllReg)) = f.get (read32 (base + pllReg)) :=
  BitField.get_congr fun i hi => h pllReg i ⟨_, hreg, hf i hi⟩

theorem pllFields_congr {pllReg : Nat} (h : Agree F base read32 read32')
    (hreg : (pllReg, PLL_MASK_ALL) ∈ F) :
    PLL_PRE_DIV_SEL.get (read32' (base + pllReg)) = PLL_PRE_DIV_SEL.get (read32 (base + pllReg)) ∧
    PLL_POST_DIV_SEL.get (read32' (base + pllReg)) = PLL_POST_DIV_SEL.get (read32 (base + pllReg)) ∧
    PLL_DIV_SEL.get (read32' (base + pllReg)) = PLL_DIV_SEL.get (read32 (base + pllReg)) := by
  have hmask : ∀ i, PLL_MASK_ALL.getLsbD i = (decide (PLL_ICTRL.Has i) || decide (PLL_DIV_SEL.Has i) ||
      decide (PLL_SEL_MODE.Has i) || decide (PLL_POST_DIV_SEL.Has i) ||
      decide (PLL_PRE_DIV_SEL.Has i)) := by
    intro i
    simp only [PLL_MASK_ALL, BitVec.getLsbD_or, BitField.getLsbD_mask]
  refine ⟨pllField_congr h hreg fun i hi => ?_, pllField_congr h hreg fun i hi => ?_,
    pllField_congr h hreg fun i hi => ?_⟩ <;>
  rw [hmask] <;> simp [hi]

theorem ipllGetRate_congr {pllReg : Nat} (h : Agree F base read32 read32')
    (hreg : (pllReg, PLL_MASK_ALL) ∈ F) (p : BitVec 64) :
    cv1800bIpllGetRate read32' base pllReg p = cv1800bIpllGetRate read32 base pllReg p := by
  obtain ⟨hpre, hpost, hdiv⟩ := pllFields_congr h hreg
  simp only [cv1800bIpllGetRate, hpre, hpost, hdiv]

theorem set_congr (pll : ClkFpll) (h : Agree F base read32 read32')
    (hset : (pll.set, BitVec.allOnes 32) ∈ F) :
    read32' (base + pll.set) = read32 (base + pll.set) := by
  have hall := h.and_eq hset
  rwa [BitVec.and_allOnes, BitVec.and_allOnes] at hall

theorem fpllGetRate_congr {pll : ClkFpll} (h : Agree F base read32 read32')
    (hreg : (pll.pllReg, PLL_MASK_ALL) ∈ F) (hen : pll.en.print ∈ F)
    (hset : (pll.set, BitVec.allOnes 32) ∈ F) (hhalf : pll.clkHalf.print ∈ F) (p : BitVec 64) :
    cv1800bFpllGetRate read32' base pll p = cv1800bFpllGetRate read32 base pll p := by
  obtain ⟨hpre, hpost, hdiv⟩ := pllFields_congr h hreg
  simp only [cv1800bFpllGetRate, getbit_congr pll.en h hen, getbit_congr pll.clkHalf h hhalf,
    set_congr pll h hset, ipllGetRate_congr h hreg, hpre, hpost, hdiv]

/-- `get_rate` does not see more than its footprint. -/
theorem getRate_congr {hw : ClkHw} (h : Agree (hw.reads ++ hw.half) base read32 read32')
    (oscRate p : BitVec 64) :
    hw.getRate read32' base oscRate p = hw.getRate read32 base oscRate p ∧
      hw.asksParent read32' base = hw.asksParent read32 base := by
  cases hw with
  | fixedRate | gate | fixedDiv => exact ⟨rfl, rfl⟩
  | div bit d | mux bit d sel =>
    exact ⟨divider_getRate_congr h (by simp [ClkHw.reads]) p, rfl⟩
  | bypassDiv bit d bypass | bypassMux bit d sel bypass =>
    have hbypass := getbit_congr bypass h (by simp [ClkHw.reads])
    refine ⟨bypassDivGetRate_congr h (by simp [ClkHw.reads, ClkHw.half]) (by simp [ClkHw.reads]) p, ?_⟩
    simp only [ClkHw.asksParent, hbypass]
  | bypassFixedDiv bit k bypass =>
    have hbypass := getbit_congr bypass h (by simp [ClkHw.reads])
    simp only [ClkHw.getRate, ClkHw.asksParent, hbypass, and_self]
  | mmux bit m sel infos =>
    have hbypass := getbit_congr m.bypass h (by simp [ClkHw.reads])
    have hsel := getbit_congr m.clkSel h (by simp [ClkHw.reads])
    have hdiv : ∀ b, dividerPrint (m.div b) ⊆ (ClkHw.mmux bit m sel infos).reads ++
        (ClkHw.mmux bit m sel infos).half := by
      intro b x hx
      cases b <;> simp [ClkHw.reads, hx]
    refine ⟨?_, by simp only [ClkHw.asksParent, hbypass]⟩
    simp only [ClkHw.getRate, mmuxGetRate, mmuxClkSel, hbypass, hsel,
      divider_getRate_congr h (hdiv _)]
  | audio aclk =>
    have hen := getbit_congr aclk.divEn h (by simp [ClkHw.reads])
    have hm := getfield_congr (f := aclk.m) h (by simp [ClkHw.reads])
    have hn := getfield_congr (f := aclk.n) h (by simp [ClkHw.reads])
    refine ⟨?_, rfl⟩
    simp only [ClkHw.getRate, aclkGetRate, hen, hm, hn]
  | ipll pllReg pllPwd => exact ⟨ipllGetRate_congr h (by simp [ClkHw.reads]) p, rfl⟩
  | fpll pllPwd pll =>
    refine ⟨fpllGetRate_congr h (by simp [ClkHw.reads]) (by simp [ClkHw.reads])
      (by simp [ClkHw.reads]) (by simp [ClkHw.half]) p, ?_⟩
    have hen := getbit_congr pll.en h (by simp [ClkHw.reads])
    have hset := set_congr pll h (by simp [ClkHw.reads])
    simp only [ClkHw.asksParent, hen, hset]

theorem ipllDivisor_congr {pllReg : Nat} (h : Agree F base read32 read32')
    (hreg : (pllReg, PLL_MASK_ALL) ∈ F) :
    ipllDivisor read32' base pllReg = ipllDivisor read32 base pllReg := by
  obtain ⟨hpre, hpost, -⟩ := pllFields_congr h hreg
  rw [ipllDivisor, ipllDivisor, hpre, hpost]

/-- Nor does it divide by more. -/
theorem getRateDivides_congr {hw : ClkHw} (h : Agree (hw.reads ++ hw.half) base read32 read32') :
    hw.getRateDivides read32' base = hw.getRateDivides read32 base := by
  cases hw with
  | fixedRate | gate | fixedDiv => rfl
  | div bit d | mux bit d sel =>
    simp only [ClkHw.getRateDivides, divider_val_congr h (d := d) (by simp [ClkHw.reads])]
  | bypassDiv bit d bypass | bypassMux bit d sel bypass =>
    have hbypass := getbit_congr bypass h (by simp [ClkHw.reads])
    have hval := divider_val_congr h (d := d) (by simp [ClkHw.reads, ClkHw.half])
    simp only [ClkHw.getRateDivides, hbypass, hval]
  | bypassFixedDiv bit k bypass =>
    have hbypass := getbit_congr bypass h (by simp [ClkHw.reads])
    simp only [ClkHw.getRateDivides, hbypass]
  | mmux bit m sel infos =>
    have hbypass := getbit_congr m.bypass h (by simp [ClkHw.reads])
    have hsel : mmuxClkSel read32' base m = mmuxClkSel read32 base m := by
      rw [mmuxClkSel, mmuxClkSel, getbit_congr m.clkSel h (by simp [ClkHw.reads])]
    have hval : ∀ b, (m.div b).val read32' base = (m.div b).val read32 base := by
      intro b
      refine divider_val_congr h fun x hx => ?_
      cases b <;> simp [ClkHw.reads, hx]
    simp only [ClkHw.getRateDivides, hbypass, hsel, hval]
  | audio aclk =>
    have hen := getbit_congr aclk.divEn h (by simp [ClkHw.reads])
    have hm := getfield_congr (f := aclk.m) h (by simp [ClkHw.reads])
    simp only [ClkHw.getRateDivides, hen, hm]
  | ipll pllReg pllPwd =>
    have hreg : (pllReg, PLL_MASK_ALL) ∈ (ClkHw.ipll pllReg pllPwd).reads ++
        (ClkHw.ipll pllReg pllPwd).half := by
      simp [ClkHw.reads]
    simp only [ClkHw.getRateDivides, ipllDivisor_congr h hreg]
  | fpll pllPwd pll =>
    have hen := getbit_congr pll.en h (by simp [ClkHw.reads])
    have hset := set_congr pll h (by simp [ClkHw.reads])
    have hreg : (pll.pllReg, PLL_MASK_ALL) ∈ (ClkHw.fpll pllPwd pll).reads ++
        (ClkHw.fpll pllPwd pll).half := by
      simp [ClkHw.reads]
    have hdivisor := ipllDivisor_congr h hreg
    have hfpll : fpllDivisor read32' base pll = fpllDivisor read32 base pll := by
      rw [fpllDivisor, fpllDivisor, hset, hdivisor]
    simp only [ClkHw.getRateDivides, hen, hset, hdivisor, hfpll]

end Congr

/-- A clock that does not ask for it does not depend on the rate of its parent. -/
theorem getRate_of_not_asks {hw : ClkHw} {read32 : ReadReg} {base : Nat} {oscRate : BitVec 64}
    (h : hw.asksParent read32 base = false) (p q : BitVec 64) :
    hw.getRate read32 base oscRate p = hw.getRate read32 base oscRate q := by
  cases hw with
  | fixedRate => rfl
  | gate | div | fixedDiv | mux | audio | ipll => exact absurd (show true = false from h) (by decide)
  | bypassDiv bit d bypass | bypassMux bit d sel bypass =>
    have hset := of_decide_eq_false h
    simp only [ClkHw.getRate, bypassDivGetRate, if_pos (show _ ≠ _ from hset)]
  | bypassFixedDiv bit k bypass =>
    have hset := of_decide_eq_false h
    simp only [ClkHw.getRate, if_pos (show _ ≠ _ from hset)]
  | mmux bit m sel infos =>
    have hset := of_decide_eq_false h
    simp only [ClkHw.getRate, mmuxGetRate, if_pos (show _ ≠ _ from hset)]
  | fpll pllPwd pll =>
    have hset := of_decide_eq_false h
    rw [not_or, not_not] at hset
    simp only [ClkHw.getRate, cv1800bFpllGetRate, if_neg hset.1, hset.2, if_true]

end ClkTable

end LicheeRvNano
