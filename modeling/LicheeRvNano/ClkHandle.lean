import LicheeRvNano.ClkCache

/-!
# U-Boot's clock framework: the handles of the consumers

A driver has a clock as a handle: the clock controller and the number of the clock in the
device tree. Rates go through the controller, which adds three to the number
(`CV1800B_CLK_ID_TRANSFORM`) to come to the private clock. But `clk_enable` and `clk_disable`
look for a private clock with the number of the handle first, and find the one three before
(`handle_misses`).
-/

namespace LicheeRvNano

open ClkTable Forest ClkTree ClkCache

namespace ClkHandle

/-- The private id of a clock. -/
def privateId (c : ClkId) : Nat := c.ctorIdx + 1

/-- `clk_get_by_id`. -/
def clkGetById (id : Nat) : Option ClkId := clkIds.find? fun c => decide (privateId c = id)

def CV1800B_CLK_ID_TRANSFORM (id : Nat) : Nat := id + 3

/-- `clk_enable` and `clk_disable`, on the handle with the number `id`: the private clock of that
number, or else what the controller makes of it. -/
def endisable (call : ClkState → ClkId → Option ClkState) (s : ClkState) (id : Nat) :
    Option (ClkState × Int) :=
  match if id = 0 then none else clkGetById id with
  | some c => (call s c).map fun s => (s, 0)
  | none =>
    match clkGetById (CV1800B_CLK_ID_TRANSFORM id) with
    | none => some (s, -ENOENT)
    | some c => (call s c).map fun s => (s, 0)

def handleEnable (base fuel : Nat) : ClkState → Nat → Option (ClkState × Int) :=
  endisable (clkEnable base fuel)

def handleDisable (base fuel : Nat) : ClkState → Nat → Option (ClkState × Int) :=
  endisable (clkDisable base fuel)

/-- `clk_get_rate`, on a handle. -/
def handleGetRate (base : Nat) (oscRate : BitVec 64) (fuel : Nat) (s : ClkState) (id : Nat) :
    Option (ClkState × BitVec 64) :=
  match clkGetById (CV1800B_CLK_ID_TRANSFORM id) with
  | none => some (s, BitVec.ofInt 64 (-ENOENT))
  | some c => clkGetRate base oscRate fuel s c

/-! ## What a clock may hang below -/

/-- For each clock the clocks that it may hang below, and itself. -/
def upMasks : List (ClkId × Nat) :=
  clkTable.foldl (fun masks row =>
    (row.id, (ClkRow.places row).foldl (fun mask p => mask ||| (masks.lookup p).getD 0)
      (1 <<< row.id.ctorIdx)) :: masks) []

def upMask (c : ClkId) : Nat := (upMasks.lookup c).getD 0

theorem upMask_closed : ∀ row ∈ clkTable, (upMask row.id).testBit row.id.ctorIdx = true ∧
    (ClkRow.places row).all (fun p => decide (upMask p ||| upMask row.id = upMask row.id)) = true := by
  decide +kernel

theorem upMask_of_hangs {f : Forest ClkId} (hplaced : Placed f.parent) {c d : ClkId}
    (hup : f.Hangs c d) : (upMask c).testBit d.ctorIdx = true := by
  induction hup using Relation.ReflTransGen.head_induction_on with
  | refl =>
    have hself := (upMask_closed _ (clkRow_mem d)).1
    rwa [clkRow_id] at hself
  | @head c p hstep _ ih =>
    have hclosed := List.all_eq_true.mp (upMask_closed _ (clkRow_mem c)).2 p (hplaced c p hstep)
    rw [clkRow_id] at hclosed
    rw [← of_decide_eq_true hclosed, Nat.testBit_or, ih, Bool.true_or]

/-- No clock hangs below the one three after it, nor shares a gate with what it hangs below. -/
theorem misses : clkIds.all (fun a => !(upMask a).testBit (a.ctorIdx + 3) &&
    (decide (ClkId.ofNat (a.ctorIdx + 3) ∉ sharedGate) ||
      sharedGate.all fun g => !(upMask a).testBit g.ctorIdx)) = true := by
  decide +kernel

/-! ## The clock that the number finds -/

theorem clkGetById_eq {id : Nat} {c : ClkId} (h : clkGetById id = some c) : privateId c = id := by
  have hfound := List.find?_some h
  exact of_decide_eq_true hfound

theorem ctorIdx_ofNat : (List.range 164).all (fun n => decide ((ClkId.ofNat n).ctorIdx = n)) = true := by
  decide +kernel

theorem clkGetById_some {id : Nat} (hpos : id ≠ 0) (hid : id ≤ 164) :
    ∃ c, clkGetById id = some c := by
  refine Option.isSome_iff_exists.mp (List.find?_isSome.mpr ⟨ClkId.ofNat (id - 1), mem_clkIds _, ?_⟩)
  have hidx := of_decide_eq_true (List.all_eq_true.mp ctorIdx_ofNat (id - 1)
    (List.mem_range.mpr (by omega)))
  rw [privateId, hidx]
  exact decide_eq_true (by omega)

variable {base fuel id : Nat} {oscRate : BitVec 64} {s s' : ClkState} {a own : ClkId} {ret : Int}

/-- What hangs above the clock that is found is not the clock of the handle, and has no gate with
it. -/
theorem apart_of_handle (ha : clkGetById id = some a)
    (hown : clkGetById (CV1800B_CLK_ID_TRANSFORM id) = some own) {f : Forest ClkId}
    (hplaced : Placed f.parent) :
    ¬ f.Hangs a own ∧ ∀ d, f.Hangs a d →
      Footprint.Separate (clkRow d).hw.switchPrint (clkRow own).hw.switchPrint := by
  have hshift : own.ctorIdx = a.ctorIdx + 3 := by
    have hfrom := clkGetById_eq ha
    have hto := clkGetById_eq hown
    rw [privateId] at hfrom hto
    rw [CV1800B_CLK_ID_TRANSFORM] at hto
    omega
  have hmiss := List.all_eq_true.mp misses a (mem_clkIds a)
  rw [Bool.and_eq_true, Bool.or_eq_true, Bool.not_eq_true', ← hshift, ClkId.ofNat_ctorIdx,
    decide_eq_true_eq] at hmiss
  have hnot : ¬ f.Hangs a own := fun hup =>
    absurd ((upMask_of_hangs hplaced hup).symm.trans hmiss.1) (by decide)
  refine ⟨hnot, fun d hd => ?_⟩
  have hne : d ≠ own := by
    rintro rfl
    exact hnot hd
  by_cases hgate : own ∈ sharedGate
  · have hdgate : d ∉ sharedGate := by
      intro hdgate
      have hclear := List.all_eq_true.mp (hmiss.2.resolve_left (not_not.mpr hgate)) d hdgate
      rw [Bool.not_eq_true'] at hclear
      exact absurd ((upMask_of_hangs hplaced hd).symm.trans hclear) (by decide)
    exact (ClkUse.switches_clkRow_apart hne.symm hdgate).symm
  · exact ClkUse.switches_clkRow_apart hne hgate

/-- **Enabling a clock by its handle.** For every clock of the device tree but the first, in
every tree in which each clock hangs from one that it may hang from, `clk_enable` and
`clk_disable` on its handle are those on the private clock of the same number, and leave its own
count and its own switches as they were; while `clk_get_rate` on the handle asks the clock
itself. -/
theorem handle_misses (hplaced : Placed s.parent) (hid : id ≠ 0)
    (hown : clkGetById (CV1800B_CLK_ID_TRANSFORM id) = some own) :
    (∀ s' ret, handleEnable base fuel s id = some (s', ret) ∨
        handleDisable base fuel s id = some (s', ret) →
      s'.enableCount own = s.enableCount own ∧
        Footprint.Agree (clkRow own).hw.switchPrint base s.regs s'.regs) ∧
    (∃ a, clkGetById id = some a ∧ a ≠ own ∧
      handleEnable base fuel s id = ((clkEnable base fuel s a).map fun s => (s, 0)) ∧
      handleDisable base fuel s id = (clkDisable base fuel s a).map fun s => (s, 0)) ∧
    handleGetRate base oscRate fuel s id = clkGetRate base oscRate fuel s own := by
  have hprivate := clkGetById_eq hown
  have hlt := ctorIdx_lt own
  rw [privateId, CV1800B_CLK_ID_TRANSFORM] at hprivate
  obtain ⟨a, ha⟩ := clkGetById_some hid (by omega)
  have hcall : ∀ call, endisable call s id = (call s a).map fun s => (s, 0) := by
    intro call
    rw [endisable, if_neg hid, ha]
  obtain ⟨hnot, hapart⟩ := apart_of_handle (f := forest s) ha hown hplaced
  refine ⟨?_, ⟨a, ha, fun heq => hnot (heq ▸ .refl), hcall _, hcall _⟩, ?_⟩
  · rintro s' ret (h | h)
    · rw [handleEnable, hcall] at h
      obtain ⟨t, ht, heq⟩ := Option.map_eq_some_iff.mp h
      obtain ⟨rfl, -⟩ := Prod.mk.inj heq
      obtain ⟨l, hacquire, hregs, -⟩ := clkEnable_spec ht
      have hacquired := acquired_of_acquire hacquire
      refine ⟨hacquired.frame own hnot, ?_⟩
      rw [hregs]
      refine Footprint.agree_foldl (fun regs _ => keeps_enable regs base _) fun d hd => hapart d ?_
      -- what was turned on was counted
      by_contra hdown
      have hoff := hacquired.fresh d hd
      have hon := (hacquired.on d).mpr (.inr hd)
      rw [Forest.On, hacquired.frame d hdown] at hon
      exact hoff hon
    · rw [handleDisable, hcall] at h
      obtain ⟨t, ht, heq⟩ := Option.map_eq_some_iff.mp h
      obtain ⟨rfl, -⟩ := Prod.mk.inj heq
      obtain ⟨l, hrelease, hregs, -⟩ := clkDisable_spec ht
      refine ⟨release_frame hrelease hnot, ?_⟩
      rw [hregs]
      refine Footprint.agree_foldl (fun regs _ => keeps_disable regs base _) fun d hd => hapart d ?_
      exact release_hangs hrelease hd
  · rw [handleGetRate, hown]

/-- The handle of the clock of the SD card, number 28 of the device tree. -/
theorem handle_misses_sd0 : ∃ s' ret,
    handleEnable CLK_BASE 165 ClkUse.bootClk 28 = some (s', ret) ∧ s'.enableCount .clkSd0 = 0 ∧
      handleGetRate CLK_BASE 25000000 165 ClkUse.bootClk 28 =
        clkGetRate CLK_BASE 25000000 165 ClkUse.bootClk .clkSd0 := by
  have hplaced := register_placed ClkUse.boot_register
  have hmiss := @handle_misses CLK_BASE 165 28 25000000 _ _ hplaced (by decide)
    (by decide +kernel : clkGetById (CV1800B_CLK_ID_TRANSFORM 28) = some .clkSd0)
  obtain ⟨a, -, -, hcall, -⟩ := hmiss.2.1
  obtain ⟨t, ht⟩ := Option.isSome_iff_exists.mp
    (@clkEnable_isSome CLK_BASE 165 _ hplaced a (by decide))
  rw [ht] at hcall
  refine ⟨t, 0, hcall, (hmiss.1 t 0 (.inl hcall)).1.trans ?_, hmiss.2.2⟩
  decide +kernel

end ClkHandle

end LicheeRvNano
