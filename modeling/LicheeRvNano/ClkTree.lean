import LicheeRvNano.ClkOps
import LicheeRvNano.Machine
import LicheeRvNano.RefForest

/-!
# U-Boot's clock framework: the tree

What the clock uclass does with the clocks of the table: it counts who has enabled them,
hangs them from one another, and keeps the rates of parents. `clkEnable_eq` and
`clkDisable_eq` say that the counts are those of a forest, with the switches thrown in the
order in which the nodes of the forest go on and off, and `register_tree` that the
registration hangs every clock where its registers say.
-/

namespace LicheeRvNano

open ClkTable Forest

/-- The private clocks, the devices they hang from, and the registers. -/
structure ClkState where
  /-- the registers of the clock controller -/
  regs : ReadReg
  /-- the clock that each one's device hangs from -/
  parent : ClkId → Option ClkId
  /-- `enable_count` of the private clock; an `int` in the source -/
  enableCount : ClkId → Nat
  /-- the rate that the private clock remembers; 0 when it remembers none -/
  rate : ClkId → BitVec 64

namespace ClkTree

/-- A flag of a clock. -/
def hasFlag (c : ClkId) (flag : BitVec 32) : Bool := decide ((clkRow c).flags &&& flag ≠ 0)

/-! ## Enabling -/

/-- `clk_enable`, on a private clock; the drivers' `enable` does not fail. -/
def clkEnable (base : Nat) : Nat → ClkState → ClkId → Option ClkState
  | 0, _, _ => none
  | fuel + 1, s, c =>
    if 0 < s.enableCount c then some { s with enableCount := tally s.enableCount c }
    else
      let parentEnabled :=
        match s.parent c with
        | none => some s
        | some p => clkEnable base fuel s p
      parentEnabled.map fun s =>
        { s with
          regs := (clkRow c).hw.enable s.regs base
          enableCount := tally s.enableCount c }

/-- `clk_disable`, on a private clock. -/
def clkDisable (base : Nat) : Nat → ClkState → ClkId → Option ClkState
  | 0, _, _ => none
  | fuel + 1, s, c =>
    if hasFlag c CLK_IS_CRITICAL = true then some s
    else if s.enableCount c = 0 then some s
    else
      let s := { s with enableCount := Function.update s.enableCount c (s.enableCount c - 1) }
      if 0 < s.enableCount c then some s
      else
        let s := { s with regs := (clkRow c).hw.disable s.regs base }
        match s.parent c with
        | none => some s
        | some p => clkDisable base fuel s p

/-- The driver has `set_parent`. -/
def hasSetParent : ClkHw → Bool
  | .bypassDiv .. | .bypassFixedDiv .. | .mux .. | .bypassMux .. | .mmux .. | .fpll .. => true
  | .fixedRate | .gate .. | .div .. | .fixedDiv .. | .audio .. | .ipll .. => false

/-- `clk_set_parent`, on private clocks; `device_reparent` does not fail. -/
def clkSetParent (base fuel : Nat) (s : ClkState) (c p : ClkId) : Option (ClkState × Int) :=
  if hasSetParent (clkRow c).hw = false then some (s, -ENOSYS)
  else
    (clkEnable base fuel s p).bind fun s =>
      match (clkRow c).setParent s.regs base p with
      | .error ret => (clkDisable base fuel s p).map fun s => (s, ret)
      | .ok regs =>
        some ({ s with regs := regs, parent := Function.update s.parent c (some p) }, 0)

/-! ## Rates -/

/-- `clk_get_parent_rate`, with `clk_get_rate` for the parent. -/
def clkGetParentRate (getRate : ClkState → ClkId → Option (ClkState × BitVec 64)) (s : ClkState)
    (c : ClkId) : Option (ClkState × BitVec 64) :=
  match s.parent c with
  | none => some (s, BitVec.ofInt 64 (-ENODEV))
  | some p =>
    if s.rate p = 0 ∨ hasFlag p CLK_GET_RATE_NOCACHE = true then
      (getRate s p).map fun r => ({ r.1 with rate := Function.update r.1.rate p r.2 }, r.2)
    else some (s, s.rate p)

/-- `clk_get_rate`, on a private clock. A division by zero gives nothing; what is asked before
it leaves the registers alone. -/
def clkGetRate (base : Nat) (oscRate : BitVec 64) :
    Nat → ClkState → ClkId → Option (ClkState × BitVec 64)
  | 0, _, _ => none
  | fuel + 1, s, c =>
    let hw := (clkRow c).hw
    if hw.getRateDivides s.regs base = false then none
    else if hw.asksParent s.regs base = true then
      (clkGetParentRate (clkGetRate base oscRate fuel) s c).map fun r =>
        (r.1, hw.getRate r.1.regs base oscRate r.2)
    else some (s, hw.getRate s.regs base oscRate 0)

def clkIds : List ClkId := (List.range 164).map ClkId.ofNat

/-- `clk_clean_rate_cache`. -/
def clkCleanRateCache (parent : ClkId → Option ClkId) :
    Nat → (ClkId → BitVec 64) → ClkId → Option (ClkId → BitVec 64)
  | 0, _, _ => none
  | fuel + 1, rate, c =>
    (clkIds.filter fun child => decide (parent child = some c)).foldlM
      (fun rate child => clkCleanRateCache parent fuel rate child) (Function.update rate c 0)

/-- The loop of `clk_set_rate`: the clock to set the rate of. -/
def clkSetRateOn : Nat → ClkState → ClkId → Option (Except Int ClkId)
  | 0, _, _ => none
  | fuel + 1, s, c =>
    if (clkRow c).hw.hasSetRate = true then some (.ok c)
    else if hasFlag c CLK_SET_RATE_PARENT = false then some (.error (-ENOSYS))
    else
      match s.parent c with
      | none => some (.error (-ENODEV))
      | some p => clkSetRateOn fuel s p

/-- The rate of the parent, where `set_rate` asks for it. -/
def setRateParentRate (base : Nat) (oscRate : BitVec 64) (fuel : Nat) (s : ClkState) (c : ClkId) :
    Option (ClkState × BitVec 64) :=
  if (clkRow c).hw.setRateAsksParent s.regs base = true then
    clkGetParentRate (clkGetRate base oscRate fuel) s c
  else some (s, 0)

/-- `set_rate` of the driver. A division by zero gives nothing. -/
def opsSetRate (base : Nat) (oscRate : BitVec 64) (fuel : Nat) (s : ClkState) (c : ClkId)
    (rate : BitVec 64) : Option (ClkState × BitVec 64) :=
  (setRateParentRate base oscRate fuel s c).bind fun r =>
    if (clkRow c).hw.setRateDivides r.1.regs base r.2 rate = false then none
    else
      ((clkRow c).hw.setRate fuel r.1.regs base r.2 rate).map fun w =>
        ({ r.1 with regs := w.1 }, w.2)

/-- `clk_set_rate`, on a private clock. -/
def clkSetRate (base : Nat) (oscRate : BitVec 64) (fuel : Nat) (s : ClkState) (c : ClkId)
    (rate : BitVec 64) : Option (ClkState × BitVec 64) :=
  (clkSetRateOn fuel s c).bind fun
    | .error ret => some (s, BitVec.ofInt 64 ret)
    | .ok c =>
      (clkCleanRateCache s.parent fuel s.rate c).bind fun cleaned =>
        opsSetRate base oscRate fuel { s with rate := cleaned } c rate

/-! ## Registration -/

/-- The parent by whose name `cv1800b_register_clk` registers a clock: of a mux, the one its
registers say. `none` is a name from beyond the end of the array: the code does not look, and
what it reads there and goes on with is not in the model. -/
def namedParent (regs : ReadReg) (base : Nat) (row : ClkRow) : Option (Option ClkId) :=
  match row.hw with
  | .mux _ _ sel | .bypassMux _ _ sel _ =>
    (row.parents[(cv1800bClkGetfield regs base sel).toNat]?).map some
  | .mmux _ m sel parentInfos =>
    let clkSel := mmuxClkSel regs base m
    let parent := cv1800bClkGetfield regs base (sel clkSel)
    (parentInfos.find? fun info =>
      decide (info.clkSel = clkSel ∧ info.index = parent.toNat)).map fun info => some info.id
  | _ => some row.parents.head?

/-- `clk_register`: a parent that is not there yet is only missed in the log. `none` is a read
beyond the array of the parents. -/
def clkRegister (regs : ReadReg) (base : Nat) (known : List ClkId × (ClkId → Option ClkId))
    (row : ClkRow) : Option (List ClkId × (ClkId → Option ClkId)) :=
  (namedParent regs base row).map fun named =>
    (row.id :: known.1,
      Function.update known.2 row.id (named.filter fun p => decide (p ∈ known.1)))

/-- `cv1800b_register_clk`. -/
def cv1800bRegisterClk (regs : ReadReg) (base : Nat) : Option ClkState :=
  (clkTable.foldlM (clkRegister regs base) ([], fun _ => none)).map fun known =>
    { regs := regs, parent := known.2, enableCount := fun _ => 0, rate := fun _ => 0 }

/-! ## The counts are those of a forest -/

/-- The counts and the parents. -/
def forest (s : ClkState) : Forest ClkId := ⟨s.parent, s.enableCount⟩

/-- A clock that is critical is never disabled. -/
def critical (c : ClkId) : Bool := hasFlag c CLK_IS_CRITICAL

/-- Switching clocks on, one after the other. -/
def switchOn (base : Nat) (regs : ReadReg) (l : List ClkId) : ReadReg :=
  l.foldl (fun regs c => (clkRow c).hw.enable regs base) regs

/-- Switching clocks off. -/
def switchOff (base : Nat) (regs : ReadReg) (l : List ClkId) : ReadReg :=
  l.foldl (fun regs c => (clkRow c).hw.disable regs base) regs

theorem clkEnable_eq (base fuel : Nat) (s : ClkState) (c : ClkId) :
    clkEnable base fuel s c = (acquire fuel (forest s) c).map fun r =>
      { s with regs := switchOn base s.regs r.2, enableCount := r.1.count } := by
  induction fuel generalizing c with
  | zero => rfl
  | succ fuel ih =>
    rw [clkEnable, acquire]
    by_cases hon : 0 < s.enableCount c
    · rw [if_pos hon, if_pos (show (forest s).On c from hon)]
      rfl
    · rw [if_neg hon, if_neg (show ¬ (forest s).On c from hon)]
      cases hp : s.parent c with
      | none =>
        rw [show (forest s).parent c = none from hp]
        rfl
      | some p =>
        rw [show (forest s).parent c = some p from hp]
        dsimp only
        rw [ih p, Option.map_map, Option.map_map]
        refine congrArg (fun f => Option.map f _) (funext fun r => ?_)
        simp only [Function.comp_apply, switchOn, List.foldl_append, List.foldl_cons,
          List.foldl_nil, bump]

theorem clkDisable_eq (base fuel : Nat) (s : ClkState) (c : ClkId) :
    clkDisable base fuel s c = (release critical fuel (forest s) c).map fun r =>
      { s with regs := switchOff base s.regs r.2, enableCount := r.1.count } := by
  induction fuel generalizing s c with
  | zero => rfl
  | succ fuel ih =>
    rw [clkDisable, release]
    by_cases hcritical : hasFlag c CLK_IS_CRITICAL = true
    · rw [if_pos hcritical, if_pos (.inl hcritical)]
      rfl
    · rw [if_neg hcritical]
      by_cases hzero : s.enableCount c = 0
      · rw [if_pos hzero, if_pos (.inr hzero)]
        rfl
      · have hkeep : ¬ (critical c = true ∨ (forest s).count c = 0) :=
          not_or.mpr ⟨hcritical, hzero⟩
        rw [if_neg hzero, if_neg hkeep]
        dsimp only
        have hleft : 0 < Function.update s.enableCount c (s.enableCount c - 1) c ↔
            1 < (forest s).count c := by
          rw [Function.update_self]
          exact Nat.sub_pos_iff_lt
        by_cases hmany : 1 < (forest s).count c
        · rw [if_pos (hleft.mpr hmany), if_pos hmany]
          rfl
        · rw [if_neg (hmany ∘ hleft.mp), if_neg hmany]
          cases hp : s.parent c with
          | none =>
            rw [show (forest s).parent c = none from hp]
            rfl
          | some p =>
            rw [show (forest s).parent c = some p from hp]
            dsimp only
            rw [ih, Option.map_map]
            rfl

/-! ## The registration -/

/-- The ids of the table, each in its place. -/
theorem ids_disjoint :
    Footprint.disjointAll 0 (clkTable.map fun row => 1 <<< row.id.ctorIdx) = true := by
  decide +kernel

theorem ids_nodup : (clkTable.map ClkRow.id).Nodup := by
  rw [List.Nodup, List.pairwise_map]
  refine (List.pairwise_map.mp (Footprint.pairwise_of_disjointAll ids_disjoint).2).imp ?_
  intro row row' h heq
  rw [heq, Nat.and_self, Nat.one_shiftLeft] at h
  exact absurd h (Nat.two_pow_pos _).ne'

theorem clkRow_of_mem {row : ClkRow} (h : row ∈ clkTable) : clkRow row.id = row :=
  List.inj_on_of_nodup_map ids_nodup (clkRow_mem _) h (clkRow_id _)

instance : Fintype ClkId where
  elems := ⟨clkTable.map ClkRow.id, ids_nodup⟩
  complete c := List.mem_map.mpr ⟨clkRow c, clkRow_mem c, clkRow_id c⟩

/-- What is known after the rows `rows`: they are, and each hangs from the clock it was named. -/
structure Registered (regs : ReadReg) (base : Nat) (rows : List ClkRow)
    (known : List ClkId × (ClkId → Option ClkId)) : Prop where
  ids : known.1 = (rows.map ClkRow.id).reverse
  named : ∀ row ∈ rows, namedParent regs base row = some (known.2 row.id)

/-- The sources of a multi-mux are its parents. -/
def parentInfos : ClkHw → List MmuxParent
  | .mmux _ _ _ infos => infos
  | _ => []

theorem parentInfos_mem : ∀ row ∈ clkTable, ∀ info ∈ parentInfos row.hw, info.id ∈ row.parents := by
  decide +kernel

theorem namedParent_mem {regs : ReadReg} {base : Nat} {row : ClkRow} {p : ClkId}
    (hrow : row ∈ clkTable) (h : namedParent regs base row = some (some p)) : p ∈ row.parents := by
  rw [namedParent] at h
  split at h
  · obtain ⟨q, hq, heq⟩ := Option.map_eq_some_iff.mp h
    obtain rfl := Option.some.inj heq
    exact List.mem_of_getElem? hq
  · obtain ⟨q, hq, heq⟩ := Option.map_eq_some_iff.mp h
    obtain rfl := Option.some.inj heq
    exact List.mem_of_getElem? hq
  · rename_i infos hhw
    obtain ⟨info, hinfo, heq⟩ := Option.map_eq_some_iff.mp h
    obtain rfl := Option.some.inj heq
    refine parentInfos_mem row hrow info ?_
    rw [hhw]
    exact List.mem_of_find?_eq_some hinfo
  · exact List.mem_of_mem_head? (Option.some.inj h)

/-- One more clock is registered. -/
theorem Registered.step {regs : ReadReg} {base : Nat} {rows : List ClkRow} {row : ClkRow}
    {known known' : List ClkId × (ClkId → Option ClkId)} (h : Registered regs base rows known)
    (hrow : row ∈ clkTable) (hparents : ∀ p ∈ row.parents, p ∈ known.1) (hnew : row.id ∉ known.1)
    (hreg : clkRegister regs base known row = some known') :
    Registered regs base (rows ++ [row]) known' := by
  obtain ⟨named, hnamed, rfl⟩ := Option.map_eq_some_iff.mp hreg
  -- what the clock is named is there already
  have hfound : named.filter (fun p => decide (p ∈ known.1)) = named := by
    cases named with
    | none => rfl
    | some p =>
      have hp := hparents p (namedParent_mem hrow hnamed)
      rw [Option.filter_some, if_pos (decide_eq_true hp)]
  have hother : ∀ c, c ≠ row.id → Function.update known.2 row.id named c = known.2 c :=
    fun c hc => Function.update_of_ne hc _ _
  have hself : Function.update known.2 row.id named row.id = named := Function.update_self ..
  rw [hfound]
  refine ⟨?_, fun row' hrow' => ?_⟩
  · rw [h.ids, List.map_append, List.reverse_append]
    rfl
  · rcases List.mem_append.mp hrow' with hold | hlast
    · have hid : row'.id ∈ known.1 := by
        rw [h.ids, List.mem_reverse]
        exact List.mem_map_of_mem hold
      have hne : row'.id ≠ row.id := fun heq => hnew (heq ▸ hid)
      dsimp only
      rw [hother _ hne, h.named row' hold]
    · dsimp only
      rw [List.mem_singleton.mp hlast, hself, hnamed]

theorem Registered.run {regs : ReadReg} {base : Nat} {l rows : List ClkRow}
    {known known' : List ClkId × (ClkId → Option ClkId)} (h : Registered regs base rows known)
    (htable : rows ++ l = clkTable) (hordered : ordered known.1 l = true)
    (hreg : l.foldlM (clkRegister regs base) known = some known') :
    Registered regs base clkTable known' := by
  induction l generalizing rows known with
  | nil =>
    rw [List.append_nil] at htable
    obtain rfl := Option.some.inj hreg
    rwa [← htable]
  | cons row l ih =>
    rw [List.foldlM_cons] at hreg
    obtain ⟨known₁, hstep, hrest⟩ := Option.bind_eq_some_iff.mp hreg
    rw [ordered, Bool.and_eq_true, List.all_eq_true] at hordered
    have hrow : row ∈ clkTable := htable ▸ List.mem_append_right _ (List.mem_cons_self ..)
    have hnew : row.id ∉ known.1 := by
      have hnodup := ids_nodup
      rw [← htable, List.map_append, List.map_cons] at hnodup
      rw [h.ids, List.mem_reverse]
      intro hmem
      exact (List.nodup_append.mp hnodup).2.2 _ hmem _ (List.mem_cons_self ..) rfl
    have hnext := h.step hrow (fun p hp => of_decide_eq_true (hordered.1 p hp)) hnew hstep
    have hids : known₁.1 = row.id :: known.1 := by
      obtain ⟨named, -, rfl⟩ := Option.map_eq_some_iff.mp hstep
      rfl
    refine ih hnext ?_ ?_ hrest
    · rw [List.append_assoc]
      exact htable
    · rw [hids]
      exact hordered.2

theorem register_isSome (regs : ReadReg) (base : Nat) :
    (cv1800bRegisterClk regs base).isSome = true ↔
      ∀ c, (namedParent regs base (clkRow c)).isSome = true := by
  have hall : ∀ (l : List ClkRow) (known : List ClkId × (ClkId → Option ClkId)),
      (l.foldlM (clkRegister regs base) known).isSome = true ↔
        ∀ row ∈ l, (namedParent regs base row).isSome = true := by
    intro l
    induction l with
    | nil => exact fun known => iff_of_true rfl fun row hrow => absurd hrow List.not_mem_nil
    | cons row l ih =>
      intro known
      rw [List.foldlM_cons, List.forall_mem_cons]
      cases hnamed : namedParent regs base row with
      | none =>
        have hreg : clkRegister regs base known row = none := by
          rw [clkRegister, hnamed]
          rfl
        rw [hreg]
        exact iff_of_false Bool.false_ne_true fun h => Bool.false_ne_true h.1
      | some named =>
        obtain ⟨known', hreg⟩ : ∃ known', clkRegister regs base known row = some known' := by
          rw [clkRegister, hnamed]
          exact ⟨_, rfl⟩
        rw [hreg]
        exact (ih known').trans (and_iff_right rfl).symm
  rw [cv1800bRegisterClk, Option.isSome_map, hall]
  constructor
  · exact fun h c => h _ (clkRow_mem c)
  · intro h row hrow
    rw [← clkRow_of_mem hrow]
    exact h _

/-! ### Where a clock may hang -/

/-- The clocks that a clock may hang from. -/
def ClkRow.places (row : ClkRow) : List ClkId :=
  if hasSetParent row.hw = true then .bypass :: row.parents else row.parents

theorem parents_sub_places (row : ClkRow) : row.parents ⊆ ClkRow.places row := by
  rw [ClkRow.places]
  split_ifs
  · exact List.subset_cons_self _ _
  · exact List.Subset.refl _

theorem places_order :
    ordered [] (clkTable.map fun row => { row with parents := ClkRow.places row }) = true := by
  decide +kernel

/-- The place of a clock in the order of registration. -/
def clkRank (c : ClkId) : Nat := (clkTable.map ClkRow.id).idxOf c

/-- In an ordered table the parents stand before. -/
theorem idxOf_lt_of_ordered {seen : List ClkId} {rows : List ClkRow}
    (h : ordered seen rows = true) (hnodup : (seen.reverse ++ rows.map ClkRow.id).Nodup) :
    ∀ row ∈ rows, ∀ p ∈ row.parents, (seen.reverse ++ rows.map ClkRow.id).idxOf p <
      (seen.reverse ++ rows.map ClkRow.id).idxOf row.id := by
  induction rows generalizing seen with
  | nil => exact fun row hrow => absurd hrow List.not_mem_nil
  | cons row rows ih =>
    rw [ordered, Bool.and_eq_true, List.all_eq_true] at h
    have hsplit : seen.reverse ++ (row :: rows).map ClkRow.id =
        (row.id :: seen).reverse ++ rows.map ClkRow.id := by
      rw [List.reverse_cons, List.map_cons, List.append_assoc]
      rfl
    intro row' hrow' p hp
    rcases List.mem_cons.mp hrow' with heq | hrest
    · subst heq
      have hseen : p ∈ seen.reverse := List.mem_reverse.mpr (of_decide_eq_true (h.1 p hp))
      have hself : row'.id ∉ seen.reverse := fun hmem =>
        (List.nodup_append.mp hnodup).2.2 _ hmem _ (List.mem_cons_self ..) rfl
      rw [List.idxOf_append_of_mem hseen, List.idxOf_append_of_notMem hself, List.map_cons,
        List.idxOf_cons_self]
      exact List.idxOf_lt_length_of_mem hseen
    · rw [hsplit] at hnodup ⊢
      exact ih h.2 hnodup row' hrest p hp

theorem clkRank_lt {c p : ClkId} (hp : p ∈ ClkRow.places (clkRow c)) : clkRank p < clkRank c := by
  have hids : (clkTable.map fun row => { row with parents := ClkRow.places row }).map ClkRow.id =
      clkTable.map ClkRow.id := by
    rw [List.map_map]
    rfl
  have hlt := idxOf_lt_of_ordered places_order (by rw [hids]; exact ids_nodup)
    { clkRow c with parents := ClkRow.places (clkRow c) } (List.mem_map_of_mem (clkRow_mem c)) p hp
  rw [hids] at hlt
  have hid : ({ clkRow c with parents := ClkRow.places (clkRow c) } : ClkRow).id = c := clkRow_id c
  rwa [hid] at hlt

theorem clkRank_bound (c : ClkId) : clkRank c < 164 := by
  have hmem : c ∈ clkTable.map ClkRow.id :=
    List.mem_map.mpr ⟨clkRow c, clkRow_mem c, clkRow_id c⟩
  have hlength : (clkTable.map ClkRow.id).length = 164 := by rfl
  exact hlength ▸ List.idxOf_lt_length_of_mem hmem

/-- Each clock hangs where it may. -/
def Placed (parent : ClkId → Option ClkId) : Prop :=
  ∀ c p, parent c = some p → p ∈ ClkRow.places (clkRow c)

theorem Placed.acyclic {f : Forest ClkId} (h : Placed f.parent) : f.Acyclic :=
  ⟨clkRank, fun c p hp => clkRank_lt (h c p hp)⟩

theorem Placed.rank_le {f : Forest ClkId} (h : Placed f.parent) {c d : ClkId}
    (hup : f.Hangs c d) : clkRank d ≤ clkRank c := by
  induction hup with
  | refl => exact le_rfl
  | tail _ hstep ih => exact (clkRank_lt (h _ _ hstep)).le.trans ih

/-- What a clock may hang from does not hang below it. -/
theorem Placed.not_hangs {f : Forest ClkId} (h : Placed f.parent) {c p : ClkId}
    (hp : p ∈ ClkRow.places (clkRow c)) : ¬ f.Hangs p c :=
  fun hpc => absurd (h.rank_le hpc) (Nat.not_le_of_gt (clkRank_lt hp))

/-- A clock that is moved to where it may hang. -/
theorem Placed.update {parent : ClkId → Option ClkId} (h : Placed parent) {c p : ClkId}
    (hp : p ∈ ClkRow.places (clkRow c)) : Placed (Function.update parent c (some p)) := by
  intro d q hd
  by_cases hdc : d = c
  · subst hdc
    have hself : Function.update parent d (some p) d = some p := Function.update_self ..
    rw [← Option.some.inj (hself.symm.trans hd)]
    exact hp
  · exact h d q ((Function.update_of_ne hdc _ _).symm.trans hd)

/-- The registered tree: every clock hangs from the clock that its registers name. -/
theorem register_parents {regs : ReadReg} {base : Nat} {s : ClkState}
    (h : cv1800bRegisterClk regs base = some s) :
    (∀ c, namedParent regs base (clkRow c) = some (s.parent c)) ∧
      ∀ c p, s.parent c = some p → p ∈ (clkRow c).parents := by
  obtain ⟨known, hknown, rfl⟩ := Option.map_eq_some_iff.mp h
  have hstart : Registered regs base [] ([], fun _ => none) :=
    ⟨rfl, fun _ h => absurd h List.not_mem_nil⟩
  have hall := hstart.run (List.nil_append _) register_order hknown
  have hnamed : ∀ c, namedParent regs base (clkRow c) = some (known.2 c) := by
    intro c
    have hc := hall.named (clkRow c) (clkRow_mem c)
    rwa [clkRow_id] at hc
  refine ⟨hnamed, fun c p hp => ?_⟩
  have hnamedp : namedParent regs base (clkRow c) = some (some p) := by
    rw [hnamed c]
    exact congrArg some hp
  exact namedParent_mem (clkRow_mem c) hnamedp

theorem register_placed {regs : ReadReg} {base : Nat} {s : ClkState}
    (h : cv1800bRegisterClk regs base = some s) : Placed s.parent :=
  fun c p hp => parents_sub_places _ ((register_parents h).2 c p hp)

/-- **The registration.** It reads no parent from beyond its array unless a mux names one there.
Then every clock hangs from the clock that its registers name, which is one of its parents and
was there before it, and no clock hangs below itself. -/
theorem register_tree (regs : ReadReg) (base : Nat) :
    ((cv1800bRegisterClk regs base).isSome = true ↔
        ∀ c, (namedParent regs base (clkRow c)).isSome = true) ∧
      ∀ s, cv1800bRegisterClk regs base = some s →
        (∀ c, namedParent regs base (clkRow c) = some (s.parent c)) ∧
        (∀ c p, s.parent c = some p → p ∈ (clkRow c).parents ∧ clkRank p < clkRank c) ∧
        (forest s).Acyclic := by
  refine ⟨register_isSome regs base, fun s h => ?_⟩
  obtain ⟨hnamed, hparents⟩ := register_parents h
  have hplaced := register_placed h
  exact ⟨hnamed, fun c p hp => ⟨hparents c p hp, clkRank_lt (hplaced c p hp)⟩,
    hplaced.acyclic⟩

/-! ### What the registers select -/

/-- The bit that bypasses a clock. -/
def bypassBit : ClkHw → Option ClkRegbit
  | .bypassDiv _ _ bypass | .bypassFixedDiv _ _ bypass | .bypassMux _ _ _ bypass => some bypass
  | .mmux _ m _ _ => some m.bypass
  | .fpll _ pll => some pll.en
  | .fixedRate | .gate .. | .div .. | .fixedDiv .. | .mux .. | .audio .. | .ipll .. => none

/-- The tree is as the registers say: a clock that hangs from `bypass` is bypassed, any other
one hangs from the clock that its registers name. -/
def Follows (regs : ReadReg) (base : Nat) (row : ClkRow) (parent : Option ClkId) : Prop :=
  if parent = some .bypass then
    ∃ bit, bypassBit row.hw = some bit ∧ cv1800bClkGetbit regs base bit ≠ 0
  else namedParent regs base row = some parent

/-- The parents of a clock are told apart by its registers. -/
def selectable (row : ClkRow) : Bool :=
  match row.hw with
  | .mux _ _ sel | .bypassMux _ _ sel _ => decide (row.parents.length ≤ 2 ^ sel.width)
  | .mmux _ m sel infos => decide (m.clkSel.shift < 32) && infos.all fun info =>
    decide (info.index < 2 ^ (sel info.clkSel).width) &&
    decide ((infos.find? fun other =>
      decide (other.clkSel = info.clkSel ∧ other.index = info.index)).map MmuxParent.id =
        some info.id) &&
    decide (Footprint.toBits [(sel info.clkSel).print] &&& Footprint.toBits [m.clkSel.print] = 0)
  | _ => decide (row.parents.length ≤ 1)

theorem table_selectable : ∀ row ∈ clkTable, selectable row = true ∧ .bypass ∉ row.parents ∧
    ∀ bit ∈ (bypassBit row.hw).toList, bit.shift < 32 := by
  decide +kernel

theorem getbit_ne_zero {regs : ReadReg} {base : Nat} {bit : ClkRegbit} (h : bit.shift < 32) :
    cv1800bClkGetbit (cv1800bClkSetbit regs base bit) base bit ≠ 0 := by
  intro hzero
  have hset := setbit_get regs base h
  have hbit := congrArg (fun x => x.getLsbD bit.shift) hzero
  dsimp only [cv1800bClkGetbit] at hbit
  rw [BitVec.getLsbD_and, hset, BitVec.getLsbD_twoPow] at hbit
  simp [h] at hbit

theorem getbit_eq_zero (regs : ReadReg) (base : Nat) (bit : ClkRegbit) :
    cv1800bClkGetbit (cv1800bClkClrbit regs base bit) base bit = 0 := by
  apply BitVec.eq_of_getLsbD_eq
  intro i _
  rw [cv1800bClkGetbit, BitVec.getLsbD_and, BitVec.getLsbD_twoPow]
  by_cases hi : bit.shift = i
  · rw [← hi, clrbit_get, Bool.false_and, BitVec.ofNat_eq_ofNat, BitVec.getLsbD_zero]
  · rw [decide_eq_false hi, Bool.and_false, Bool.and_false, BitVec.ofNat_eq_ofNat,
      BitVec.getLsbD_zero]

theorem getfield_setfield (regs : ReadReg) (base : Nat) {f : ClkRegfield} {index : Nat}
    (h : index < 2 ^ f.width) :
    (cv1800bClkGetfield (cv1800bClkSetfield regs base f (BitVec.ofNat 32 index)) base f).toNat =
      index := by
  have hword : 2 ^ f.width ≤ 2 ^ 32 :=
    Nat.pow_le_pow_right (by decide) ((Nat.le_add_left _ _).trans f.le)
  have hval : (BitVec.ofNat 32 index).toNat = index := by
    rw [BitVec.toNat_ofNat, Nat.mod_eq_of_lt (h.trans_le hword)]
  rw [cv1800bClkGetfield, cv1800bClkSetfield, Function.update_self, BitField.get_replace_of_lt, hval]
  rwa [hval, ClkRegfield.width_field]

theorem mem_of_index {p : ClkId} {parents : List ClkId} {index : Nat}
    (h : getParentIndex p parents = some index) : p ∈ parents := by
  obtain ⟨hlt, hp, -⟩ := List.idxOf?_eq_some_iff.mp h
  exact hp ▸ List.getElem_mem hlt

/-- A name that `set_parent` finds is the one that its index names. -/
theorem named_of_index {regs : ReadReg} {base : Nat} {parents : List ClkId} {sel : ClkRegfield}
    {p : ClkId} {index : Nat} (hindex : getParentIndex p parents = some index)
    (hlength : parents.length ≤ 2 ^ sel.width) :
    parents[(cv1800bClkGetfield (cv1800bClkSetfield regs base sel (BitVec.ofNat 32 index))
      base sel).toNat]? = some p := by
  obtain ⟨hlt, hp, -⟩ := List.idxOf?_eq_some_iff.mp hindex
  rw [getfield_setfield regs base (hlt.trans_le hlength)]
  exact List.getElem?_eq_some_iff.mpr ⟨hlt, hp⟩

/-- What a multi-mux was set to is what it reads. -/
theorem named_of_info {regs : ReadReg} {base : Nat} {m : ClkMmux} {sel : Bool → ClkRegfield}
    {info : MmuxParent} (hindex : info.index < 2 ^ (sel info.clkSel).width)
    (hapart : Footprint.toBits [(sel info.clkSel).print] &&& Footprint.toBits [m.clkSel.print] = 0)
    (hshift : m.clkSel.shift < 32) :
    let regs' := cv1800bClkSetfield
      (if info.clkSel then cv1800bClkClrbit regs base m.clkSel
        else cv1800bClkSetbit regs base m.clkSel) base (sel info.clkSel)
        (BitVec.ofNat 32 info.index)
    mmuxClkSel regs' base m = info.clkSel ∧
      (cv1800bClkGetfield regs' base (sel info.clkSel)).toNat = info.index := by
  intro regs'
  refine ⟨?_, getfield_setfield _ base hindex⟩
  have hkeeps : Footprint.Agree [m.clkSel.print] base
      (if info.clkSel then cv1800bClkClrbit regs base m.clkSel
        else cv1800bClkSetbit regs base m.clkSel) regs' :=
    (keeps_setfield _ base (sel info.clkSel) _).agree (Footprint.apart_of_land hapart)
  rw [mmuxClkSel, getbit_congr m.clkSel hkeeps (List.mem_singleton_self _)]
  cases info.clkSel
  · exact decide_eq_false (getbit_ne_zero hshift)
  · exact decide_eq_true (getbit_eq_zero _ base _)

/-- **`set_parent` writes what the registration reads.** -/
theorem follows_setParent {regs regs' : ReadReg} {base : Nat} {row : ClkRow} {p : ClkId}
    (hrow : row ∈ clkTable) (h : row.setParent regs base p = .ok regs')
    (hp : p ∈ ClkRow.places row) : Follows regs' base row (some p) := by
  obtain ⟨hselect, hbypass, hshift⟩ := table_selectable _ hrow
  have hbypassed : ∀ {bit : ClkRegbit}, bypassBit row.hw = some bit →
      Follows (cv1800bClkSetbit regs base bit) base row (some .bypass) := by
    intro bit hbit
    have hlt : bit.shift < 32 := hshift bit (by rw [hbit]; exact List.mem_singleton_self _)
    rw [Follows, if_pos rfl]
    exact ⟨bit, hbit, getbit_ne_zero hlt⟩
  have hnamed : p ≠ .bypass → namedParent regs' base row = some (some p) →
      Follows regs' base row (some p) := by
    intro hne hname
    rwa [Follows, if_neg fun heq => hne (Option.some.inj heq)]
  -- a clock with one parent is named by it, whatever its registers
  have hsingle : p ∈ row.parents → row.parents.length ≤ 1 → row.parents.head? = some p := by
    intro hmem hlength
    obtain ⟨q, hq⟩ := List.length_eq_one_iff.mp
      (Nat.le_antisymm hlength (List.length_pos_of_mem hmem))
    rw [hq] at hmem ⊢
    rw [List.mem_singleton.mp hmem]
    rfl
  have hmem : p ≠ .bypass → p ∈ row.parents := by
    intro hne
    rw [ClkRow.places] at hp
    split_ifs at hp
    · exact (List.mem_cons.mp hp).resolve_left hne
    · exact hp
  obtain ⟨id, parents, flags, hw⟩ := row
  cases hw with
  | fixedRate | gate | div | fixedDiv | audio | ipll => cases h
  | bypassDiv bit d bypass | bypassFixedDiv bit k bypass =>
    dsimp only [ClkRow.setParent, bypassDivSetParent] at h
    split_ifs at h with heq hnot
    · obtain rfl := Except.ok.inj h
      subst heq
      exact hbypassed rfl
    · obtain rfl := Except.ok.inj h
      exact hnamed heq (congrArg some (hsingle (hmem heq) (of_decide_eq_true hselect)))
  | mux bit d sel =>
    dsimp only [ClkRow.setParent, muxSetParent] at h
    split at h
    · cases h
    · rename_i index hindex
      obtain rfl := Except.ok.inj h
      have hne : p ≠ .bypass := by
        rintro rfl
        exact hbypass (mem_of_index hindex)
      refine hnamed hne ?_
      rw [namedParent]
      dsimp only
      rw [named_of_index hindex (of_decide_eq_true hselect)]
      rfl
  | bypassMux bit d sel bypass =>
    dsimp only [ClkRow.setParent, bypassMuxSetParent] at h
    split_ifs at h with heq
    · obtain rfl := Except.ok.inj h
      subst heq
      exact hbypassed rfl
    · split at h
      · cases h
      · rename_i index hindex
        obtain rfl := Except.ok.inj h
        refine hnamed heq ?_
        rw [namedParent]
        dsimp only
        rw [named_of_index hindex (of_decide_eq_true hselect)]
        rfl
  | mmux bit m sel infos =>
    dsimp only [ClkRow.setParent, mmuxSetParent] at h
    split_ifs at h with heq
    · obtain rfl := Except.ok.inj h
      subst heq
      exact hbypassed rfl
    · split at h
      · cases h
      · rename_i info hinfo
        obtain rfl := Except.ok.inj h
        refine hnamed heq ?_
        rw [selectable, Bool.and_eq_true, List.all_eq_true] at hselect
        have hself := hselect.2 info (List.mem_of_find?_eq_some hinfo)
        rw [Bool.and_eq_true, Bool.and_eq_true] at hself
        have hfound := List.find?_some hinfo
        have hid : info.id = p := of_decide_eq_true hfound
        obtain ⟨hsel, hindex⟩ := @named_of_info (cv1800bClkClrbit regs base m.bypass) base m sel info
          (of_decide_eq_true hself.1.1) (of_decide_eq_true hself.2) (of_decide_eq_true hselect.1)
        rw [namedParent]
        dsimp only
        rw [hsel, hindex, Option.map_eq_some_iff]
        obtain ⟨other, hother, hsame⟩ := Option.map_eq_some_iff.mp (of_decide_eq_true hself.1.2)
        exact ⟨other, hother, congrArg some (hsame.trans hid)⟩
  | fpll pwd pll =>
    dsimp only [ClkRow.setParent, cv1800bFpllSetParent] at h
    split_ifs at h with heq
    · obtain rfl := Except.ok.inj h
      subst heq
      exact hbypassed rfl
    · obtain rfl := Except.ok.inj h
      exact hnamed heq (congrArg some (hsingle (hmem heq) (of_decide_eq_true hselect)))

/-- The driver takes any clock for a parent. -/
def takesAny : ClkHw → Bool
  | .fpll .. => true
  | _ => false

/-- `set_parent` refuses what is not a place for the clock, unless it takes anything. -/
theorem place_of_setParent {regs regs' : ReadReg} {base : Nat} {row : ClkRow} {p : ClkId}
    (hrow : row ∈ clkTable) (h : row.setParent regs base p = .ok regs')
    (hany : takesAny row.hw = true → p ∈ ClkRow.places row) : p ∈ ClkRow.places row := by
  obtain ⟨id, parents, flags, hw⟩ := row
  have hmem : p = .bypass ∨ p ∈ parents → hasSetParent hw = true →
      p ∈ ClkRow.places ⟨id, parents, flags, hw⟩ := by
    intro hp hset
    rw [ClkRow.places, if_pos hset]
    exact List.mem_cons.mpr hp
  cases hw with
  | fixedRate | gate | div | fixedDiv | audio | ipll => cases h
  | fpll pwd pll => exact hany rfl
  | bypassDiv bit d bypass | bypassFixedDiv bit k bypass =>
    dsimp only [ClkRow.setParent, bypassDivSetParent] at h
    split_ifs at h with heq hnot
    · exact hmem (.inl heq) rfl
    · exact hmem (.inr hnot) rfl
  | mux bit d sel =>
    dsimp only [ClkRow.setParent, muxSetParent] at h
    split at h
    · cases h
    · rename_i index hindex
      exact hmem (.inr (mem_of_index hindex)) rfl
  | bypassMux bit d sel bypass =>
    dsimp only [ClkRow.setParent, bypassMuxSetParent] at h
    split_ifs at h with heq
    · exact hmem (.inl heq) rfl
    · split at h
      · cases h
      · rename_i index hindex
        exact hmem (.inr (mem_of_index hindex)) rfl
  | mmux bit m sel infos =>
    dsimp only [ClkRow.setParent, mmuxSetParent] at h
    split_ifs at h with heq
    · exact hmem (.inl heq) rfl
    · split at h
      · cases h
      · rename_i info hinfo
        have hfound := List.find?_some hinfo
        have hid : info.id = p := of_decide_eq_true hfound
        have hparent := parentInfos_mem _ hrow info (List.mem_of_find?_eq_some hinfo)
        exact hmem (.inr (hid ▸ hparent)) rfl

/-- Only `set_parent` can make the registers say otherwise. -/
theorem follows_congr {regs regs' : ReadReg} {base : Nat} {row : ClkRow} {parent : Option ClkId}
    (hagree : Footprint.Agree row.hw.parentWrites base regs regs')
    (h : Follows regs base row parent) : Follows regs' base row parent := by
  have hbypass : ∀ {bit : ClkRegbit}, bypassBit row.hw = some bit →
      cv1800bClkGetbit regs' base bit = cv1800bClkGetbit regs base bit := by
    intro bit hbit
    refine getbit_congr bit hagree ?_
    cases hhw : row.hw with
    | fixedRate | gate | div | fixedDiv | mux | audio | ipll =>
      rw [hhw] at hbit
      exact absurd hbit.symm (Option.some_ne_none _)
    | bypassDiv | bypassFixedDiv | bypassMux | mmux | fpll =>
      rw [hhw] at hbit
      obtain rfl := Option.some.inj hbit
      exact List.mem_cons_self ..
  have hnamed : namedParent regs' base row = namedParent regs base row := by
    rw [namedParent, namedParent]
    cases hhw : row.hw with
    | fixedRate | gate | div | bypassDiv | fixedDiv | bypassFixedDiv | audio | ipll | fpll => rfl
    | mux bit d sel | bypassMux bit d sel bypass =>
      rw [hhw] at hagree
      dsimp only
      rw [getfield_congr (f := sel) hagree (by simp [ClkHw.parentWrites])]
    | mmux bit m sel infos =>
      rw [hhw] at hagree
      have hsel := getbit_congr m.clkSel hagree (by simp [ClkHw.parentWrites])
      have hfield : ∀ b, cv1800bClkGetfield regs' base (sel b) = cv1800bClkGetfield regs base (sel b) :=
        fun b => getfield_congr hagree (by cases b <;> simp [ClkHw.parentWrites])
      have hclkSel : mmuxClkSel regs' base m = mmuxClkSel regs base m := by
        rw [mmuxClkSel, mmuxClkSel, hsel]
      dsimp only
      rw [hclkSel, hfield]
  rw [Follows] at h ⊢
  split_ifs at h ⊢
  · obtain ⟨bit, hbit, hne⟩ := h
    exact ⟨bit, hbit, (hbypass hbit).symm ▸ hne⟩
  · rw [hnamed, h]

end ClkTree

end LicheeRvNano
