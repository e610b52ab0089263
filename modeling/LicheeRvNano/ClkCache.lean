import LicheeRvNano.ClkUse
import LicheeRvNano.ForestCache

/-!
# U-Boot's clock framework: the cached rates

`clk_get_parent_rate` keeps the rate of the parent, and `clk_set_rate` throws away what it has
kept for the clock and for all below it. `RateIs` is the rate of a clock without any cache.
`get_rate_true` says that in every run that is `Fresh` `clk_get_rate` answers with it, as long
as it divides by nothing that is zero. In such a run no clock is moved while a rate at or below
it is kept, since `clk_set_parent` does not throw rates away.
-/

namespace LicheeRvNano

open ClkTable Forest ClkTree

namespace ClkCache

/-- How a clock comes to its rate. -/
def rateNode (regs : ReadReg) (base : Nat) (oscRate : BitVec 64) (c : ClkId) :
    ValueNode (BitVec 64) where
  asks := (clkRow c).hw.asksParent regs base
  own := (clkRow c).hw.getRate regs base oscRate 0
  top := (clkRow c).hw.getRate regs base oscRate (BitVec.ofInt 64 (-ENODEV))
  make := (clkRow c).hw.getRate regs base oscRate

/-- The rate of a clock by the registers and the tree. -/
def RateIs (base : Nat) (oscRate : BitVec 64) (s : ClkState) (c : ClkId) (v : BitVec 64) : Prop :=
  Yields (rateNode s.regs base oscRate) (forest s) c v

/-- The kept rates are the rates of the clocks. -/
structure Kept (base : Nat) (oscRate : BitVec 64) (s : ClkState) : Prop where
  placed : Placed s.parent
  coherent : Coherent (rateNode s.regs base oscRate) (forest s) s.rate
  parents : ∀ d, s.rate d ≠ 0 → d ∉ sharedDiv

variable {base fuel : Nat} {oscRate : BitVec 64} {s s' : ClkState} {c p : ClkId}
  {regs regs' : ReadReg}

theorem places_not_shared (c : ClkId) (hp : p ∈ ClkRow.places (clkRow c)) : p ∉ sharedDiv := by
  have hall : ∀ row ∈ clkTable, (ClkRow.places row).all (fun p => decide (p ∉ sharedDiv)) = true := by
    decide +kernel
  exact of_decide_eq_true (List.all_eq_true.mp (hall _ (clkRow_mem c)) p hp)

theorem rateNode_congr
    (h : Footprint.Agree ((clkRow c).hw.reads ++ (clkRow c).hw.half) base regs regs') :
    rateNode regs' base oscRate c = rateNode regs base oscRate c := by
  have hrate := fun p => (getRate_congr h oscRate p).1
  have hasks := (getRate_congr h oscRate 0).2
  rw [rateNode, rateNode, hrate, hrate, hasks, funext hrate]

/-! ## Getting a rate -/

/-- What getting the rate `v` of a clock does. -/
structure Got (base : Nat) (oscRate : BitVec 64) (s : ClkState) (c : ClkId) (s' : ClkState)
    (v : BitVec 64) : Prop where
  kept : Kept base oscRate s'
  rate : RateIs base oscRate s c v
  frame : s' = { s with rate := s'.rate }
  above : ∀ d, s'.rate d ≠ s.rate d → clkRank d < clkRank c

/-- `clk_get_parent_rate` keeps the rates that it has to ask for. -/
theorem clkGetParentRate_kept {getRate : ClkState → ClkId → Option (ClkState × BitVec 64)}
    {v : BitVec 64} (h : Kept base oscRate s)
    (hget : ∀ {p t w}, s.parent c = some p → getRate s p = some (t, w) → Got base oscRate s p t w)
    (hs : clkGetParentRate getRate s c = some (s', v)) :
    Kept base oscRate s' ∧ s' = { s with rate := s'.rate } ∧
      (∀ d, s'.rate d ≠ s.rate d → clkRank d < clkRank c) ∧
      (s.parent c = none → v = BitVec.ofInt 64 (-ENODEV)) ∧
      ∀ p, s.parent c = some p → RateIs base oscRate s p v := by
  rw [clkGetParentRate] at hs
  cases hp : s.parent c with
  | none =>
    rw [hp] at hs
    obtain ⟨rfl, rfl⟩ := Prod.mk.inj (Option.some.inj hs)
    exact ⟨h, rfl, fun d hd => absurd rfl hd, fun _ => rfl,
      fun p hp => absurd hp.symm (Option.some_ne_none p)⟩
  | some p =>
    rw [hp] at hs
    dsimp only at hs
    have hplace := h.placed c p hp
    split_ifs at hs with hmiss
    · -- it is not there: it is asked for and kept
      obtain ⟨⟨t, w⟩, hrec, heq⟩ := Option.map_eq_some_iff.mp hs
      obtain ⟨rfl, rfl⟩ := Prod.mk.inj heq
      have hgot := hget hp hrec
      have hyields : RateIs base oscRate t p w := by
        rw [hgot.frame]
        exact hgot.rate
      have hother : ∀ d, d ≠ p → Function.update t.rate p w d = t.rate d :=
        fun d hd => Function.update_of_ne hd _ _
      refine ⟨⟨hgot.kept.placed, hgot.kept.coherent.update hyields, fun d hd => ?_⟩, ?_,
        fun d hd => ?_, fun hnone => absurd hnone (Option.some_ne_none p), fun q hq => ?_⟩
      · by_cases hdp : d = p
        · rw [hdp]
          exact places_not_shared c hplace
        · exact hgot.kept.parents d (hother d hdp ▸ hd)
      · rw [hgot.frame]
      · by_cases hdp : d = p
        · rw [hdp]
          exact clkRank_lt hplace
        · exact (hgot.above d (hother d hdp ▸ hd)).trans (clkRank_lt hplace)
      · rw [← Option.some.inj hq]
        exact hgot.rate
    · -- it is there
      obtain ⟨rfl, rfl⟩ := Prod.mk.inj (Option.some.inj hs)
      rw [not_or] at hmiss
      refine ⟨h, rfl, fun d hd => absurd rfl hd, fun hnone => absurd hnone (Option.some_ne_none p),
        fun q hq => ?_⟩
      rw [← Option.some.inj hq]
      exact h.coherent p hmiss.1

/-- `clk_get_rate` answers with the rate. -/
theorem clkGetRate_got {v : BitVec 64} (h : Kept base oscRate s)
    (hs : clkGetRate base oscRate fuel s c = some (s', v)) : Got base oscRate s c s' v := by
  induction fuel generalizing c s' v with
  | zero => exact absurd hs.symm (Option.some_ne_none _)
  | succ fuel ih =>
    rw [clkGetRate] at hs
    split_ifs at hs with hdivides hasks
    · obtain ⟨⟨t, w⟩, hparent, heq⟩ := Option.map_eq_some_iff.mp hs
      obtain ⟨rfl, rfl⟩ := Prod.mk.inj heq
      obtain ⟨hkept, hframe, habove, hnone, hsome⟩ :=
        clkGetParentRate_kept h (fun _ hrec => ih hrec) hparent
      refine ⟨hkept, ?_, hframe, habove⟩
      dsimp only
      rw [hframe]
      cases hp : s.parent c with
      | none =>
        rw [hnone hp]
        exact .top hasks hp
      | some p => exact .made hasks hp (hsome p hp)
    · obtain ⟨rfl, rfl⟩ := Prod.mk.inj (Option.some.inj hs)
      exact ⟨h, .own (Bool.eq_false_iff.mpr hasks), rfl, fun d hd => absurd rfl hd⟩

/-! ## Throwing rates away -/

theorem mem_clkIds (c : ClkId) : c ∈ clkIds :=
  List.mem_map.mpr ⟨c.ctorIdx, List.mem_range.mpr (ctorIdx_lt c), ClkId.ofNat_ctorIdx c⟩

/-- A rate is kept or thrown away. -/
def Thrown (rate rate' : ClkId → BitVec 64) : Prop := ∀ d, rate' d = 0 ∨ rate' d = rate d

theorem Thrown.trans {rate rate' rate'' : ClkId → BitVec 64} (h : Thrown rate rate')
    (h' : Thrown rate' rate'') : Thrown rate rate'' := by
  intro d
  rcases h' d with hzero | hsame
  · exact .inl hzero
  · rw [hsame]
    exact h d

theorem Thrown.zero {rate rate' : ClkId → BitVec 64} (h : Thrown rate rate') {d : ClkId}
    (hd : rate d = 0) : rate' d = 0 :=
  (h d).elim id fun hsame => hsame.trans hd

/-- `clk_clean_rate_cache` throws away what is kept at a clock and below it. -/
theorem clkCleanRateCache_spec {f : Forest ClkId} {rate rate' : ClkId → BitVec 64}
    (h : clkCleanRateCache f.parent fuel rate c = some rate') :
    Thrown rate rate' ∧ ∀ d, f.Hangs d c → rate' d = 0 := by
  induction fuel generalizing c rate rate' with
  | zero => exact absurd h.symm (Option.some_ne_none _)
  | succ fuel ih =>
    rw [clkCleanRateCache] at h
    -- the children, one after the other
    have hchildren : ∀ (l : List ClkId) (rate rate' : ClkId → BitVec 64),
        l.foldlM (fun rate child => clkCleanRateCache f.parent fuel rate child) rate = some rate' →
        Thrown rate rate' ∧ ∀ child ∈ l, ∀ d, f.Hangs d child → rate' d = 0 := by
      intro l
      induction l with
      | nil =>
        intro rate rate' hnil
        obtain rfl := Option.some.inj hnil
        exact ⟨fun _ => .inr rfl, fun _ hchild => absurd hchild List.not_mem_nil⟩
      | cons child l ihl =>
        intro rate rate' hcons
        rw [List.foldlM_cons] at hcons
        obtain ⟨mid, hmid, hrest⟩ := Option.bind_eq_some_iff.mp hcons
        obtain ⟨hthrown, hzero⟩ := ih hmid
        obtain ⟨hthrown', hzero'⟩ := ihl mid rate' hrest
        refine ⟨hthrown.trans hthrown', List.forall_mem_cons.mpr ⟨fun d hd => ?_, hzero'⟩⟩
        exact hthrown'.zero (hzero d hd)
    obtain ⟨hthrown, hzero⟩ := hchildren _ _ _ h
    have hself : Thrown rate (Function.update rate c 0) := by
      intro d
      by_cases hd : d = c
      · rw [hd, Function.update_self]
        exact .inl rfl
      · rw [Function.update_of_ne hd]
        exact .inr rfl
    refine ⟨hself.trans hthrown, fun d hd => ?_⟩
    rcases Relation.ReflTransGen.cases_tail hd with heq | ⟨child, hchild, hstep⟩
    · rw [← heq]
      exact hthrown.zero (Function.update_self ..)
    · exact hzero child (List.mem_filter.mpr ⟨mem_clkIds child, decide_eq_true hstep⟩) d hchild

/-! ## What every run keeps -/

/-- What is above a clock with a divider of its own has one of its own. -/
theorem above_not_shared (hplaced : Placed s.parent) {d e : ClkId} (hd : d ∉ sharedDiv)
    (hup : (forest s).Hangs d e) : e ∉ sharedDiv := by
  rcases Relation.ReflTransGen.cases_tail hup with heq | ⟨e', -, hstep⟩
  · rwa [heq]
  · exact places_not_shared e' (hplaced e' e hstep)

/-- What is written for one clock is not what the others read, but for those with a divider
between them. -/
theorem agree_other (hregs : Footprint.Keeps (clkRow c).hw.changes base regs regs') {e : ClkId}
    (hne : e ≠ c) (hshared : e ∉ sharedDiv) :
    Footprint.Agree ((clkRow e).hw.reads ++ (clkRow e).hw.half) base regs regs' := by
  refine hregs.agree (changes_apart_reads (clkRow_mem c) (clkRow_mem e) ?_ ?_)
  · rw [clkRow_id, clkRow_id]
    exact hne.symm
  · rwa [clkRow_id]

/-- What is written for one clock matters only to what is below it. -/
theorem frame_above (hplaced : Placed s.parent)
    (hregs : Footprint.Keeps (clkRow c).hw.changes base s.regs s'.regs)
    (hparent : ∀ e, e ≠ c → s'.parent e = s.parent e) {d : ClkId} (hd : ¬ (forest s).Hangs d c)
    (hshared : d ∉ sharedDiv) (e : ClkId) (he : (forest s).Hangs d e) :
    s'.parent e = s.parent e ∧ rateNode s'.regs base oscRate e = rateNode s.regs base oscRate e := by
  have hne : e ≠ c := by
    rintro rfl
    exact hd he
  exact ⟨hparent e hne, rateNode_congr (agree_other hregs hne (above_not_shared hplaced hshared he))⟩

namespace Kept

/-- Switches do not matter. -/
theorem switched (h : Kept base oscRate s) {op : ReadReg → ClkId → ReadReg}
    (hop : ∀ regs d, Footprint.Keeps (clkRow d).hw.switchPrint base regs (op regs d))
    {l : List ClkId} (hregs : s'.regs = l.foldl op s.regs) (hparent : s'.parent = s.parent)
    (hrate : s'.rate = s.rate) : Kept base oscRate s' := by
  have hnode : ∀ e, rateNode s'.regs base oscRate e = rateNode s.regs base oscRate e := by
    intro e
    rw [hregs]
    refine rateNode_congr (Footprint.agree_foldl hop fun d _ => ?_)
    refine (switches_apart_others (clkRow_mem d) (clkRow_mem e)).mono ?_
    exact List.Subset.trans (List.subset_append_left _ _) (List.subset_append_left _ _)
  refine ⟨hparent ▸ h.placed, ?_, hrate ▸ h.parents⟩
  refine h.coherent.frame fun d _ => ⟨congrFun hrate d, fun e _ => ⟨congrFun hparent e, hnode e⟩⟩

theorem changed (h : Kept base oscRate s)
    (hregs : Footprint.Keeps (clkRow c).hw.changes base s.regs s'.regs)
    (hparent : ∀ e, e ≠ c → s'.parent e = s.parent e) (hrate : s'.rate = s.rate)
    (hplaced : Placed s'.parent) (hclean : ∀ d, (forest s).Hangs d c → s.rate d = 0) :
    Kept base oscRate s' := by
  refine ⟨hplaced, h.coherent.frame fun d hd => ⟨congrFun hrate d, ?_⟩, hrate ▸ h.parents⟩
  rw [hrate] at hd
  exact frame_above h.placed hregs hparent (fun hdown => hd (hclean d hdown)) (h.parents d hd)

theorem enable (h : Kept base oscRate s) (hs : clkEnable base fuel s c = some s') :
    Kept base oscRate s' := by
  obtain ⟨l, -, hregs, hparent, hrate⟩ := clkEnable_spec hs
  exact h.switched (fun regs d => keeps_enable regs base (clkRow d).hw) hregs hparent hrate

theorem disable (h : Kept base oscRate s) (hs : clkDisable base fuel s c = some s') :
    Kept base oscRate s' := by
  obtain ⟨l, -, hregs, hparent, hrate⟩ := clkDisable_spec hs
  exact h.switched (fun regs d => keeps_disable regs base (clkRow d).hw) hregs hparent hrate

end Kept

/-- A clock is only moved while no rate at or below it is kept, and a fractional PLL, which does
not look, is only hung where it may be. -/
def Fresh (u : ClkUse) : ClkCall → Prop
  | .setParent c p => (takesAny (clkRow c).hw = true → p ∈ ClkRow.places (clkRow c)) ∧
    ∀ d, (forest u.clk).Hangs d c → u.clk.rate d = 0
  | .enable _ | .disable _ | .getRate _ | .setRate _ _ => True

/-- What is left of the cache is still right. -/
theorem Kept.thrown (h : Kept base oscRate s) {rate : ClkId → BitVec 64}
    (hthrown : Thrown s.rate rate) : Kept base oscRate { s with rate := rate } := by
  have hkeep : ∀ e, rate e ≠ 0 → rate e = s.rate e := fun e he => (hthrown e).resolve_left he
  exact ⟨h.placed, h.coherent.frame fun e he => ⟨hkeep e he, fun _ _ => ⟨rfl, rfl⟩⟩,
    fun e he => h.parents e (hkeep e he ▸ he)⟩

theorem Kept.setRateParentRate {v : BitVec 64} (h : Kept base oscRate s)
    (hs : setRateParentRate base oscRate fuel s c = some (s', v)) :
    Kept base oscRate s' ∧ ∀ d, s'.rate d ≠ s.rate d → clkRank d < clkRank c := by
  rw [ClkTree.setRateParentRate] at hs
  split_ifs at hs
  · obtain ⟨hkept, -, habove, -⟩ := clkGetParentRate_kept h (fun _ hrec => clkGetRate_got h hrec) hs
    exact ⟨hkept, habove⟩
  · obtain ⟨rfl, -⟩ := Prod.mk.inj (Option.some.inj hs)
    exact ⟨h, fun d hd => absurd rfl hd⟩

/-- Setting a rate throws away what it makes wrong. -/
theorem Kept.setRate {rate v : BitVec 64} (h : Kept base oscRate s)
    (hs : clkSetRate base oscRate fuel s c rate = some (s', v)) : Kept base oscRate s' := by
  obtain ⟨rfl, -⟩ | ⟨d, cleaned, t, parentRate, regs, -, hclean, hasked, hset, rfl⟩ :=
    clkSetRate_cases hs
  · exact h
  · obtain ⟨hthrown, hzero⟩ := clkCleanRateCache_spec (f := forest s) hclean
    have hleft := h.thrown hthrown
    have hframe := setRateParentRate_spec hasked
    obtain ⟨hkept, habove⟩ := hleft.setRateParentRate hasked
    refine hkept.changed (c := d) ((keeps_setRate _ base hset).mono (List.subset_append_left _ _))
      (fun _ _ => rfl) rfl hkept.placed fun e he => ?_
    have hdown : (forest s).Hangs e d := by
      rw [hframe] at he
      exact he
    by_contra hne
    have hlt := habove e fun heq => hne (heq.trans (hzero e hdown))
    exact absurd (Placed.rank_le h.placed hdown) (Nat.not_le_of_gt hlt)

/-- One call. -/
theorem Kept.call {u u' : ClkUse} {a : ClkCall} {ev : List ClkId} (h : Kept base oscRate u.clk)
    (hok : Fresh u a) (hs : ClkUse.call base oscRate fuel u a = some (u', ev)) :
    Kept base oscRate u'.clk := by
  cases a with
  | enable c =>
    obtain ⟨s, hcall, heq⟩ := Option.map_eq_some_iff.mp hs
    obtain ⟨rfl, -⟩ := Prod.mk.inj heq
    exact h.enable hcall
  | disable c =>
    obtain ⟨s, hcall, heq⟩ := Option.map_eq_some_iff.mp hs
    obtain ⟨rfl, -⟩ := Prod.mk.inj heq
    exact h.disable hcall
  | setParent c p =>
    obtain ⟨⟨s, ret⟩, hcall, heq⟩ := Option.map_eq_some_iff.mp hs
    obtain ⟨rfl, -⟩ := Prod.mk.inj heq
    obtain ⟨rfl, -⟩ | ⟨t, ht, ⟨hback, -⟩ | ⟨regs, hset, -, rfl⟩⟩ := clkSetParent_cases hcall
    · exact h
    · exact (h.enable ht).disable hback
    · have hp := place_of_setParent (clkRow_mem c) hset hok.1
      obtain ⟨l, -, -, hparent, hrate⟩ := clkEnable_spec ht
      have hupdate : ∀ e, e ≠ c → Function.update t.parent c (some p) e = t.parent e :=
        fun e he => Function.update_of_ne he _ _
      refine (h.enable ht).changed (c := c)
        ((keeps_setParent _ base hset).mono (List.subset_append_right _ _)) hupdate rfl ?_ ?_
      · exact Placed.update (hparent ▸ h.placed) hp
      · intro d hd
        rw [hrate]
        refine hok.2 d ?_
        have hsame : (forest t).Hangs = (forest u.clk).Hangs := by
          rw [Forest.Hangs, Forest.Hangs, forest, forest, hparent]
        rwa [← hsame]
  | getRate c =>
    obtain ⟨⟨s, v⟩, hcall, heq⟩ := Option.map_eq_some_iff.mp hs
    obtain ⟨rfl, -⟩ := Prod.mk.inj heq
    exact (clkGetRate_got h hcall).kept
  | setRate c rate =>
    obtain ⟨⟨s, v⟩, hcall, heq⟩ := Option.map_eq_some_iff.mp hs
    obtain ⟨rfl, -⟩ := Prod.mk.inj heq
    exact h.setRate hcall

theorem kept_start (h : cv1800bRegisterClk regs base = some s) : Kept base oscRate s := by
  have hplaced := register_placed h
  obtain ⟨known, -, rfl⟩ := Option.map_eq_some_iff.mp h
  exact ⟨hplaced, fun d hd => absurd rfl hd, fun d hd => absurd rfl hd⟩

theorem kept_run {calls : List ClkCall} {u : ClkUse} {log : List ClkId}
    (hreg : cv1800bRegisterClk regs base = some s)
    (hok : (ClkUse.machine base oscRate fuel).Meets Fresh (ClkUse.start s) calls)
    (hrun : (ClkUse.machine base oscRate fuel).exec (ClkUse.start s) calls = some (u, log)) :
    Kept base oscRate u.clk :=
  Machine.exec_invariant_start (I := fun u _ => Kept base oscRate u.clk) (kept_start hreg)
    (fun h hok hs => h.call hok hs) hok hrun

/-- **The cached rates.** In every run in which no clock is moved while a rate at or below it is
kept, and no fractional PLL to where it may not be, `clk_get_rate` answers, unless it divides by
zero on its way up, with the rate that follows from the registers and the tree, as if there were
no cache. -/
theorem get_rate_true {calls : List ClkCall} {u : ClkUse} {log : List ClkId}
    (hreg : cv1800bRegisterClk regs base = some s)
    (hok : (ClkUse.machine base oscRate fuel).Meets Fresh (ClkUse.start s) calls)
    (hrun : (ClkUse.machine base oscRate fuel).exec (ClkUse.start s) calls = some (u, log))
    (hfuel : 164 < fuel) (hdivides : RateDivides base u.clk c) :
    ∃ s' v, clkGetRate base oscRate fuel u.clk c = some (s', v) ∧ RateIs base oscRate u.clk c v := by
  have hkept := kept_run hreg hok hrun
  obtain ⟨⟨s', v⟩, hget⟩ := Option.isSome_iff_exists.mp (@clkGetRate_isSome base fuel oscRate u.clk c
    hkept.placed hdivides ((clkRank_bound c).trans hfuel))
  exact ⟨s', v, hget, (clkGetRate_got hkept hget).rate⟩

/-! ### A run -/

/-- The rates above the clock of the SD card and above that of the ROM are kept. -/
def keepCalls : List ClkCall := [.enable .clkSd0, .getRate .clkSd0, .getRate .clkAhbRom]

theorem keep_calls : ((ClkUse.machine CLK_BASE 25000000 165).exec (ClkUse.start ClkUse.bootClk)
    keepCalls).isSome = true := by
  decide +kernel

def keepEnd : ClkUse × List ClkId :=
  ((ClkUse.machine CLK_BASE 25000000 165).exec (ClkUse.start ClkUse.bootClk) keepCalls).get keep_calls

theorem keep_exec : (ClkUse.machine CLK_BASE 25000000 165).exec (ClkUse.start ClkUse.bootClk)
    keepCalls = some (keepEnd.1, keepEnd.2) := by
  rw [Prod.mk.eta, keepEnd, Option.some_get]

theorem keep_fresh :
    (ClkUse.machine CLK_BASE 25000000 165).Meets Fresh (ClkUse.start ClkUse.bootClk) keepCalls := by
  refine Machine.Meets.of_forall fun a ha u => ?_
  simp only [keepCalls, List.mem_cons, List.not_mem_nil, or_false] at ha
  rcases ha with rfl | rfl | rfl <;> exact trivial

theorem keep_divides (hway : (wayUp keepEnd.1.clk.parent 165 c).all
    (fun d => (clkRow d).hw.getRateDivides keepEnd.1.clk.regs CLK_BASE) = true) :
    RateDivides CLK_BASE keepEnd.1.clk c := by
  have hkept := @kept_run CLK_BASE 165 25000000 _ _ _ _ _ ClkUse.boot_register keep_fresh keep_exec
  exact rateDivides_of_wayUp hkept.placed (by decide) hway

/-- The rate of the ROM, from what is kept. -/
theorem get_rate_true_rom : RateIs CLK_BASE 25000000 keepEnd.1.clk .clkAhbRom 300000000 := by
  have hrate : (clkGetRate CLK_BASE 25000000 165 keepEnd.1.clk .clkAhbRom).map Prod.snd =
      some 300000000 := by
    decide +kernel
  obtain ⟨s', v, hget, hv⟩ := get_rate_true ClkUse.boot_register keep_fresh keep_exec (by decide)
    (keep_divides (c := .clkAhbRom) (by decide +kernel))
  rw [hget] at hrate
  exact Option.some.inj hrate ▸ hv

/-- Moving the clock above it, with its rate kept: the old rate is still the answer, while an
empty cache gives another. -/
example : (clkSetParent CLK_BASE 165 keepEnd.1.clk .clkAxi4 .clkDisppll).map (fun r =>
    ((clkGetRate CLK_BASE 25000000 165 r.1 .clkAhbRom).map Prod.snd,
      (clkGetRate CLK_BASE 25000000 165 { r.1 with rate := fun _ => 0 } .clkAhbRom).map Prod.snd)) =
    some (some 300000000, some 240000000) := by
  decide +kernel

/-! ## Setting a rate and getting it -/

/-- The divider that the rate of a clock goes through. -/
def dividerOf (regs : ReadReg) (base : Nat) : ClkHw → Option ClkDivider
  | .div _ d | .mux _ d _ => some d
  | .bypassDiv _ d bypass | .bypassMux _ d _ bypass =>
    if cv1800bClkGetbit regs base bypass = 0 then some d else none
  | .mmux _ m _ _ =>
    if cv1800bClkGetbit regs base m.bypass = 0 then some (m.div (mmuxClkSel regs base m)) else none
  | .fixedRate | .gate .. | .fixedDiv .. | .bypassFixedDiv .. | .audio .. | .ipll .. | .fpll .. =>
    none

/-- A clock with a divider is set and got through the divider. -/
structure Divides (regs : ReadReg) (base : Nat) (hw : ClkHw) (d : ClkDivider) : Prop where
  hasSetRate : hw.hasSetRate = true
  setAsks : hw.setRateAsksParent regs base = true
  asks : hw.asksParent regs base = true
  set : ∀ fuel p rate, hw.setRate fuel regs base p rate = some (d.setRate regs base p rate)
  get : ∀ oscRate p, hw.getRate regs base oscRate p = d.getRate regs base p

theorem divides {hw : ClkHw} {d : ClkDivider} (h : dividerOf regs base hw = some d) :
    Divides regs base hw d := by
  cases hw with
  | fixedRate | gate | fixedDiv | bypassFixedDiv | audio | ipll | fpll =>
    exact absurd h.symm (Option.some_ne_none _)
  | div bit d' | mux bit d' sel =>
    obtain rfl := Option.some.inj h
    exact ⟨rfl, rfl, rfl, fun _ _ _ => rfl, fun _ _ => rfl⟩
  | bypassDiv bit d' bypass | bypassMux bit d' sel bypass =>
    rw [dividerOf] at h
    split_ifs at h with hzero
    obtain rfl := Option.some.inj h
    refine ⟨rfl, decide_eq_true hzero, decide_eq_true hzero, fun fuel p rate => ?_,
      fun oscRate p => ?_⟩
    · simp only [ClkHw.setRate, bypassDivSetRate, if_neg (not_not.mpr hzero), divSetRate]
    · simp only [ClkHw.getRate, bypassDivGetRate, if_neg (not_not.mpr hzero), divGetRate]
  | mmux bit m sel infos =>
    rw [dividerOf] at h
    split_ifs at h with hzero
    obtain rfl := Option.some.inj h
    refine ⟨rfl, rfl, decide_eq_true hzero, fun fuel p rate => ?_, fun oscRate p => ?_⟩
    · simp only [ClkHw.setRate, mmuxSetRate, if_neg (not_not.mpr hzero)]
    · simp only [ClkHw.getRate, mmuxGetRate, if_neg (not_not.mpr hzero)]

/-- Which divider it is depends on what selects the parent. -/
theorem dividerOf_congr {hw : ClkHw} (h : Footprint.Agree hw.parentWrites base regs regs') :
    dividerOf regs' base hw = dividerOf regs base hw := by
  cases hw with
  | fixedRate | gate | div | fixedDiv | bypassFixedDiv | mux | audio | ipll | fpll => rfl
  | bypassDiv bit d bypass | bypassMux bit d sel bypass =>
    have hbypass := getbit_congr bypass h (by simp [ClkHw.parentWrites])
    simp only [dividerOf, hbypass]
  | mmux bit m sel infos =>
    have hbypass := getbit_congr m.bypass h (by simp [ClkHw.parentWrites])
    have hsel := getbit_congr m.clkSel h (by simp [ClkHw.parentWrites])
    simp only [dividerOf, mmuxClkSel, hbypass, hsel]

/-- Setting the rate of a clock with a divider sets the divider. -/
theorem clkSetRate_divider {d : ClkDivider} {parentRate rate v : BitVec 64}
    (h : Kept base oscRate s) (hd : dividerOf s.regs base (clkRow c).hw = some d)
    (hp : s.parent c = some p) (hparent : RateIs base oscRate s p parentRate)
    (hset : clkSetRate base oscRate fuel s c rate = some (s', v)) :
    s'.regs = (d.setRate s.regs base parentRate rate).1 ∧
      v = (d.setRate s.regs base parentRate rate).2 := by
  have hdivides := divides hd
  obtain ⟨-, ret, hnone⟩ | ⟨e, cleaned, t, asked, regs, hfound, hclean, hasked, hwrite, rfl⟩ :=
    clkSetRate_cases hset
  · exact absurd (clkSetRateOn_self hnone hdivides.hasSetRate) (fun heq => by cases heq)
  · obtain rfl : e = c := Except.ok.inj (clkSetRateOn_self hfound hdivides.hasSetRate)
    have hframe := setRateParentRate_spec hasked
    have hleft := h.thrown (clkCleanRateCache_spec (f := forest s) hclean).1
    rw [setRateParentRate, if_pos hdivides.setAsks] at hasked
    obtain ⟨-, -, -, -, hsome⟩ :=
      clkGetParentRate_kept hleft (fun _ hrec => clkGetRate_got hleft hrec) hasked
    obtain rfl : asked = parentRate := (hsome p hp).unique hparent
    rw [hframe, hdivides.set] at hwrite
    exact ⟨(congrArg Prod.fst (Option.some.inj hwrite)).symm,
      (congrArg Prod.snd (Option.some.inj hwrite)).symm⟩

/-- A clock with a divider, set to a rate from 1 to 2^32 - 1, divides by nothing that is zero, and
neither does its `get_rate` afterwards (`val_setRate_ne_zero`). -/
theorem divider_divides {hw : ClkHw} {d : ClkDivider} {parentRate rate : BitVec 64}
    (hd : dividerOf regs base hw = some d) (hpos : 0 < parentRate.toNat)
    (hlt : parentRate.toNat < 2 ^ 32) (hrate : 0 < rate.toNat) (hrate' : rate.toNat < 2 ^ 32) :
    hw.setRateDivides regs base parentRate rate = true := by
  have hval : d.setVal parentRate rate ≠ 0 := by
    intro hzero
    have hvalpos := ClkDivider.setVal_pos (d := d) hpos hlt hrate hrate'
    rw [hzero] at hvalpos
    exact Nat.lt_irrefl 0 hvalpos
  have hcut : rate.setWidth 32 ≠ 0 := by
    intro hzero
    have htoNat := congrArg BitVec.toNat hzero
    rw [BitVec.toNat_setWidth, Nat.mod_eq_of_lt hrate'] at htoNat
    exact hrate.ne' htoNat
  have hself : d.setRateDivides parentRate rate = true := by
    rw [ClkDivider.setRateDivides, decide_eq_true hcut, decide_eq_true hval]
    rfl
  cases hw with
  | fixedRate | gate | fixedDiv | bypassFixedDiv | audio | ipll | fpll =>
    exact absurd hd.symm (Option.some_ne_none _)
  | div bit d' | mux bit d' sel =>
    obtain rfl := Option.some.inj hd
    exact hself
  | bypassDiv bit d' bypass | bypassMux bit d' sel bypass =>
    rw [dividerOf] at hd
    split_ifs at hd
    obtain rfl := Option.some.inj hd
    rw [ClkHw.setRateDivides, hself, Bool.or_true]
  | mmux bit m sel infos =>
    rw [dividerOf] at hd
    split_ifs at hd
    obtain rfl := Option.some.inj hd
    rw [ClkHw.setRateDivides, hself, Bool.or_true]

theorem val_setRate_ne_zero {d : ClkDivider} {parentRate rate : BitVec 64}
    (hpos : 0 < parentRate.toNat) (hlt : parentRate.toNat < 2 ^ 32) (hrate : 0 < rate.toNat)
    (hrate' : rate.toNat < 2 ^ 32) : d.val (d.setRate regs base parentRate rate).1 base ≠ 0 := by
  intro hzero
  have htoNat := congrArg BitVec.toNat hzero
  rw [ClkDivider.val_setRate, BitVec.toNat_setWidth_of_le (by decide)] at htoNat
  exact (ClkDivider.setVal_pos (d := d) hpos hlt hrate hrate').ne' htoNat

theorem getRateDivides_of_val {hw : ClkHw} {d : ClkDivider} (hd : dividerOf regs base hw = some d)
    (hval : d.val regs base ≠ 0) : hw.getRateDivides regs base = true := by
  cases hw with
  | fixedRate | gate | fixedDiv | bypassFixedDiv | audio | ipll | fpll =>
    exact absurd hd.symm (Option.some_ne_none _)
  | div bit d' | mux bit d' sel =>
    obtain rfl := Option.some.inj hd
    exact decide_eq_true hval
  | bypassDiv bit d' bypass | bypassMux bit d' sel bypass =>
    rw [dividerOf] at hd
    split_ifs at hd
    obtain rfl := Option.some.inj hd
    rw [ClkHw.getRateDivides, decide_eq_true hval, Bool.or_true]
  | mmux bit m sel infos =>
    rw [dividerOf] at hd
    split_ifs at hd
    obtain rfl := Option.some.inj hd
    rw [ClkHw.getRateDivides, decide_eq_true hval, Bool.or_true]

/-- Setting the rate of a clock with a divider returns when getting the rate of its parent does. -/
theorem clkSetRate_isSome {d : ClkDivider} {parentRate rate : BitVec 64} (h : Kept base oscRate s)
    (hd : dividerOf s.regs base (clkRow c).hw = some d) (hp : s.parent c = some p)
    (hdivides : RateDivides base s p) (hparent : RateIs base oscRate s p parentRate)
    (hset : (clkRow c).hw.setRateDivides s.regs base parentRate rate = true) (hfuel : 164 < fuel) :
    (clkSetRate base oscRate fuel s c rate).isSome = true := by
  have hdiv := divides hd
  obtain ⟨found, hfound⟩ := Option.isSome_iff_exists.mp
    (@clkSetRateOn_isSome fuel s c h.placed ((clkRank_bound c).trans hfuel))
  obtain rfl := clkSetRateOn_self hfound hdiv.hasSetRate
  obtain ⟨cleaned, hclean⟩ := Option.isSome_iff_exists.mp
    (clkCleanRateCache_isSome (c := c) h.placed s.rate (by omega : 164 < fuel + clkRank c))
  have hup : ∀ q, s.parent c = some q → RateDivides base s q := by
    intro q hq
    rwa [← Option.some.inj (hp.symm.trans hq)]
  obtain ⟨⟨t, asked⟩, hasked⟩ := Option.isSome_iff_exists.mp
    (@setRateParentRate_isSome base fuel oscRate { s with rate := cleaned } c h.placed hup hfuel)
  have hframe := setRateParentRate_spec hasked
  have hleft := h.thrown (clkCleanRateCache_spec (f := forest s) hclean).1
  have hvia : clkGetParentRate (clkGetRate base oscRate fuel) { s with rate := cleaned } c =
      some (t, asked) := by
    rwa [setRateParentRate, if_pos hdiv.setAsks] at hasked
  obtain ⟨-, -, -, -, hsome⟩ :=
    clkGetParentRate_kept hleft (fun _ hrec => clkGetRate_got hleft hrec) hvia
  obtain rfl : asked = parentRate := (hsome p hp).unique hparent
  have hregs : t.regs = s.regs := by rw [hframe]
  rw [clkSetRate, hfound, Option.bind_some]
  dsimp only
  rw [hclean, Option.bind_some, opsSetRate, hasked, Option.bind_some]
  dsimp only
  rw [hregs, hset, if_neg (by decide), hdiv.set]
  rfl

/-- **Setting the rate of a clock with a divider.** In every run as in `get_rate_true`, with a
divider on the way and nothing that is zero to divide by above it, and with the rate of the
parent and the rate that is asked for from 1 to 2^32 - 1: `clk_set_rate` returns the greatest
rate that the divider can make of the rate of the parent without exceeding the one asked for,
or, when all of them do, the smallest; `clk_get_rate` then returns the same; and no clock that
is not below this one and has a divider of its own changes its rate. -/
theorem clk_set_rate_best {calls : List ClkCall} {u : ClkUse} {log : List ClkId} {d : ClkDivider}
    {parentRate rate : BitVec 64}
    (hreg : cv1800bRegisterClk regs base = some s)
    (hok : (ClkUse.machine base oscRate fuel).Meets Fresh (ClkUse.start s) calls)
    (hrun : (ClkUse.machine base oscRate fuel).exec (ClkUse.start s) calls = some (u, log))
    (hfuel : 164 < fuel) (hd : dividerOf u.clk.regs base (clkRow c).hw = some d)
    (hp : u.clk.parent c = some p) (hdivides : RateDivides base u.clk p)
    (hparent : RateIs base oscRate u.clk p parentRate) (hpos : 0 < parentRate.toNat)
    (hlt : parentRate.toNat < 2 ^ 32) (hrate : 0 < rate.toNat) (hrate' : rate.toNat < 2 ^ 32) :
    ∃ s' s'' v, clkSetRate base oscRate fuel u.clk c rate = some (s', v) ∧
      clkGetRate base oscRate fuel s' c = some (s'', v) ∧
      (IsGreatest {q | q ∈ d.rates parentRate.toNat ∧ q ≤ rate.toNat} v.toNat ∨
        rate.toNat < v.toNat ∧ IsLeast (d.rates parentRate.toNat) v.toNat) ∧
      ∀ e w, ¬ (forest u.clk).Hangs e c → e ∉ sharedDiv → RateIs base oscRate u.clk e w →
        RateIs base oscRate s' e w := by
  have hkept := kept_run hreg hok hrun
  obtain ⟨⟨s', v⟩, hset⟩ := Option.isSome_iff_exists.mp (clkSetRate_isSome hkept hd hp hdivides
    hparent (divider_divides hd hpos hlt hrate hrate') hfuel)
  obtain ⟨hregs, hv⟩ := clkSetRate_divider hkept hd hp hparent hset
  have hsame := (clkSetRate_spec hset).1
  have hkeeps : Footprint.Keeps (clkRow c).hw.writes base u.clk.regs s'.regs := by
    rw [hregs]
    exact keeps_setRate u.clk.regs base ((divides hd).set fuel parentRate rate)
  have hchanges := hkeeps.mono (List.subset_append_left _ (clkRow c).hw.parentWrites)
  have hparents : ∀ e, e ≠ c → s'.parent e = u.clk.parent e := by
    intro e _
    rw [hsame]
  have hother : ∀ e w, ¬ (forest u.clk).Hangs e c → e ∉ sharedDiv →
      RateIs base oscRate u.clk e w → RateIs base oscRate s' e w := fun _ _ hnot hshared he =>
    Yields.frame he (frame_above hkept.placed hchanges hparents hnot hshared)
  -- the clock is read back through the same divider
  have hd' : dividerOf s'.regs base (clkRow c).hw = some d := by
    rw [dividerOf_congr (hkeeps.agree (apart_of_allBits writes_parents_disjoint (clkRow_mem c)
      (clkRow_mem c))), hd]
  have hplace := hkept.placed c p hp
  have hnot : ¬ (forest u.clk).Hangs p c := Placed.not_hangs hkept.placed hplace
  have hp' : s'.parent c = some p := by
    rw [hsame]
    exact hp
  have hback : RateIs base oscRate s' c (d.getRate s'.regs base parentRate) := by
    rw [← (divides hd').get oscRate]
    exact .made (divides hd').asks hp' (hother p parentRate hnot (places_not_shared c hplace) hparent)
  have hkept' := hkept.setRate hset
  have hdivides' : RateDivides base s' c := by
    have hhangs : (forest s').Hangs = (forest u.clk).Hangs := by
      rw [hsame]
      rfl
    intro e he
    rw [hhangs] at he
    rcases Relation.ReflTransGen.cases_head he with heq | ⟨q, hstep, hup⟩
    · subst heq
      exact getRateDivides_of_val hd' (hregs ▸ val_setRate_ne_zero hpos hlt hrate hrate')
    · -- what is above it is as it was
      obtain rfl : p = q := Option.some.inj (hp.symm.trans hstep)
      have hne : e ≠ c := by
        rintro rfl
        exact hnot hup
      have hshared := above_not_shared hkept.placed (places_not_shared c hplace) hup
      rw [getRateDivides_congr (agree_other hchanges hne hshared)]
      exact hdivides e hup
  obtain ⟨⟨s'', v'⟩, hget⟩ := Option.isSome_iff_exists.mp (@clkGetRate_isSome base fuel oscRate s' c
    hkept'.placed hdivides' ((clkRank_bound c).trans hfuel))
  have hread : v' = v := by
    rw [(clkGetRate_got hkept' hget).rate.unique hback, hregs, hv]
    exact ClkDivider.getRate_setRate d _ base parentRate rate
  refine ⟨s', s'', v, hset, hread ▸ hget, ?_, hother⟩
  rw [hv, ClkDivider.toNat_setRate hpos hlt hrate hrate']
  exact ClkDivider.rates_best hpos hrate d.mask_pos

/-- The clock of the SD card under the FPLL, asked for 400 MHz. -/
theorem clk_set_rate_best_sd0 : ∃ s' s'',
    clkSetRate CLK_BASE 25000000 165 keepEnd.1.clk .clkSd0 400000000 = some (s', 375000000) ∧
    clkGetRate CLK_BASE 25000000 165 s' .clkSd0 = some (s'', 375000000) := by
  have hkept := @kept_run CLK_BASE 165 25000000 _ _ _ _ _ ClkUse.boot_register keep_fresh keep_exec
  have hrate : (clkSetRate CLK_BASE 25000000 165 keepEnd.1.clk .clkSd0 400000000).map Prod.snd =
      some 375000000 := by
    decide +kernel
  have hparentRate : (clkGetRate CLK_BASE 25000000 165 keepEnd.1.clk .clkFpll).map Prod.snd =
      some 1500000000 := by
    decide +kernel
  obtain ⟨⟨t, w⟩, hfpll, rfl⟩ := Option.map_eq_some_iff.mp hparentRate
  obtain ⟨d, hd⟩ : ∃ d, dividerOf keepEnd.1.clk.regs CLK_BASE (clkRow .clkSd0).hw = some d :=
    Option.isSome_iff_exists.mp (by decide +kernel)
  obtain ⟨s', s'', v, hset, hget, -⟩ := clk_set_rate_best ClkUse.boot_register keep_fresh keep_exec
    (by decide) hd (by decide +kernel : keepEnd.1.clk.parent .clkSd0 = some .clkFpll)
    (keep_divides (by decide +kernel)) (clkGetRate_got hkept hfpll).rate (by decide) (by decide)
    (by decide : 0 < (400000000 : BitVec 64).toNat) (by decide)
  rw [hset] at hrate
  obtain rfl : v = 375000000 := Option.some.inj hrate
  exact ⟨s', s'', hset, hget⟩

end ClkCache

end LicheeRvNano
