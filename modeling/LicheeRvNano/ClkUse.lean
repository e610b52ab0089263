import LicheeRvNano.ClkTree

/-!
# U-Boot's clock framework: the clocks in use

Runs of the clock framework: users enable and disable the private clocks, hang them from
others, and get and set rates, in any order that is `Proper`. `Counted` is what every such
run keeps. The counts are those of the users, of the children and of what `clk_set_parent` has
left behind (`counts_exact`); what is counted runs, up to three clocks with one gate, and hangs
where the registers say (`held_runs`); and every call returns that divides by nothing that is
zero and whose search of a PLL for a rate ends (`calls_return`).

`enable_count` is an `int` of C and a natural number here: a count that overflows is not in
the model.
-/

namespace LicheeRvNano

open ClkTable Forest ClkTree

/-- A call of the framework. -/
inductive ClkCall
  | enable (c : ClkId)
  | disable (c : ClkId)
  | setParent (c p : ClkId)
  | getRate (c : ClkId)
  | setRate (c : ClkId) (rate : BitVec 64)

/-- The clocks, and how often each was enabled by its users and not yet disabled. -/
structure ClkUse where
  clk : ClkState
  holds : ClkId → Nat

namespace ClkUse

/-- The clock that `clk_set_parent` leaves enabled for nobody: the old parent of a clock that
is enabled, the new one of a clock that is not. -/
def leftover (s : ClkState) (c p : ClkId) (ret : Int) : List ClkId :=
  if ret ≠ 0 then []
  else if 0 < s.enableCount c then (s.parent c).toList
  else [p]

/-- One call. The events are the clocks that stay enabled for nobody. -/
def call (base : Nat) (oscRate : BitVec 64) (fuel : Nat) (u : ClkUse) :
    ClkCall → Option (ClkUse × List ClkId)
  | .enable c => (clkEnable base fuel u.clk c).map fun s => (⟨s, tally u.holds c⟩, [])
  | .disable c => (clkDisable base fuel u.clk c).map fun s =>
    (⟨s, Function.update u.holds c (u.holds c - 1)⟩, [])
  | .setParent c p => (clkSetParent base fuel u.clk c p).map fun r =>
    (⟨r.1, u.holds⟩, leftover u.clk c p r.2)
  | .getRate c => (clkGetRate base oscRate fuel u.clk c).map fun r => (⟨r.1, u.holds⟩, [])
  | .setRate c rate => (clkSetRate base oscRate fuel u.clk c rate).map fun r =>
    (⟨r.1, u.holds⟩, [])

def machine (base : Nat) (oscRate : BitVec 64) (fuel : Nat) : Machine ClkUse ClkCall ClkId :=
  ⟨call base oscRate fuel⟩

/-- A user only disables what it has enabled, and a fractional PLL, which does not look, is only
hung where it may be. -/
def Proper (u : ClkUse) : ClkCall → Prop
  | .disable c => 0 < u.holds c
  | .setParent c p => takesAny (clkRow c).hw = true → p ∈ ClkRow.places (clkRow c)
  | .enable _ | .getRate _ | .setRate _ _ => True

/-- The clocks as they were registered. -/
def start (s : ClkState) : ClkUse := ⟨s, fun _ => 0⟩

end ClkUse

namespace ClkTree

variable {base fuel : Nat} {oscRate : BitVec 64} {s s' : ClkState} {c p : ClkId}

/-! ## The calls on the forest and on the registers -/

theorem clkEnable_spec (h : clkEnable base fuel s c = some s') :
    ∃ l, acquire fuel (forest s) c = some (forest s', l) ∧
      s'.regs = switchOn base s.regs l ∧ s'.parent = s.parent ∧ s'.rate = s.rate := by
  rw [clkEnable_eq] at h
  obtain ⟨⟨f, l⟩, hf, rfl⟩ := Option.map_eq_some_iff.mp h
  refine ⟨l, ?_, rfl, rfl, rfl⟩
  have hparent : f.parent = s.parent := (acquired_of_acquire hf).parent
  rw [hf]
  exact congrArg (fun parent => some ((⟨parent, f.count⟩ : Forest ClkId), l)) hparent

theorem clkDisable_spec (h : clkDisable base fuel s c = some s') :
    ∃ l, release critical fuel (forest s) c = some (forest s', l) ∧
      s'.regs = switchOff base s.regs l ∧ s'.parent = s.parent ∧ s'.rate = s.rate := by
  rw [clkDisable_eq] at h
  obtain ⟨⟨f, l⟩, hf, rfl⟩ := Option.map_eq_some_iff.mp h
  refine ⟨l, ?_, rfl, rfl, rfl⟩
  have hparent : f.parent = s.parent := (released_of_release hf).parent
  rw [hf]
  exact congrArg (fun parent => some ((⟨parent, f.count⟩ : Forest ClkId), l)) hparent

/-- Getting a rate changes the cached rates only. -/
theorem clkGetRate_spec {v : BitVec 64} (h : clkGetRate base oscRate fuel s c = some (s', v)) :
    s' = { s with rate := s'.rate } := by
  induction fuel generalizing s s' c v with
  | zero => exact absurd h.symm (Option.some_ne_none _)
  | succ fuel ih =>
    rw [clkGetRate] at h
    split_ifs at h with hdivides hasks
    · obtain ⟨⟨t, w⟩, hparent, heq⟩ := Option.map_eq_some_iff.mp h
      obtain ⟨rfl, -⟩ := Prod.mk.inj heq
      rw [clkGetParentRate] at hparent
      split at hparent
      · obtain ⟨rfl, -⟩ := Prod.mk.inj (Option.some.inj hparent)
        rfl
      · split_ifs at hparent
        · obtain ⟨⟨t', w'⟩, hrec, heq'⟩ := Option.map_eq_some_iff.mp hparent
          obtain ⟨rfl, -⟩ := Prod.mk.inj heq'
          rw [ih hrec]
        · obtain ⟨rfl, -⟩ := Prod.mk.inj (Option.some.inj hparent)
          rfl
    · obtain ⟨rfl, -⟩ := Prod.mk.inj (Option.some.inj h)
      rfl

theorem clkGetParentRate_spec {v : BitVec 64}
    (h : clkGetParentRate (clkGetRate base oscRate fuel) s c = some (s', v)) :
    s' = { s with rate := s'.rate } := by
  rw [clkGetParentRate] at h
  split at h
  · obtain ⟨rfl, -⟩ := Prod.mk.inj (Option.some.inj h)
    rfl
  · split_ifs at h
    · obtain ⟨⟨t, w⟩, hrec, heq⟩ := Option.map_eq_some_iff.mp h
      obtain ⟨rfl, -⟩ := Prod.mk.inj heq
      rw [clkGetRate_spec hrec]
    · obtain ⟨rfl, -⟩ := Prod.mk.inj (Option.some.inj h)
      rfl

theorem setRateParentRate_spec {v : BitVec 64}
    (h : setRateParentRate base oscRate fuel s c = some (s', v)) :
    s' = { s with rate := s'.rate } := by
  rw [setRateParentRate] at h
  split_ifs at h
  · exact clkGetParentRate_spec h
  · obtain ⟨rfl, -⟩ := Prod.mk.inj (Option.some.inj h)
    rfl

/-- What `clk_set_rate` does: nothing, or it finds a clock to set, throws rates away, asks for
the rate of the parent and writes. -/
theorem clkSetRate_cases {rate v : BitVec 64}
    (h : clkSetRate base oscRate fuel s c rate = some (s', v)) :
    (s' = s ∧ ∃ ret, clkSetRateOn fuel s c = some (.error ret)) ∨
      ∃ d cleaned t parentRate regs, clkSetRateOn fuel s c = some (.ok d) ∧
      clkCleanRateCache s.parent fuel s.rate d = some cleaned ∧
      setRateParentRate base oscRate fuel { s with rate := cleaned } d = some (t, parentRate) ∧
      (clkRow d).hw.setRate fuel t.regs base parentRate rate = some (regs, v) ∧
      s' = { t with regs := regs } := by
  obtain ⟨found, hfound, h⟩ := Option.bind_eq_some_iff.mp h
  cases found with
  | error ret =>
    obtain ⟨rfl, -⟩ := Prod.mk.inj (Option.some.inj h)
    exact .inl ⟨rfl, ret, hfound⟩
  | ok d =>
    obtain ⟨cleaned, hclean, h⟩ := Option.bind_eq_some_iff.mp h
    obtain ⟨⟨t, parentRate⟩, hasked, h⟩ := Option.bind_eq_some_iff.mp h
    dsimp only at h
    split_ifs at h with hdivides
    obtain ⟨⟨regs, w⟩, hset, heq⟩ := Option.map_eq_some_iff.mp h
    obtain ⟨rfl, rfl⟩ := Prod.mk.inj heq
    exact .inr ⟨d, cleaned, t, parentRate, regs, hfound, hclean, hasked, hset, rfl⟩

/-- A clock with `set_rate` is the one that is set. -/
theorem clkSetRateOn_self {found : Except Int ClkId} (h : clkSetRateOn fuel s c = some found)
    (hhas : (clkRow c).hw.hasSetRate = true) : found = .ok c := by
  cases fuel with
  | zero => exact absurd h.symm (Option.some_ne_none _)
  | succ fuel =>
    rw [clkSetRateOn, if_pos hhas] at h
    exact (Option.some.inj h).symm

/-- Setting a rate writes what one clock has for it. -/
theorem clkSetRate_spec {rate v : BitVec 64}
    (h : clkSetRate base oscRate fuel s c rate = some (s', v)) :
    s' = { s with regs := s'.regs, rate := s'.rate } ∧
      ∃ d, Footprint.Keeps (clkRow d).hw.writes base s.regs s'.regs := by
  obtain ⟨rfl, -⟩ | ⟨d, cleaned, t, parentRate, regs, -, -, hasked, hset, rfl⟩ :=
    clkSetRate_cases h
  · exact ⟨rfl, c, Footprint.Keeps.refl _ _ _⟩
  · have hkeeps := keeps_setRate _ base hset
    have ht := setRateParentRate_spec hasked
    rw [ht] at hkeeps ⊢
    exact ⟨rfl, d, hkeeps⟩

theorem setParent_error {row : ClkRow} {regs : ReadReg} {ret : Int}
    (h : row.setParent regs base p = .error ret) : ret ≠ 0 := by
  have hinval : (-EINVAL : Int) ≠ 0 := by decide
  have hnosys : (-ENOSYS : Int) ≠ 0 := by decide
  rw [ClkRow.setParent] at h
  split at h
  · rw [bypassDivSetParent] at h
    split_ifs at h
    exact Except.error.inj h ▸ hinval
  · rw [bypassDivSetParent] at h
    split_ifs at h
    exact Except.error.inj h ▸ hinval
  · rw [muxSetParent] at h
    split at h
    · exact Except.error.inj h ▸ hinval
    · cases h
  · rw [bypassMuxSetParent] at h
    split_ifs at h
    split at h
    · exact Except.error.inj h ▸ hinval
    · cases h
  · rw [mmuxSetParent] at h
    split_ifs at h
    split at h
    · exact Except.error.inj h ▸ hinval
    · cases h
  · rw [cv1800bFpllSetParent] at h
    split_ifs at h
  all_goals exact Except.error.inj h ▸ hnosys

/-- What `clk_set_parent` does: nothing, or it enables the new parent and gives it back, or it
enables it and hangs the clock from it. -/
theorem clkSetParent_cases {ret : Int} (h : clkSetParent base fuel s c p = some (s', ret)) :
    (s' = s ∧ ret ≠ 0) ∨
      ∃ t, clkEnable base fuel s p = some t ∧
        ((clkDisable base fuel t p = some s' ∧ ret ≠ 0) ∨
          ∃ regs, (clkRow c).setParent t.regs base p = .ok regs ∧ ret = 0 ∧
            s' = { t with regs := regs, parent := Function.update t.parent c (some p) }) := by
  rw [clkSetParent] at h
  split_ifs at h with hnone
  · obtain ⟨rfl, rfl⟩ := Prod.mk.inj (Option.some.inj h)
    exact .inl ⟨rfl, by decide⟩
  · obtain ⟨t, ht, h⟩ := Option.bind_eq_some_iff.mp h
    refine .inr ⟨t, ht, ?_⟩
    cases hset : (clkRow c).setParent t.regs base p with
    | error e =>
      rw [hset] at h
      obtain ⟨t', ht', heq⟩ := Option.map_eq_some_iff.mp h
      obtain ⟨rfl, rfl⟩ := Prod.mk.inj heq
      exact .inl ⟨ht', setParent_error hset⟩
    | ok regs =>
      rw [hset] at h
      obtain ⟨rfl, rfl⟩ := Prod.mk.inj (Option.some.inj h)
      exact .inr ⟨regs, rfl, rfl, rfl⟩

/-! ## The recursions end -/

theorem card_clkId : Fintype.card ClkId = 164 := by rfl

theorem clkEnable_isSome (h : Placed s.parent) (c : ClkId) (hfuel : 164 < fuel) :
    (clkEnable base fuel s c).isSome = true := by
  rw [clkEnable_eq, Option.isSome_map]
  exact acquire_isSome (Placed.acyclic h) c (card_clkId.trans_lt hfuel)

theorem clkDisable_isSome (h : Placed s.parent) (c : ClkId) (hfuel : 164 < fuel) :
    (clkDisable base fuel s c).isSome = true := by
  rw [clkDisable_eq, Option.isSome_map]
  exact release_isSome (Placed.acyclic h) c (card_clkId.trans_lt hfuel)

theorem clkSetParent_isSome (h : Placed s.parent) (c p : ClkId) (hfuel : 164 < fuel) :
    (clkSetParent base fuel s c p).isSome = true := by
  rw [clkSetParent]
  split_ifs
  · rfl
  · obtain ⟨t, ht⟩ := Option.isSome_iff_exists.mp (@clkEnable_isSome base fuel s h p hfuel)
    obtain ⟨-, -, -, hparent, -⟩ := clkEnable_spec ht
    rw [ht, Option.bind_some]
    cases (clkRow c).setParent t.regs base p with
    | error ret =>
      dsimp only
      rw [Option.isSome_map]
      exact clkDisable_isSome (hparent ▸ h) p hfuel
    | ok regs => rfl

/-- `clk_get_rate` divides by nothing that is zero on its way up from a clock. -/
def RateDivides (base : Nat) (s : ClkState) (c : ClkId) : Prop :=
  ∀ d, (forest s).Hangs c d → (clkRow d).hw.getRateDivides s.regs base = true

theorem RateDivides.up (h : RateDivides base s c) (hp : s.parent c = some p) :
    RateDivides base s p :=
  fun d hd => h d (.head hp hd)

theorem clkGetRate_isSome (h : Placed s.parent) (hdivides : RateDivides base s c)
    (hfuel : clkRank c < fuel) : (clkGetRate base oscRate fuel s c).isSome = true := by
  induction fuel generalizing c with
  | zero => exact absurd hfuel (Nat.not_lt_zero _)
  | succ fuel ih =>
    rw [clkGetRate, hdivides c .refl, if_neg (by decide)]
    split_ifs
    · rw [Option.isSome_map, clkGetParentRate]
      cases hp : s.parent c with
      | none => rfl
      | some p =>
        dsimp only
        split_ifs
        · rw [Option.isSome_map]
          exact ih (hdivides.up hp) ((clkRank_lt (h c p hp)).trans_le (Nat.le_of_lt_succ hfuel))
        · rfl
    · rfl

/-- A clock and what it hangs below. -/
def wayUp (parent : ClkId → Option ClkId) : Nat → ClkId → List ClkId
  | 0, _ => []
  | fuel + 1, c =>
    c :: match parent c with
      | none => []
      | some p => wayUp parent fuel p

theorem mem_wayUp (h : Placed s.parent) {d : ClkId} (hfuel : clkRank c < fuel)
    (hup : (forest s).Hangs c d) : d ∈ wayUp s.parent fuel c := by
  induction fuel generalizing c with
  | zero => exact absurd hfuel (Nat.not_lt_zero _)
  | succ fuel ih =>
    rw [wayUp]
    rcases Relation.ReflTransGen.cases_head hup with heq | ⟨p, hstep, hrest⟩
    · rw [heq]
      exact List.mem_cons_self ..
    · have hp : s.parent c = some p := hstep
      have hlt := (clkRank_lt (h c p hp)).trans_le (Nat.le_of_lt_succ hfuel)
      rw [hp]
      exact List.mem_cons_of_mem _ (ih hlt hrest)

theorem rateDivides_of_wayUp (h : Placed s.parent) (hfuel : 164 < fuel)
    (hall : (wayUp s.parent fuel c).all (fun d => (clkRow d).hw.getRateDivides s.regs base) = true) :
    RateDivides base s c :=
  fun d hd => List.all_eq_true.mp hall d (mem_wayUp h ((clkRank_bound c).trans hfuel) hd)

theorem setRateParentRate_isSome (h : Placed s.parent)
    (hdivides : ∀ p, s.parent c = some p → RateDivides base s p) (hfuel : 164 < fuel) :
    (setRateParentRate base oscRate fuel s c).isSome = true := by
  rw [setRateParentRate]
  split_ifs
  · rw [clkGetParentRate]
    cases hp : s.parent c with
    | none => rfl
    | some p =>
      dsimp only
      split_ifs
      · rw [Option.isSome_map]
        exact clkGetRate_isSome h (hdivides p hp) ((clkRank_bound _).trans hfuel)
      · rfl
  · rfl

theorem clkSetRateOn_isSome (h : Placed s.parent) (hfuel : clkRank c < fuel) :
    (clkSetRateOn fuel s c).isSome = true := by
  induction fuel generalizing c with
  | zero => exact absurd hfuel (Nat.not_lt_zero _)
  | succ fuel ih =>
    rw [clkSetRateOn]
    split_ifs
    · rfl
    · rfl
    · cases hp : s.parent c with
      | none => rfl
      | some p => exact ih ((clkRank_lt (h c p hp)).trans_le (Nat.le_of_lt_succ hfuel))

theorem foldlM_isSome {α β : Type} {f : β → α → Option β} {l : List α}
    (h : ∀ a ∈ l, ∀ b, (f b a).isSome = true) (b : β) : (l.foldlM f b).isSome = true := by
  induction l generalizing b with
  | nil => rfl
  | cons a l ih =>
    rw [List.forall_mem_cons] at h
    obtain ⟨b', hb'⟩ := Option.isSome_iff_exists.mp (h.1 b)
    rw [List.foldlM_cons, hb']
    exact ih h.2 b'

theorem clkCleanRateCache_isSome {parent : ClkId → Option ClkId} (h : Placed parent)
    (rate : ClkId → BitVec 64) (hfuel : 164 < fuel + clkRank c) :
    (clkCleanRateCache parent fuel rate c).isSome = true := by
  induction fuel generalizing c rate with
  | zero =>
    have := clkRank_bound c
    omega
  | succ fuel ih =>
    rw [clkCleanRateCache]
    refine foldlM_isSome (fun child hchild rate => ih rate ?_) _
    have hlt := clkRank_lt (h child c (of_decide_eq_true (List.mem_filter.mp hchild).2))
    omega

end ClkTree

/-! ## What every run keeps -/

namespace ClkUse

/-- The counts are those of the users, of the children and of what is left over (`log`); what is
counted runs; and the tree is the one that the registers select. -/
structure Counted (base : Nat) (s : ClkState) (holds : ClkId → Nat) (log : List ClkId) : Prop where
  placed : Placed s.parent
  accounts : ∃ slack, (forest s).Accounts holds slack ∧
    ∀ c, critical c = false → slack c = log.count c
  running : ∀ c, (forest s).On c → c ∉ sharedGate → (clkRow c).hw.Running s.regs base
  follows : ∀ c, Follows s.regs base (clkRow c) (s.parent c)

variable {base fuel : Nat} {oscRate : BitVec 64} {s s' : ClkState} {c p : ClkId}
  {holds : ClkId → Nat} {log : List ClkId} {regs regs' : ReadReg}

theorem running_congr
    (h : Footprint.Agree (clkRow c).hw.switchPrint base regs regs')
    (hrunning : (clkRow c).hw.Running regs base) : (clkRow c).hw.Running regs' base :=
  hrunning.congr (switches_in_word _ (clkRow_mem c)) h

theorem switches_clkRow_apart {d : ClkId} (hne : d ≠ c) (hgate : c ∉ sharedGate) :
    Footprint.Separate (clkRow d).hw.switchPrint (clkRow c).hw.switchPrint := by
  refine switches_apart (clkRow_mem c) (clkRow_mem d) ?_ ?_
  · rw [clkRow_id, clkRow_id]
    exact hne.symm
  · rwa [clkRow_id]

theorem running_switchOn {l : List ClkId} (hgate : c ∉ sharedGate)
    (h : (clkRow c).hw.Running regs base ∨ c ∈ l) :
    (clkRow c).hw.Running (switchOn base regs l) base := by
  induction l generalizing regs with
  | nil => exact h.resolve_right List.not_mem_nil
  | cons d l ih =>
    refine ih ?_
    by_cases hd : d = c
    · subst hd
      exact .inl (running_enable regs base (switches_in_word _ (clkRow_mem d)))
    · rcases h with hrunning | hmem
      · refine .inl (running_congr ((keeps_enable regs base _).agree ?_) hrunning)
        exact switches_clkRow_apart hd hgate
      · exact .inr ((List.mem_cons.mp hmem).resolve_left (Ne.symm hd))

theorem running_switchOff {l : List ClkId} (hgate : c ∉ sharedGate) (hnot : c ∉ l)
    (h : (clkRow c).hw.Running regs base) :
    (clkRow c).hw.Running (switchOff base regs l) base := by
  refine running_congr (Footprint.agree_foldl (fun regs _ => keeps_disable regs base _) ?_) h
  exact fun d hd => switches_clkRow_apart (fun heq => hnot (heq ▸ hd)) hgate

/-- Switches do not change what the registers select. -/
theorem follows_switches {op : ReadReg → ClkId → ReadReg}
    (hop : ∀ regs d, Footprint.Keeps (clkRow d).hw.switchPrint base regs (op regs d))
    (l : List ClkId) {parent : Option ClkId} (h : Follows regs base (clkRow c) parent) :
    Follows (l.foldl op regs) base (clkRow c) parent := by
  refine follows_congr (Footprint.agree_foldl hop fun d _ => ?_) h
  exact (switches_apart_others (clkRow_mem d) (clkRow_mem c)).mono (List.subset_append_right _ _)

namespace Counted

/-- Enabling a clock. -/
theorem enable (h : Counted base s holds log) (hs : clkEnable base fuel s c = some s') :
    Counted base s' (tally holds c) log := by
  obtain ⟨l, hacquire, hregs, hparent, -⟩ := clkEnable_spec hs
  have hacquired := acquired_of_acquire hacquire
  obtain ⟨slack, haccounts, hslack⟩ := h.accounts
  refine ⟨?_, ⟨slack, ?_, hslack⟩, fun d hon hgate => ?_, fun d => ?_⟩
  · rw [hparent]
    exact h.placed
  · exact acquire_accounts (Placed.acyclic h.placed) haccounts hacquire
  · rw [hregs]
    exact running_switchOn hgate (((hacquired.on d).mp hon).imp_left fun hold => h.running d hold hgate)
  · rw [hregs, hparent]
    exact follows_switches (fun regs _ => keeps_enable regs base _) l (h.follows d)

/-- Disabling a clock that its user has enabled. -/
theorem disable (h : Counted base s (tally holds c) log)
    (hs : clkDisable base fuel s c = some s') : Counted base s' holds log := by
  obtain ⟨l, hrelease, hregs, hparent, -⟩ := clkDisable_spec hs
  have hreleased := released_of_release hrelease
  obtain ⟨slack, haccounts, hslack⟩ := h.accounts
  obtain ⟨slack', haccounts', hsame⟩ := release_accounts haccounts hrelease
  refine ⟨?_, ⟨slack', haccounts', fun d hd => ?_⟩, fun d hon hgate => ?_, fun d => ?_⟩
  · rw [hparent]
    exact h.placed
  · rw [hsame d hd, hslack d hd]
  · obtain ⟨hold, hnot⟩ := (hreleased.on d).mp hon
    rw [hregs]
    exact running_switchOff hgate hnot (h.running d hold hgate)
  · rw [hregs, hparent]
    exact follows_switches (fun regs _ => keeps_disable regs base _) l (h.follows d)

/-- Hanging a clock from one that was enabled for it. -/
theorem move (h : Counted base s (tally holds p) log)
    (hset : (clkRow c).setParent s.regs base p = .ok regs) (hp : p ∈ ClkRow.places (clkRow c)) :
    Counted base { s with regs := regs, parent := Function.update s.parent c (some p) } holds
      (log ++ leftover s c p 0) := by
  have hkeeps := keeps_setParent _ _ hset
  obtain ⟨slack, haccounts, hslack⟩ := h.accounts
  have htally : ∀ q d, critical d = false → tally slack q d = (log ++ [q]).count d := by
    intro q d hd
    rw [List.count_append, List.count_singleton, ← hslack d hd]
    by_cases hdq : d = q
    · subst hdq
      rw [tally_self, beq_self_eq_true, if_pos rfl]
    · rw [tally_of_ne _ hdq, if_neg fun heq => hdq (beq_iff_eq.mp heq).symm, Nat.add_zero]
  refine ⟨h.placed.update hp, ?_, fun d hon hgate => ?_, fun d => ?_⟩
  · by_cases hon : (forest s).On c
    · refine ⟨(forest s).pass c slack, haccounts.reparent_on hon, fun d hd => ?_⟩
      have hleft : leftover s c p 0 = (s.parent c).toList := by
        rw [leftover, if_neg (not_not.mpr rfl), if_pos (show 0 < s.enableCount c from hon)]
      rw [hleft, Forest.pass]
      cases hparent : s.parent c with
      | none =>
        rw [show (forest s).parent c = none from hparent, Option.toList_none, List.append_nil]
        exact hslack d hd
      | some q =>
        rw [show (forest s).parent c = some q from hparent, Option.toList_some]
        exact htally q d hd
    · refine ⟨tally slack p, haccounts.reparent_off hon, fun d hd => ?_⟩
      have hleft : leftover s c p 0 = [p] := by
        rw [leftover, if_neg (not_not.mpr rfl), if_neg (show ¬ 0 < s.enableCount c from hon)]
      rw [hleft]
      exact htally p d hd
  · refine running_congr (hkeeps.agree ?_) (h.running d hon hgate)
    exact ((switches_apart_others (clkRow_mem d) (clkRow_mem c)).mono
      (List.subset_append_right _ _)).symm
  · by_cases hdc : d = c
    · subst hdc
      have hself : Function.update s.parent d (some p) d = some p := Function.update_self ..
      dsimp only
      rw [hself]
      exact follows_setParent (clkRow_mem d) hset hp
    · have hother : Function.update s.parent c (some p) d = s.parent d := Function.update_of_ne hdc _ _
      dsimp only
      rw [hother]
      refine follows_congr (hkeeps.agree (parents_apart (clkRow_mem c) (clkRow_mem d) ?_)) (h.follows d)
      rw [clkRow_id, clkRow_id]
      exact Ne.symm hdc

/-- Getting a rate. -/
theorem cached (h : Counted base s holds log) (hs : s' = { s with rate := s'.rate }) :
    Counted base s' holds log := by
  rw [hs]
  exact ⟨h.placed, h.accounts, h.running, h.follows⟩

/-- Setting a rate. -/
theorem rated (h : Counted base s holds log) {d : ClkId}
    (hs : s' = { s with regs := s'.regs, rate := s'.rate })
    (hkeeps : Footprint.Keeps (clkRow d).hw.writes base s.regs s'.regs) :
    Counted base s' holds log := by
  have hrunning : ∀ c, (forest s).On c → c ∉ sharedGate →
      (clkRow c).hw.Running s'.regs base := by
    intro c hon hgate
    refine running_congr (hkeeps.agree ?_) (h.running c hon hgate)
    refine ((switches_apart_others (clkRow_mem c) (clkRow_mem d)).mono ?_).symm
    exact List.Subset.trans (List.subset_append_right _ _) (List.subset_append_left _ _)
  have hfollows : ∀ c, Follows s'.regs base (clkRow c) (s.parent c) := fun c =>
    follows_congr (hkeeps.agree (apart_of_allBits writes_parents_disjoint (clkRow_mem d)
      (clkRow_mem c))) (h.follows c)
  rw [hs]
  exact ⟨h.placed, h.accounts, hrunning, hfollows⟩

end Counted

/-- One call. -/
theorem Counted.call {u u' : ClkUse} {a : ClkCall} {ev : List ClkId}
    (h : Counted base u.clk u.holds log) (hok : Proper u a)
    (hs : call base oscRate fuel u a = some (u', ev)) :
    Counted base u'.clk u'.holds (log ++ ev) := by
  cases a with
  | enable c =>
    obtain ⟨s, hcall, heq⟩ := Option.map_eq_some_iff.mp hs
    obtain ⟨rfl, rfl⟩ := Prod.mk.inj heq
    rw [List.append_nil]
    exact h.enable hcall
  | disable c =>
    obtain ⟨s, hcall, heq⟩ := Option.map_eq_some_iff.mp hs
    obtain ⟨rfl, rfl⟩ := Prod.mk.inj heq
    rw [List.append_nil]
    refine Counted.disable (c := c) ?_ hcall
    have hholds : tally (Function.update u.holds c (u.holds c - 1)) c = u.holds := by
      rw [tally, Function.update_self, Function.update_idem, Nat.sub_add_cancel hok,
        Function.update_eq_self]
    rwa [hholds]
  | setParent c p =>
    obtain ⟨⟨s, ret⟩, hcall, heq⟩ := Option.map_eq_some_iff.mp hs
    obtain ⟨rfl, rfl⟩ := Prod.mk.inj heq
    obtain ⟨rfl, hret⟩ | ⟨t, ht, ⟨hback, hret⟩ | ⟨regs, hset, rfl, rfl⟩⟩ := clkSetParent_cases hcall
    · rw [leftover, if_pos hret, List.append_nil]
      exact h
    · rw [leftover, if_pos hret, List.append_nil]
      exact (h.enable ht).disable hback
    · have hp := place_of_setParent (clkRow_mem c) hset hok
      obtain ⟨l, hacquire, -, hparent, -⟩ := clkEnable_spec ht
      -- enabling the new parent does not reach the clock
      have hcount : t.enableCount c = u.clk.enableCount c :=
        (acquired_of_acquire hacquire).frame c (Placed.not_hangs h.placed hp)
      have hleft : leftover u.clk c p 0 = leftover t c p 0 := by
        rw [leftover, leftover, hcount, hparent]
      rw [hleft]
      exact (h.enable ht).move hset hp
  | getRate c =>
    obtain ⟨⟨s, v⟩, hcall, heq⟩ := Option.map_eq_some_iff.mp hs
    obtain ⟨rfl, rfl⟩ := Prod.mk.inj heq
    rw [List.append_nil]
    exact h.cached (clkGetRate_spec hcall)
  | setRate c rate =>
    obtain ⟨⟨s, v⟩, hcall, heq⟩ := Option.map_eq_some_iff.mp hs
    obtain ⟨rfl, rfl⟩ := Prod.mk.inj heq
    rw [List.append_nil]
    obtain ⟨hsame, d, hkeeps⟩ := clkSetRate_spec hcall
    exact h.rated hsame hkeeps

theorem counted_start (h : cv1800bRegisterClk regs base = some s) :
    Counted base s (start s).holds [] := by
  obtain ⟨hnamed, hparents⟩ := register_parents h
  obtain ⟨known, -, rfl⟩ := Option.map_eq_some_iff.mp h
  have hoff : ∀ (f : Forest ClkId) (c : ClkId), f.count = (fun _ => 0) → ¬ f.On c := by
    intro f c hzero hon
    rw [Forest.On, hzero] at hon
    exact absurd hon (Nat.lt_irrefl 0)
  refine ⟨register_placed h, ⟨fun _ => 0, fun c => ?_, fun c _ => rfl⟩,
    fun c hon => absurd hon (hoff _ c rfl), fun c => ?_⟩
  · rw [kids, Finset.sum_eq_zero fun d _ => kid_of_off (hoff _ d rfl) c]
    rfl
  · have hne : known.2 c ≠ some .bypass := fun hbypass =>
      (table_selectable _ (clkRow_mem c)).2.1 (hparents c _ hbypass)
    rw [Follows, if_neg hne]
    exact hnamed c

/-- Every run keeps it. -/
theorem counted_run {calls : List ClkCall} {u : ClkUse}
    (hreg : cv1800bRegisterClk regs base = some s)
    (hok : (machine base oscRate fuel).Meets Proper (start s) calls)
    (hrun : (machine base oscRate fuel).exec (start s) calls = some (u, log)) :
    Counted base u.clk u.holds log :=
  Machine.exec_invariant_start (I := fun u log => Counted base u.clk u.holds log)
    (counted_start hreg) (fun h hok hs => h.call hok hs) hok hrun

/-! ### A run -/

instance (u : ClkUse) : (a : ClkCall) → Decidable (Proper u a)
  | .disable c => inferInstanceAs (Decidable (0 < u.holds c))
  | .setParent c p =>
    inferInstanceAs (Decidable (takesAny (clkRow c).hw = true → p ∈ ClkRow.places (clkRow c)))
  | .enable _ | .getRate _ | .setRate _ _ => isTrue trivial

/-- The FPLL at 60 times the oscillator, and the display PLL at 36 times 4 thirds of it. -/
def bootRegs : ReadReg :=
  Function.update (Function.update (Function.update (fun _ => 0) (CLK_BASE + REG_FPLL_CSR) 0x00780101)
    (CLK_BASE + REG_MIPIMPLL_CSR) 0x00480101) (CLK_BASE + REG_DISPPLL_CSR) 0x00080103

theorem boot_registers : (cv1800bRegisterClk bootRegs CLK_BASE).isSome = true := by
  decide +kernel

def bootClk : ClkState := (cv1800bRegisterClk bootRegs CLK_BASE).get boot_registers

/-- The UART is taken and given back, the SD card is taken, set and moved. -/
def bootCalls : List ClkCall :=
  [.enable .clkUart0, .enable .clkSd0, .getRate .clkSd0, .setRate .clkSd0 400000000,
    .disable .clkUart0, .setParent .clkSd0 .clkDisppll]

theorem boot_calls :
    ((machine CLK_BASE 25000000 165).exec (start bootClk) bootCalls).isSome = true := by
  decide +kernel

/-- Its end. -/
def bootEnd : ClkUse × List ClkId :=
  ((machine CLK_BASE 25000000 165).exec (start bootClk) bootCalls).get boot_calls

theorem boot_register : cv1800bRegisterClk bootRegs CLK_BASE = some bootClk :=
  (Option.some_get boot_registers).symm

theorem boot_exec :
    (machine CLK_BASE 25000000 165).exec (start bootClk) bootCalls =
      some (bootEnd.1, bootEnd.2) := by
  rw [Prod.mk.eta, bootEnd, Option.some_get]

theorem boot_proper :
    (machine CLK_BASE 25000000 165).Meets Proper (start bootClk) bootCalls := by
  decide +kernel

/-! ### For the users -/

section Runs

variable {calls : List ClkCall} {u : ClkUse}

/-- What is on is needed from below. -/
theorem Counted.on_iff (h : Counted base s holds log) (c : ClkId) :
    (forest s).On c ↔ ∃ d, (forest s).Hangs d c ∧ (forest s).On d ∧
      (0 < holds d ∨ critical d = true ∨ d ∈ log) := by
  obtain ⟨slack, haccounts, hslack⟩ := h.accounts
  constructor
  · intro hon
    -- from clock to child: those are registered later
    induction hn : 164 - clkRank c using Nat.strong_induction_on generalizing c with
    | _ n ih =>
      by_cases hneed : 0 < holds c ∨ critical c = true ∨ c ∈ log
      · exact ⟨c, .refl, hon, hneed⟩
      · rw [not_or, not_or] at hneed
        have hzero : slack c = 0 := by
          rw [hslack c (Bool.eq_false_iff.mpr hneed.2.1)]
          exact List.count_eq_zero.mpr hneed.2.2
        obtain ⟨d, hd, hdon⟩ := ((haccounts.on_iff hzero).mp hon).resolve_left hneed.1
        have hlt := clkRank_lt (h.placed d c hd)
        have hbound := clkRank_bound d
        obtain ⟨e, hed, he⟩ := ih (164 - clkRank d) (by omega) d hdon rfl
        exact ⟨e, hed.tail hd, he⟩
  · rintro ⟨d, hd, hon, -⟩
    induction hd with
    | refl => exact hon
    | tail _ hstep ih => exact haccounts.parent_on hstep ih

/-- **The counts.** In every proper run, the count of a clock that is not critical is exactly what its
users hold, one for each child that is on, and one for each time that `clk_set_parent` has left
it over; and a clock is on just as long as there is somebody to need it. -/
theorem counts_exact (hreg : cv1800bRegisterClk regs base = some s)
    (hok : (machine base oscRate fuel).Meets Proper (start s) calls)
    (hrun : (machine base oscRate fuel).exec (start s) calls = some (u, log)) :
    (∀ c, critical c = false →
      u.clk.enableCount c = u.holds c + (forest u.clk).kids c + log.count c) ∧
    ∀ c, 0 < u.clk.enableCount c ↔ ∃ d, (forest u.clk).Hangs d c ∧ 0 < u.clk.enableCount d ∧
      (0 < u.holds d ∨ critical d = true ∨ d ∈ log) := by
  have hcounted := counted_run hreg hok hrun
  refine ⟨fun c hc => ?_, hcounted.on_iff⟩
  obtain ⟨slack, haccounts, hslack⟩ := hcounted.accounts
  rw [← hslack c hc]
  exact haccounts c

/-- The old parent of the SD card clock, which was enabled when it was moved, stays on. -/
theorem counts_exact_boot : bootEnd.1.clk.enableCount .clkSd0 = bootEnd.1.holds .clkSd0 +
    (forest bootEnd.1.clk).kids .clkSd0 + bootEnd.2.count .clkSd0 ∧ bootEnd.2 = [.clkFpll] :=
  ⟨(counts_exact boot_register boot_proper boot_exec).1 .clkSd0 (by decide +kernel),
    by decide +kernel⟩

/-- **The way up.** In every proper run, from a clock that somebody holds up to the oscillator, each
clock is counted, hangs from the clock that its registers select, and runs, but for the three
that one gate stops. -/
theorem held_runs (hreg : cv1800bRegisterClk regs base = some s)
    (hok : (machine base oscRate fuel).Meets Proper (start s) calls)
    (hrun : (machine base oscRate fuel).exec (start s) calls = some (u, log)) {c d : ClkId}
    (hheld : 0 < u.holds c) (hup : (forest u.clk).Hangs c d) :
    0 < u.clk.enableCount d ∧ Follows u.clk.regs base (clkRow d) (u.clk.parent d) ∧
      (d ∉ sharedGate → (clkRow d).hw.Running u.clk.regs base) := by
  have hcounted := counted_run hreg hok hrun
  obtain ⟨slack, haccounts, -⟩ := hcounted.accounts
  have hc : (forest u.clk).On c := by
    rw [Forest.On, haccounts c]
    omega
  have hd : (forest u.clk).On d := by
    induction hup with
    | refl => exact hc
    | tail _ hstep ih => exact haccounts.parent_on hstep ih
  exact ⟨hd, hcounted.follows d, hcounted.running d hd⟩

/-- From the clock of the SD card up to the display PLL. -/
theorem held_runs_boot : 0 < bootEnd.1.clk.enableCount .clkDisppll ∧
    (clkRow .clkDisppll).hw.Running bootEnd.1.clk.regs CLK_BASE := by
  have hheld : 0 < bootEnd.1.holds .clkSd0 := by decide +kernel
  have hstep : (forest bootEnd.1.clk).parent .clkSd0 = some .clkDisppll := by decide +kernel
  have hup := held_runs boot_register boot_proper boot_exec hheld (.single hstep)
  exact ⟨hup.1, hup.2.2 (by decide)⟩

/-- What a call needs to return. `clk_get_rate` divides by nothing that is zero, and neither
does `clk_set_rate`, which asks for the rate of the parent of the clock that it sets; and its
driver comes to an end with that rate. -/
def Returns (base : Nat) (oscRate : BitVec 64) (fuel : Nat) (u : ClkUse) : ClkCall → Prop
  | .getRate c => RateDivides base u.clk c
  | .setRate c rate => ∀ d cleaned, clkSetRateOn fuel u.clk c = some (.ok d) →
    clkCleanRateCache u.clk.parent fuel u.clk.rate d = some cleaned →
    (∀ p, u.clk.parent d = some p → RateDivides base u.clk p) ∧
    ∀ t parentRate, setRateParentRate base oscRate fuel { u.clk with rate := cleaned } d =
        some (t, parentRate) →
      (clkRow d).hw.setRateDivides u.clk.regs base parentRate rate = true ∧
      (isPll (clkRow d).hw = true →
        ((clkRow d).hw.setRate fuel u.clk.regs base parentRate rate).isSome = true)
  | .enable _ | .disable _ | .setParent _ _ => True

/-- Only the search of a PLL can fail to end. -/
theorem setRate_isSome {hw : ClkHw} (h : isPll hw = false) (regs : ReadReg)
    (parentRate rate : BitVec 64) : (hw.setRate fuel regs base parentRate rate).isSome = true := by
  cases hw with
  | ipll | fpll => exact absurd (show true = false from h) (by decide)
  | fixedRate | gate | div | bypassDiv | fixedDiv | bypassFixedDiv | mux | bypassMux | mmux
  | audio => rfl

/-- **Every call returns**, whatever was called before, if it divides by nothing that is zero
and the search of a PLL for its rate ends. -/
theorem calls_return (hreg : cv1800bRegisterClk regs base = some s)
    (hok : (machine base oscRate fuel).Meets Proper (start s) calls)
    (hrun : (machine base oscRate fuel).exec (start s) calls = some (u, log))
    (hfuel : 164 < fuel) (a : ClkCall) (ha : Returns base oscRate fuel u a) :
    (call base oscRate fuel u a).isSome = true := by
  have hplaced := (counted_run hreg hok hrun).placed
  cases a with
  | enable c =>
    rw [call, Option.isSome_map]
    exact clkEnable_isSome hplaced c hfuel
  | disable c =>
    rw [call, Option.isSome_map]
    exact clkDisable_isSome hplaced c hfuel
  | setParent c p =>
    rw [call, Option.isSome_map]
    exact clkSetParent_isSome hplaced c p hfuel
  | getRate c =>
    rw [call, Option.isSome_map]
    exact clkGetRate_isSome hplaced ha ((clkRank_bound c).trans hfuel)
  | setRate c rate =>
    rw [call, Option.isSome_map]
    obtain ⟨found, hfound⟩ := Option.isSome_iff_exists.mp
      (clkSetRateOn_isSome hplaced ((clkRank_bound c).trans hfuel))
    cases found with
    | error ret =>
      rw [clkSetRate, hfound]
      rfl
    | ok d =>
      obtain ⟨cleaned, hcleaned⟩ := Option.isSome_iff_exists.mp
        (clkCleanRateCache_isSome (c := d) hplaced u.clk.rate (by omega : 164 < fuel + clkRank d))
      obtain ⟨hparent, hset⟩ := ha d cleaned hfound hcleaned
      rw [clkSetRate, hfound, Option.bind_some]
      dsimp only
      rw [hcleaned, Option.bind_some, opsSetRate]
      obtain ⟨⟨t, parentRate⟩, hasked⟩ :=
        Option.isSome_iff_exists.mp (@setRateParentRate_isSome base fuel oscRate
          { u.clk with rate := cleaned } d hplaced hparent hfuel)
      obtain ⟨hdivides, hends⟩ := hset t parentRate hasked
      have hregs : t.regs = u.clk.regs := by rw [setRateParentRate_spec hasked]
      rw [hasked, Option.bind_some]
      dsimp only
      rw [hregs, hdivides, if_neg (by decide), Option.isSome_map]
      by_cases hpll : isPll (clkRow d).hw = true
      · exact hends hpll
      · exact setRate_isSome (Bool.eq_false_iff.mpr hpll) _ _ _

/-- The rate of the clock of the SD card, after all of it. -/
theorem calls_return_boot :
    (call CLK_BASE 25000000 165 bootEnd.1 (.getRate .clkSd0)).isSome = true := by
  have hway : (wayUp bootEnd.1.clk.parent 165 .clkSd0).all
      (fun d => (clkRow d).hw.getRateDivides bootEnd.1.clk.regs CLK_BASE) = true := by
    decide +kernel
  have hplaced := (counted_run boot_register boot_proper boot_exec).placed
  exact calls_return boot_register boot_proper boot_exec (by decide) (.getRate .clkSd0)
    (rateDivides_of_wayUp hplaced (by decide) hway)

end Runs

end ClkUse

end LicheeRvNano
