import LicheeRvNano.RtcCalib

/-!
# RTC: the coarse search misses no trim

The search of `cv1800_rtc_calib_coarse` walks down a tree of trims: the initial one is the
root, each level has half the step of the one above, and the leaves are the odd offsets,
which are measured after the step has become zero. `coarseRadius k` is how far the trims
below a node of level `k` reach.
A response that does not increase makes it a search tree: what the readings so far have not
excluded is within the radius of the current trim (`window_near_trimAfter`).
-/

namespace LicheeRvNano

/-! ## The tree of trims -/

/-- The trims the search can reach: 255 on either side of the first one. -/
def InCoarseRange (trim : BitVec 32) : Prop := 0x10100 - 255 ≤ trim.toNat ∧ trim.toNat ≤ 0x10100 + 255

instance (trim : BitVec 32) : Decidable (InCoarseRange trim) := inferInstanceAs (Decidable (_ ∧ _))

/-- The window of the coarse stage. -/
def InCoarseWindow (cycles : BitVec 32) : Prop :=
  FC_COARSE_TARGET_LO ≤ cycles ∧ cycles ≤ FC_COARSE_TARGET_HI

instance (cycles : BitVec 32) : Decidable (InCoarseWindow cycles) := inferInstanceAs (Decidable (_ ∧ _))

def coarseRadius (k : Nat) : Nat := 2 ^ (8 - k) - 1

/-- Below a trim there are the two one step away, and the trim itself is not among them. -/
theorem coarseRadius_succ {k : Nat} (h : k < 8) :
    (ANA_CALIB_INIT_STEP >>> k).toNat = coarseRadius (k + 1) + 1 ∧
      coarseRadius k = 2 * coarseRadius (k + 1) + 1 := by
  interval_cases k <;> decide

theorem coarseRadius_eight : coarseRadius 8 = 0 := rfl

/-- A step up or down does not wrap around. -/
theorem toNat_trimAfter_succ {ms : Nat → Measurement} {k : Nat} (h : k < 8)
    (hlo : 255 ≤ (trimAfter ms k).toNat) (hhi : (trimAfter ms k).toNat < 2 ^ 31) :
    (FC_COARSE_TARGET_HI < (ms k).coarse ∧
      (trimAfter ms (k + 1)).toNat = (trimAfter ms k).toNat + (coarseRadius (k + 1) + 1)) ∨
    (¬ FC_COARSE_TARGET_HI < (ms k).coarse ∧
      (trimAfter ms (k + 1)).toNat + (coarseRadius (k + 1) + 1) = (trimAfter ms k).toNat) := by
  obtain ⟨hstep, hradius⟩ := coarseRadius_succ h
  have hsmall : coarseRadius k ≤ 255 := by interval_cases k <;> decide
  rw [trimAfter]
  split_ifs with hc
  · left
    refine ⟨hc, ?_⟩
    rw [BitVec.toNat_add, hstep]
    omega
  · right
    refine ⟨hc, ?_⟩
    rw [BitVec.toNat_sub, hstep]
    omega

/-- Every trim the search can still reach is in the range. -/
theorem trimAfter_range (ms : Nat → Measurement) {k : Nat} (hk : k ≤ 8) :
    0x10100 - 255 + coarseRadius k ≤ (trimAfter ms k).toNat ∧
      (trimAfter ms k).toNat + coarseRadius k ≤ 0x10100 + 255 := by
  induction k with
  | zero =>
    show 0x10100 - 255 + coarseRadius 0 ≤ ANA_CALIB_INIT.toNat ∧
      ANA_CALIB_INIT.toNat + coarseRadius 0 ≤ 0x10100 + 255
    decide
  | succ k ih =>
    have ih := ih (by omega)
    have hradius := (coarseRadius_succ (Nat.lt_of_succ_le hk)).2
    obtain ⟨-, hup⟩ | ⟨-, hdown⟩ :=
      @toNat_trimAfter_succ ms k (by omega) (by omega) (by omega)
    · omega
    · omega

/-! ## Where the search stops -/

theorem stopsFrom_spec (ms : Nat → Measurement) (k i : Nat) :
    stopsFrom ms k i ≤ i + k ∧ (∀ j, i ≤ j → j < stopsFrom ms k i → (ms j).Misses) ∧
      ((ms (stopsFrom ms k i)).Misses → stopsFrom ms k i = i + k) := by
  induction k generalizing i with
  | zero => exact ⟨le_rfl, fun j h h' => absurd h' (by rw [stopsFrom]; omega), fun _ => rfl⟩
  | succ k ih =>
    rw [stopsFrom]
    split_ifs with hm
    · obtain ⟨hle, hmiss, hlast⟩ := ih (i + 1)
      refine ⟨by omega, ?_, fun h => by rw [hlast h]; omega⟩
      intro j hij hj
      by_cases heq : j = i
      · rwa [heq]
      · exact hmiss j (by omega) hj
    · exact ⟨by omega, fun j h h' => absurd h' (by omega), fun h => absurd h hm⟩

/-- A fresh measurement either hits or misses. -/
theorem hits_or_misses {m : Measurement} (h : m.Fresh 16) : m.Hits ∨ m.Misses := by
  by_cases hw : FC_COARSE_TARGET_LO ≤ m.coarse ∧ m.coarse ≤ FC_COARSE_TARGET_HI
  · exact .inl ⟨h, hw⟩
  · exact .inr ⟨h, hw⟩

/-! ## The search tree -/

section Monotone

variable {ms : Nat → Measurement} {cycles : BitVec 32 → BitVec 32}
  (hanti : ∀ s t, InCoarseRange s → InCoarseRange t → s ≤ t → cycles t ≤ cycles s)
include hanti

/-- What the readings have not excluded lies below the current trim in the tree. -/
theorem window_near_trimAfter {k : Nat} (hk : k ≤ 8)
    (hread : ∀ j < k, (ms j).Misses ∧ (ms j).coarse = cycles (trimAfter ms j)) {t : BitVec 32}
    (ht : InCoarseRange t) (hw : InCoarseWindow (cycles t)) :
    (trimAfter ms k).toNat ≤ t.toNat + coarseRadius k ∧
      t.toNat ≤ (trimAfter ms k).toNat + coarseRadius k := by
  induction k with
  | zero =>
    have hr : coarseRadius 0 = 255 := rfl
    have hi : (trimAfter ms 0).toNat = 0x10100 := rfl
    unfold InCoarseRange at ht
    omega
  | succ k ih =>
    have ih := ih (by omega) fun j hj => hread j (by omega)
    obtain ⟨hmiss, hcycles⟩ := hread k (by omega)
    have hradius := (coarseRadius_succ (Nat.lt_of_succ_le hk)).2
    have hrange := trimAfter_range ms (Nat.le_of_succ_le hk)
    have hin : InCoarseRange (trimAfter ms k) := ⟨by omega, by omega⟩
    obtain ⟨hlong, hup⟩ | ⟨hshort, hdown⟩ :=
      @toNat_trimAfter_succ ms k (by omega) (by omega) (by omega)
    · -- the period is too long here, and at every smaller trim
      have hlt : (trimAfter ms k).toNat < t.toNat := by
        by_contra hle
        have hmono := hanti t (trimAfter ms k) ht hin (by rw [BitVec.le_def]; omega)
        rw [hcycles] at hlong
        exact absurd hlong (BitVec.not_lt.mpr (BitVec.le_trans hmono hw.2))
      omega
    · have hlt : t.toNat < (trimAfter ms k).toNat := by
        by_contra hle
        have hmono := hanti (trimAfter ms k) t hin ht (by rw [BitVec.le_def]; omega)
        rw [hcycles] at hshort
        apply hmiss.2
        rw [hcycles]
        exact ⟨BitVec.le_trans hw.1 hmono, BitVec.not_lt.mp hshort⟩
      omega

/-- **Completeness.** The search hits as soon as some trim does. -/
theorem stopsAt_hits_iff (hfresh : ∀ j ≤ stopsAt ms, (ms j).Fresh 16)
    (hread : ∀ j ≤ stopsAt ms, (ms j).coarse = cycles (trimAfter ms j)) :
    (ms (stopsAt ms)).Hits ↔ ∃ t, InCoarseRange t ∧ InCoarseWindow (cycles t) := by
  obtain ⟨hstops, hmiss, hlast⟩ := stopsFrom_spec ms 8 0
  have hle : stopsAt ms ≤ 8 := hstops
  have hrange := trimAfter_range ms hle
  constructor
  · intro h
    refine ⟨trimAfter ms (stopsAt ms), ⟨by omega, by omega⟩, ?_⟩
    rw [← hread _ le_rfl]
    exact h.2
  · rintro ⟨t, ht, hw⟩
    obtain hhit | hno := hits_or_misses (hfresh _ le_rfl)
    · exact hhit
    · -- the step was used up: the last trim is the only one left
      have height : stopsAt ms = 8 := hlast hno
      have hnear := window_near_trimAfter hanti hle
        (fun j hj => ⟨hmiss j (by omega) hj, hread j (by omega)⟩) ht hw
      rw [height, coarseRadius_eight] at hnear
      have hleaf : t = trimAfter ms (stopsAt ms) := by
        apply BitVec.eq_of_toNat_eq
        rw [height]
        omega
      rw [hleaf, ← hread _ le_rfl] at hw
      exact absurd hw hno.2

end Monotone

/-! ## cv1800_rtc_calib_coarse -/

theorem fcMeasure_ok {m : Measurement} {cycles : BitVec 32}
    (h : cv1800RtcFcMeasure m 16 FC_COARSE_MASK = .ok cycles) : m.Fresh 16 ∧ m.coarse = cycles := by
  by_cases hf : m.Fresh 16
  · rw [fcMeasure_fresh hf] at h
    exact ⟨hf, Except.ok.inj h⟩
  · rw [fcMeasure_stale hf] at h
    cases h

/-- The coarse stage makes measurements `0`, …, `n` with `n` at most 8, measurement `i` at
the trim that the `i` before it lead to, and that trim is in the range. It succeeds only
with a last measurement in the window, whatever it measures. If each of them returns the
response at its trim, and the response does not increase over the range, then it finds a
trim of the window whenever the range has one. -/
theorem coarse_search_complete (ms : Nat → Measurement) (r : RtcRegs) :
    ∃ r' ret n, cv1800RtcCalibCoarse ms r = some (r', ret, coarseReadings ms 0 (n + 1)) ∧
      (n ≤ 8 ∧ (∀ i ≤ n, InCoarseRange (trimAfter ms i)) ∧ r'.anaCalib = trimAfter ms n ∧
        (ret = 0 → ∃ cycles, cv1800RtcFcMeasure (ms n) 16 FC_COARSE_MASK = .ok cycles ∧
          InCoarseWindow cycles)) ∧
      ∀ cycles : BitVec 32 → BitVec 32,
        (∀ s t, InCoarseRange s → InCoarseRange t → s ≤ t → cycles t ≤ cycles s) →
        (∀ i ≤ n, cv1800RtcFcMeasure (ms i) 16 FC_COARSE_MASK = .ok (cycles (trimAfter ms i))) →
        ((∃ t, InCoarseRange t ∧ InCoarseWindow (cycles t)) →
          ret = 0 ∧ InCoarseWindow (cycles r'.anaCalib)) ∧
        ((¬ ∃ t, InCoarseRange t ∧ InCoarseWindow (cycles t)) → ret = -ERANGE) := by
  have hle : stopsAt ms ≤ 8 := (stopsFrom_spec ms 8 0).1
  have hrange (j : Nat) (hj : j ≤ stopsAt ms) : InCoarseRange (trimAfter ms j) := by
    have := trimAfter_range ms (hj.trans hle)
    exact ⟨by omega, by omega⟩
  refine ⟨_, _, stopsAt ms, calibCoarse_eq ms r, ⟨hle, hrange, rfl, ?_⟩, ?_⟩
  · intro hret
    have hhit := (coarseRet_eq_zero _).mp hret
    exact ⟨_, fcMeasure_fresh hhit.1, hhit.2⟩
  · intro cycles hanti hread
    have hmeasured (j : Nat) (hj : j ≤ stopsAt ms) := fcMeasure_ok (hread j hj)
    have hiff := stopsAt_hits_iff hanti (fun j hj => (hmeasured j hj).1)
      fun j hj => (hmeasured j hj).2
    constructor
    · intro hsome
      have hhit := hiff.mpr hsome
      refine ⟨(coarseRet_eq_zero _).mpr hhit, ?_⟩
      have hlast : cycles (trimAfter ms (stopsAt ms)) = (ms (stopsAt ms)).coarse :=
        (hmeasured _ le_rfl).2.symm
      rw [hlast]
      exact hhit.2
    · intro hnone
      have hno : ¬ (ms (stopsAt ms)).Hits := fun h => hnone (hiff.mp h)
      have hmiss := (hits_or_misses (hmeasured _ le_rfl).1).resolve_left hno
      rw [coarseRet, if_neg hno, if_pos hmiss]

/-- An oscillator that is too slow up to 76 above the initial trim: one step up hits. -/
theorem coarse_search_complete_slow :
    ∃ r' readings, cv1800RtcCalibCoarse
        (fun i => ⟨0, [0x10000], if i = 0 then 800 else 760⟩) ⟨0, 0, 0, 0, 0⟩ = some (r', 0, readings) ∧
      readings = [(0x10100, some 800), (0x10180, some 760)] ∧
      InCoarseWindow (if r'.anaCalib ≤ 0x1014c then 800 else 760) := by
  obtain ⟨r', ret, n, heq, -, h⟩ := coarse_search_complete
    (fun i => ⟨0, [0x10000], if i = 0 then 800 else 760⟩) ⟨0, 0, 0, 0, 0⟩
  have hrun : cv1800RtcCalibCoarse
      (fun i => ⟨0, [0x10000], if i = 0 then 800 else 760⟩) ⟨0, 0, 0, 0, 0⟩ =
      some (⟨0, 0, 0, 0x10180, 0⟩, 0, [(0x10100, some 800), (0x10180, some 760)]) := by decide
  have hsame := hrun.symm.trans heq
  simp only [Option.some.injEq, Prod.mk.injEq] at hsame
  obtain ⟨rfl, rfl, hreadings⟩ := hsame
  have hn : n = 1 := by
    have hlen := congrArg List.length hreadings
    rw [coarseReadings, List.length_map, List.length_range'] at hlen
    exact (Nat.succ.inj hlen).symm
  subst hn
  refine ⟨_, _, heq, hreadings.symm, ((h (fun t => if t ≤ 0x1014c then 800 else 760) ?_ ?_).1 ?_).2⟩
  · intro s t _ _ hst
    split_ifs with ht hs hs
    · exact BitVec.le_refl _
    · exact absurd (BitVec.le_trans hst ht) hs
    · decide
    · exact BitVec.le_refl _
  · intro i hi
    interval_cases i
    · rfl
    · rfl
  · exact ⟨0x10180, by decide, by decide⟩

end LicheeRvNano
