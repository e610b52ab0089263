import LicheeRvNano.BitField
import LicheeRvNano.Kernel
import Mathlib.Tactic.IntervalCases

/-!
# RTC: calibration of the 32 kHz oscillator

`cv1800_rtc_calibrate` and its two stages, as the oscillator patch adds them to
`rtc-cv1800.c`. The coarse stage searches for an analog trim whose period is
755 to 770 reference ticks, halving its step from 128; the fine stage measures
256 periods and writes the seconds divider.

Registers are memory: a read returns what was last written. The two counter
registers are not, they are what the hardware measures, so each use of
`cv1800_rtc_fc_measure` has a `Measurement` of its own, with arbitrary contents.

`AllOrNothing` is the contract of the calibration, success or everything as it
was. `trimAfter` and `stopsFrom` describe the search in terms of the readings
alone, and with them `CalibCond` says exactly when the contract is met: a failed
calibration keeps the trim the search had reached, and a fine reading below 763
gives a divider of more than 31 bits.
-/

namespace LicheeRvNano

/-! ## The driver -/

abbrev RTC_MODE_XTAL32K : Nat := 10
def SEL_SEC_PULSE : BitField 32 := .bit 31
def SEC_PULSE_GEN_DIV : BitField 32 := .genmask 30 0
abbrev FC_COARSE_MASK : BitVec 32 := 0xffff
abbrev FC_FINE_MASK : BitVec 32 := 0xffffff
abbrev FC_COARSE_TARGET_LO : BitVec 32 := 755
abbrev FC_COARSE_TARGET_HI : BitVec 32 := 770
abbrev FC_FINE_PERIODS : Nat := 256
abbrev FC_REF_HZ : Nat := 25000000
abbrev ANA_CALIB_INIT : BitVec 32 := 0x10100
abbrev ANA_CALIB_INIT_STEP : BitVec 32 := 128

/-- The registers the calibration reads and writes. -/
structure RtcRegs where
  ctrl0 : BitVec 32
  fcCoarseEn : BitVec 32
  fcFineEn : BitVec 32
  anaCalib : BitVec 32
  secPulseGen : BitVec 32
  deriving DecidableEq

/-- What the counter register shows during one measurement: the value read before
the poll loop, the values the loop reads until its timeout, and the value read
after it. -/
structure Measurement where
  prev : BitVec 32
  polls : List (BitVec 32)
  last : BitVec 32

/-- `cv1800_rtc_fc_measure`: a poll that shows another marker ends the loop, and a
loop without one ends in the timeout. -/
def cv1800RtcFcMeasure (m : Measurement) (markerShift : Nat) (mask : BitVec 32) :
    Except Int (BitVec 32) :=
  if m.polls.any fun val => val >>> markerShift != m.prev >>> markerShift then
    .ok (m.last &&& mask)
  else .error (-ETIMEDOUT)

/-- One coarse measurement: the trim it was made at, and its result. -/
abbrev CoarseReading : Type := BitVec 32 × Option (BitVec 32)

/-- One turn of the loop of `cv1800_rtc_calib_coarse`: the return value it breaks
with, or the trim it writes next. -/
def coarseTurn (m : Measurement) (step trim : BitVec 32) : Int ⊕ BitVec 32 :=
  match cv1800RtcFcMeasure m 16 FC_COARSE_MASK with
  | .error ret => .inl ret
  | .ok cycles =>
    if FC_COARSE_TARGET_LO ≤ cycles ∧ cycles ≤ FC_COARSE_TARGET_HI then .inl 0
    else if step = 0 then .inl (-ERANGE)
    else if FC_COARSE_TARGET_HI < cycles then .inr (trim + step)
    else .inr (trim - step)

/-- The loop from measurement `i` on. The halving of `step` ends it, `fuel` only
makes that structural. -/
def coarseLoop (ms : Nat → Measurement) :
    Nat → Nat → BitVec 32 → BitVec 32 → RtcRegs → Option (RtcRegs × Int × List CoarseReading)
  | 0, _, _, _, _ => none
  | fuel + 1, i, step, trim, r =>
    let reading := (r.anaCalib, (cv1800RtcFcMeasure (ms i) 16 FC_COARSE_MASK).toOption)
    match coarseTurn (ms i) step trim with
    | .inl ret => some (r, ret, [reading])
    | .inr trim =>
      (coarseLoop ms fuel (i + 1) (step >>> 1) trim { r with anaCalib := trim }).map
        fun (r, ret, readings) => (r, ret, reading :: readings)

/-- `cv1800_rtc_calib_coarse`: the registers it leaves, its return value and its
measurements. -/
def cv1800RtcCalibCoarse (ms : Nat → Measurement) (r : RtcRegs) :
    Option (RtcRegs × Int × List CoarseReading) :=
  let r := { r with anaCalib := ANA_CALIB_INIT }
  let trim := r.anaCalib
  let r := { r with fcCoarseEn := 1 }
  match coarseLoop ms 9 0 ANA_CALIB_INIT_STEP trim r with
  | none => none
  | some (r, ret, readings) => some ({ r with fcCoarseEn := 0 }, ret, readings)

/-- `cv1800_rtc_calib_fine`: the registers it leaves, its return value and its
reading. The product in the divider fits 64 bits, the divider is cut to 32. -/
def cv1800RtcCalibFine (m : Measurement) (r : RtcRegs) :
    RtcRegs × Int × Option (BitVec 32) :=
  let r := { r with fcFineEn := 1 }
  let measured := cv1800RtcFcMeasure m 24 FC_FINE_MASK
  let r := { r with fcFineEn := 0 }
  match measured with
  | .error ret => (r, ret, none)
  | .ok cycles =>
    if cycles = 0 then (r, -EINVAL, some cycles)
    else
      let freq := FC_FINE_PERIODS * FC_REF_HZ * 256 / cycles.toNat
      ({ r with
         secPulseGen := SEC_PULSE_GEN_DIV.update r.secPulseGen (BitVec.ofNat 32 freq) },
        0, some cycles)

/-- What one call of `cv1800_rtc_calibrate` did. `ret` is `none` when it returned
at once because an external crystal is used. -/
structure Calibration where
  regs : RtcRegs
  ret : Option Int
  coarse : List CoarseReading
  fine : Option (BitVec 32)

/-- `cv1800_rtc_calibrate`. -/
def cv1800RtcCalibrate (ms : Nat → Measurement) (m : Measurement) (r : RtcRegs) :
    Option Calibration :=
  if r.ctrl0.getLsbD RTC_MODE_XTAL32K then some ⟨r, none, [], none⟩
  else
    let pulse := r.secPulseGen
    let r := { r with secPulseGen := SEL_SEC_PULSE.update r.secPulseGen 0 }
    match cv1800RtcCalibCoarse ms r with
    | none => none
    | some (r, ret, coarse) =>
      let (r, ret, fine) := if ret = 0 then cv1800RtcCalibFine m r else (r, ret, none)
      some
        { regs := { r with secPulseGen := SEL_SEC_PULSE.update r.secPulseGen pulse },
          ret := some ret, coarse := coarse, fine := fine }

/-! ## The contract -/

/-- Both stages succeeded: the trim is the one of the last coarse reading, which is
in the window, and the divider field is the quotient the fine reading gives. -/
def Calibrated (c : Calibration) : Prop :=
  (∃ cycles, c.coarse.getLast? = some (c.regs.anaCalib, some cycles) ∧
    FC_COARSE_TARGET_LO ≤ cycles ∧ cycles ≤ FC_COARSE_TARGET_HI) ∧
  ∃ cycles, c.fine = some cycles ∧ cycles ≠ 0 ∧
    (SEC_PULSE_GEN_DIV.get c.regs.secPulseGen).toNat = 256 * 25000000 * 256 / cycles.toNat

/-- The contract of a call that found the registers `r`. -/
structure AllOrNothing (r : RtcRegs) (c : Calibration) : Prop where
  /-- the counters are off if the calibration ran -/
  disabled : c.ret ≠ none → c.regs.fcCoarseEn = 0 ∧ c.regs.fcFineEn = 0
  /-- the enabled state of the clock is kept -/
  selected : c.regs.secPulseGen.getLsbD 31 = r.secPulseGen.getLsbD 31
  /-- nothing was touched if it did not run -/
  idle : c.ret = none → c.regs = r
  /-- success, or the trim and the divider as they were -/
  outcome : ∀ ret, c.ret = some ret →
    (ret = 0 ∧ Calibrated c) ∨
      (ret ≠ 0 ∧ c.regs.anaCalib = r.anaCalib ∧ c.regs.secPulseGen = r.secPulseGen)

/-! ## The search in terms of its readings -/

/-- The marker changes before the timeout. -/
def Measurement.Fresh (m : Measurement) (markerShift : Nat) : Prop :=
  m.polls.any (fun val => val >>> markerShift != m.prev >>> markerShift) = true

instance (m : Measurement) (markerShift : Nat) : Decidable (m.Fresh markerShift) :=
  inferInstanceAs (Decidable (_ = true))

/-- The coarse and the fine reading of a measurement that is fresh. -/
def Measurement.coarse (m : Measurement) : BitVec 32 := m.last &&& FC_COARSE_MASK

def Measurement.fine (m : Measurement) : BitVec 32 := m.last &&& FC_FINE_MASK

/-- A coarse measurement that ends the search with success. -/
def Measurement.Hits (m : Measurement) : Prop :=
  m.Fresh 16 ∧ FC_COARSE_TARGET_LO ≤ m.coarse ∧ m.coarse ≤ FC_COARSE_TARGET_HI

/-- A coarse measurement that sends the search on. -/
def Measurement.Misses (m : Measurement) : Prop :=
  m.Fresh 16 ∧ ¬ (FC_COARSE_TARGET_LO ≤ m.coarse ∧ m.coarse ≤ FC_COARSE_TARGET_HI)

instance (m : Measurement) : Decidable m.Hits := inferInstanceAs (Decidable (_ ∧ _))
instance (m : Measurement) : Decidable m.Misses := inferInstanceAs (Decidable (_ ∧ _))

/-- The first of the measurements `i`, …, `i + k - 1` that does not send the search
on, or `i + k`. -/
def stopsFrom (ms : Nat → Measurement) : Nat → Nat → Nat
  | 0, i => i
  | k + 1, i => if (ms i).Misses then stopsFrom ms k (i + 1) else i

/-- The measurement the search ends with; the step is zero at the ninth. -/
def stopsAt (ms : Nat → Measurement) : Nat := stopsFrom ms 8 0

/-- The trim after `k` readings: each moves it by half as much as the one before,
up when the period is too long and down when it is too short. -/
def trimAfter (ms : Nat → Measurement) : Nat → BitVec 32
  | 0 => ANA_CALIB_INIT
  | k + 1 =>
    if FC_COARSE_TARGET_HI < (ms k).coarse then trimAfter ms k + (ANA_CALIB_INIT_STEP >>> k)
    else trimAfter ms k - (ANA_CALIB_INIT_STEP >>> k)

/-- When the contract is met: an external crystal is used; or the search hits, the
fine measurement is fresh and its reading is at least 763; or one of the two
stages fails and the trim the search ends at happens to be the one it found. A
failed search leaves the fine counter alone, so that has to be off by then. -/
def CalibCond (r : RtcRegs) (ms : Nat → Measurement) (m : Measurement) : Prop :=
  r.ctrl0.getLsbD RTC_MODE_XTAL32K = true ∨
    ((ms (stopsAt ms)).Hits ∧ m.Fresh 24 ∧ 763 ≤ m.fine.toNat) ∨
    (¬ ((ms (stopsAt ms)).Hits ∧ m.Fresh 24 ∧ m.fine ≠ 0) ∧
      r.anaCalib = trimAfter ms (stopsAt ms) ∧
      ((ms (stopsAt ms)).Hits ∨ r.fcFineEn = 0))

/-! ## The search -/

theorem fcMeasure_fresh {m : Measurement} {shift : Nat} {mask : BitVec 32} (h : m.Fresh shift) :
    cv1800RtcFcMeasure m shift mask = .ok (m.last &&& mask) := if_pos h

theorem fcMeasure_stale {m : Measurement} {shift : Nat} {mask : BitVec 32} (h : ¬ m.Fresh shift) :
    cv1800RtcFcMeasure m shift mask = .error (-ETIMEDOUT) := if_neg h

/-- What the search returns when it ends with measurement `m`. -/
def coarseRet (m : Measurement) : Int :=
  if m.Hits then 0 else if m.Misses then -ERANGE else -ETIMEDOUT

/-- A turn ends the search at a measurement that does not send it on, or when the
step is used up. -/
theorem coarseTurn_stop {m : Measurement} {step trim : BitVec 32} (h : m.Misses → step = 0) :
    coarseTurn m step trim = .inl (coarseRet m) := by
  by_cases hf : m.Fresh 16
  · rw [coarseTurn, fcMeasure_fresh hf]
    by_cases hw : FC_COARSE_TARGET_LO ≤ m.coarse ∧ m.coarse ≤ FC_COARSE_TARGET_HI
    · have hret : coarseRet m = 0 := if_pos ⟨hf, hw⟩
      rw [hret]
      exact if_pos hw
    · have hm : m.Misses := ⟨hf, hw⟩
      have hret : coarseRet m = -ERANGE := by
        rw [coarseRet, if_neg (fun hh => hw hh.2), if_pos hm]
      rw [hret]
      exact (if_neg hw).trans (if_pos (h hm))
  · have hret : coarseRet m = -ETIMEDOUT := by
      rw [coarseRet, if_neg (fun hh => hf hh.1), if_neg (fun hh => hf hh.1)]
    rw [coarseTurn, fcMeasure_stale hf, hret]

/-- Otherwise it moves the trim. -/
theorem coarseTurn_miss {m : Measurement} {step trim : BitVec 32} (h : m.Misses)
    (hs : step ≠ 0) :
    coarseTurn m step trim =
      .inr (if FC_COARSE_TARGET_HI < m.coarse then trim + step else trim - step) := by
  rw [coarseTurn, fcMeasure_fresh h.1, apply_ite Sum.inr]
  exact (if_neg h.2).trans (if_neg hs)

/-- The step is used up at the ninth measurement and not before. -/
theorem step_ne_zero {i : Nat} (h : i < 8) : ANA_CALIB_INIT_STEP >>> i ≠ 0 := by
  interval_cases i <;> decide

/-- The measurements `i`, …, `i + n - 1` with the trims they are made at. -/
def coarseReadings (ms : Nat → Measurement) (i n : Nat) : List CoarseReading :=
  (List.range' i n).map fun j =>
    (trimAfter ms j, (cv1800RtcFcMeasure (ms j) 16 FC_COARSE_MASK).toOption)

theorem le_stopsFrom (ms : Nat → Measurement) (k i : Nat) : i ≤ stopsFrom ms k i := by
  induction k generalizing i with
  | zero => exact le_rfl
  | succ k ih =>
    rw [stopsFrom]
    split_ifs
    · exact (Nat.le_succ i).trans (ih (i + 1))
    · exact le_rfl

/-- **The loop.** From measurement `i` on, with `k` steps left, the search ends at
the measurement its readings say, with the trim its readings say. -/
theorem coarseLoop_eq (ms : Nat → Measurement) :
    ∀ (k i : Nat) (r : RtcRegs), i + k = 8 → r.anaCalib = trimAfter ms i →
      coarseLoop ms (k + 1) i (ANA_CALIB_INIT_STEP >>> i) (trimAfter ms i) r =
        some ({ r with anaCalib := trimAfter ms (stopsFrom ms k i) },
          coarseRet (ms (stopsFrom ms k i)), coarseReadings ms i (stopsFrom ms k i + 1 - i)) := by
  intro k
  induction k with
  | zero =>
    intro i r hi hr
    obtain rfl : i = 8 := hi
    rw [coarseLoop, coarseTurn_stop (fun _ => by decide), stopsFrom, coarseReadings,
      Nat.add_sub_cancel_left, List.range'_one, List.map_singleton, ← hr]
  | succ k ih =>
    intro i r hi hr
    have hs := step_ne_zero (i := i) (by omega)
    by_cases hm : (ms i).Misses
    · -- one step of the search, then the rest of it
      rw [stopsFrom, if_pos hm]
      have hl := ih (i + 1) { r with anaCalib := trimAfter ms (i + 1) } (by omega) rfl
      have hshift : ANA_CALIB_INIT_STEP >>> (i + 1) = (ANA_CALIB_INIT_STEP >>> i) >>> 1 :=
        BitVec.shiftRight_add ..
      have hcount : stopsFrom ms k (i + 1) + 1 - i = stopsFrom ms k (i + 1) + 1 - (i + 1) + 1 := by
        have := le_stopsFrom ms k (i + 1)
        omega
      rw [hshift] at hl
      rw [coarseLoop, coarseTurn_miss hm hs, hcount, coarseReadings, List.range'_succ, List.map_cons]
      rw [trimAfter] at hl
      simp only [hl, Option.map_some, hr]
      rfl
    · rw [coarseLoop, coarseTurn_stop (fun h => absurd h hm), stopsFrom, if_neg hm,
        coarseReadings, Nat.add_sub_cancel_left, List.range'_one, List.map_singleton, ← hr]

theorem coarseRet_eq_zero (m : Measurement) : coarseRet m = 0 ↔ m.Hits := by
  rw [coarseRet]
  split_ifs with hh hm
  · simp [hh]
  · simp [hh]
  · simp [hh]

/-- **The coarse stage** in terms of its readings. -/
theorem calibCoarse_eq (ms : Nat → Measurement) (r : RtcRegs) : cv1800RtcCalibCoarse ms r =
    some ({ r with anaCalib := trimAfter ms (stopsAt ms), fcCoarseEn := 0 },
      coarseRet (ms (stopsAt ms)), coarseReadings ms 0 (stopsAt ms + 1)) := by
  have hl : coarseLoop ms 9 0 ANA_CALIB_INIT_STEP ANA_CALIB_INIT
      { r with anaCalib := ANA_CALIB_INIT, fcCoarseEn := 1 } = _ := coarseLoop_eq ms 8 0
    { r with anaCalib := ANA_CALIB_INIT, fcCoarseEn := 1 } rfl rfl
  simp only [cv1800RtcCalibCoarse, hl]
  rfl

theorem getLast?_coarseReadings {ms : Nat → Measurement} {n : Nat} (h : (ms n).Hits) :
    (coarseReadings ms 0 (n + 1)).getLast? = some (trimAfter ms n, some (ms n).coarse) := by
  rw [coarseReadings, List.range'_concat, List.map_append, List.map_singleton, List.getLast?_concat,
    Nat.one_mul, Nat.zero_add, fcMeasure_fresh h.1]
  rfl

/-! ## The whole calibration -/

/-- The divider the fine reading gives. -/
def divider (m : Measurement) : Nat := 256 * 25000000 * 256 / m.fine.toNat

theorem calibFine_stale {m : Measurement} (r : RtcRegs) (hf : ¬ m.Fresh 24) :
    cv1800RtcCalibFine m r = ({ r with fcFineEn := 0 }, -ETIMEDOUT, none) := by
  simp only [cv1800RtcCalibFine, fcMeasure_stale hf]

theorem calibFine_zero {m : Measurement} (r : RtcRegs) (hf : m.Fresh 24) (hz : m.fine = 0) :
    cv1800RtcCalibFine m r = ({ r with fcFineEn := 0 }, -EINVAL, some m.fine) := by
  simp only [cv1800RtcCalibFine, fcMeasure_fresh hf]
  exact if_pos hz

theorem calibFine_done {m : Measurement} (r : RtcRegs) (hf : m.Fresh 24) (hz : m.fine ≠ 0) :
    cv1800RtcCalibFine m r =
      ({ r with
         fcFineEn := 0,
         secPulseGen := SEC_PULSE_GEN_DIV.update r.secPulseGen (BitVec.ofNat 32 (divider m)) },
        0, some m.fine) := by
  simp only [cv1800RtcCalibFine, fcMeasure_fresh hf]
  exact if_neg hz

/-- The call from its two stages. -/
theorem calibrate_eq {ms : Nat → Measurement} {m : Measurement} {r r₂ r₃ : RtcRegs}
    {ret ret' : Int} {coarse : List CoarseReading} {fine : Option (BitVec 32)}
    (hx : r.ctrl0.getLsbD RTC_MODE_XTAL32K = false)
    (hc : cv1800RtcCalibCoarse ms
        { r with secPulseGen := SEL_SEC_PULSE.update r.secPulseGen 0 } = some (r₂, ret, coarse))
    (hf : (if ret = 0 then cv1800RtcCalibFine m r₂ else (r₂, ret, none)) = (r₃, ret', fine)) :
    cv1800RtcCalibrate ms m r =
      some ⟨{ r₃ with secPulseGen := SEL_SEC_PULSE.update r₃.secPulseGen r.secPulseGen },
        some ret', coarse, fine⟩ := by
  rw [cv1800RtcCalibrate, if_neg (by simp [hx])]
  simp only [hc, hf]

/-- The three ways a calibration that runs can end: the search fails, the fine stage
fails, or both succeed. -/
theorem calibrate_cases (ms : Nat → Measurement) (m : Measurement) (r : RtcRegs)
    (hx : r.ctrl0.getLsbD RTC_MODE_XTAL32K = false) :
    ∃ c, cv1800RtcCalibrate ms m r = some c ∧
      ((¬ (ms (stopsAt ms)).Hits ∧ (∃ ret, c.ret = some ret ∧ ret ≠ 0) ∧
          c.regs = { r with anaCalib := trimAfter ms (stopsAt ms), fcCoarseEn := 0 }) ∨
        ((ms (stopsAt ms)).Hits ∧ ¬ (m.Fresh 24 ∧ m.fine ≠ 0) ∧
          (∃ ret, c.ret = some ret ∧ ret ≠ 0) ∧
          c.regs = { r with anaCalib := trimAfter ms (stopsAt ms), fcCoarseEn := 0,
                            fcFineEn := 0 }) ∨
        ((ms (stopsAt ms)).Hits ∧ m.Fresh 24 ∧ m.fine ≠ 0 ∧ c.ret = some 0 ∧
          c.coarse.getLast? =
            some (trimAfter ms (stopsAt ms), some (ms (stopsAt ms)).coarse) ∧
          c.fine = some m.fine ∧
          c.regs = { r with
            anaCalib := trimAfter ms (stopsAt ms), fcCoarseEn := 0, fcFineEn := 0,
            secPulseGen := SEL_SEC_PULSE.update
              (SEC_PULSE_GEN_DIV.update (SEL_SEC_PULSE.update r.secPulseGen 0)
                (BitVec.ofNat 32 (divider m))) r.secPulseGen })) := by
  have hc := calibCoarse_eq ms
    { r with secPulseGen := SEL_SEC_PULSE.update r.secPulseGen 0 }
  by_cases hh : (ms (stopsAt ms)).Hits
  · have hret := (coarseRet_eq_zero _).mpr hh
    rw [hret] at hc
    by_cases hf : m.Fresh 24
    · by_cases hz : m.fine = 0
      · have heq := calibrate_eq hx hc ((if_pos rfl).trans (calibFine_zero _ hf hz))
        simp only [BitField.update_restore] at heq
        exact ⟨_, heq, .inr (.inl ⟨hh, fun h => h.2 hz, ⟨_, rfl, by decide⟩, rfl⟩)⟩
      · have heq := calibrate_eq hx hc ((if_pos rfl).trans (calibFine_done _ hf hz))
        exact ⟨_, heq, .inr (.inr ⟨hh, hf, hz, rfl, getLast?_coarseReadings hh, rfl, rfl⟩)⟩
    · have heq := calibrate_eq hx hc ((if_pos rfl).trans (calibFine_stale _ hf))
      simp only [BitField.update_restore] at heq
      exact ⟨_, heq, .inr (.inl ⟨hh, fun h => hf h.1, ⟨_, rfl, by decide⟩, rfl⟩)⟩
  · have hret : coarseRet (ms (stopsAt ms)) ≠ 0 := fun h => hh ((coarseRet_eq_zero _).mp h)
    have heq := calibrate_eq (m := m) hx hc (if_neg hret)
    simp only [BitField.update_restore] at heq
    exact ⟨_, heq, .inl ⟨hh, ⟨_, rfl, hret⟩, rfl⟩⟩

/-- The divider field after the write: the quotient, cut to 31 bits. -/
theorem divider_field (old pulse : BitVec 32) (n : Nat) :
    (SEC_PULSE_GEN_DIV.get (SEL_SEC_PULSE.update
      (SEC_PULSE_GEN_DIV.update old (BitVec.ofNat 32 n)) pulse)).toNat = n % 2 ^ 31 := by
  have hdisjoint : ∀ i, SEC_PULSE_GEN_DIV.Has i → ¬ SEL_SEC_PULSE.Has i := by
    rintro i ⟨-, hi⟩ hs
    obtain rfl : 31 = i := (BitField.has_bit 31 i rfl).mp hs
    exact absurd hi (by decide)
  rw [BitField.get_update_of_disjoint hdisjoint, BitField.get_update, BitField.toNat_get,
    BitVec.toNat_ofNat]
  change n % 2 ^ 32 / 2 ^ 0 % 2 ^ 31 = n % 2 ^ 31
  omega

/-- The quotient fits the field from a reading of 763 on. -/
theorem divider_fits {m : Measurement} (hz : m.fine ≠ 0) :
    divider m % 2 ^ 31 = divider m ↔ 763 ≤ m.fine.toNat := by
  have hpos : 0 < m.fine.toNat := by
    rw [Nat.pos_iff_ne_zero]
    intro h
    exact hz (BitVec.eq_of_toNat_eq h)
  rw [Nat.mod_eq_iff_lt (by decide), divider, Nat.div_lt_iff_lt_mul hpos]
  omega

/-- A call that failed has kept the divider. Whether it met the contract is up to the trim and
the fine counter. -/
theorem allOrNothing_failed_iff {r : RtcRegs} {c : Calibration} {ret : Int} {ana fineEn : BitVec 32}
    (hret : c.ret = some ret) (hne : ret ≠ 0)
    (hregs : c.regs = { r with anaCalib := ana, fcCoarseEn := 0, fcFineEn := fineEn }) :
    AllOrNothing r c ↔ r.anaCalib = ana ∧ fineEn = 0 := by
  constructor
  · intro hA
    obtain ⟨-, hfe⟩ := hA.disabled (by simp [hret])
    rw [hregs] at hfe
    rcases hA.outcome ret hret with ⟨h0, -⟩ | ⟨-, hana, -⟩
    · exact absurd h0 hne
    · rw [hregs] at hana
      exact ⟨hana.symm, hfe⟩
  · rintro ⟨hana, hfe⟩
    refine ⟨fun _ => ?_, by rw [hregs], by simp [hret], ?_⟩
    · rw [hregs]
      exact ⟨rfl, hfe⟩
    · intro ret' hret'
      obtain rfl : ret = ret' := Option.some.inj (hret.symm.trans hret')
      exact .inr ⟨hne, by rw [hregs]; exact hana.symm, by rw [hregs]⟩

/-- A call that succeeded has met the contract if the divider fits its field. -/
theorem allOrNothing_done_iff {r : RtcRegs} {c : Calibration} {m : Measurement} {ana : BitVec 32}
    {reading : BitVec 32} (hret : c.ret = some 0)
    (hlast : c.coarse.getLast? = some (ana, some reading))
    (hin : FC_COARSE_TARGET_LO ≤ reading ∧ reading ≤ FC_COARSE_TARGET_HI)
    (hread : c.fine = some m.fine) (hz : m.fine ≠ 0)
    (hregs : c.regs = { r with
      anaCalib := ana, fcCoarseEn := 0, fcFineEn := 0,
      secPulseGen := SEL_SEC_PULSE.update
        (SEC_PULSE_GEN_DIV.update (SEL_SEC_PULSE.update r.secPulseGen 0)
          (BitVec.ofNat 32 (divider m))) r.secPulseGen }) :
    AllOrNothing r c ↔ 763 ≤ m.fine.toNat := by
  have hfield : (SEC_PULSE_GEN_DIV.get c.regs.secPulseGen).toNat = divider m % 2 ^ 31 := by
    rw [hregs]
    exact divider_field _ _ _
  constructor
  · intro hA
    rcases hA.outcome 0 hret with ⟨-, -, cycles, hcy, -, hdiv⟩ | ⟨h0, -⟩
    · obtain rfl : m.fine = cycles := Option.some.inj (hread.symm.trans hcy)
      rw [hfield] at hdiv
      exact (divider_fits hz).mp hdiv
    · exact absurd rfl h0
  · intro h763
    refine ⟨fun _ => by rw [hregs]; exact ⟨rfl, rfl⟩, ?_, by simp [hret], ?_⟩
    · rw [hregs]
      exact (BitField.getLsbD_update ..).trans (if_pos ⟨le_refl 31, le_refl 31⟩)
    · intro ret' hret'
      obtain rfl : (0 : Int) = ret' := Option.some.inj (hret.symm.trans hret')
      refine .inl ⟨rfl, ⟨_, by rw [hlast, hregs], hin⟩, m.fine, hread, hz, ?_⟩
      rw [hfield]
      exact (divider_fits hz).mpr h763

/-- **Calibration, all or nothing.** The call returns, and it meets its contract
exactly under `CalibCond`. -/
theorem calibrate_allOrNothing_iff (r : RtcRegs) (ms : Nat → Measurement) (m : Measurement) :
    ∃ c, cv1800RtcCalibrate ms m r = some c ∧ (AllOrNothing r c ↔ CalibCond r ms m) := by
  by_cases hx : r.ctrl0.getLsbD RTC_MODE_XTAL32K = true
  · refine ⟨⟨r, none, [], none⟩, if_pos hx, ?_⟩
    constructor
    · exact fun _ => .inl hx
    · exact fun _ => ⟨by simp, rfl, fun _ => rfl, by simp⟩
  · have hx' : r.ctrl0.getLsbD RTC_MODE_XTAL32K = false := by simpa using hx
    obtain ⟨c, hc, hcases⟩ := calibrate_cases ms m r hx'
    refine ⟨c, hc, ?_⟩
    rcases hcases with ⟨hh, ⟨ret, hret, hne⟩, hregs⟩ | ⟨hh, hfine, ⟨ret, hret, hne⟩, hregs⟩ |
      ⟨hh, hf, hz, hret, hlast, hread, hregs⟩
    · -- the search failed: the trim it had reached stays, and the fine counter is as it was
      rw [allOrNothing_failed_iff hret hne hregs]
      constructor
      · rintro ⟨hana, hfe⟩
        exact .inr (.inr ⟨fun h => hh h.1, hana, .inr hfe⟩)
      · rintro (h | ⟨h, -⟩ | ⟨-, hana, h | hfe⟩)
        · exact absurd h hx
        · exact absurd h hh
        · exact absurd h hh
        · exact ⟨hana, hfe⟩
    · -- the fine stage failed: the trim the search found stays
      rw [allOrNothing_failed_iff hret hne hregs]
      constructor
      · rintro ⟨hana, -⟩
        exact .inr (.inr ⟨fun h => hfine h.2, hana, .inl hh⟩)
      · rintro (h | ⟨-, hf, h763⟩ | ⟨-, hana, -⟩)
        · exact absurd h hx
        · refine absurd ⟨hf, ?_⟩ hfine
          intro h0
          rw [h0] at h763
          exact absurd h763 (by decide)
        · exact ⟨hana, rfl⟩
    · -- both succeeded: what is left is whether the divider fits
      rw [allOrNothing_done_iff hret hlast hh.2 hread hz hregs]
      constructor
      · exact fun h763 => .inr (.inl ⟨hh, hf, h763⟩)
      · rintro (h | ⟨-, -, h763⟩ | ⟨h, -⟩)
        · exact absurd h hx
        · exact h763
        · exact absurd ⟨hh, hf, hz⟩ h

/-- The registers after power-on, the clock not yet enabled. -/
def powerOn : RtcRegs := ⟨0, 0, 0, 0x80030100, 0x00800000⟩

/-- A counter that never shows a fresh measurement. -/
def stuck : Measurement := ⟨0, [0, 0], 0⟩

theorem not_calibrate_allOrNothing :
    ¬ ∀ (r : RtcRegs) (ms : Nat → Measurement) (m : Measurement) (c : Calibration),
      cv1800RtcCalibrate ms m r = some c → AllOrNothing r c := by
  intro h
  have hA := h powerOn (fun _ => stuck) stuck _ rfl
  -- the first measurement times out, and the search's first trim stays
  rcases hA.outcome (-ETIMEDOUT) rfl with ⟨h0, -⟩ | ⟨-, hana, -⟩
  · exact absurd h0 (by decide)
  · exact absurd hana (by decide)

end LicheeRvNano
