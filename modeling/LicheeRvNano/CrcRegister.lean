import Mathlib.Logic.Function.Iterate
import Mathlib.Tactic.NthRewrite

/-!
# CRC registers

A cyclic redundancy check with the low bit first: a register of width `w` is shifted
down, and the polynomial is added when a one falls out. Everything here comes from two
facts about one shift. It is linear over exclusive or (`crcShift_xor`), and it is
injective as soon as the polynomial has its top bit (`crcShift_injective`).

`crcAbsorb` adds words to the register, `k` shifts for each. As a function of the
register it is affine (`crcAbsorb_xor`), so absorbing the same words twice tells nothing
that absorbing them once did not (`crcAbsorb_twice`). As a function of one word, the
others fixed, it is injective (`crcAbsorb_word_injective`).
-/

namespace LicheeRvNano

variable {w : Nat} (poly : BitVec w)

/-- One shift of the register. -/
def crcShift (x : BitVec w) : BitVec w := if x.getLsbD 0 then (x >>> 1) ^^^ poly else x >>> 1

theorem xor_xor_xor_cancel (a b p : BitVec w) : (a ^^^ p) ^^^ (b ^^^ p) = a ^^^ b := by
  rw [BitVec.xor_comm b p, BitVec.xor_assoc, ← BitVec.xor_assoc p p b, BitVec.xor_self,
    BitVec.zero_xor]

theorem crcShift_xor (x y : BitVec w) :
    crcShift poly (x ^^^ y) = crcShift poly x ^^^ crcShift poly y := by
  simp only [crcShift, BitVec.getLsbD_xor, BitVec.ushiftRight_xor_distrib]
  cases x.getLsbD 0 with
  | false =>
    cases y.getLsbD 0 with
    | false => rfl
    | true => exact BitVec.xor_assoc _ _ _
  | true =>
    cases y.getLsbD 0 with
    | false =>
      show (x >>> 1 ^^^ y >>> 1) ^^^ poly = (x >>> 1 ^^^ poly) ^^^ y >>> 1
      rw [BitVec.xor_assoc, BitVec.xor_comm (y >>> 1), BitVec.xor_assoc]
    | true => exact (xor_xor_xor_cancel _ _ _).symm

/-- The top bit of the shifted register is the bit that fell out. -/
theorem getLsbD_crcShift_top (hw : 0 < w) (htop : poly.getLsbD (w - 1) = true) (x : BitVec w) :
    (crcShift poly x).getLsbD (w - 1) = x.getLsbD 0 := by
  have hout : (x >>> 1).getLsbD (w - 1) = false := by
    rw [BitVec.getLsbD_ushiftRight]
    exact BitVec.getLsbD_of_ge _ _ (by omega)
  rw [crcShift]
  split
  case isTrue h => rw [BitVec.getLsbD_xor, hout, htop, h, Bool.false_xor]
  case isFalse h => rw [hout, Bool.eq_false_iff.mpr h]

theorem crcShift_injective (hw : 0 < w) (htop : poly.getLsbD (w - 1) = true) :
    Function.Injective (crcShift poly) := by
  intro x y h
  have h₀ : x.getLsbD 0 = y.getLsbD 0 := by
    rw [← getLsbD_crcShift_top poly hw htop, h, getLsbD_crcShift_top poly hw htop]
  have hshift : x >>> 1 = y >>> 1 := by
    simp only [crcShift, h₀] at h
    split at h
    · exact (BitVec.xor_left_inj _).mp h
    · exact h
  apply BitVec.eq_of_getLsbD_eq
  intro i _
  cases i with
  | zero => exact h₀
  | succ i =>
    have := congrArg (BitVec.getLsbD · i) hshift
    simpa [BitVec.getLsbD_ushiftRight, Nat.add_comm 1 i] using this

/-! ## Many shifts -/

theorem iterate_crcShift_xor (n : Nat) (x y : BitVec w) :
    (crcShift poly)^[n] (x ^^^ y) = (crcShift poly)^[n] x ^^^ (crcShift poly)^[n] y := by
  induction n generalizing x y with
  | zero => rfl
  | succ n ih => rw [Function.iterate_succ_apply, crcShift_xor, ih, ← Function.iterate_succ_apply,
      ← Function.iterate_succ_apply]

/-- A register whose low bits are clear only moves down. -/
theorem iterate_crcShift_of_low_clear {x : BitVec w} {n : Nat} (h : ∀ i < n, x.getLsbD i = false) :
    (crcShift poly)^[n] x = x >>> n := by
  induction n with
  | zero => rw [Function.iterate_zero_apply, BitVec.ushiftRight_zero]
  | succ n ih =>
    have hbit : (x >>> n).getLsbD 0 = false := by
      rw [BitVec.getLsbD_ushiftRight]
      exact h n (by omega)
    rw [Function.iterate_succ_apply', ih fun i hi => h i (by omega), crcShift, hbit,
      BitVec.shiftRight_add]
    rfl

/-- The low part is shifted through, the high part moves down. -/
theorem iterate_crcShift_split (x : BitVec w) (n : Nat) :
    (crcShift poly)^[n] x = (crcShift poly)^[n] ((x.setWidth n).setWidth w) ^^^ x >>> n := by
  have hsplit : x = (x.setWidth n).setWidth w ^^^ (x >>> n <<< n) := by
    apply BitVec.eq_of_getLsbD_eq
    intro i hi
    by_cases hn : i < n
    · simp [hi, hn]
    · simp [hi, hn, Nat.add_sub_cancel' (Nat.le_of_not_lt hn)]
  have hhigh : (crcShift poly)^[n] (x >>> n <<< n) = x >>> n := by
    rw [iterate_crcShift_of_low_clear poly fun i hi => by simp [hi]]
    apply BitVec.eq_of_getLsbD_eq
    intro i hi
    by_cases hn : n + i < w
    · simp [hn]
    · simp [hn, BitVec.getLsbD_of_ge x (n + i) (Nat.le_of_not_lt hn)]
  nth_rewrite 1 [hsplit]
  rw [iterate_crcShift_xor, hhigh]

/-! ## Absorbing words -/

/-- The register after `k` shifts for each of the words. -/
def crcAbsorb (k : Nat) (x : BitVec w) (ws : List (BitVec w)) : BitVec w :=
  ws.foldl (fun x v => (crcShift poly)^[k] (x ^^^ v)) x

variable (k : Nat)

theorem crcAbsorb_cons (x v : BitVec w) (ws : List (BitVec w)) :
    crcAbsorb poly k x (v :: ws) = crcAbsorb poly k ((crcShift poly)^[k] (x ^^^ v)) ws := rfl

theorem crcAbsorb_append (x : BitVec w) (ws vs : List (BitVec w)) :
    crcAbsorb poly k x (ws ++ vs) = crcAbsorb poly k (crcAbsorb poly k x ws) vs :=
  List.foldl_append

/-- The register and the words do not mix. -/
theorem crcAbsorb_xor (x y : BitVec w) (ws : List (BitVec w)) : crcAbsorb poly k (x ^^^ y) ws =
    (crcShift poly)^[k * ws.length] y ^^^ crcAbsorb poly k x ws := by
  induction ws generalizing x y with
  | nil => exact BitVec.xor_comm x y
  | cons v ws ih =>
    have hswap : x ^^^ y ^^^ v = (x ^^^ v) ^^^ y := by
      rw [BitVec.xor_assoc, BitVec.xor_comm y v, ← BitVec.xor_assoc]
    rw [crcAbsorb_cons, hswap, iterate_crcShift_xor, ih, ← Function.iterate_add_apply,
      crcAbsorb_cons, List.length_cons, Nat.mul_succ]

/-- Absorbing the same words again: the result is a function of the first result. -/
theorem crcAbsorb_twice (x : BitVec w) (ws : List (BitVec w)) :
    crcAbsorb poly k (crcAbsorb poly k x ws) ws =
      (crcShift poly)^[k * ws.length] (crcAbsorb poly k x ws ^^^ x) ^^^ crcAbsorb poly k x ws := by
  have hself : crcAbsorb poly k x ws = x ^^^ (crcAbsorb poly k x ws ^^^ x) := by
    rw [BitVec.xor_comm _ x, ← BitVec.xor_assoc, BitVec.xor_self, BitVec.zero_xor]
  nth_rewrite 1 [hself]
  exact crcAbsorb_xor poly k x _ ws

section Bijection

variable {poly} (hinj : Function.Injective (crcShift poly))
include hinj

theorem crcAbsorb_injective (ws : List (BitVec w)) : Function.Injective (crcAbsorb poly k · ws) := by
  induction ws with
  | nil => exact fun _ _ h => h
  | cons v ws ih =>
    intro x y h
    exact (BitVec.xor_left_inj _).mp ((hinj.iterate k) (ih h))

/-- One word changed, the others kept: the register tells. -/
theorem crcAbsorb_word_injective (x : BitVec w) (ws vs : List (BitVec w)) :
    Function.Injective fun v => crcAbsorb poly k x (ws ++ v :: vs) := by
  intro u v h
  simp only [crcAbsorb_append, crcAbsorb_cons] at h
  exact (BitVec.xor_right_inj _).mp (hinj.iterate k (crcAbsorb_injective k hinj vs h))

end Bijection

end LicheeRvNano
