import Mathlib.Data.Int.Basic
import Mathlib.Tactic.SplitIfs

/-!
# Kernel conventions

The error numbers the drivers return. A driver function returns `0` or a value
of its own on success and the negated number on failure.
-/

namespace LicheeRvNano

/-- The error numbers, without their sign. -/
abbrev ENOENT : Int := 2
abbrev EINTR : Int := 4
abbrev ENOMEM : Int := 12
abbrev EFAULT : Int := 14
abbrev EBUSY : Int := 16
abbrev ENODEV : Int := 19
abbrev EINVAL : Int := 22
abbrev ENOTTY : Int := 25
abbrev ERANGE : Int := 34
abbrev ENOSYS : Int := 38
abbrev EOVERFLOW : Int := 75
abbrev ETIMEDOUT : Int := 110
abbrev ERESTARTSYS : Int := 512

/-- `ret = f(); if (ret) return ret;` and what comes after it, for a function that
leaves a state and returns a number. -/
def andThen {S : Type*} (r : S × Int) (k : S → S × Int) : S × Int :=
  if r.2 ≠ 0 then r else k r.1

/-- What holds after the first part and is kept by the second holds at the end. -/
theorem andThen_inv {S : Type*} {P : S → Prop} {r : S × Int} {k : S → S × Int} (h : P r.1)
    (hk : ∀ s, P s → P (k s).1) : P (andThen r k).1 := by
  rw [andThen]
  split_ifs
  · exact h
  · exact hk r.1 h

/-- A failed first part is the end of it. -/
theorem andThen_fail {S : Type*} {r : S × Int} {k : S → S × Int} (h : r.2 ≠ 0) :
    andThen r k = r := if_pos h

/-- After a first part that succeeds comes the second. -/
theorem andThen_ok {S : Type*} {r : S × Int} {k : S → S × Int} (h : r.2 = 0) :
    andThen r k = k r.1 := if_neg (not_not.mpr h)

/-- The whole succeeds only when both parts do. -/
theorem andThen_eq_zero {S : Type*} {r : S × Int} {k : S → S × Int} (h : (andThen r k).2 = 0) :
    r.2 = 0 ∧ andThen r k = k r.1 := by
  by_cases hr : r.2 = 0
  · exact ⟨hr, andThen_ok hr⟩
  · rw [andThen_fail hr] at h
    exact absurd h hr

end LicheeRvNano
