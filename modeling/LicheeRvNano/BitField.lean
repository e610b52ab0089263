import Mathlib.Data.BitVec
import Mathlib.Tactic.Ring

/-!
# Bit fields of registers

A `BitField` is a run of bits `hi..lo` of a register of width `w`, with the proof
that it lies inside. The operations are those register drivers are written with:
`mask` is `GENMASK(hi, lo)`, `get` is `FIELD_GET`, `replace` is `u32_replace_bits`
and `update` is `regmap_update_bits` on the field's mask, whose value is not
shifted.

Everything is proved bit by bit: `getLsbD_replace` and `getLsbD_update` say what
each bit of the new register is, and the rest follows by comparing bits.
-/

namespace LicheeRvNano

variable {w : Nat}

/-- The bits `hi..lo` of a register of width `w`. -/
structure BitField (w : Nat) where
  hi : Nat
  lo : Nat
  le : lo ≤ hi
  lt : hi < w

namespace BitField

/-- The field made of one bit, `BIT(i)`. For numerals the check is an evaluation. -/
def bit (i : Nat) (h : decide (i < w) = true := by exact Eq.refl true) : BitField w :=
  ⟨i, i, le_refl _, of_decide_eq_true h⟩

/-- `GENMASK(hi, lo)` as a field. -/
def genmask (hi lo : Nat) (h : decide (lo ≤ hi ∧ hi < w) = true := by exact Eq.refl true) :
    BitField w :=
  ⟨hi, lo, (of_decide_eq_true h).1, (of_decide_eq_true h).2⟩

/-- The bits the field covers. -/
def Has (f : BitField w) (i : Nat) : Prop := f.lo ≤ i ∧ i ≤ f.hi

instance (f : BitField w) (i : Nat) : Decidable (f.Has i) := inferInstanceAs (Decidable (_ ∧ _))

@[simp] theorem has_bit (i j : Nat) (h : decide (i < w) = true) :
    (bit i h).Has j ↔ i = j := by
  constructor
  · rintro ⟨h₁, h₂⟩
    exact le_antisymm h₁ h₂
  · rintro rfl
    exact ⟨le_refl _, le_refl _⟩

def width (f : BitField w) : Nat := f.hi + 1 - f.lo

/-- `GENMASK(hi, lo)`. -/
def mask (f : BitField w) : BitVec w :=
  (BitVec.allOnes w <<< f.lo) &&& (BitVec.allOnes w >>> (w - 1 - f.hi))

/-- `FIELD_GET`. -/
def get (f : BitField w) (x : BitVec w) : BitVec w := (x &&& f.mask) >>> f.lo

/-- `FIELD_PREP`. -/
def prep (f : BitField w) (val : BitVec w) : BitVec w := (val <<< f.lo) &&& f.mask

/-- `u32_replace_bits`: put `val` into the field, its excess bits cut off. -/
def replace (f : BitField w) (old val : BitVec w) : BitVec w :=
  (old &&& ~~~f.mask) ||| ((val <<< f.lo) &&& f.mask)

/-- `regmap_update_bits` with the field's mask: take the field's bits from `val`. -/
def update (f : BitField w) (old val : BitVec w) : BitVec w :=
  (old &&& ~~~f.mask) ||| (val &&& f.mask)

/-! ## Bit by bit -/

@[simp] theorem getLsbD_mask (f : BitField w) (i : Nat) :
    f.mask.getLsbD i = decide (f.Has i) := by
  have hlt := f.lt
  simp only [mask, BitVec.getLsbD_and, BitVec.getLsbD_shiftLeft, BitVec.getLsbD_allOnes,
    BitVec.getLsbD_ushiftRight]
  by_cases h : f.Has i
  · have ⟨h₁, h₂⟩ := h
    simp only [h, decide_true, Bool.and_eq_true, decide_eq_true_eq, Bool.not_eq_true',
      decide_eq_false_iff_not]
    omega
  · simp only [h, decide_false, Bool.and_eq_false_iff, decide_eq_false_iff_not,
      Bool.not_eq_false', decide_eq_true_eq]
    simp only [Has] at h
    omega

theorem getLsbD_prep (f : BitField w) (val : BitVec w) (i : Nat) :
    (f.prep val).getLsbD i = (decide (f.Has i) && val.getLsbD (i - f.lo)) := by
  have hlt := f.lt
  simp only [prep, BitVec.getLsbD_and, getLsbD_mask, BitVec.getLsbD_shiftLeft]
  by_cases h : f.Has i
  · have ⟨h₁, h₂⟩ := h
    have hw : i < w := by omega
    have hlo : ¬ i < f.lo := by omega
    simp [h, hw, hlo]
  · simp [h]

theorem getLsbD_replace (f : BitField w) (old val : BitVec w) (i : Nat) :
    (f.replace old val).getLsbD i =
      if f.Has i then val.getLsbD (i - f.lo) else old.getLsbD i := by
  have hlt := f.lt
  simp only [replace, BitVec.getLsbD_or, BitVec.getLsbD_and, BitVec.getLsbD_not,
    getLsbD_mask, BitVec.getLsbD_shiftLeft]
  by_cases h : f.Has i
  · have ⟨h₁, h₂⟩ := h
    have hw : i < w := by omega
    have hlo : ¬ i < f.lo := by omega
    simp [h, hw, hlo]
  · by_cases hw : i < w
    · simp [h, hw]
    · simp [h, BitVec.getLsbD_of_ge _ i (Nat.le_of_not_lt hw)]

theorem getLsbD_update (f : BitField w) (old val : BitVec w) (i : Nat) :
    (f.update old val).getLsbD i = if f.Has i then val.getLsbD i else old.getLsbD i := by
  simp only [update, BitVec.getLsbD_or, BitVec.getLsbD_and, BitVec.getLsbD_not, getLsbD_mask]
  by_cases hw : i < w
  · by_cases h : f.Has i <;> simp [h, hw]
  · have hge := Nat.le_of_not_lt hw
    simp [BitVec.getLsbD_of_ge _ i hge]

theorem getLsbD_get (f : BitField w) (x : BitVec w) (i : Nat) :
    (f.get x).getLsbD i = (decide (f.lo + i ≤ f.hi) && x.getLsbD (f.lo + i)) := by
  simp only [get, BitVec.getLsbD_ushiftRight, BitVec.getLsbD_and, getLsbD_mask, Has]
  have : f.lo ≤ f.lo + i := by omega
  simp [this, Bool.and_comm]

/-! ## Reading back -/

/-- The field as a number. -/
theorem toNat_get (f : BitField w) (x : BitVec w) :
    (f.get x).toNat = x.toNat / 2 ^ f.lo % 2 ^ f.width := by
  apply Nat.eq_of_testBit_eq
  intro i
  rw [BitVec.testBit_toNat, getLsbD_get, Nat.testBit_mod_two_pow, Nat.testBit_div_two_pow,
    BitVec.testBit_toNat, Nat.add_comm i f.lo]
  have hle := f.le
  congr 1
  rw [decide_eq_decide, width]
  omega

/-- A field of one bit reads zero when the bit is clear. -/
theorem get_bit_eq_zero {i : Nat} {h : decide (i < w) = true} {x : BitVec w}
    (hx : x.getLsbD i = false) : (bit i h).get x = 0 := by
  apply BitVec.eq_of_getLsbD_eq
  intro j _
  rw [getLsbD_get]
  by_cases hj : j = 0
  · subst hj
    simpa [bit] using hx
  · have hlt : ¬ i + j ≤ i := by omega
    simp [bit, hlt]

/-- After an update the field is the field of the value. -/
theorem get_update (f : BitField w) (old val : BitVec w) :
    f.get (f.update old val) = f.get val := by
  apply BitVec.eq_of_getLsbD_eq
  intro i _
  rw [getLsbD_get, getLsbD_get, getLsbD_update]
  by_cases h : f.lo + i ≤ f.hi
  · have hhas : f.Has (f.lo + i) := ⟨by omega, h⟩
    rw [if_pos hhas]
  · simp [h]

/-- An update outside the field does not change it. -/
theorem get_update_of_disjoint {f g : BitField w} (h : ∀ i, g.Has i → ¬ f.Has i)
    (old val : BitVec w) : g.get (f.update old val) = g.get old := by
  apply BitVec.eq_of_getLsbD_eq
  intro i _
  rw [getLsbD_get, getLsbD_get, getLsbD_update]
  by_cases hi : g.lo + i ≤ g.hi
  · have hhas : g.Has (g.lo + i) := ⟨by omega, hi⟩
    rw [if_neg (h _ hhas)]
  · simp [hi]

/-- A value put back into the field it came from restores the register. -/
theorem update_restore (f : BitField w) (old val : BitVec w) :
    f.update (f.update old val) old = old := by
  apply BitVec.eq_of_getLsbD_eq
  intro i _
  simp only [getLsbD_update]
  split_ifs <;> rfl

/-- After a replace the field is the value, cut to the field's width. -/
theorem toNat_get_replace (f : BitField w) (old val : BitVec w) :
    (f.get (f.replace old val)).toNat = val.toNat % 2 ^ f.width := by
  apply Nat.eq_of_testBit_eq
  intro i
  rw [BitVec.testBit_toNat, getLsbD_get, Nat.testBit_mod_two_pow, BitVec.testBit_toNat,
    getLsbD_replace, Nat.add_sub_cancel_left]
  have hle := f.le
  by_cases h : f.lo + i ≤ f.hi
  · have hhas : f.Has (f.lo + i) := ⟨by omega, h⟩
    have hi : i < f.width := by
      rw [width]
      omega
    simp [h, hhas, hi]
  · have hi : ¬ i < f.width := by
      rw [width]
      omega
    simp [h, hi]

/-- A value that fits is read back as it was put in. -/
theorem get_replace_of_lt {f : BitField w} {val : BitVec w} (h : val.toNat < 2 ^ f.width)
    (old : BitVec w) : f.get (f.replace old val) = val := by
  apply BitVec.eq_of_toNat_eq
  rw [toNat_get_replace, Nat.mod_eq_of_lt h]

/-- A replace beside the field does not change it. -/
theorem get_replace_of_apart {f g : BitField w} (h : g.hi < f.lo ∨ f.hi < g.lo)
    (old val : BitVec w) : g.get (f.replace old val) = g.get old := by
  apply BitVec.eq_of_getLsbD_eq
  intro i _
  rw [getLsbD_get, getLsbD_get, getLsbD_replace]
  by_cases hi : g.lo + i ≤ g.hi
  · have hnot : ¬ f.Has (g.lo + i) := by
      rintro ⟨h₁, h₂⟩
      omega
    rw [if_neg hnot]
  · simp [hi]

/-- A field leaves the other bits of the register alone. -/
theorem getLsbD_replace_of_not {f : BitField w} {i : Nat} (h : ¬ f.Has i) (old val : BitVec w) :
    (f.replace old val).getLsbD i = old.getLsbD i := by
  rw [getLsbD_replace, if_neg h]

/-- Only the bits of the field count. -/
theorem get_congr {f : BitField w} {x y : BitVec w} (h : ∀ i, f.Has i → x.getLsbD i = y.getLsbD i) :
    f.get x = f.get y := by
  apply BitVec.eq_of_getLsbD_eq
  intro i _
  rw [getLsbD_get, getLsbD_get]
  by_cases hin : f.lo + i ≤ f.hi
  · rw [h _ ⟨Nat.le_add_right _ _, hin⟩]
  · simp [hin]

end BitField

end LicheeRvNano
