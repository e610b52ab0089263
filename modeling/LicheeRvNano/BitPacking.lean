import Mathlib.Data.Nat.Bitwise
import Mathlib.Tactic.Common

/-!
# Packing fields into a word

Hardware descriptors are words made of adjacent fields, the first at bit zero. `packFrom`
puts masked values next to each other from a bit on, `unpackFrom` reads them back. A field
keeps of its value what fits its width, and nothing of one field is seen in another
(`unpackFrom_packFrom`).

Where the fields have names, `Adjacent` says that a table of their places is the one that
packing gives, and `extractLsb'_packFrom` reads a field back at its place.
-/

namespace LicheeRvNano

variable {w : Nat}

/-- The mask of the `n` lowest bits. -/
def lowMask (w n : Nat) : BitVec w := BitVec.ofNat w (2 ^ n - 1)

@[simp] theorem getLsbD_lowMask (n i : Nat) :
    (lowMask w n).getLsbD i = (decide (i < w) && decide (i < n)) := by
  rw [lowMask, BitVec.getLsbD_ofNat, Nat.testBit_two_pow_sub_one]

theorem toNat_and_lowMask (v : BitVec w) (n : Nat) (hn : n ≤ w) :
    (v &&& lowMask w n).toNat = v.toNat % 2 ^ n := by
  have hmask : 2 ^ n - 1 < 2 ^ w :=
    Nat.lt_of_lt_of_le (Nat.sub_lt (Nat.two_pow_pos n) Nat.one_pos) (Nat.pow_le_pow_right Nat.two_pos hn)
  rw [BitVec.toNat_and, lowMask, BitVec.toNat_ofNat, Nat.mod_eq_of_lt hmask,
    Nat.and_two_pow_sub_one_eq_mod]

/-- Fields, a width and a value each, from bit `off` on. -/
def packFrom (off : Nat) : List (Nat × BitVec w) → BitVec w
  | [] => 0
  | (n, v) :: fields => (v &&& lowMask w n) <<< off ||| packFrom (off + n) fields

/-- The values of adjacent fields of the given widths. -/
def unpackFrom (off : Nat) (x : BitVec w) : List Nat → List (BitVec w)
  | [] => []
  | n :: widths => (x >>> off &&& lowMask w n) :: unpackFrom (off + n) x widths

/-- Nothing is packed below the first field. -/
theorem getLsbD_packFrom_of_lt {off i : Nat} (h : i < off) (fields : List (Nat × BitVec w)) :
    (packFrom off fields).getLsbD i = false := by
  induction fields generalizing off with
  | nil => exact BitVec.getLsbD_zero
  | cons f fields ih =>
    rw [packFrom, BitVec.getLsbD_or, ih (by omega), BitVec.getLsbD_shiftLeft, decide_eq_true h]
    simp

/-- The fields are read back whatever stands below them. -/
theorem unpackFrom_or_packFrom (fields : List (Nat × BitVec w)) {off : Nat} {x : BitVec w}
    (hx : ∀ i, off ≤ i → x.getLsbD i = false) (hfit : off + (fields.map Prod.fst).sum ≤ w) :
    unpackFrom off (x ||| packFrom off fields) (fields.map Prod.fst) =
      fields.map fun f => f.2 &&& lowMask w f.1 := by
  induction fields generalizing off x with
  | nil => rfl
  | cons f fields ih =>
    obtain ⟨n, v⟩ := f
    simp only [List.map_cons, List.sum_cons] at hfit
    rw [List.map_cons, List.map_cons, unpackFrom]
    congr 1
    · apply BitVec.eq_of_getLsbD_eq
      intro i hi
      simp only [packFrom, BitVec.getLsbD_and, BitVec.getLsbD_ushiftRight, BitVec.getLsbD_or,
        BitVec.getLsbD_shiftLeft, getLsbD_lowMask]
      by_cases hn : i < n
      · rw [hx (off + i) (by omega), getLsbD_packFrom_of_lt (by omega)]
        have hin : off + i < w := by omega
        simp [hi, hn, hin]
      · simp [hn]
    · rw [packFrom, ← BitVec.or_assoc]
      apply ih _ (by omega)
      intro i hi
      rw [BitVec.getLsbD_or, hx i (by omega), BitVec.getLsbD_shiftLeft, BitVec.getLsbD_and,
        getLsbD_lowMask]
      have hout : ¬ i - off < n := by omega
      simp [hout]

theorem unpackFrom_packFrom {fields : List (Nat × BitVec w)} (hfit : (fields.map Prod.fst).sum ≤ w) :
    unpackFrom 0 (packFrom 0 fields) (fields.map Prod.fst) =
      fields.map fun f => f.2 &&& lowMask w f.1 := by
  have h := @unpackFrom_or_packFrom w fields 0 0#w (fun i _ => BitVec.getLsbD_zero) (by omega)
  rwa [BitVec.zero_or] at h

/-! ## Named fields -/

section Named

variable {ι : Type} (shift width : ι → Nat)

/-- The fields stand next to each other from bit `off` on. -/
def Adjacent (off : Nat) : List ι → Prop
  | [] => True
  | f :: fs => shift f = off ∧ Adjacent (off + width f) fs

variable {shift width} {off : Nat} {fs : List ι}

theorem Adjacent.bounds (h : Adjacent shift width off fs) :
    ∀ f ∈ fs, off ≤ shift f ∧ shift f + width f ≤ off + (fs.map width).sum := by
  induction fs generalizing off with
  | nil => exact nofun
  | cons g fs ih =>
    rw [List.map_cons, List.sum_cons]
    refine List.forall_mem_cons.mpr ⟨by have := h.1; omega, fun f hf => ?_⟩
    have := ih h.2 f hf
    omega

/-- Adjacent fields do not overlap: a bit of both is a bit of one field. -/
theorem Adjacent.eq_of_common {f g : ι} {b : Nat} (h : Adjacent shift width off fs) (hf : f ∈ fs)
    (hg : g ∈ fs) (hfb : shift f ≤ b ∧ b < shift f + width f)
    (hgb : shift g ≤ b ∧ b < shift g + width g) : f = g := by
  induction fs generalizing off with
  | nil => cases hf
  | cons e fs ih =>
    have he := h.1
    rcases List.mem_cons.mp hf with rfl | hf'
    · rcases List.mem_cons.mp hg with rfl | hg'
      · rfl
      · have := h.2.bounds g hg'
        omega
    · rcases List.mem_cons.mp hg with rfl | hg'
      · have := h.2.bounds f hf'
        omega
      · exact ih h.2 hf' hg'

/-- Adjacent fields leave no bit out. -/
theorem Adjacent.cover (h : Adjacent shift width off fs) {b : Nat} (hlo : off ≤ b)
    (hhi : b < off + (fs.map width).sum) : ∃ f ∈ fs, shift f ≤ b ∧ b < shift f + width f := by
  induction fs generalizing off with
  | nil => exact absurd hhi (by simpa using hlo)
  | cons f fs ih =>
    rw [List.map_cons, List.sum_cons] at hhi
    have hf := h.1
    by_cases hb : b < off + width f
    · exact ⟨f, List.mem_cons_self, by omega⟩
    · obtain ⟨g, hg, hgb⟩ := ih h.2 (by omega) (by omega)
      exact ⟨g, List.mem_cons_of_mem _ hg, hgb⟩

/-- The bits of a word are those of the fields, each at its place. -/
theorem getLsbD_packFrom (value : ι → BitVec w) (h : Adjacent shift width off fs) {f : ι} (hf : f ∈ fs)
    {k : Nat} (hk : k < width f) (hfit : shift f + k < w) :
    (packFrom off (fs.map fun g => (width g, value g))).getLsbD (shift f + k) =
      (value f).getLsbD k := by
  induction fs generalizing off with
  | nil => cases hf
  | cons g fs ih =>
    rw [List.map_cons, packFrom, BitVec.getLsbD_or, BitVec.getLsbD_shiftLeft, BitVec.getLsbD_and,
      getLsbD_lowMask]
    have hg := h.1
    rcases List.mem_cons.mp hf with rfl | hf
    · rw [getLsbD_packFrom_of_lt (by omega), hg]
      have hlt : k < w := by omega
      have hsum : off + k < w := by omega
      simp [hk, hlt, hsum]
    · have := h.2.bounds f hf
      have hout : ¬ shift f + k - off < width g := by omega
      rw [ih h.2 hf, decide_eq_false hout]
      simp

/-- A field read back at its place. -/
theorem extractLsb'_packFrom (value : ι → BitVec w) (h : Adjacent shift width off fs)
    (hsum : off + (fs.map width).sum ≤ w) {f : ι} (hf : f ∈ fs) :
    (packFrom off (fs.map fun g => (width g, value g))).extractLsb' (shift f) (width f) =
      (value f).setWidth (width f) := by
  have hb := h.bounds f hf
  apply BitVec.eq_of_getLsbD_eq
  intro k hk
  rw [BitVec.getLsbD_extractLsb', BitVec.getLsbD_setWidth,
    getLsbD_packFrom value h hf hk (by omega)]

end Named
end LicheeRvNano
