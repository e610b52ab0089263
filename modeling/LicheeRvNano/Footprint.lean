import Mathlib.Data.BitVec
import Mathlib.Data.List.Pairwise
import Mathlib.Data.Nat.Bitwise

/-!
# Footprints: which bits of which registers

A footprint is a list of masks by the offsets of their registers. What an operation writes
is a footprint that it keeps to (`Keeps`), what it reads is one on which the registers have
to agree (`Agree`); where the two are apart the read does not see the write (`Keeps.agree`).

A footprint is also a number, each bit in its place, so that footprints are compared in one
operation: `apart_of_land` and `pairwise_of_disjointAll`.
-/

namespace LicheeRvNano

/-- Masks with the offsets of their registers, of width `w`. -/
abbrev Footprint (w : Nat) := List (Nat × BitVec w)

namespace Footprint

variable {w : Nat}

/-- The footprint covers the bit `i` of the register at `o`. -/
def Has (F : Footprint w) (o i : Nat) : Prop := ∃ m, (o, m) ∈ F ∧ m.getLsbD i = true

/-- No bit in common. -/
def Separate (F G : Footprint w) : Prop := ∀ o i, F.Has o i → ¬ G.Has o i

theorem Has.append_left {F : Footprint w} {o i : Nat} (h : F.Has o i) (G : Footprint w) :
    (F ++ G : Footprint w).Has o i := by
  obtain ⟨m, hm, hi⟩ := h
  exact ⟨m, List.mem_append_left _ hm, hi⟩

theorem Has.append_right {G : Footprint w} {o i : Nat} (h : G.Has o i) (F : Footprint w) :
    (F ++ G : Footprint w).Has o i := by
  obtain ⟨m, hm, hi⟩ := h
  exact ⟨m, List.mem_append_right _ hm, hi⟩

theorem Has.mono {F G : Footprint w} {o i : Nat} (h : F.Has o i) (hsub : F ⊆ G) : G.Has o i := by
  obtain ⟨m, hm, hi⟩ := h
  exact ⟨m, hsub hm, hi⟩

theorem Separate.symm {F G : Footprint w} (h : Separate F G) : Separate G F :=
  fun o i hG hF => h o i hF hG

theorem Separate.mono {F G G' : Footprint w} (h : Separate F G) (hsub : G' ⊆ G) : Separate F G' :=
  fun o i hF hG => h o i hF (hG.mono hsub)

/-! ## Registers -/

section Registers

variable {F G : Footprint w} {base : Nat} {regs regs' regs'' : Nat → BitVec w}

/-- Nothing but the footprint changes. -/
def Keeps (F : Footprint w) (base : Nat) (regs regs' : Nat → BitVec w) : Prop :=
  ∀ o i, ¬ F.Has o i → (regs' (base + o)).getLsbD i = (regs (base + o)).getLsbD i

/-- The footprint has not changed. -/
def Agree (F : Footprint w) (base : Nat) (regs regs' : Nat → BitVec w) : Prop :=
  ∀ o i, F.Has o i → (regs' (base + o)).getLsbD i = (regs (base + o)).getLsbD i

theorem Keeps.refl (F : Footprint w) (base : Nat) (regs : Nat → BitVec w) : Keeps F base regs regs :=
  fun _ _ _ => rfl

theorem Keeps.trans (h : Keeps F base regs regs') (h' : Keeps F base regs' regs'') :
    Keeps F base regs regs'' :=
  fun o i hi => (h' o i hi).trans (h o i hi)

theorem Keeps.mono (h : Keeps F base regs regs') (hsub : F ⊆ G) : Keeps G base regs regs' :=
  fun o i hi => h o i fun hF => hi (hF.mono hsub)

theorem Keeps.agree (h : Keeps F base regs regs') (hapart : Separate F G) : Agree G base regs regs' :=
  fun o i hi => h o i fun hF => hapart o i hF hi

/-- A register that was written, in the bits of a mask. -/
theorem keeps_update {o : Nat} {m v : BitVec w}
    (h : ∀ i, m.getLsbD i = false → v.getLsbD i = (regs (base + o)).getLsbD i) :
    Keeps [(o, m)] base regs (Function.update regs (base + o) v) := by
  intro o' i hi
  by_cases ho : o' = o
  · subst ho
    rw [Function.update_self]
    refine h i ?_
    by_contra hbit
    exact hi ⟨m, List.mem_singleton_self _, Bool.eq_true_of_not_eq_false hbit⟩
  · rw [Function.update_of_ne fun heq => ho (Nat.add_left_cancel heq)]

/-- What a mask shows of a register in the footprint. -/
theorem Agree.and_eq {o : Nat} {m : BitVec w} (h : Agree F base regs regs') (hm : (o, m) ∈ F) :
    regs' (base + o) &&& m = regs (base + o) &&& m := by
  apply BitVec.eq_of_getLsbD_eq
  intro i _
  rw [BitVec.getLsbD_and, BitVec.getLsbD_and]
  by_cases hbit : m.getLsbD i = true
  · rw [h o i ⟨m, hm, hbit⟩]
  · rw [Bool.eq_false_iff.mpr hbit, Bool.and_false, Bool.and_false]

theorem Agree.mono (h : Agree G base regs regs') (hsub : F ⊆ G) : Agree F base regs regs' :=
  fun o i hi => h o i (hi.mono hsub)

theorem Agree.trans (h : Agree F base regs regs') (h' : Agree F base regs' regs'') :
    Agree F base regs regs'' :=
  fun o i hi => (h' o i hi).trans (h o i hi)

/-- Many operations, all apart from the footprint. -/
theorem agree_foldl {α : Type*} {op : (Nat → BitVec w) → α → Nat → BitVec w}
    {print : α → Footprint w} (hop : ∀ regs a, Keeps (print a) base regs (op regs a)) {l : List α}
    (hapart : ∀ a ∈ l, Separate (print a) G) : Agree G base regs (l.foldl op regs) := by
  induction l generalizing regs with
  | nil => exact fun _ _ _ => rfl
  | cons a l ih =>
    rw [List.forall_mem_cons] at hapart
    exact ((hop regs a).agree hapart.1).trans (ih hapart.2)

end Registers

/-! ## As numbers -/

/-- The footprint as a number. -/
def toBits (F : Footprint w) : Nat := F.foldr (fun x acc => x.2.toNat <<< (w * x.1) ||| acc) 0

theorem testBit_toBits {F : Footprint w} {o i : Nat} (h : F.Has o i) :
    F.toBits.testBit (w * o + i) = true := by
  obtain ⟨m, hm, hi⟩ := h
  induction F with
  | nil => exact absurd hm List.not_mem_nil
  | cons x F ih =>
    rw [toBits, List.foldr_cons, Nat.testBit_or]
    rcases List.mem_cons.mp hm with rfl | hrest
    · have hbit : (m.toNat <<< (w * o)).testBit (w * o + i) = true := by
        rw [Nat.testBit_shiftLeft]
        simp [BitVec.testBit_toNat, hi]
      rw [hbit, Bool.true_or]
    · have hrec := ih hrest
      rw [toBits] at hrec
      rw [hrec, Bool.or_true]

theorem apart_of_land {F G : Footprint w} (h : F.toBits &&& G.toBits = 0) : Separate F G := by
  intro o i hF hG
  have hbit : (F.toBits &&& G.toBits).testBit (w * o + i) = true := by
    rw [Nat.testBit_and, testBit_toBits hF, testBit_toBits hG, Bool.and_true]
  rw [h, Nat.zero_testBit] at hbit
  exact absurd hbit (by decide)

/-- No two of the numbers have a bit in common, nor any with `acc`. -/
def disjointAll : Nat → List Nat → Bool
  | _, [] => true
  | acc, x :: xs => (acc &&& x == 0) && disjointAll (acc ||| x) xs

theorem pairwise_of_disjointAll {acc : Nat} {l : List Nat} (h : disjointAll acc l = true) :
    (∀ x ∈ l, acc &&& x = 0) ∧ l.Pairwise fun x y => x &&& y = 0 := by
  induction l generalizing acc with
  | nil => exact ⟨fun _ h => absurd h List.not_mem_nil, List.Pairwise.nil⟩
  | cons x xs ih =>
    rw [disjointAll, Bool.and_eq_true, beq_iff_eq] at h
    obtain ⟨hx, hrest⟩ := h
    obtain ⟨hacc, hpairs⟩ := ih hrest
    have hsplit : ∀ y ∈ xs, acc &&& y = 0 ∧ x &&& y = 0 := by
      intro y hy
      have hboth := hacc y hy
      rw [Nat.and_comm, Nat.and_or_distrib_left, Nat.or_eq_zero_iff] at hboth
      rwa [Nat.and_comm acc, Nat.and_comm x]
    refine ⟨fun y hy => ?_, List.pairwise_cons.mpr ⟨fun y hy => (hsplit y hy).2, hpairs⟩⟩
    rcases List.mem_cons.mp hy with rfl | hxs
    · exact hx
    · exact (hsplit y hxs).1

/-- Many footprints, no two with a bit in common. -/
theorem apart_of_disjointAll {α : Type*} {l : List α} {F : α → Footprint w}
    (h : disjointAll 0 (l.map fun a => (F a).toBits) = true) {a b : α} (ha : a ∈ l) (hb : b ∈ l)
    (hne : a ≠ b) : Separate (F a) (F b) := by
  have hpairs := List.pairwise_map.mp (pairwise_of_disjointAll h).2
  have : Std.Symm fun x y : α => (F x).toBits &&& (F y).toBits = 0 :=
    ⟨fun x y hxy => (Nat.and_comm _ _).trans hxy⟩
  exact apart_of_land (hpairs.forall ha hb hne)

end Footprint

end LicheeRvNano
