import Mathlib.Data.List.Infix
import Mathlib.Algebra.BigOperators.Group.List.Basic
import Mathlib.Algebra.GroupWithZero.Nat
import Mathlib.Order.CompletePartialOrder
import Mathlib.Order.Interval.Set.Disjoint
import Mathlib.Tactic.Common

/-!
# Bump allocators that look for a wrap

An allocator that hands out the bytes behind a pointer and moves it on, in an address space
of `limit` bytes. It does not compare the pointer with the end of its arena: it refuses a
request when the pointer has come so far that one more arena would wrap.

`inArena_blocks_iff` says for which requests the blocks are in the arena and apart all the
same: of each beginning of them, the sum fits in the arena, or the test refuses it.
-/

namespace LicheeRvNano

open Set

/-- An arena, with room for one more behind it. -/
structure BumpArena where
  base : Nat
  len : Nat
  limit : Nat
  base_pos : 0 < base
  len_pos : 0 < len
  room : base + len + len ≤ limit

namespace BumpArena

/-- The bytes of a block; one at address 0 has none. -/
def bytes (b : Nat × Nat) : Set Nat := {x | b.1 ≠ 0 ∧ x ∈ Ico b.1 (b.1 + b.2)}

theorem mem_bytes {b : Nat × Nat} {x : Nat} : x ∈ bytes b ↔ b.1 ≠ 0 ∧ b.1 ≤ x ∧ x < b.1 + b.2 :=
  Iff.rfl

variable (a : BumpArena)

def span : Set Nat := Ico a.base (a.base + a.len)

/-- The pointer after `used` bytes. -/
def pointer (used : Nat) : Nat := (a.base + used) % a.limit

/-- The test of the allocator, on the pointer it has moved. -/
def refuses (buf : Nat) : Bool := (buf + a.len) % a.limit ≤ buf

/-- What a request for `n` bytes after `used` is answered. -/
def answer (used n : Nat) : Nat := if a.refuses (a.pointer (used + n)) then 0 else a.pointer used

/-- The answers to the requests in turn, each with its size. -/
def blocks (used : Nat) : List Nat → List (Nat × Nat)
  | [] => []
  | n :: ns => (a.answer used n, n) :: blocks (used + n) ns

/-- The blocks lie in the arena, and each is apart from the earlier ones. -/
structure InArena (bs : List (Nat × Nat)) : Prop where
  inside : ∀ b ∈ bs, bytes b ⊆ a.span
  apart : bs.Pairwise fun b b' => Disjoint (bytes b) (bytes b')

/-- The bytes used so far are in the arena, or the last request was refused. -/
def Good (used : Nat) : Prop := used ≤ a.len ∨ a.limit ≤ a.pointer used + a.len

/-- The same of every beginning of the requests, after `used` bytes. -/
def Fits (used : Nat) (reqs : List Nat) : Prop := ∀ pre, pre <+: reqs → a.Good (used + pre.sum)

variable {a} {used n : Nat} {reqs : List Nat}

theorem mem_span {x : Nat} : x ∈ a.span ↔ a.base ≤ x ∧ x < a.base + a.len := Iff.rfl

theorem limit_pos : 0 < a.limit := by
  have := a.room
  have := a.base_pos
  omega

theorem pointer_lt (used : Nat) : a.pointer used < a.limit := Nat.mod_lt _ limit_pos

theorem pointer_of_le (h : used ≤ a.len) : a.pointer used = a.base + used := by
  have := a.room
  have := a.len_pos
  exact Nat.mod_eq_of_lt (by omega)

theorem pointer_add (used n : Nat) : a.pointer (used + n) = (a.pointer used + n) % a.limit := by
  rw [pointer, pointer, Nat.mod_add_mod, Nat.add_assoc]

theorem refuses_iff {buf : Nat} (h : buf < a.limit) : a.refuses buf = true ↔ a.limit ≤ buf + a.len := by
  have hlen := a.len_pos
  have hroom := a.room
  rw [refuses, decide_eq_true_iff]
  rcases lt_or_ge (buf + a.len) a.limit with hlt | hge
  · rw [Nat.mod_eq_of_lt hlt]
    omega
  · rw [Nat.mod_eq_sub_mod hge, Nat.mod_eq_of_lt (by omega)]
    omega

theorem zip_blocks (used : Nat) (reqs : List Nat) :
    ((a.blocks used reqs).map Prod.fst).zip reqs = a.blocks used reqs := by
  induction reqs generalizing used with
  | nil => rfl
  | cons n reqs ih => rw [blocks, List.map_cons, List.zip_cons_cons, ih]

/-- A request after good ones: its block is in the arena exactly when it is good as well. -/
theorem bytes_answer_subset_iff (hgood : a.Good used) :
    bytes (a.answer used n, n) ⊆ a.span ↔ a.Good (used + n) := by
  have hbase := a.base_pos
  have hroom := a.room
  rw [answer, Good]
  by_cases hr : a.refuses (a.pointer (used + n)) = true
  · rw [if_pos hr]
    rw [refuses_iff (pointer_lt _)] at hr
    exact iff_of_true (fun x hx => absurd rfl hx.1) (.inr hr)
  rw [if_neg hr]
  rw [refuses_iff (pointer_lt _)] at hr
  rw [or_iff_left hr]
  rcases hgood with hused | hend
  · rw [pointer_of_le hused]
    constructor
    · intro hsub
      by_contra hlong
      have hlast : a.base + used + n - 1 ∈ a.span := hsub (mem_bytes.mpr (by omega))
      have := mem_span.mp hlast
      omega
    · intro hfit x hx
      have := mem_bytes.mp hx
      exact mem_span.mpr (by omega)
  · -- what is not refused behind a refused request has wrapped, and starts at the very end
    have hwrap : a.limit ≤ a.pointer used + n := by
      by_contra hlt
      rw [pointer_add, Nat.mod_eq_of_lt (by omega)] at hr
      omega
    have hp := pointer_lt (a := a) used
    refine iff_of_false (fun hsub => ?_) (fun hle => hr ?_)
    · have hfirst : a.pointer used ∈ a.span := hsub (mem_bytes.mpr (by omega))
      have := mem_span.mp hfirst
      omega
    · have hused : a.pointer used = a.base + used := pointer_of_le (by omega)
      rw [hused] at hend
      omega

theorem fits_cons_iff (hgood : a.Good used) :
    a.Fits used (n :: reqs) ↔ a.Good (used + n) ∧ a.Fits (used + n) reqs := by
  constructor
  · intro h
    have hcons (pre : List Nat) (hpre : pre <+: reqs) : a.Good (used + n + pre.sum) := by
      have := h (n :: pre) (List.cons_prefix_cons.mpr ⟨rfl, hpre⟩)
      rwa [List.sum_cons, ← Nat.add_assoc] at this
    exact ⟨hcons [] (List.nil_prefix), hcons⟩
  · rintro ⟨-, h⟩ pre hpre
    rcases List.prefix_cons_iff.mp hpre with rfl | ⟨pre, rfl, htail⟩
    · exact hgood
    · rw [List.sum_cons, ← Nat.add_assoc]
      exact h pre htail

/-- All the blocks are in the arena: the induction is on the requests, and good ones carry it. -/
theorem inside_iff (hgood : a.Good used) :
    (∀ b ∈ a.blocks used reqs, bytes b ⊆ a.span) ↔ a.Fits used reqs := by
  induction reqs generalizing used with
  | nil =>
    refine iff_of_true nofun fun pre hpre => ?_
    rw [List.prefix_nil.mp hpre]
    exact hgood
  | cons n reqs ih =>
    rw [blocks, List.forall_mem_cons, bytes_answer_subset_iff hgood, fits_cons_iff hgood]
    exact and_congr_right fun hn => ih hn

/-- A good block is the next bytes of the arena, or none. -/
theorem mem_bytes_answer {x : Nat} (hgood : a.Good used) (hn : a.Good (used + n))
    (hx : x ∈ bytes (a.answer used n, n)) : a.base + used ≤ x ∧ x < a.base + used + n := by
  have hroom := a.room
  have hin := mem_span.mp ((bytes_answer_subset_iff hgood).mpr hn hx)
  rw [mem_bytes, answer] at hx
  split at hx
  case isTrue => exact absurd rfl hx.1
  case isFalse =>
    rcases hgood with hused | hend
    · rwa [pointer_of_le hused, and_iff_right (by have := a.base_pos; omega)] at hx
    · omega

/-- Blocks in the arena lie behind what was used before them. -/
theorem le_of_mem_blocks {b : Nat × Nat} {x : Nat} (hgood : a.Good used) (hfits : a.Fits used reqs)
    (hb : b ∈ a.blocks used reqs) (hx : x ∈ bytes b) : a.base + used ≤ x := by
  induction reqs generalizing used with
  | nil => cases hb
  | cons n reqs ih =>
    obtain ⟨hn, hrest⟩ := (fits_cons_iff hgood).mp hfits
    rcases List.mem_cons.mp hb with rfl | hb
    · exact (mem_bytes_answer hgood hn hx).1
    · have := ih hn hrest hb
      omega

theorem apart_of_fits (hgood : a.Good used) (hfits : a.Fits used reqs) :
    (a.blocks used reqs).Pairwise fun b b' => Disjoint (bytes b) (bytes b') := by
  induction reqs generalizing used with
  | nil => exact .nil
  | cons n reqs ih =>
    obtain ⟨hn, hrest⟩ := (fits_cons_iff hgood).mp hfits
    refine List.pairwise_cons.mpr ⟨fun b hb => ?_, ih hn hrest⟩
    refine Set.disjoint_left.mpr fun x hx hx' => ?_
    have hbelow := (mem_bytes_answer hgood hn hx).2
    have hbehind := le_of_mem_blocks hn hrest hb hx'
    omega

/-- **Blocks in the arena.** -/
theorem inArena_blocks_iff : a.InArena (a.blocks 0 reqs) ↔ a.Fits 0 reqs := by
  have hgood : a.Good 0 := .inl (Nat.zero_le _)
  constructor
  · exact fun h => (inside_iff hgood).mp h.inside
  · exact fun h => ⟨(inside_iff hgood).mpr h, apart_of_fits hgood h⟩

end BumpArena

end LicheeRvNano
