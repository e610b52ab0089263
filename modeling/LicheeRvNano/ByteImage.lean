import Mathlib.Data.List.Basic
import Mathlib.Tactic.Ring

/-!
# Byte images

What a program that writes a binary file and a program that loads it have in
common:

* little endian numbers, `toLE` and `ofLE`;
* `slice`, the bytes of a file at an offset;
* `Mem`, a byte addressed memory, with what a read sees of a write;
* `Layout`, the members of a packed struct. `get_join` is the agreement of the two
  sides: when the lengths of the joined elements are the widths of the struct's
  members, in the same order, every member reads back as its element.
-/

namespace LicheeRvNano

abbrev Bytes : Type := List UInt8

/-! ## Little endian numbers -/

/-- The `w` low bytes of `x`, the lowest first. -/
def toLE : Nat → Nat → Bytes
  | 0, _ => []
  | w + 1, x => UInt8.ofNat (x % 256) :: toLE w (x / 256)

def ofLE : Bytes → Nat
  | [] => 0
  | b :: bs => b.toNat + 256 * ofLE bs

@[simp] theorem length_toLE (w x : Nat) : (toLE w x).length = w := by
  induction w generalizing x with
  | zero => rfl
  | succ w ih => rw [toLE, List.length_cons, ih]

theorem ofLE_toLE {w x : Nat} (h : x < 256 ^ w) : ofLE (toLE w x) = x := by
  induction w generalizing x with
  | zero =>
    have : x = 0 := by simpa using h
    rw [this]
    rfl
  | succ w ih =>
    have hx : x / 256 < 256 ^ w := by
      rw [pow_succ] at h
      exact Nat.div_lt_of_lt_mul (by omega)
    have hb : (UInt8.ofNat (x % 256)).toNat = x % 256 := by
      rw [UInt8.toNat_ofNat']
      omega
    rw [toLE, ofLE, ih hx, hb]
    omega

theorem toLE_ofLE (b : Bytes) : toLE b.length (ofLE b) = b := by
  induction b with
  | nil => rfl
  | cons x b ih =>
    have hx : x.toNat < 256 := x.toNat_lt
    have hmod : (x.toNat + 256 * ofLE b) % 256 = x.toNat := by omega
    have hdiv : (x.toNat + 256 * ofLE b) / 256 = ofLE b := by omega
    rw [List.length_cons, ofLE, toLE, hmod, hdiv, ih, UInt8.ofNat_toNat]

theorem ofLE_lt (b : Bytes) : ofLE b < 256 ^ b.length := by
  induction b with
  | nil => exact Nat.one_pos
  | cons x b ih =>
    have hx : x.toNat < 256 := x.toNat_lt
    rw [ofLE, List.length_cons, pow_succ]
    omega

theorem ofLE_append (a b : Bytes) : ofLE (a ++ b) = ofLE a + 256 ^ a.length * ofLE b := by
  induction a with
  | nil => simp [ofLE]
  | cons x a ih =>
    rw [List.cons_append, ofLE, ofLE, ih, List.length_cons, pow_succ]
    ring

/-! ## Slices -/

/-- The `n` bytes at offset `off`, fewer where the file ends. -/
def slice (b : Bytes) (off n : Nat) : Bytes := (b.drop off).take n

theorem length_slice {b : Bytes} {off n : Nat} (h : off + n ≤ b.length) :
    (slice b off n).length = n := by
  simp only [slice, List.length_take, List.length_drop]
  omega

/-- A slice that begins where the first part ends. -/
theorem slice_append {pre x : Bytes} {off n : Nat} (hoff : pre.length = off) :
    slice (pre ++ x) off n = x.take n := by
  rw [slice, ← hoff, List.drop_left]

theorem slice_mid {pre x post : Bytes} {off n : Nat} (hoff : pre.length = off)
    (hn : x.length = n) : slice (pre ++ (x ++ post)) off n = x := by
  rw [slice_append hoff, ← hn, List.take_left]

/-- A slice that ends before the first part does. -/
theorem slice_append_left {x post : Bytes} {off n : Nat} (h : off + n ≤ x.length) :
    slice (x ++ post) off n = slice x off n := by
  have hle : n ≤ (x.drop off).length := by
    rw [List.length_drop]
    omega
  rw [slice, slice, List.drop_append_of_le_length (by omega), List.take_append_of_le_length hle]

/-- A slice of a slice. -/
theorem slice_slice {b : Bytes} {off n off' n' : Nat} (h : off' + n' ≤ n) :
    slice (slice b off n) off' n' = slice b (off + off') n' := by
  rw [slice, slice, slice, List.drop_take, List.drop_drop, List.take_take,
    Nat.min_eq_left (by omega)]

/-! ## Memory -/

def Mem : Type := Nat → UInt8

namespace Mem

variable (m : Mem)

def read (a n : Nat) : Bytes := (List.range n).map fun i => m (a + i)

def write (a : Nat) (b : Bytes) : Mem := fun x =>
  if a ≤ x then b[x - a]?.getD (m x) else m x

@[simp] theorem length_read (a n : Nat) : (m.read a n).length = n := by
  rw [read, List.length_map, List.length_range]

theorem write_apply_of_lt {a x : Nat} {b : Bytes} (h : x < a) : m.write a b x = m x :=
  if_neg (by omega)

theorem write_apply_of_le {a x : Nat} {b : Bytes} (h : a + b.length ≤ x) :
    m.write a b x = m x := by
  rw [write, if_pos (by omega), List.getElem?_eq_none (by omega), Option.getD_none]

theorem write_apply_add {a i : Nat} {b : Bytes} (h : i < b.length) :
    m.write a b (a + i) = b[i] := by
  rw [write, if_pos (by omega), Nat.add_sub_cancel_left, List.getElem?_eq_getElem h,
    Option.getD_some]

/-- What was written is read back, in any part of it. -/
theorem read_write_part {a k n : Nat} {b : Bytes} (h : k + n ≤ b.length) :
    (m.write a b).read (a + k) n = slice b k n := by
  apply List.ext_getElem
  · rw [length_read, length_slice h]
  · intro i h₁ _
    rw [length_read] at h₁
    simp only [read, slice, List.getElem_map, List.getElem_range, List.getElem_take,
      List.getElem_drop, Nat.add_assoc]
    exact m.write_apply_add (by omega)

@[simp] theorem read_write_self (a : Nat) (b : Bytes) : (m.write a b).read a b.length = b := by
  have h := m.read_write_part (a := a) (k := 0) (n := b.length) (b := b) (by omega)
  rwa [Nat.add_zero, slice, List.drop_zero, List.take_length] at h

/-- A part of what is read is a part of the bytes. -/
theorem read_part {a n k j : Nat} {b : Bytes} (h : m.read a n = b) (hle : k + j ≤ n) :
    m.read (a + k) j = slice b k j := by
  subst h
  apply List.ext_getElem
  · rw [length_read, length_slice (by rwa [length_read])]
  · intro i _ _
    simp only [read, slice, List.getElem_map, List.getElem_range, List.getElem_take,
      List.getElem_drop, Nat.add_assoc]

/-- A write leaves what lies beside it. -/
theorem read_write_of_disjoint {a c n : Nat} {b : Bytes}
    (h : a + b.length ≤ c ∨ c + n ≤ a) : (m.write a b).read c n = m.read c n := by
  apply List.map_congr_left
  intro i hi
  rw [List.mem_range] at hi
  rcases h with h | h
  · exact m.write_apply_of_le (by omega)
  · exact m.write_apply_of_lt (by omega)

/-- Writing back what is there changes nothing. -/
@[simp] theorem write_read_self (a n : Nat) : m.write a (m.read a n) = m := by
  funext x
  rw [write]
  split
  case isFalse => rfl
  case isTrue hx =>
    by_cases hn : x - a < n
    · have hxa : a + (x - a) = x := by omega
      rw [List.getElem?_eq_getElem (by rwa [length_read])]
      simp [read, hxa]
    · rw [List.getElem?_eq_none (by rw [length_read]; omega), Option.getD_none]

theorem read_add (a n k : Nat) : m.read a (n + k) = m.read a n ++ m.read (a + n) k := by
  simp only [read, List.range_add, List.map_append, List.map_map, Function.comp_def, Nat.add_assoc]

end Mem

/-! ## Packed structs -/

/-- The members of a packed struct with their widths in bytes, in order. -/
abbrev Layout (F : Type) : Type := List (F × Nat)

namespace Layout

variable {F : Type}

def size (l : Layout F) : Nat := (l.map Prod.snd).sum

/-- The elements of a file one after the other. -/
def join (es : List (F × Bytes)) : Bytes := es.flatMap Prod.snd

/-- The layout that the elements have. -/
def ofElements (es : List (F × Bytes)) : Layout F := es.map fun e => (e.1, e.2.length)

theorem join_append (es es' : List (F × Bytes)) : join (es ++ es') = join es ++ join es' :=
  List.flatMap_append

theorem length_join (es : List (F × Bytes)) : (join es).length = (ofElements es).size := by
  induction es with
  | nil => rfl
  | cons e es ih =>
    rw [join, List.flatMap_cons, List.length_append, ← join, ih]
    rfl

variable [DecidableEq F]

/-- `offsetof`. -/
def offsetOf (f : F) : Layout F → Nat
  | [] => 0
  | (g, w) :: l => if g = f then 0 else w + offsetOf f l

/-- `sizeof` of a member. -/
def widthOf (f : F) : Layout F → Nat
  | [] => 0
  | (g, w) :: l => if g = f then w else widthOf f l

/-- The bytes of a member. -/
def member (l : Layout F) (f : F) (b : Bytes) : Bytes := slice b (l.offsetOf f) (l.widthOf f)

/-- The value of an integer member. -/
def get (l : Layout F) (f : F) (b : Bytes) : Nat := ofLE (l.member f b)

/-- Assignment to an integer member. -/
def set (l : Layout F) (f : F) (x : Nat) (b : Bytes) : Bytes :=
  b.take (l.offsetOf f) ++ toLE (l.widthOf f) x ++ b.drop (l.offsetOf f + l.widthOf f)

/-- A member holds no more than its width. -/
theorem get_lt (l : Layout F) (f : F) (b : Bytes) : l.get f b < 256 ^ l.widthOf f := by
  have hlen : (l.member f b).length ≤ l.widthOf f := List.length_take_le ..
  exact (ofLE_lt _).trans_le (Nat.pow_le_pow_right (by omega) hlen)

/-- Assigning the value a member has changes nothing. -/
theorem set_get {l : Layout F} {f : F} {b : Bytes} (h : l.offsetOf f + l.widthOf f ≤ b.length) :
    l.set f (l.get f b) b = b := by
  have hw : (l.member f b).length = l.widthOf f := length_slice h
  have hb : toLE (l.widthOf f) (l.get f b) = l.member f b := by
    rw [← hw, get, toLE_ofLE]
  rw [set, hb, member, slice, List.append_assoc, ← List.drop_drop, List.take_append_drop,
    List.take_append_drop]

/-- A member is the element of its name, whatever follows the elements. -/
theorem member_join {es : List (F × Bytes)} {f : F} {v rest : Bytes}
    (h : es.lookup f = some v) : (ofElements es).member f (join es ++ rest) = v := by
  induction es with
  | nil => simp at h
  | cons e es ih =>
    obtain ⟨g, u⟩ := e
    by_cases hg : g = f
    · subst hg
      rw [List.lookup_cons_self, Option.some.injEq] at h
      subst h
      simp [member, ofElements, offsetOf, widthOf, join, slice]
    · have hne : (f == g) = false := beq_false_of_ne (Ne.symm hg)
      rw [List.lookup_cons, hne] at h
      have := ih h
      simp only [member, ofElements, List.map_cons, offsetOf, widthOf, if_neg hg] at this ⊢
      rw [join, List.flatMap_cons, List.append_assoc, slice, ← List.drop_drop, List.drop_left]
      exact this

/-- The same for integers: a member holds the number its element encodes. -/
theorem get_join {l : Layout F} {es : List (F × Bytes)} {f : F} {v rest : Bytes}
    (hl : ofElements es = l) (h : es.lookup f = some v) : l.get f (join es ++ rest) = ofLE v := by
  rw [get, ← hl, member_join h]

end Layout

end LicheeRvNano
