import LicheeRvNano.RefForest
import Mathlib.Algebra.Notation.Defs

/-!
# Values handed down in a forest, and a cache of them

Each node has a value of its own or makes one of the value of its parent (`Yields`). A cache
has a value for some of the nodes and zero for the others. It is coherent when the values are
those that the nodes have, and stays so while nothing changes at or above a node that is in
the cache (`Coherent.frame`).
-/

namespace LicheeRvNano

universe u v

/-- How a node comes to its value: whether it asks its parent, its value if it does not, its
value if there is no parent to ask, and what it makes of the value of the parent. -/
structure ValueNode (V : Type v) where
  asks : Bool
  own : V
  top : V
  make : V → V

namespace Forest

variable {C : Type u} {V : Type v}

/-- The node `c` has the value `v`. -/
inductive Yields (nodes : C → ValueNode V) (f : Forest C) : C → V → Prop
  | own {c : C} (hasks : (nodes c).asks = false) : Yields nodes f c (nodes c).own
  | top {c : C} (hasks : (nodes c).asks = true) (hp : f.parent c = none) :
    Yields nodes f c (nodes c).top
  | made {c p : C} {v : V} (hasks : (nodes c).asks = true) (hp : f.parent c = some p)
    (h : Yields nodes f p v) : Yields nodes f c ((nodes c).make v)

variable {nodes nodes' : C → ValueNode V} {f f' : Forest C} {c : C} {v w : V}

/-- A node has one value. -/
theorem Yields.unique (h : Yields nodes f c v) (h' : Yields nodes f c w) : v = w := by
  induction h generalizing w with
  | own hasks =>
    cases h' with
    | own => rfl
    | top hasks' | made hasks' => exact absurd (hasks.symm.trans hasks') Bool.false_ne_true
  | top hasks hp =>
    cases h' with
    | own hasks' => exact absurd (hasks'.symm.trans hasks) Bool.false_ne_true
    | top => rfl
    | made _ hp' => exact absurd (hp.symm.trans hp').symm (Option.some_ne_none _)
  | made hasks hp _ ih =>
    cases h' with
    | own hasks' => exact absurd (hasks'.symm.trans hasks) Bool.false_ne_true
    | top _ hp' => exact absurd (hp'.symm.trans hp).symm (Option.some_ne_none _)
    | made _ hp' h' =>
      obtain rfl := Option.some.inj (hp.symm.trans hp')
      rw [ih h']

/-- The value of a node depends on what is above it. -/
theorem Yields.frame (h : Yields nodes f c v)
    (hsame : ∀ e, f.Hangs c e → f'.parent e = f.parent e ∧ nodes' e = nodes e) :
    Yields nodes' f' c v := by
  induction h with
  | @own c hasks =>
    obtain ⟨-, hnode⟩ := hsame c .refl
    rw [← hnode] at hasks ⊢
    exact .own hasks
  | @top c hasks hp =>
    obtain ⟨hparent, hnode⟩ := hsame c .refl
    rw [← hnode] at hasks ⊢
    exact .top hasks (hparent.trans hp)
  | @made c p v hasks hp _ ih =>
    obtain ⟨hparent, hnode⟩ := hsame c .refl
    rw [← hnode] at hasks ⊢
    exact .made hasks (hparent.trans hp) (ih fun e he => hsame e (.head hp he))

/-! ## The cache -/

variable [Zero V] {cache cache' : C → V}

/-- What is in the cache is right. -/
def Coherent (nodes : C → ValueNode V) (f : Forest C) (cache : C → V) : Prop :=
  ∀ c, cache c ≠ 0 → Yields nodes f c (cache c)

theorem Coherent.update [DecidableEq C] (h : Coherent nodes f cache) (hv : Yields nodes f c v) :
    Coherent nodes f (Function.update cache c v) := by
  intro d hd
  by_cases hdc : d = c
  · subst hdc
    rwa [Function.update_self]
  · rw [Function.update_of_ne hdc] at hd ⊢
    exact h d hd

/-- A cache stays coherent with what has not changed above what it keeps. -/
theorem Coherent.frame (h : Coherent nodes f cache)
    (hsame : ∀ d, cache' d ≠ 0 → cache' d = cache d ∧
      ∀ e, f.Hangs d e → f'.parent e = f.parent e ∧ nodes' e = nodes e) :
    Coherent nodes' f' cache' := by
  intro d hd
  obtain ⟨hkept, habove⟩ := hsame d hd
  rw [hkept] at hd ⊢
  exact (h d hd).frame habove

end Forest

end LicheeRvNano
