import Mathlib.Algebra.Order.BigOperators.Group.Finset
import Mathlib.Data.Fintype.BigOperators
import Mathlib.Logic.Relation

/-!
# Reference counts in a forest

Nodes that hang from one another, each with a count of the reasons to be on. Acquiring a
node that is off acquires its parent first; releasing it for the last time releases the
parent afterwards. A pinned node is never turned off.

A count is a natural number, so none is ever too great to be counted on.

`Accounts` is the ledger: a count is what the users of the node hold, one for each child
that is on, and a slack that nobody will give back. `acquire_accounts` and
`release_accounts` say that the two operations keep it, and that slack comes from pinned
nodes only; `Accounts.reparent_on` and `Accounts.reparent_off` that every move of a node
leaves slack behind.
-/

namespace LicheeRvNano

universe u

/-- Nodes that hang from one another, with their counts. -/
structure Forest (C : Type u) where
  parent : C → Option C
  count : C → Nat

namespace Forest

variable {C : Type u} [DecidableEq C]

/-- A node is on while it is counted. -/
def On (f : Forest C) (c : C) : Prop := 0 < f.count c

instance (f : Forest C) (c : C) : Decidable (f.On c) := inferInstanceAs (Decidable (_ < _))

/-- One more in a table of counts. -/
def tally (counts : C → Nat) (c : C) : C → Nat := Function.update counts c (counts c + 1)

def bump (f : Forest C) (c : C) : Forest C := { f with count := tally f.count c }

def drop (f : Forest C) (c : C) : Forest C :=
  { f with count := Function.update f.count c (f.count c - 1) }

def reparent (f : Forest C) (c p : C) : Forest C :=
  { f with parent := Function.update f.parent c (some p) }

/-- Acquire a node: the forest and what was turned on, in this order. -/
def acquire : Nat → Forest C → C → Option (Forest C × List C)
  | 0, _, _ => none
  | fuel + 1, f, c =>
    if f.On c then some (f.bump c, [])
    else
      match f.parent c with
      | none => some (f.bump c, [c])
      | some p => (acquire fuel f p).map fun r => (r.1.bump c, r.2 ++ [c])

/-- Release a node: the forest and what was turned off, in this order. -/
def release (pinned : C → Bool) : Nat → Forest C → C → Option (Forest C × List C)
  | 0, _, _ => none
  | fuel + 1, f, c =>
    if pinned c = true ∨ f.count c = 0 then some (f, [])
    else if 1 < f.count c then some (f.drop c, [])
    else
      match f.parent c with
      | none => some (f.drop c, [c])
      | some p => (release pinned fuel (f.drop c) p).map fun r => (r.1, c :: r.2)

/-! ## Above and below -/

/-- `c` is `d` or hangs below it. -/
def Hangs (f : Forest C) : C → C → Prop :=
  Relation.ReflTransGen fun c p => f.parent c = some p

/-- No node hangs below itself. -/
def Acyclic (f : Forest C) : Prop :=
  ∃ rank : C → Nat, ∀ c p, f.parent c = some p → rank p < rank c

omit [DecidableEq C] in
theorem Acyclic.not_hangs {f : Forest C} (h : f.Acyclic) {c p : C} (hp : f.parent c = some p) :
    ¬ f.Hangs p c := by
  obtain ⟨rank, hrank⟩ := h
  have hle : ∀ {a b : C}, f.Hangs a b → rank b ≤ rank a := by
    intro a b hab
    induction hab with
    | refl => exact le_rfl
    | tail _ hstep ih => exact (hrank _ _ hstep).le.trans ih
  exact fun hpc => absurd (hle hpc) (Nat.not_le_of_gt (hrank c p hp))

open Classical in
/-- A node may be hung from any other that is not below it. -/
theorem Acyclic.reparent {f : Forest C} (h : f.Acyclic) {c p : C} (hp : ¬ f.Hangs p c) :
    (f.reparent c p).Acyclic := by
  obtain ⟨rank, hrank⟩ := h
  -- everything below `c` is lifted above `p`
  refine ⟨fun d => if f.Hangs d c then rank d + (rank p + 1) else rank d, fun d e hde => ?_⟩
  by_cases hdc : d = c
  · subst hdc
    have hself : (f.reparent d p).parent d = some p := Function.update_self ..
    obtain rfl := Option.some.inj (hself.symm.trans hde)
    simp only [if_neg hp, if_pos (show f.Hangs d d from .refl)]
    omega
  · have hstep : f.parent d = some e := (Function.update_of_ne hdc _ _).symm.trans hde
    have hlt := hrank d e hstep
    have hiff : f.Hangs d c ↔ f.Hangs e c := by
      constructor
      · intro hd
        rcases Relation.ReflTransGen.cases_head hd with heq | ⟨e', hde', he'⟩
        · exact absurd heq hdc
        · obtain rfl := Option.some.inj (hstep.symm.trans hde')
          exact he'
      · exact fun he => .head hstep he
    by_cases he : f.Hangs e c
    · simp only [if_pos he, if_pos (hiff.mpr he)]
      omega
    · simp only [if_neg he, if_neg fun hd => he (hiff.mp hd)]
      exact hlt

/-! ## The children that are on -/

/-- One if `c` is a child of `e` and on. -/
def kid (f : Forest C) (c e : C) : Nat := if f.parent c = some e ∧ f.On c then 1 else 0

theorem kid_of_on {f : Forest C} {c e : C} (hp : f.parent c = some e) (hon : f.On c) :
    f.kid c e = 1 := if_pos ⟨hp, hon⟩

theorem kid_of_off {f : Forest C} {c : C} (hoff : ¬ f.On c) (e : C) : f.kid c e = 0 :=
  if_neg fun h => hoff h.2

theorem kid_of_ne {f : Forest C} {c e : C} (hp : f.parent c ≠ some e) : f.kid c e = 0 :=
  if_neg fun h => hp h.1

@[simp] theorem tally_self (counts : C → Nat) (c : C) : tally counts c c = counts c + 1 :=
  Function.update_self ..

theorem tally_of_ne (counts : C → Nat) {c d : C} (h : d ≠ c) : tally counts c d = counts d :=
  Function.update_of_ne h _ _

@[simp] theorem bump_parent (f : Forest C) (c : C) : (f.bump c).parent = f.parent := rfl

@[simp] theorem drop_parent (f : Forest C) (c : C) : (f.drop c).parent = f.parent := rfl

@[simp] theorem bump_count_self (f : Forest C) (c : C) : (f.bump c).count c = f.count c + 1 :=
  tally_self ..

theorem bump_count_of_ne (f : Forest C) {c d : C} (h : d ≠ c) : (f.bump c).count d = f.count d :=
  tally_of_ne _ h

@[simp] theorem drop_count_self (f : Forest C) (c : C) : (f.drop c).count c = f.count c - 1 :=
  Function.update_self ..

theorem drop_count_of_ne (f : Forest C) {c d : C} (h : d ≠ c) : (f.drop c).count d = f.count d :=
  Function.update_of_ne h _ _

theorem on_bump (f : Forest C) (c d : C) : (f.bump c).On d ↔ f.On d ∨ d = c := by
  by_cases h : d = c
  · subst h
    simp [On]
  · simp [On, bump_count_of_ne f h, h]

theorem on_drop (f : Forest C) {c : C} (h : f.count c = 1) (d : C) :
    (f.drop c).On d ↔ f.On d ∧ d ≠ c := by
  by_cases hd : d = c
  · subst hd
    simp [On, h]
  · simp [On, drop_count_of_ne f hd, hd]

/-- The holds of the other users while the parent of `c` is held for `c`. -/
def pass (f : Forest C) (c : C) (holds : C → Nat) : C → Nat :=
  match f.parent c with
  | none => holds
  | some p => tally holds p

theorem pass_eq {f : Forest C} {c : C} (hon : f.On c) (holds : C → Nat) (e : C) :
    f.pass c holds e = holds e + f.kid c e := by
  rw [pass]
  cases hp : f.parent c with
  | none =>
    have hne : f.parent c ≠ some e := by
      rw [hp]
      exact (Option.some_ne_none e).symm
    rw [kid_of_ne hne, add_zero]
  | some p =>
    dsimp only
    by_cases he : e = p
    · subst he
      rw [kid_of_on hp hon, tally_self]
    · have hne : f.parent c ≠ some e := fun heq => he (Option.some.inj (heq.symm.trans hp))
      rw [kid_of_ne hne, tally_of_ne _ he, add_zero]

section Ledger

variable [Fintype C]

/-- The number of children of `e` that are on. -/
def kids (f : Forest C) (e : C) : Nat := ∑ c, f.kid c e

/-- What changes at one node changes the children by that node. -/
theorem kids_change (f g : Forest C) (c : C)
    (h : ∀ d, d ≠ c → g.parent d = f.parent d ∧ (g.On d ↔ f.On d)) (e : C) :
    g.kids e + f.kid c e = f.kids e + g.kid c e := by
  have hrest : ∑ d ∈ Finset.univ.erase c, g.kid d e = ∑ d ∈ Finset.univ.erase c, f.kid d e := by
    refine Finset.sum_congr rfl fun d hd => ?_
    obtain ⟨hparent, hon⟩ := h d (Finset.ne_of_mem_erase hd)
    rw [kid, kid, hparent]
    exact if_congr (and_congr_right' hon) rfl rfl
  rw [kids, kids, ← Finset.add_sum_erase _ _ (Finset.mem_univ c),
    ← Finset.add_sum_erase Finset.univ (fun d => f.kid d e) (Finset.mem_univ c), hrest]
  omega

theorem kid_le_kids (f : Forest C) (c e : C) : f.kid c e ≤ f.kids e :=
  Finset.single_le_sum (f := fun d => f.kid d e) (fun _ _ => Nat.zero_le _) (Finset.mem_univ c)

theorem kids_bump (f : Forest C) (c e : C) :
    (f.bump c).kids e + f.kid c e = f.kids e + (f.bump c).kid c e :=
  kids_change f (f.bump c) c (fun d hd => ⟨rfl, by simp [on_bump, hd]⟩) e

theorem kids_drop (f : Forest C) (c e : C) :
    (f.drop c).kids e + f.kid c e = f.kids e + (f.drop c).kid c e :=
  kids_change f (f.drop c) c (fun d hd => ⟨rfl, by rw [On, On, drop_count_of_ne f hd]⟩) e

/-- Each count is what the users hold, the children that are on, and the slack. -/
def Accounts (f : Forest C) (holds slack : C → Nat) : Prop :=
  ∀ c, f.count c = holds c + f.kids c + slack c

namespace Accounts

variable {f : Forest C} {holds slack : C → Nat}

/-- A node that is on keeps its parent on. -/
theorem parent_on (h : f.Accounts holds slack) {c p : C} (hp : f.parent c = some p)
    (hon : f.On c) : f.On p := by
  have hkid := f.kid_le_kids c p
  rw [kid_of_on hp hon] at hkid
  have hcount := h p
  rw [On]
  omega

/-- A node without slack is on just as long as it is needed. -/
theorem on_iff (h : f.Accounts holds slack) {c : C} (hslack : slack c = 0) :
    f.On c ↔ 0 < holds c ∨ ∃ d, f.parent d = some c ∧ f.On d := by
  have hcount := h c
  rw [hslack, add_zero] at hcount
  constructor
  · intro hon
    rw [On, hcount] at hon
    rcases Nat.eq_zero_or_pos (holds c) with hzero | hpos
    · have hkids : f.kids c ≠ 0 := by omega
      obtain ⟨d, -, hd⟩ := Finset.exists_ne_zero_of_sum_ne_zero hkids
      refine .inr ⟨d, ?_⟩
      by_contra hnot
      exact hd (if_neg hnot)
    · exact .inl hpos
  · rintro (hpos | ⟨d, hd, hon⟩)
    · rw [On]
      omega
    · exact h.parent_on hd hon

/-- One more user of a node that is on. -/
theorem bump_on (h : f.Accounts holds slack) {c : C} (hon : f.On c) :
    (f.bump c).Accounts (tally holds c) slack := by
  intro d
  have hkids := kids_bump f c d
  have hsame : (f.bump c).kid c d = f.kid c d :=
    if_congr (and_congr_right' (by simp [on_bump, hon])) rfl rfl
  have hcount := h d
  by_cases hd : d = c
  · subst hd
    rw [tally_self, bump_count_self]
    omega
  · rw [tally_of_ne _ hd, bump_count_of_ne f hd]
    omega

/-- A node that is off is turned on with what its parent was acquired for. -/
theorem bump_off {c : C} (h : f.Accounts (f.pass c holds) slack) (hoff : ¬ f.On c) :
    (f.bump c).Accounts (tally holds c) slack := by
  intro d
  have hkids := kids_bump f c d
  rw [kid_of_off hoff] at hkids
  have hpass : f.pass c holds d = holds d + (f.bump c).kid c d :=
    pass_eq ((on_bump f c c).mpr (.inr rfl)) holds d
  have hcount := h d
  by_cases hd : d = c
  · subst hd
    rw [tally_self, bump_count_self]
    omega
  · rw [tally_of_ne _ hd, bump_count_of_ne f hd]
    omega

/-- One user less of a node that stays on. -/
theorem drop_on {c : C} (h : f.Accounts (tally holds c) slack) (hon : 1 < f.count c) :
    (f.drop c).Accounts holds slack := by
  intro d
  have hkids := kids_drop f c d
  have hsame : (f.drop c).kid c d = f.kid c d := by
    refine if_congr (and_congr_right' ?_) rfl rfl
    rw [On, On, drop_count_self]
    omega
  have hcount := h d
  by_cases hd : d = c
  · subst hd
    rw [tally_self] at hcount
    rw [drop_count_self]
    omega
  · rw [tally_of_ne _ hd] at hcount
    rw [drop_count_of_ne f hd]
    omega

/-- The last user: the parent is no longer needed for this node. -/
theorem drop_last {c : C} (h : f.Accounts (tally holds c) slack) (hlast : f.count c = 1) :
    (f.drop c).Accounts (f.pass c holds) slack := by
  intro d
  have hkids := kids_drop f c d
  have hoff : ¬ (f.drop c).On c := by
    rw [On, drop_count_self, hlast]
    omega
  rw [kid_of_off hoff, add_zero] at hkids
  have hon : f.On c := by
    rw [On, hlast]
    exact Nat.one_pos
  rw [pass_eq hon]
  have hcount := h d
  by_cases hd : d = c
  · subst hd
    rw [tally_self] at hcount
    rw [drop_count_self]
    omega
  · rw [tally_of_ne _ hd] at hcount
    rw [drop_count_of_ne f hd]
    omega

/-- Moving a node that is on to a parent that was acquired for it: the old parent stays
counted. -/
theorem reparent_on {c p : C} (h : f.Accounts (tally holds p) slack) (hon : f.On c) :
    (f.reparent c p).Accounts holds (f.pass c slack) := by
  intro d
  have hkids : (f.reparent c p).kids d + f.kid c d = f.kids d + (f.reparent c p).kid c d :=
    kids_change f (f.reparent c p) c (fun e he => ⟨Function.update_of_ne he _ _, Iff.rfl⟩) d
  have hself : (f.reparent c p).parent c = some p := Function.update_self ..
  have hcount := h d
  rw [pass_eq hon]
  change f.count d = _
  by_cases hd : d = p
  · subst hd
    rw [kid_of_on hself hon] at hkids
    rw [tally_self] at hcount
    omega
  · have hne : (f.reparent c p).parent c ≠ some d := fun heq =>
      hd (Option.some.inj (heq.symm.trans hself))
    rw [kid_of_ne hne] at hkids
    rw [tally_of_ne _ hd] at hcount
    omega

/-- Moving a node that is off: the new parent stays counted. -/
theorem reparent_off {c p : C} (h : f.Accounts (tally holds p) slack) (hoff : ¬ f.On c) :
    (f.reparent c p).Accounts holds (tally slack p) := by
  intro d
  have hkids : (f.reparent c p).kids d + f.kid c d = f.kids d + (f.reparent c p).kid c d :=
    kids_change f (f.reparent c p) c (fun e he => ⟨Function.update_of_ne he _ _, Iff.rfl⟩) d
  rw [kid_of_off hoff, kid_of_off (show ¬ (f.reparent c p).On c from hoff)] at hkids
  have hcount := h d
  change f.count d = _
  by_cases hd : d = p
  · subst hd
    rw [tally_self] at hcount ⊢
    omega
  · rw [tally_of_ne _ hd] at hcount ⊢
    omega

end Accounts

end Ledger

/-! ## What the two operations do -/

section Operations

variable {f f' : Forest C} {c : C} {l : List C} {fuel : Nat} {pinned : C → Bool}

theorem acquire_cases (h : acquire (fuel + 1) f c = some (f', l)) :
    (f.On c ∧ f' = f.bump c ∧ l = []) ∨
      (¬ f.On c ∧ f.parent c = none ∧ f' = f.bump c ∧ l = [c]) ∨
      ∃ p g m, ¬ f.On c ∧ f.parent c = some p ∧ acquire fuel f p = some (g, m) ∧
        f' = g.bump c ∧ l = m ++ [c] := by
  rw [acquire] at h
  split_ifs at h with hon
  · obtain ⟨rfl, rfl⟩ := Prod.mk.inj (Option.some.inj h)
    exact .inl ⟨hon, rfl, rfl⟩
  · cases hp : f.parent c with
    | none =>
      rw [hp] at h
      obtain ⟨rfl, rfl⟩ := Prod.mk.inj (Option.some.inj h)
      exact .inr (.inl ⟨hon, rfl, rfl, rfl⟩)
    | some p =>
      rw [hp] at h
      obtain ⟨⟨g, m⟩, hg, heq⟩ := Option.map_eq_some_iff.mp h
      obtain ⟨rfl, rfl⟩ := Prod.mk.inj heq
      exact .inr (.inr ⟨p, g, m, hon, rfl, hg, rfl, rfl⟩)

theorem release_cases (h : release pinned (fuel + 1) f c = some (f', l)) :
    ((pinned c = true ∨ ¬ f.On c) ∧ f' = f ∧ l = []) ∨
      (pinned c = false ∧ 1 < f.count c ∧ f' = f.drop c ∧ l = []) ∨
      (pinned c = false ∧ f.count c = 1 ∧ f.parent c = none ∧ f' = f.drop c ∧ l = [c]) ∨
      ∃ p m, pinned c = false ∧ f.count c = 1 ∧ f.parent c = some p ∧
        release pinned fuel (f.drop c) p = some (f', m) ∧ l = c :: m := by
  rw [release] at h
  split_ifs at h with hkeep hmany
  · obtain ⟨rfl, rfl⟩ := Prod.mk.inj (Option.some.inj h)
    exact .inl ⟨hkeep.imp_right fun hzero hon => absurd hzero hon.ne', rfl, rfl⟩
  · obtain ⟨rfl, rfl⟩ := Prod.mk.inj (Option.some.inj h)
    exact .inr (.inl ⟨Bool.eq_false_iff.mpr fun hpin => hkeep (.inl hpin), hmany, rfl, rfl⟩)
  · have hpin : pinned c = false := Bool.eq_false_iff.mpr fun hpin => hkeep (.inl hpin)
    have hlast : f.count c = 1 := by
      have hne : f.count c ≠ 0 := fun hzero => hkeep (.inr hzero)
      omega
    cases hp : f.parent c with
    | none =>
      rw [hp] at h
      obtain ⟨rfl, rfl⟩ := Prod.mk.inj (Option.some.inj h)
      exact .inr (.inr (.inl ⟨hpin, hlast, rfl, rfl, rfl⟩))
    | some p =>
      rw [hp] at h
      obtain ⟨⟨g, m⟩, hg, heq⟩ := Option.map_eq_some_iff.mp h
      obtain ⟨rfl, rfl⟩ := Prod.mk.inj heq
      exact .inr (.inr (.inr ⟨p, m, hpin, hlast, rfl, hg, rfl⟩))

/-- What acquiring a node turns on, and where it counts. -/
structure Acquired (f : Forest C) (c : C) (f' : Forest C) (l : List C) : Prop where
  parent : f'.parent = f.parent
  self : f'.On c
  on : ∀ d, f'.On d ↔ f.On d ∨ d ∈ l
  fresh : ∀ d ∈ l, ¬ f.On d
  frame : ∀ d, ¬ f.Hangs c d → f'.count d = f.count d

theorem acquired_of_acquire (h : acquire fuel f c = some (f', l)) : Acquired f c f' l := by
  induction fuel generalizing f' c l with
  | zero => exact absurd h.symm (Option.some_ne_none _)
  | succ fuel ih =>
    obtain ⟨hon, rfl, rfl⟩ | ⟨hoff, hp, rfl, rfl⟩ | ⟨p, g, m, hoff, hp, hg, rfl, rfl⟩ :=
      acquire_cases h
    · refine ⟨rfl, (on_bump f c c).mpr (.inr rfl), fun d => ?_, fun d hd => ?_, fun d hd => ?_⟩
      · rw [on_bump]
        constructor
        · rintro (hd | rfl)
          · exact .inl hd
          · exact .inl hon
        · rintro (hd | hd)
          · exact .inl hd
          · exact absurd hd List.not_mem_nil
      · exact absurd hd List.not_mem_nil
      · exact bump_count_of_ne f fun heq => hd (heq ▸ .refl)
    · refine ⟨rfl, (on_bump f c c).mpr (.inr rfl), fun d => ?_, fun d hd => ?_, fun d hd => ?_⟩
      · rw [on_bump, List.mem_singleton]
      · rwa [List.mem_singleton.mp hd]
      · exact bump_count_of_ne f fun heq => hd (heq ▸ .refl)
    · have hup := ih hg
      refine ⟨hup.parent, (on_bump g c c).mpr (.inr rfl), fun d => ?_, fun d hd => ?_,
        fun d hd => ?_⟩
      · rw [on_bump, hup.on, List.mem_append, List.mem_singleton, or_assoc]
      · rcases List.mem_append.mp hd with hm | hself
        · exact hup.fresh d hm
        · rwa [List.mem_singleton.mp hself]
      · have hne : d ≠ c := fun heq => hd (heq ▸ .refl)
        rw [bump_count_of_ne g hne]
        exact hup.frame d fun hpd => hd (.head hp hpd)

/-- What releasing a node turns off. -/
structure Released (pinned : C → Bool) (f f' : Forest C) (l : List C) : Prop where
  parent : f'.parent = f.parent
  on : ∀ d, f'.On d ↔ f.On d ∧ d ∉ l
  unpinned : ∀ d ∈ l, pinned d = false

theorem released_of_release (h : release pinned fuel f c = some (f', l)) :
    Released pinned f f' l := by
  induction fuel generalizing f f' c l with
  | zero => exact absurd h.symm (Option.some_ne_none _)
  | succ fuel ih =>
    obtain ⟨-, rfl, rfl⟩ | ⟨-, hmany, rfl, rfl⟩ | ⟨hpin, hlast, -, rfl, rfl⟩ |
      ⟨p, m, hpin, hlast, -, hg, rfl⟩ := release_cases h
    · exact ⟨rfl, fun d => by simp, fun d hd => absurd hd List.not_mem_nil⟩
    · refine ⟨rfl, fun d => ?_, fun d hd => absurd hd List.not_mem_nil⟩
      by_cases hd : d = c
      · subst hd
        simp only [On, drop_count_self, List.not_mem_nil, not_false_eq_true, and_true]
        omega
      · simp [On, drop_count_of_ne f hd]
    · refine ⟨rfl, fun d => ?_, fun d hd => by rwa [List.mem_singleton.mp hd]⟩
      rw [on_drop f hlast, List.mem_singleton]
    · have hup := ih hg
      refine ⟨hup.parent, fun d => ?_, fun d hd => ?_⟩
      · rw [hup.on, on_drop f hlast, List.mem_cons, not_or, and_assoc]
      · rcases List.mem_cons.mp hd with rfl | hm
        · exact hpin
        · exact hup.unpinned d hm

/-- Releasing a node counts above it only. -/
theorem release_frame (h : release pinned fuel f c = some (f', l)) {d : C}
    (hd : ¬ f.Hangs c d) : f'.count d = f.count d := by
  have hdrop : ∀ {g : Forest C} {e : C}, ¬ g.Hangs e d → (g.drop e).count d = g.count d :=
    fun hge => drop_count_of_ne _ fun heq => hge (heq ▸ .refl)
  induction fuel generalizing f f' c l with
  | zero => exact absurd h.symm (Option.some_ne_none _)
  | succ fuel ih =>
    obtain ⟨-, rfl, rfl⟩ | ⟨-, -, rfl, rfl⟩ | ⟨-, -, -, rfl, rfl⟩ | ⟨p, m, -, -, hp, hg, rfl⟩ :=
      release_cases h
    · rfl
    · exact hdrop hd
    · exact hdrop hd
    · rw [ih hg fun hpd => hd (.head hp hpd)]
      exact hdrop hd

/-- What is turned off is above the node. -/
theorem release_hangs (h : release pinned fuel f c = some (f', l)) {d : C} (hd : d ∈ l) :
    f.Hangs c d := by
  induction fuel generalizing f f' c l with
  | zero => exact absurd h.symm (Option.some_ne_none _)
  | succ fuel ih =>
    obtain ⟨-, rfl, rfl⟩ | ⟨-, -, rfl, rfl⟩ | ⟨-, -, -, rfl, rfl⟩ | ⟨p, m, -, -, hp, hg, rfl⟩ :=
      release_cases h
    · exact absurd hd List.not_mem_nil
    · exact absurd hd List.not_mem_nil
    · rw [List.mem_singleton.mp hd]
      exact .refl
    · rcases List.mem_cons.mp hd with rfl | hm
      · exact .refl
      · have hup : (f.drop c).Hangs p d := ih hg hm
        exact .head hp hup

variable [Fintype C] {holds slack : C → Nat}

/-- **Acquiring keeps the ledger.** -/
theorem acquire_accounts (hacyclic : f.Acyclic) (h : f.Accounts holds slack)
    (hf : acquire fuel f c = some (f', l)) : f'.Accounts (tally holds c) slack := by
  induction fuel generalizing f' c l with
  | zero => exact absurd hf.symm (Option.some_ne_none _)
  | succ fuel ih =>
    obtain ⟨hon, rfl, rfl⟩ | ⟨hoff, hp, rfl, rfl⟩ | ⟨p, g, m, hoff, hp, hg, rfl, rfl⟩ :=
      acquire_cases hf
    · exact h.bump_on hon
    · refine Accounts.bump_off ?_ hoff
      rwa [pass, hp]
    · have hup := acquired_of_acquire hg
      refine Accounts.bump_off ?_ ?_
      · rw [pass, hup.parent, hp]
        exact ih hg
      · rw [On, hup.frame c (hacyclic.not_hangs hp)]
        exact hoff

/-- **Releasing keeps the ledger**, with slack for pinned nodes only. -/
theorem release_accounts (h : f.Accounts (tally holds c) slack)
    (hf : release pinned fuel f c = some (f', l)) :
    ∃ slack', f'.Accounts holds slack' ∧ ∀ d, pinned d = false → slack' d = slack d := by
  induction fuel generalizing f f' c l with
  | zero => exact absurd hf.symm (Option.some_ne_none _)
  | succ fuel ih =>
    obtain ⟨hkeep, rfl, rfl⟩ | ⟨-, hmany, rfl, rfl⟩ | ⟨hpin, hlast, hp, rfl, rfl⟩ |
      ⟨p, m, hpin, hlast, hp, hg, rfl⟩ := release_cases hf
    · have hpin : pinned c = true := by
        rcases hkeep with hpin | hoff
        · exact hpin
        · have hcount := h c
          rw [tally_self] at hcount
          rw [On] at hoff
          omega
      refine ⟨tally slack c, fun d => ?_, fun d hd => tally_of_ne _ fun heq => ?_⟩
      · have hcount := h d
        by_cases hd : d = c
        · subst hd
          rw [tally_self] at hcount ⊢
          omega
        · rw [tally_of_ne _ hd] at hcount ⊢
          exact hcount
      · rw [heq, hpin] at hd
        exact absurd hd (by decide)
    · exact ⟨slack, h.drop_on hmany, fun _ _ => rfl⟩
    · have hlastUser := h.drop_last hlast
      rw [pass, hp] at hlastUser
      exact ⟨slack, hlastUser, fun _ _ => rfl⟩
    · have hlastUser := h.drop_last hlast
      rw [pass, hp] at hlastUser
      exact ih hlastUser hg

/-! ## Enough fuel -/

omit [DecidableEq C] in
open Classical in
/-- The nodes above a node, as a rank. -/
theorem Acyclic.rank_lt (h : f.Acyclic) {c p : C} (hp : f.parent c = some p) :
    (Finset.univ.filter (f.Hangs p)).card < (Finset.univ.filter (f.Hangs c)).card := by
  refine Finset.card_lt_card (Finset.ssubset_iff_of_subset ?_ |>.mpr ⟨c, ?_, ?_⟩)
  · intro d hd
    rw [Finset.mem_filter] at hd ⊢
    exact ⟨hd.1, .head hp hd.2⟩
  · exact Finset.mem_filter.mpr ⟨Finset.mem_univ c, .refl⟩
  · exact fun hc => h.not_hangs hp (Finset.mem_filter.mp hc).2

open Classical in
theorem acquire_isSome (h : f.Acyclic) (c : C) (hfuel : Fintype.card C < fuel) :
    (acquire fuel f c).isSome = true := by
  have hrank : (Finset.univ.filter (f.Hangs c)).card < fuel :=
    (Finset.card_le_univ _).trans_lt hfuel
  clear hfuel
  induction fuel generalizing c with
  | zero => exact absurd hrank (Nat.not_lt_zero _)
  | succ fuel ih =>
    rw [acquire]
    split_ifs with hon
    · rfl
    · cases hp : f.parent c with
      | none => rfl
      | some p =>
        have hup := ih p ((h.rank_lt hp).trans_le (Nat.le_of_lt_succ hrank))
        rwa [← Option.isSome_map] at hup

open Classical in
theorem release_isSome (h : f.Acyclic) (c : C) (hfuel : Fintype.card C < fuel) :
    (release pinned fuel f c).isSome = true := by
  have hrank : (Finset.univ.filter (f.Hangs c)).card < fuel :=
    (Finset.card_le_univ _).trans_lt hfuel
  clear hfuel
  induction fuel generalizing f c with
  | zero => exact absurd hrank (Nat.not_lt_zero _)
  | succ fuel ih =>
    rw [release]
    split_ifs with hkeep hmany
    · rfl
    · rfl
    · cases hp : f.parent c with
      | none => rfl
      | some p =>
        have hup := ih (f := f.drop c) h p ((h.rank_lt hp).trans_le (Nat.le_of_lt_succ hrank))
        rwa [← Option.isSome_map] at hup

end Operations

end Forest

end LicheeRvNano
