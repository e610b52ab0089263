import Mathlib.Data.List.Basic
import Mathlib.Data.List.Infix
import Mathlib.Tactic.Cases

/-!
# Machines with an event log

The general layer under every driver model of this development. A `Machine` is a
partial step function: from a state and an action (what a thread, the hardware or
the environment does next) it either refuses or answers with the next state and
the events the step makes visible. Two things are said about it:

* `exec` runs a list of actions and concatenates the events, so a *run* is the
  list of actions and its *log* is the list of events. Every prefix of a run is a
  run, so a statement about all runs is a statement about all reachable states.
* `Meets ok` says that each action of a run satisfies `ok` in the state it is
  taken from. It is what a result that holds only for well-behaved callers is
  stated with.

`exec_invariant` is the one induction over runs: an invariant relates the state
to the *whole* log up to it, so facts about the past (this node was freed, that
buffer is still mapped) need no ghost fields in the state.

`Judged P log` says that each event of the log satisfies `P` against the events
before it, which is how exactly-once and use-after properties are written.
-/

namespace LicheeRvNano

universe u v w

/-- A deterministic machine with an event log: `step s a` is `none` when the
action is not possible in `s`, else the next state and the events of the step. -/
structure Machine (S : Type u) (A : Type v) (E : Type w) where
  /-- one step -/
  step : S → A → Option (S × List E)

namespace Machine

variable {S : Type u} {A : Type v} {E : Type w} (M : Machine S A E)

/-- Run a list of actions; the log of the run is the concatenation of the steps'
events. A refused action refuses the run. -/
def exec : S → List A → Option (S × List E)
  | s, [] => some (s, [])
  | s, a :: as =>
    match M.step s a with
    | none => none
    | some (s₁, ev) =>
      match exec s₁ as with
      | none => none
      | some (s₂, log) => some (s₂, ev ++ log)

/-- Each action of the run satisfies `ok` in the state it is taken from. -/
def Meets (ok : S → A → Prop) : S → List A → Prop
  | _, [] => True
  | s, a :: as =>
    ok s a ∧
      match M.step s a with
      | none => True
      | some (s₁, _) => Meets ok s₁ as

instance decidableMeets (ok : S → A → Prop) [∀ s a, Decidable (ok s a)] :
    ∀ (as : List A) (s : S), Decidable (M.Meets ok s as)
  | [], _ => isTrue trivial
  | a :: as, s =>
    have : Decidable (match M.step s a with
        | none => True
        | some (s₁, _) => M.Meets ok s₁ as) :=
      match M.step s a with
      | none => isTrue trivial
      | some (s₁, _) => decidableMeets ok as s₁
    inferInstanceAs (Decidable (_ ∧ _))

variable {M}

@[simp] theorem exec_nil (s : S) : M.exec s [] = some (s, []) := rfl

/-- Inversion for a nonempty run: its first step and the rest of it. -/
theorem exec_cons_eq_some {s s' : S} {a : A} {as : List A} {log : List E}
    (h : M.exec s (a :: as) = some (s', log)) :
    ∃ s₁ ev rest, M.step s a = some (s₁, ev) ∧ M.exec s₁ as = some (s', rest) ∧
      log = ev ++ rest := by
  rw [exec] at h
  rcases hs : M.step s a with _ | ⟨s₁, ev⟩
  · rw [hs] at h
    cases h
  · rw [hs] at h
    rcases hr : M.exec s₁ as with _ | ⟨s₂, rest⟩
    · simp only [hr] at h
      cases h
    · simp only [hr] at h
      obtain ⟨rfl, rfl⟩ := Prod.mk.inj (Option.some.inj h)
      exact ⟨s₁, ev, rest, rfl, hr, rfl⟩

/-- A step and the run after it. -/
theorem exec_cons {s s₁ s₂ : S} {a : A} {as : List A} {ev log : List E}
    (hs : M.step s a = some (s₁, ev)) (hr : M.exec s₁ as = some (s₂, log)) :
    M.exec s (a :: as) = some (s₂, ev ++ log) := by
  simp only [exec, hs, hr]

/-- The head condition of a run that meets `ok`. -/
theorem Meets.head {ok : S → A → Prop} {s : S} {a : A} {as : List A}
    (h : M.Meets ok s (a :: as)) : ok s a := h.1

/-- The tail condition of a run that meets `ok`, after its first step. -/
theorem Meets.tail {ok : S → A → Prop} {s s₁ : S} {a : A} {as : List A} {ev : List E}
    (h : M.Meets ok s (a :: as)) (hs : M.step s a = some (s₁, ev)) : M.Meets ok s₁ as := by
  have ht := h.2
  rw [hs] at ht
  exact ht

/-- A run is split at any point: the first part ends in some state, the second
part starts there, and the log is the concatenation. -/
theorem exec_append_eq_some {as bs : List A} :
    ∀ {s s' : S} {log : List E}, M.exec s (as ++ bs) = some (s', log) →
      ∃ s₁ log₁ log₂, M.exec s as = some (s₁, log₁) ∧ M.exec s₁ bs = some (s', log₂) ∧
        log = log₁ ++ log₂ := by
  induction as with
  | nil =>
    intro s s' log h
    exact ⟨s, [], log, rfl, h, rfl⟩
  | cons a as ih =>
    intro s s' log h
    obtain ⟨s₁, ev, rest, hs, hr, rfl⟩ := exec_cons_eq_some h
    obtain ⟨s₂, log₁, log₂, h₁, h₂, rfl⟩ := ih hr
    refine ⟨s₂, ev ++ log₁, log₂, ?_, h₂, (List.append_assoc ..).symm⟩
    simp only [exec, hs, h₁]

/-- Every run meets the condition that asks for nothing. -/
theorem Meets.trivial {as : List A} : ∀ {s : S}, M.Meets (fun _ _ => True) s as := by
  induction as with
  | nil =>
    intro s
    exact True.intro
  | cons a as ih =>
    intro s
    refine ⟨True.intro, ?_⟩
    rcases M.step s a with _ | ⟨s₁, ev⟩
    · exact True.intro
    · exact ih

/-- A run whose actions meet the condition in any state. -/
theorem Meets.of_forall {ok : S → A → Prop} {as : List A} (h : ∀ a ∈ as, ∀ s, ok s a) :
    ∀ {s : S}, M.Meets ok s as := by
  induction as with
  | nil =>
    intro s
    exact True.intro
  | cons a as ih =>
    intro s
    rw [List.forall_mem_cons] at h
    refine ⟨h.1 s, ?_⟩
    rcases M.step s a with _ | ⟨s₁, ev⟩
    · exact True.intro
    · exact ih h.2

/-- A run whose steps meet one condition meets every weaker one. -/
theorem Meets.mono {ok ok' : S → A → Prop} (h : ∀ s a, ok s a → ok' s a) {as : List A} :
    ∀ {s : S}, M.Meets ok s as → M.Meets ok' s as := by
  induction as with
  | nil =>
    intro s _
    trivial
  | cons a as ih =>
    intro s hm
    refine ⟨h s a hm.1, ?_⟩
    have ht := hm.2
    rcases hs : M.step s a with _ | ⟨s₁, ev⟩
    · trivial
    · rw [hs] at ht
      exact ih ht

/-- Two runs, one after the other. -/
theorem exec_append {as bs : List A} :
    ∀ {s s₁ s₂ : S} {log₁ log₂ : List E}, M.exec s as = some (s₁, log₁) →
      M.exec s₁ bs = some (s₂, log₂) → M.exec s (as ++ bs) = some (s₂, log₁ ++ log₂) := by
  induction as with
  | nil =>
    intro s s₁ s₂ log₁ log₂ h₁ h₂
    obtain ⟨rfl, rfl⟩ := Prod.mk.inj (Option.some.inj h₁)
    exact h₂
  | cons a as ih =>
    intro s s₁ s₂ log₁ log₂ h₁ h₂
    obtain ⟨s', ev, rest, hs, hr, rfl⟩ := exec_cons_eq_some h₁
    simp only [List.cons_append, exec, hs, ih hr h₂, List.append_assoc]

/-- A run that meets two conditions meets both at each step. -/
theorem Meets.and {ok ok' : S → A → Prop} {as : List A} :
    ∀ {s : S}, M.Meets ok s as → M.Meets ok' s as → M.Meets (fun s a => ok s a ∧ ok' s a) s as := by
  induction as with
  | nil =>
    intro s _ _
    exact True.intro
  | cons a as ih =>
    intro s h h'
    refine ⟨⟨h.1, h'.1⟩, ?_⟩
    cases hs : M.step s a with
    | none => exact True.intro
    | some r => exact ih (Meets.tail h hs) (Meets.tail h' hs)

/-- Two runs that meet a condition, one after the other. -/
theorem Meets.append {ok : S → A → Prop} {as bs : List A} :
    ∀ {s s₁ : S} {log : List E}, M.Meets ok s as → M.exec s as = some (s₁, log) →
      M.Meets ok s₁ bs → M.Meets ok s (as ++ bs) := by
  induction as with
  | nil =>
    intro s s₁ log _ he hb
    obtain ⟨rfl, -⟩ := Prod.mk.inj (Option.some.inj he)
    exact hb
  | cons a as ih =>
    intro s s₁ log h he hb
    obtain ⟨s₂, ev, rest, hs, hr, -⟩ := exec_cons_eq_some he
    refine ⟨h.1, ?_⟩
    rw [hs]
    exact ih (h.tail hs) hr hb

/-- A condition met by a whole run is met by its first part. -/
theorem Meets.left {ok : S → A → Prop} {as bs : List A} :
    ∀ {s : S}, M.Meets ok s (as ++ bs) → M.Meets ok s as := by
  induction as with
  | nil =>
    intro s _
    trivial
  | cons a as ih =>
    intro s h
    refine ⟨h.1, ?_⟩
    have ht := h.2
    rcases hs : M.step s a with _ | ⟨s₁, ev⟩
    · trivial
    · rw [hs] at ht
      exact ih ht

/-- A condition met by a whole run is met by its second part, from the state the
first part ends in. -/
theorem Meets.right {ok : S → A → Prop} {as bs : List A} :
    ∀ {s s₁ : S} {log : List E}, M.Meets ok s (as ++ bs) → M.exec s as = some (s₁, log) →
      M.Meets ok s₁ bs := by
  induction as with
  | nil =>
    intro s s₁ log h he
    obtain ⟨rfl, -⟩ := Prod.mk.inj (Option.some.inj he)
    exact h
  | cons a as ih =>
    intro s s₁ log h he
    obtain ⟨s₂, ev, rest, hs, hr, -⟩ := exec_cons_eq_some he
    exact ih (Meets.tail h hs) hr

/-- **The induction over runs.** An invariant of the state and of the log so far,
kept by every step that meets `ok`, holds at the end of every run that meets
`ok`. -/
theorem exec_invariant {ok : S → A → Prop} {I : S → List E → Prop}
    (hstep : ∀ {s s' : S} {log ev : List E} {a : A}, I s log → ok s a →
      M.step s a = some (s', ev) → I s' (log ++ ev)) :
    ∀ {as : List A} {s s' : S} {past log : List E}, I s past → M.Meets ok s as →
      M.exec s as = some (s', log) → I s' (past ++ log) := by
  intro as
  induction as with
  | nil =>
    intro s s' past log hI _ he
    obtain ⟨rfl, rfl⟩ := Prod.mk.inj (Option.some.inj he)
    rw [List.append_nil]
    exact hI
  | cons a as ih =>
    intro s s' past log hI hm he
    obtain ⟨s₁, ev, rest, hs, hr, rfl⟩ := exec_cons_eq_some he
    have hI₁ : I s₁ (past ++ ev) := hstep hI hm.head hs
    rw [← List.append_assoc]
    exact ih hI₁ (hm.tail hs) hr

/-- The induction from a start state with an empty log. -/
theorem exec_invariant_start {ok : S → A → Prop} {I : S → List E → Prop} {s₀ : S}
    (h₀ : I s₀ [])
    (hstep : ∀ {s s' : S} {log ev : List E} {a : A}, I s log → ok s a →
      M.step s a = some (s', ev) → I s' (log ++ ev))
    {as : List A} {s' : S} {log : List E} (hm : M.Meets ok s₀ as)
    (he : M.exec s₀ as = some (s', log)) : I s' log := by
  have h := exec_invariant hstep h₀ hm he
  rwa [List.nil_append] at h

end Machine

/-! ## Judging a log -/

/-- Each event of `ev` satisfies `P` against the events before it, `past` being
what came before `ev`. A whole log is judged from the empty past. -/
def Judged {E : Type w} (P : List E → E → Prop) : List E → List E → Prop
  | _, [] => True
  | past, e :: ev => P past e ∧ Judged P (past ++ [e]) ev

namespace Judged

variable {E : Type w} {P Q : List E → E → Prop}

instance decidableJudged [∀ past e, Decidable (P past e)] :
    ∀ (ev past : List E), Decidable (Judged P past ev)
  | [], _ => isTrue trivial
  | e :: ev, past =>
    have : Decidable (Judged P (past ++ [e]) ev) := decidableJudged ev (past ++ [e])
    inferInstanceAs (Decidable (_ ∧ _))

@[simp] theorem nil (past : List E) : Judged P past [] := trivial

@[simp] theorem cons_iff (past : List E) (e : E) (ev : List E) :
    Judged P past (e :: ev) ↔ P past e ∧ Judged P (past ++ [e]) ev := Iff.rfl

/-- Judging a concatenation: the second part is judged against the first. -/
theorem append_iff {ev₁ ev₂ : List E} :
    ∀ {past : List E}, Judged P past (ev₁ ++ ev₂) ↔
      Judged P past ev₁ ∧ Judged P (past ++ ev₁) ev₂ := by
  induction ev₁ with
  | nil =>
    intro past
    simp
  | cons e ev₁ ih =>
    intro past
    rw [List.cons_append, cons_iff, cons_iff, ih, and_assoc, List.append_assoc,
      List.singleton_append]

/-- The judgment of one event of a judged log. -/
theorem at_split {past rest : List E} {e : E} (h : Judged P [] (past ++ e :: rest)) :
    P past e := by
  have h₂ := (append_iff.mp h).2
  rw [List.nil_append] at h₂
  exact h₂.1

/-- Events of one kind are judged when each of them is acceptable after any past. -/
theorem of_forall {ev : List E} :
    ∀ {past : List E}, (∀ e ∈ ev, ∀ before, P (past ++ before) e) → Judged P past ev := by
  induction ev with
  | nil =>
    intro past _
    trivial
  | cons e ev ih =>
    intro past h
    refine ⟨?_, ih ?_⟩
    · have := h e (List.mem_cons_self ..) []
      rwa [List.append_nil] at this
    · intro e' he' before
      rw [List.append_assoc]
      exact h e' (List.mem_cons_of_mem _ he') _

/-- A judgment that does not look at the past is one about each event. -/
theorem forall_iff {Q : E → Prop} {ev : List E} :
    ∀ {past : List E}, Judged (fun _ => Q) past ev ↔ ∀ e ∈ ev, Q e := by
  induction ev with
  | nil =>
    intro past
    simp
  | cons e ev ih =>
    intro past
    rw [cons_iff, ih, List.forall_mem_cons]

end Judged

/-- When one step's events are acceptable exactly under `ok`, a run's events are
acceptable exactly when each of its steps meets `ok`. The invariant has to survive the
steps that do. -/
theorem Machine.exec_judged_iff {S : Type u} {A : Type v} {E : Type w} {M : Machine S A E}
    {ok : S → A → Prop} {I : S → List E → Prop} {P : List E → E → Prop}
    (hinv : ∀ {s s' : S} {log ev : List E} {a : A}, I s log → ok s a →
      M.step s a = some (s', ev) → I s' (log ++ ev))
    (hiff : ∀ {s s' : S} {log ev : List E} {a : A}, I s log →
      M.step s a = some (s', ev) → (Judged P log ev ↔ ok s a)) :
    ∀ {as : List A} {s s' : S} {past log : List E}, I s past →
      M.exec s as = some (s', log) → (Judged P past log ↔ M.Meets ok s as) := by
  intro as
  induction as with
  | nil =>
    intro s s' past log _ he
    obtain ⟨-, rfl⟩ := Prod.mk.inj (Option.some.inj he)
    exact iff_of_true trivial trivial
  | cons a as ih =>
    intro s s' past log hI he
    obtain ⟨s₁, ev, rest, hs, hr, rfl⟩ := exec_cons_eq_some he
    rw [Judged.append_iff, hiff hI hs, Meets, hs]
    exact and_congr_right fun hok => ih (hinv hI hok hs) hr

/-- When a step's events show that it met `ok`, so do a run's. -/
theorem Machine.meets_of_judged {S : Type u} {A : Type v} {E : Type w} {M : Machine S A E}
    {ok : S → A → Prop} {P : List E → E → Prop}
    (h : ∀ {s s' : S} {log ev : List E} {a : A}, M.step s a = some (s', ev) →
      Judged P log ev → ok s a) :
    ∀ {as : List A} {s s' : S} {past log : List E}, M.exec s as = some (s', log) →
      Judged P past log → M.Meets ok s as := by
  intro as
  induction as with
  | nil =>
    intro s s' past log _ _
    exact trivial
  | cons a as ih =>
    intro s s' past log he hj
    obtain ⟨s₁, ev, rest, hs, hr, rfl⟩ := exec_cons_eq_some he
    obtain ⟨hev, hrest⟩ := Judged.append_iff.mp hj
    refine ⟨h hs hev, ?_⟩
    rw [hs]
    exact ih hr hrest

end LicheeRvNano
