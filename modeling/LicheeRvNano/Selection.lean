import Mathlib.Data.List.Basic
import Mathlib.Order.Bounds.Basic

/-!
# Selection: loops that keep the best candidate

A loop over candidates that remembers the best score so far and the candidate it belongs to,
and replaces both only by a strictly better one. `Best` is what such a loop has found after a
list of candidates, and `best_foldl` that it has.
-/

namespace LicheeRvNano

namespace Selection

variable {α β : Type*} [LinearOrder β] (score : α → β) (ok : α → Prop)

/-- What the loop has after the candidates `l`, when it started from the score `b`. -/
structure Best (b : β) (l : List α) (r : β × Option α) : Prop where
  base : b ≤ r.1
  bound : ∀ a ∈ l, ok a → score a ≤ r.1
  chosen : ∀ a, r.2 = some a → a ∈ l ∧ ok a ∧ score a = r.1 ∧ b < r.1
  started : r.2 = none → r.1 = b

variable {score ok} {b : β} {l : List α} {r : β × Option α}

/-- A candidate that beats the start is found, or a better one. -/
theorem Best.found (h : Best score ok b l r) {a : α} (ha : a ∈ l) (hok : ok a)
    (hlt : b < score a) : ∃ c, r.2 = some c := by
  cases hr : r.2 with
  | some c => exact ⟨c, rfl⟩
  | none =>
    have hle := h.bound a ha hok
    rw [h.started hr] at hle
    exact absurd hlt (not_lt_of_ge hle)

section Loop

variable [DecidablePred ok]

/-- One turn of the loop. -/
def improve (score : α → β) (ok : α → Prop) [DecidablePred ok] (best : β × Option α) (a : α) :
    β × Option α :=
  if ok a ∧ best.1 < score a then (score a, some a) else best

theorem Best.improve (h : Best score ok b l r) (a : α) :
    Best score ok b (l ++ [a]) (improve score ok r a) := by
  rw [Selection.improve]
  split_ifs with hbetter
  · obtain ⟨hok, hlt⟩ := hbetter
    refine ⟨h.base.trans hlt.le, fun c hc hcok => ?_, fun c hc => ?_,
      fun h => absurd h (Option.some_ne_none a)⟩
    · rcases List.mem_append.mp hc with hold | hnew
      · exact (h.bound c hold hcok).trans hlt.le
      · rw [List.mem_singleton.mp hnew]
    · obtain rfl : a = c := Option.some.inj hc
      exact ⟨by simp, hok, rfl, h.base.trans_lt hlt⟩
  · refine ⟨h.base, fun c hc hcok => ?_, fun c hc => ?_, h.started⟩
    · rcases List.mem_append.mp hc with hold | hnew
      · exact h.bound c hold hcok
      · obtain rfl := List.mem_singleton.mp hnew
        exact le_of_not_gt fun hlt => hbetter ⟨hcok, hlt⟩
    · obtain ⟨hmem, hrest⟩ := h.chosen c hc
      exact ⟨List.mem_append_left _ hmem, hrest⟩

/-- The loop from any point on. -/
theorem Best.foldl (h : Best score ok b l r) (l' : List α) :
    Best score ok b (l ++ l') (l'.foldl (Selection.improve score ok) r) := by
  induction l' generalizing l r with
  | nil => rwa [List.append_nil]
  | cons a l' ih =>
    have hnext := ih (h.improve a)
    rwa [List.append_assoc] at hnext

theorem best_foldl (b : β) (l : List α) :
    Best score ok b l (l.foldl (Selection.improve score ok) (b, none)) := by
  have hstart : Best score ok b [] (b, none) :=
    ⟨le_rfl, fun _ h => absurd h List.not_mem_nil, fun a h => absurd h.symm (Option.some_ne_none a),
      fun _ => rfl⟩
  exact hstart.foldl l

end Loop

end Selection

end LicheeRvNano
