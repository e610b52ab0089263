import LicheeRvNano.Machine
import Mathlib.Data.List.Count

/-!
# Ledgers: what was taken and what was given back

A ledger is a list of entries `take x` and `drop x` over an arbitrary type of
resources. It is `Sound` when nothing is taken twice and nothing is dropped that
is not held at that moment, and `Settled` when everything taken was dropped.
Together they say that each resource is given back exactly once
(`count_drop_eq_count_take`).

Two rules extend a sound ledger: `Sound.append_fresh` for a block that only
concerns resources the ledger has never seen (whatever the block does with them,
as long as the block is sound by itself), and `Sound.append_drops` for a block
that gives held resources back.
-/

namespace LicheeRvNano

universe u

/-- One ledger entry. -/
inductive Entry (X : Type u) : Type u where
  /-- the resource is acquired -/
  | take : X → Entry X
  /-- the resource is released -/
  | drop : X → Entry X
  deriving DecidableEq

namespace Entry

variable {X : Type u}

/-- The resource an entry is about. -/
def of : Entry X → X
  | take x => x
  | drop x => x

/-- The same entry about the image of its resource. -/
def map {Y : Type*} (f : X → Y) : Entry X → Entry Y
  | take x => take (f x)
  | drop x => drop (f x)

theorem map_injective {Y : Type*} {f : X → Y} (hf : Function.Injective f) :
    Function.Injective (map f) := by
  intro e e' h
  cases e <;> cases e' <;> simp only [map, take.injEq, drop.injEq, reduceCtorEq] at h
  · rw [hf h]
  · rw [hf h]

/-- An entry is acceptable after `past`: a resource is taken at most once, and
dropped only while it is held. -/
def Ok (past : List (Entry X)) : Entry X → Prop
  | take x => take x ∉ past
  | drop x => take x ∈ past ∧ drop x ∉ past

end Entry

namespace Ledger

variable {X : Type u}

/-- Every entry is acceptable after the entries before it. -/
def Sound (l : List (Entry X)) : Prop := Judged Entry.Ok [] l

/-- Everything taken was dropped. -/
def Settled (l : List (Entry X)) : Prop := ∀ x, Entry.take x ∈ l → Entry.drop x ∈ l

/-- The ledger says nothing about `x`. -/
def Fresh (l : List (Entry X)) (x : X) : Prop := Entry.take x ∉ l ∧ Entry.drop x ∉ l

/-- The resource is held at the end of the ledger. -/
def Held (l : List (Entry X)) (x : X) : Prop := Entry.take x ∈ l ∧ Entry.drop x ∉ l

theorem Fresh.left {l m : List (Entry X)} {x : X} (h : Fresh (l ++ m) x) : Fresh l x :=
  ⟨fun hm => h.1 (List.mem_append_left m hm), fun hm => h.2 (List.mem_append_left m hm)⟩

theorem sound_nil : Sound ([] : List (Entry X)) := trivial

/-- An entry that is acceptable after `past` stays so when entries about other
resources are put before. -/
theorem ok_prepend {l past : List (Entry X)} {e : Entry X} (hf : Fresh l e.of)
    (h : e.Ok past) : e.Ok (l ++ past) := by
  cases e with
  | take x =>
    intro hm
    rcases List.mem_append.mp hm with hm | hm
    · exact hf.1 hm
    · exact h hm
  | drop x =>
    refine ⟨List.mem_append_right l h.1, ?_⟩
    intro hm
    rcases List.mem_append.mp hm with hm | hm
    · exact hf.2 hm
    · exact h.2 hm

theorem judged_prepend {l : List (Entry X)} :
    ∀ {b past : List (Entry X)}, (∀ e ∈ b, Fresh l e.of) → Judged Entry.Ok past b →
      Judged Entry.Ok (l ++ past) b := by
  intro b
  induction b with
  | nil =>
    intro past _ _
    trivial
  | cons e b ih =>
    intro past hf h
    refine ⟨ok_prepend (hf e (List.mem_cons_self ..)) h.1, ?_⟩
    rw [List.append_assoc]
    exact ih (fun e' he' => hf e' (List.mem_cons_of_mem _ he')) h.2

/-- A block about new resources only, sound by itself, extends a sound ledger. -/
theorem Sound.append_fresh {l b : List (Entry X)} (hl : Sound l) (hb : Sound b)
    (hf : ∀ e ∈ b, Fresh l e.of) : Sound (l ++ b) := by
  refine Judged.append_iff.mpr ⟨hl, ?_⟩
  have h := judged_prepend hf hb
  rwa [List.append_nil] at h

theorem judged_drops :
    ∀ {xs : List X} {l : List (Entry X)}, xs.Nodup → (∀ x ∈ xs, Held l x) →
      Judged Entry.Ok l (xs.map Entry.drop) := by
  intro xs
  induction xs with
  | nil =>
    intro l _ _
    trivial
  | cons x xs ih =>
    intro l hnd hh
    obtain ⟨hx, hnd'⟩ := List.nodup_cons.mp hnd
    refine ⟨hh x (List.mem_cons_self ..), ih hnd' ?_⟩
    intro y hy
    obtain ⟨ht, hd⟩ := hh y (List.mem_cons_of_mem _ hy)
    refine ⟨List.mem_append_left _ ht, ?_⟩
    intro hm
    rcases List.mem_append.mp hm with hm | hm
    · exact hd hm
    · obtain rfl : y = x := Entry.drop.inj (List.mem_singleton.mp hm)
      exact hx hy

/-- Renaming the resources of a sound ledger without merging any keeps it sound. -/
theorem judged_map {Y : Type*} {f : X → Y} (hf : Function.Injective f) :
    ∀ {l past : List (Entry X)}, Judged Entry.Ok past l →
      Judged Entry.Ok (past.map (Entry.map f)) (l.map (Entry.map f)) := by
  have hmem : ∀ (e : Entry X) (past : List (Entry X)),
      Entry.map f e ∈ past.map (Entry.map f) ↔ e ∈ past := fun e past =>
    List.mem_map_of_injective (Entry.map_injective hf)
  intro l
  induction l with
  | nil =>
    intro past _
    trivial
  | cons e l ih =>
    intro past h
    refine ⟨?_, ?_⟩
    · cases e with
      | take x => exact fun hm => h.1 ((hmem (.take x) past).mp hm)
      | drop x =>
        exact ⟨(hmem (.take x) past).mpr h.1.1, fun hm => h.1.2 ((hmem (.drop x) past).mp hm)⟩
    · have := ih h.2
      rwa [List.map_append] at this

theorem Sound.map {Y : Type*} {f : X → Y} (hf : Function.Injective f) {l : List (Entry X)}
    (hl : Sound l) : Sound (l.map (Entry.map f)) :=
  judged_map hf hl

/-- A block that drops distinct held resources extends a sound ledger. -/
theorem Sound.append_drops {l : List (Entry X)} {xs : List X} (hl : Sound l)
    (hnd : xs.Nodup) (hh : ∀ x ∈ xs, Held l x) : Sound (l ++ xs.map Entry.drop) :=
  Judged.append_iff.mpr ⟨hl, judged_drops hnd hh⟩

/-- A sound ledger drops only what it took. -/
theorem take_mem_of_drop_mem {l : List (Entry X)} {x : X} (hl : Sound l)
    (hd : Entry.drop x ∈ l) : Entry.take x ∈ l := by
  obtain ⟨past, rest, rfl⟩ := List.append_of_mem hd
  exact List.mem_append_left _ (Judged.at_split hl).1

/-! ## Counting -/

variable [DecidableEq X]

/-- How often the entries of `l` occur, when `l` follows `past`: a resource is
taken once at most, and only when it was not taken before; likewise for drops. -/
theorem count_of_judged {x : X} :
    ∀ {l past : List (Entry X)}, Judged Entry.Ok past l →
      l.count (Entry.take x) ≤ 1 ∧ (Entry.take x ∈ past → l.count (Entry.take x) = 0) ∧
      l.count (Entry.drop x) ≤ 1 ∧ (Entry.drop x ∈ past → l.count (Entry.drop x) = 0) := by
  intro l
  induction l with
  | nil =>
    intro past _
    simp
  | cons e l ih =>
    intro past h
    obtain ⟨hok, hrest⟩ := h
    obtain ⟨ht, htp, hd, hdp⟩ := ih hrest
    cases e with
    | take y =>
      have hne : (Entry.take y == Entry.drop x) = false := by simp
      rw [List.count_cons, List.count_cons, hne]
      by_cases hyx : y = x
      · subst hyx
        have h0 := htp (by simp)
        refine ⟨by simp [h0], fun hm => absurd hm hok, by simpa using hd, ?_⟩
        intro hm
        simpa using hdp (List.mem_append_left _ hm)
      · have hne' : (Entry.take y == Entry.take x) = false := by simpa using hyx
        rw [hne']
        exact ⟨by simpa using ht, fun hm => by simpa using htp (List.mem_append_left _ hm),
          by simpa using hd, fun hm => by simpa using hdp (List.mem_append_left _ hm)⟩
    | drop y =>
      have hne : (Entry.drop y == Entry.take x) = false := by simp
      rw [List.count_cons, List.count_cons, hne]
      by_cases hyx : y = x
      · subst hyx
        have h0 := hdp (by simp)
        refine ⟨by simpa using ht, fun hm => by simpa using htp (List.mem_append_left _ hm),
          by simp [h0], fun hm => absurd hm hok.2⟩
      · have hne' : (Entry.drop y == Entry.drop x) = false := by simpa using hyx
        rw [hne']
        exact ⟨by simpa using ht, fun hm => by simpa using htp (List.mem_append_left _ hm),
          by simpa using hd, fun hm => by simpa using hdp (List.mem_append_left _ hm)⟩

/-- **Exactly once**: in a sound and settled ledger each resource is dropped as
often as it was taken, and taken at most once. -/
theorem count_drop_eq_count_take {l : List (Entry X)} (hl : Sound l) (hs : Settled l) (x : X) :
    l.count (Entry.drop x) = l.count (Entry.take x) ∧ l.count (Entry.take x) ≤ 1 := by
  obtain ⟨ht, -, hd, -⟩ := count_of_judged (x := x) hl
  refine ⟨?_, ht⟩
  by_cases hm : Entry.take x ∈ l
  · have h₁ := List.count_pos_iff.mpr hm
    have h₂ := List.count_pos_iff.mpr (hs x hm)
    omega
  · have h₁ := List.count_eq_zero.mpr hm
    have h₂ := List.count_eq_zero.mpr (fun hdm => hm (take_mem_of_drop_mem hl hdm))
    omega

end Ledger

end LicheeRvNano
