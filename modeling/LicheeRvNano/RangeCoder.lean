import Mathlib

/-!
# Range decoding

An adaptive binary range decoder, and the computations that ask it for bits.

* `Bits` is the syntax of such a computation: a free monad over two effects, a bit coded with
  the model at an index and a bit coded plainly. `Bits.run` is the decoder, which reads bytes
  and adapts the models as it goes; `Bits.check` looks ahead, and does neither.
* `Bits.Within` says which models a computation asks, none of them twice, and what it may cost.
  `run_of_within` bounds with it the bytes that a run can read: `Spent` compares the ranges
  before and after, in 64ths of a bit.
* `check_of_within` and `Alike.check` connect looking ahead with running, also when the two
  computations build different results from the same questions.
-/

namespace LicheeRvNano

universe u

/-! ## The registers -/

/-- The registers of a range decoder. -/
structure RangeCoder where
  /-- the width of the interval that is left -/
  range : Nat
  /-- the input, as an offset into that interval -/
  code : Nat
  /-- the position of the next byte -/
  buf : Nat
  deriving DecidableEq

namespace RangeCoder

/-- Refill the registers when the range has become short. -/
def normalize (src : List UInt8) (c : RangeCoder) : Option RangeCoder :=
  if c.range < 2 ^ 24 then
    src[c.buf]?.map fun b =>
      { range := c.range * 2 ^ 8
        code := (c.code * 2 ^ 8 + b.toNat) % 2 ^ 32
        buf := c.buf + 1 }
  else some c

/-- A bit coded with the probability `p` of a zero, in units of `2 ^ -11`. -/
def decode (p : Nat) (c : RangeCoder) : Bool × RangeCoder :=
  let bound := c.range / 2 ^ 11 * p
  if c.code < bound then (false, { c with range := bound })
  else (true, { c with range := c.range - bound, code := c.code - bound })

/-- A bit coded plainly. The comparison is the sign of a difference of 32 bits. -/
def decodeDirect (c : RangeCoder) : Bool × RangeCoder :=
  let range := c.range / 2
  let code := (c.code + 2 ^ 32 - range) % 2 ^ 32
  if code < 2 ^ 31 then (true, { c with range := range, code := code })
  else (false, { c with range := range })

/-- The probability of a zero after the bit. -/
def adapt (p : Nat) : Bool → Nat
  | false => p + (2 ^ 11 - p) / 2 ^ 5
  | true => p - p / 2 ^ 5

/-- The registers between two bits. -/
structure Ready (c : RangeCoder) : Prop where
  le_range : 2 ^ 16 ≤ c.range
  range_lt : c.range < 2 ^ 32

/-- The registers when a bit is decoded. -/
structure Normal (c : RangeCoder) : Prop extends Ready c where
  normal : 2 ^ 24 ≤ c.range

/-- A probability that adaptation can reach. -/
def Fair (p : Nat) : Prop := 31 ≤ p ∧ p ≤ 2017

theorem fair_half : Fair 1024 := ⟨by decide, by decide⟩

theorem Fair.adapt {p : Nat} (h : Fair p) (b : Bool) : Fair (adapt p b) := by
  obtain ⟨hlo, hhi⟩ := h
  cases b <;> constructor <;> simp only [RangeCoder.adapt] <;> omega

variable {src : List UInt8} {c c' : RangeCoder} {p : Nat}

/-- Nothing is left to refill from. -/
theorem normalize_eq_none (h : c.normalize src = none) :
    c.range < 2 ^ 24 ∧ src.length ≤ c.buf := by
  unfold normalize at h
  split at h
  case isTrue hlt =>
    rw [Option.map_eq_none_iff, List.getElem?_eq_none_iff] at h
    exact ⟨hlt, h⟩
  case isFalse => cases h

theorem Ready.normalize (h : c.Ready) (hc : c.normalize src = some c') : c'.Normal := by
  obtain ⟨hlo, hhi⟩ := h
  unfold RangeCoder.normalize at hc
  split at hc
  case isTrue hlt =>
    obtain ⟨b, -, rfl⟩ := Option.map_eq_some_iff.mp hc
    refine ⟨⟨?_, ?_⟩, ?_⟩ <;> dsimp only <;> omega
  case isFalse hge =>
    obtain rfl := Option.some.inj hc
    exact ⟨⟨hlo, hhi⟩, by omega⟩

/-- What a refill has read was there. -/
theorem normalize_buf (hc : c.normalize src = some c') (hbuf : c.buf ≤ src.length) :
    c'.buf ≤ src.length := by
  unfold RangeCoder.normalize at hc
  split at hc
  · obtain ⟨b, hb, rfl⟩ := Option.map_eq_some_iff.mp hc
    exact (List.getElem?_eq_some_iff.mp hb).1
  · obtain rfl := Option.some.inj hc
    exact hbuf

/-! ## What bits cost

The unit is the 64th of a bit: a factor of `2` in the 64th power of the range. -/

/-- The range that is left, counted with the bytes read, is not short of the range before by
more than the cost `n`. -/
structure Spent (c c' : RangeCoder) (n : Nat) : Prop where
  buf_le : c.buf ≤ c'.buf
  range_le : c.range ^ 64 * 2 ^ (512 * (c'.buf - c.buf)) ≤ 2 ^ n * c'.range ^ 64

theorem Spent.refl (c : RangeCoder) (n : Nat) : Spent c c n := by
  refine ⟨le_rfl, ?_⟩
  rw [Nat.sub_self, Nat.mul_zero, Nat.pow_zero, Nat.mul_one]
  exact Nat.le_mul_of_pos_left _ (Nat.two_pow_pos n)

theorem Spent.trans {c₁ c₂ c₃ : RangeCoder} {m n : Nat} (h₁ : Spent c₁ c₂ m)
    (h₂ : Spent c₂ c₃ n) : Spent c₁ c₃ (m + n) := by
  refine ⟨h₁.buf_le.trans h₂.buf_le, ?_⟩
  have hk : 512 * (c₃.buf - c₁.buf) = 512 * (c₂.buf - c₁.buf) + 512 * (c₃.buf - c₂.buf) := by
    have := h₁.buf_le
    have := h₂.buf_le
    omega
  calc c₁.range ^ 64 * 2 ^ (512 * (c₃.buf - c₁.buf))
      = c₁.range ^ 64 * 2 ^ (512 * (c₂.buf - c₁.buf)) * 2 ^ (512 * (c₃.buf - c₂.buf)) := by
        rw [hk, Nat.pow_add, Nat.mul_assoc]
    _ ≤ 2 ^ m * c₂.range ^ 64 * 2 ^ (512 * (c₃.buf - c₂.buf)) :=
        Nat.mul_le_mul_right _ h₁.range_le
    _ = 2 ^ m * (c₂.range ^ 64 * 2 ^ (512 * (c₃.buf - c₂.buf))) := Nat.mul_assoc _ _ _
    _ ≤ 2 ^ m * (2 ^ n * c₃.range ^ 64) := Nat.mul_le_mul_left _ h₂.range_le
    _ = 2 ^ (m + n) * c₃.range ^ 64 := by rw [Nat.pow_add, Nat.mul_assoc]

theorem Spent.mono {m n : Nat} (h : Spent c c' m) (hmn : m ≤ n) : Spent c c' n :=
  ⟨h.buf_le, h.range_le.trans (Nat.mul_le_mul_right _ (Nat.pow_le_pow_right (by decide) hmn))⟩

/-- A refill costs nothing. -/
theorem spent_normalize (hc : c.normalize src = some c') : Spent c c' 0 := by
  unfold RangeCoder.normalize at hc
  split at hc
  · obtain ⟨b, -, rfl⟩ := Option.map_eq_some_iff.mp hc
    refine ⟨Nat.le_succ _, ?_⟩
    have hk : 512 * (c.buf + 1 - c.buf) = 8 * 64 := by omega
    dsimp only
    rw [hk, Nat.mul_pow, ← Nat.pow_mul 2 8 64, Nat.pow_zero, Nat.one_mul]
  · obtain rfl := Option.some.inj hc
    exact .refl _ _

/-- A ratio of ranges, as a cost. -/
theorem spent_of_ratio {a b n : Nat} (hb : 0 < b) (hbuf : c'.buf = c.buf)
    (hratio : c.range * b ≤ c'.range * a) (hcost : a ^ 64 ≤ b ^ 64 * 2 ^ n) : Spent c c' n := by
  refine ⟨hbuf.ge, ?_⟩
  rw [hbuf, Nat.sub_self, Nat.mul_zero, Nat.pow_zero, Nat.mul_one]
  refine Nat.le_of_mul_le_mul_right ?_ (Nat.pow_pos (n := 64) hb)
  calc c.range ^ 64 * b ^ 64
      = (c.range * b) ^ 64 := (Nat.mul_pow _ _ _).symm
    _ ≤ (c'.range * a) ^ 64 := Nat.pow_le_pow_left hratio 64
    _ = c'.range ^ 64 * a ^ 64 := Nat.mul_pow _ _ _
    _ ≤ c'.range ^ 64 * (b ^ 64 * 2 ^ n) := Nat.mul_le_mul_left _ hcost
    _ = 2 ^ n * c'.range ^ 64 * b ^ 64 := by
        rw [Nat.mul_comm (b ^ 64), ← Nat.mul_assoc, Nat.mul_comm (c'.range ^ 64)]

/-- The cost of a bit with a model: `64 * 6.0461`, the least probability being `31 / 2048`. -/
abbrev bitCost : Nat := 387

/-- The cost of a plain bit: one bit, and what the rounding takes. -/
abbrev directCost : Nat := 65

/-- The share of either bit is `31 / 2048` of the range at least, but for the rounding. -/
theorem decode_range (hc : c.Normal) (hp : Fair p) :
    (c.decode p).2.buf = c.buf ∧ (c.decode p).2.Ready ∧
      c.range * (31 * 2 ^ 13) ≤ (c.decode p).2.range * (2 ^ 11 * (2 ^ 13 + 1)) := by
  obtain ⟨⟨-, hhi⟩, hlo⟩ := hc
  obtain ⟨hp₁, hp₂⟩ := hp
  -- the range is `q` units and a rest
  have hq : 2 ^ 13 ≤ c.range / 2 ^ 11 := by omega
  have hrest : c.range < 2 ^ 11 * (c.range / 2 ^ 11) + 2 ^ 11 := by omega
  have hle : 2 ^ 11 * (c.range / 2 ^ 11) ≤ c.range := Nat.mul_div_le _ _
  have h₁ : c.range / 2 ^ 11 * 31 ≤ c.range / 2 ^ 11 * p := Nat.mul_le_mul_left _ hp₁
  have h₂ : c.range / 2 ^ 11 * p ≤ c.range / 2 ^ 11 * 2017 := Nat.mul_le_mul_left _ hp₂
  unfold decode
  generalize c.range / 2 ^ 11 * p = bound at h₁ h₂ ⊢
  generalize c.range / 2 ^ 11 = q at hq hrest hle h₁ h₂
  by_cases h : c.code < bound
  · rw [if_pos h]
    refine ⟨rfl, ⟨?_, ?_⟩, ?_⟩ <;> dsimp only <;> omega
  · rw [if_neg h]
    refine ⟨rfl, ⟨?_, ?_⟩, ?_⟩ <;> dsimp only <;> omega

theorem spent_decode (hc : c.Normal) (hp : Fair p) : Spent c (c.decode p).2 bitCost :=
  spent_of_ratio (by decide) (decode_range hc hp).1 (decode_range hc hp).2.2 (by decide +kernel)

theorem decodeDirect_range (hc : c.Normal) :
    c.decodeDirect.2.buf = c.buf ∧ c.decodeDirect.2.Ready ∧
      c.range * 2 ^ 23 ≤ c.decodeDirect.2.range * (2 ^ 24 + 1) := by
  obtain ⟨⟨-, hhi⟩, hlo⟩ := hc
  have hhalf : c.decodeDirect.2.range = c.range / 2 ∧ c.decodeDirect.2.buf = c.buf := by
    simp only [decodeDirect]
    split <;> exact ⟨rfl, rfl⟩
  obtain ⟨hrange, hbuf⟩ := hhalf
  refine ⟨hbuf, ⟨?_, ?_⟩, ?_⟩ <;> rw [hrange] <;> omega

theorem spent_decodeDirect (hc : c.Normal) : Spent c c.decodeDirect.2 directCost :=
  spent_of_ratio (by decide) (decodeDirect_range hc).1 (decodeDirect_range hc).2.2
    (by decide +kernel)

/-- A computation of cost `n` may need more bytes than are left. -/
def Short (src : List UInt8) (c : RangeCoder) (n : Nat) : Prop :=
  c.range ^ 64 * 2 ^ (512 * (src.length + 1 - c.buf)) < 2 ^ (n + 32 * 64)

theorem Short.mono {m n : Nat} (h : Short src c m) (hmn : m ≤ n) : Short src c n :=
  h.trans_le (Nat.pow_le_pow_right (by decide) (by omega))

theorem Spent.short {m n : Nat} (h : Spent c c' m) (hs : Short src c' n)
    (hbuf : c'.buf ≤ src.length) : Short src c (m + n) := by
  have hk : 512 * (src.length + 1 - c.buf) =
      512 * (c'.buf - c.buf) + 512 * (src.length + 1 - c'.buf) := by
    have := h.buf_le
    omega
  calc c.range ^ 64 * 2 ^ (512 * (src.length + 1 - c.buf))
      = c.range ^ 64 * 2 ^ (512 * (c'.buf - c.buf)) * 2 ^ (512 * (src.length + 1 - c'.buf)) := by
        rw [hk, Nat.pow_add, Nat.mul_assoc]
    _ ≤ 2 ^ m * c'.range ^ 64 * 2 ^ (512 * (src.length + 1 - c'.buf)) :=
        Nat.mul_le_mul_right _ h.range_le
    _ = 2 ^ m * (c'.range ^ 64 * 2 ^ (512 * (src.length + 1 - c'.buf))) := Nat.mul_assoc _ _ _
    _ < 2 ^ m * 2 ^ (n + 32 * 64) := Nat.mul_lt_mul_of_pos_left hs (Nat.two_pow_pos m)
    _ = 2 ^ (m + n + 32 * 64) := by rw [← Nat.pow_add, Nat.add_assoc]

/-- A refill that fails comes when the bytes are used up. -/
theorem short_of_normalize (h : c.normalize src = none) (hbuf : c.buf ≤ src.length) :
    Short src c 0 := by
  obtain ⟨hrange, hlen⟩ := normalize_eq_none h
  have hk : 512 * (src.length + 1 - c.buf) = 8 * 64 := by omega
  have h256 : c.range * 2 ^ 8 < 2 ^ 32 := by omega
  have hunit : (2 ^ 32) ^ 64 = 2 ^ (0 + 32 * 64) := by rw [Nat.zero_add, Nat.pow_mul]
  calc c.range ^ 64 * 2 ^ (512 * (src.length + 1 - c.buf))
      = (c.range * 2 ^ 8) ^ 64 := by rw [hk, Nat.mul_pow, ← Nat.pow_mul 2 8 64]
    _ < (2 ^ 32) ^ 64 := Nat.pow_lt_pow_left h256 (by decide)
    _ = 2 ^ (0 + 32 * 64) := hunit

/-- Enough bytes are left, from a range of `s` bits. -/
theorem not_short {s k n : Nat} (hrange : 2 ^ s ≤ c.range) (hbuf : c.buf + k ≤ src.length)
    (hn : n + 32 * 64 ≤ 64 * s + 512 * (k + 1)) : ¬ Short src c n := by
  refine not_lt_of_ge ?_
  calc 2 ^ (n + 32 * 64) ≤ 2 ^ (64 * s + 512 * (k + 1)) := Nat.pow_le_pow_right (by decide) hn
    _ = (2 ^ s) ^ 64 * 2 ^ (512 * (k + 1)) := by rw [Nat.pow_add, ← Nat.pow_mul, Nat.mul_comm s]
    _ ≤ c.range ^ 64 * 2 ^ (512 * (src.length + 1 - c.buf)) :=
        Nat.mul_le_mul (Nat.pow_le_pow_left hrange 64)
          (Nat.pow_le_pow_right (by decide) (by omega))

end RangeCoder

/-! ## Computations that ask for bits -/

/-- A computation over two effects: a bit coded with the model at an index, and a bit coded
plainly. -/
inductive Bits (ι : Type u) (α : Type) where
  | ret (a : α)
  | bit (i : ι) (k : Bool → Bits ι α)
  | direct (k : Bool → Bits ι α)

/-- What a run may get stuck at: a byte beyond the end of the input, or a model that is not
there. -/
inductive Bits.Stuck
  | input
  | model
  deriving DecidableEq

namespace Bits

open RangeCoder

variable {ι : Type u} {α β γ : Type}

/-- Graft a continuation onto every result. -/
protected def bind : Bits ι α → (α → Bits ι β) → Bits ι β
  | ret a, f => f a
  | bit i k, f => bit i fun b => (k b).bind f
  | direct k, f => direct fun b => (k b).bind f

instance : Monad (Bits ι) where
  pure := ret
  bind := Bits.bind

/-- The bit coded with the model at `i`. -/
def getBit (i : ι) : Bits ι Bool := bit i ret

/-- A bit coded plainly. -/
def getDirect : Bits ι Bool := direct ret

@[simp] theorem pure_bind (a : α) (f : α → Bits ι β) : (pure a : Bits ι α) >>= f = f a := rfl

variable [DecidableEq ι] (src : List UInt8)

/-- Decode: read bytes, and adapt the models. -/
def run : Bits ι α → (ι → Option Nat) → RangeCoder →
    Except Stuck (α × (ι → Option Nat) × RangeCoder)
  | ret a, models, c => .ok (a, models, c)
  | bit i k, models, c =>
    match models i with
    | none => .error .model
    | some p =>
      match c.normalize src with
      | none => .error .input
      | some c =>
        let r := c.decode p
        (k r.1).run (Function.update models i (some (adapt p r.1))) r.2
  | direct k, models, c =>
    match c.normalize src with
    | none => .error .input
    | some c => (k c.decodeDirect.1).run models c.decodeDirect.2

omit [DecidableEq ι] in
/-- Look ahead: the models stay, and the end of the input is an answer. -/
def check : Bits ι α → (ι → Option Nat) → RangeCoder → Except Stuck (Option (α × RangeCoder))
  | ret a, _, c => .ok (some (a, c))
  | bit i k, models, c =>
    match models i with
    | none => .error .model
    | some p =>
      match c.normalize src with
      | none => .ok none
      | some c => (k (c.decode p).1).check models (c.decode p).2
  | direct k, models, c =>
    match c.normalize src with
    | none => .ok none
    | some c => (k c.decodeDirect.1).check models c.decodeDirect.2

/-! ## What a computation asks -/

/-- Whatever the answers, the computation asks models of `I`, none of them twice, costs at most
`n`, and its result satisfies `Q`. -/
def Within : Bits ι α → Set ι → Nat → (α → Prop) → Prop
  | ret a, _, _, Q => Q a
  | bit i k, I, n, Q => i ∈ I ∧ bitCost ≤ n ∧ ∀ b, (k b).Within (I \ {i}) (n - bitCost) Q
  | direct k, I, n, Q => directCost ≤ n ∧ ∀ b, (k b).Within I (n - directCost) Q

variable {src} {t : Bits ι α} {f : α → Bits ι β} {I J : Set ι} {m n : Nat} {P : α → Prop}
  {Q : β → Prop}

omit [DecidableEq ι] in
theorem Within.mono {P' : α → Prop} (h : t.Within I m P) (hI : I ⊆ J) (hmn : m ≤ n)
    (hP : ∀ a, P a → P' a) : t.Within J n P' := by
  induction t generalizing I J m n with
  | ret a => exact hP a h
  | bit i k ih =>
    obtain ⟨hi, hcost, hk⟩ := h
    exact ⟨hI hi, hcost.trans hmn, fun b =>
      ih b (hk b) (Set.sdiff_subset_sdiff_left hI) (Nat.sub_le_sub_right hmn _)⟩
  | direct k ih =>
    obtain ⟨hcost, hk⟩ := h
    exact ⟨hcost.trans hmn, fun b => ih b (hk b) hI (Nat.sub_le_sub_right hmn _)⟩

omit [DecidableEq ι] in
/-- One computation after another, over different models. -/
theorem Within.bind (h : t.Within I m P) (hdisj : Disjoint I J)
    (hf : ∀ a, P a → (f a).Within J n Q) : (t >>= f).Within (I ∪ J) (m + n) Q := by
  induction t generalizing I m with
  | ret a => exact (hf a h).mono Set.subset_union_right (Nat.le_add_left _ _) fun _ => id
  | bit i k ih =>
    obtain ⟨hi, hcost, hk⟩ := h
    refine ⟨.inl hi, hcost.trans (Nat.le_add_right _ _), fun b => ?_⟩
    refine (ih b (hk b) (hdisj.mono_left Set.sdiff_subset)).mono ?_ ?_ fun _ => id
    · rintro j (⟨hj, hne⟩ | hj)
      · exact ⟨.inl hj, hne⟩
      · exact ⟨.inr hj, fun heq => Set.disjoint_left.mp hdisj hi (heq ▸ hj)⟩
    · omega
  | direct k ih =>
    obtain ⟨hcost, hk⟩ := h
    refine ⟨hcost.trans (Nat.le_add_right _ _), fun b => ?_⟩
    exact (ih b (hk b) hdisj).mono subset_rfl (by omega) fun _ => id

omit [DecidableEq ι] in
theorem Within.map {g : α → β} (h : t.Within I m P) (hg : ∀ a, P a → Q (g a)) :
    (t >>= fun a => pure (g a)).Within I m Q := by
  have hbind := h.bind (J := ∅) (n := 0) (f := fun a => (pure (g a) : Bits ι β))
    (Set.disjoint_empty I) hg
  rwa [Set.union_empty, Nat.add_zero] at hbind

/-- The models that are asked are there, and adaptation has reached them. -/
def Supplied (models : ι → Option Nat) (I : Set ι) : Prop :=
  ∀ i ∈ I, ∃ p, models i = some p ∧ Fair p

theorem Supplied.update {models : ι → Option Nat} (h : Supplied models I) (i : ι) {p : Nat}
    (hp : Fair p) : Supplied (Function.update models i (some p)) I := by
  intro j hj
  by_cases hij : j = i
  · rw [hij, Function.update_self]
    exact ⟨p, rfl, hp⟩
  · rw [Function.update_of_ne hij]
    exact h j hj

/-- **The bytes of a run.** A run over models that are there either returns, and has paid for the
bytes it has read, or there were not enough of them. -/
theorem run_of_within (ht : t.Within I n P) {S : Set ι} (hIS : I ⊆ S)
    {models : ι → Option Nat} (hm : Supplied models S) {c : RangeCoder} (hc : c.Ready)
    (hbuf : c.buf ≤ src.length) :
    (∃ a models' c', t.run src models c = .ok (a, models', c') ∧ P a ∧ Supplied models' S ∧
      c'.Ready ∧ c'.buf ≤ src.length ∧ Spent c c' n) ∨
    (t.run src models c = .error .input ∧ Short src c n) := by
  induction t generalizing I n models c with
  | ret a => exact .inl ⟨a, models, c, rfl, ht, hm, hc, hbuf, .refl _ _⟩
  | bit i k ih =>
    obtain ⟨hi, hcost, hk⟩ := ht
    obtain ⟨p, hp, hfair⟩ := hm i (hIS hi)
    rw [run, hp]
    dsimp only
    cases hn : c.normalize src with
    | none => exact .inr ⟨rfl, (short_of_normalize hn hbuf).mono (Nat.zero_le _)⟩
    | some c₁ =>
      have hnormal := hc.normalize hn
      have hbuf₁ := normalize_buf hn hbuf
      have hspent : Spent c (c₁.decode p).2 bitCost := by
        simpa using (spent_normalize hn).trans (spent_decode hnormal hfair)
      obtain ⟨hpos, hready, -⟩ := decode_range hnormal hfair
      have hbuf₂ : (c₁.decode p).2.buf ≤ src.length := hpos.le.trans hbuf₁
      dsimp only
      rcases ih _ (hk (c₁.decode p).1) (Set.sdiff_subset.trans hIS)
        (hm.update i (hfair.adapt (c₁.decode p).1)) hready hbuf₂ with
        ⟨a, models', c', hrun, hP, hm', hc', hbuf', hs⟩ | ⟨hrun, hs⟩
      · exact .inl ⟨a, models', c', hrun, hP, hm', hc', hbuf', (hspent.trans hs).mono (by omega)⟩
      · exact .inr ⟨hrun, (hspent.short hs hbuf₂).mono (by omega)⟩
  | direct k ih =>
    obtain ⟨hcost, hk⟩ := ht
    rw [run]
    cases hn : c.normalize src with
    | none => exact .inr ⟨rfl, (short_of_normalize hn hbuf).mono (Nat.zero_le _)⟩
    | some c₁ =>
      have hnormal := hc.normalize hn
      have hspent : Spent c c₁.decodeDirect.2 directCost := by
        simpa using (spent_normalize hn).trans (spent_decodeDirect hnormal)
      obtain ⟨hpos, hready, -⟩ := decodeDirect_range hnormal
      have hbuf₂ : c₁.decodeDirect.2.buf ≤ src.length := hpos.le.trans (normalize_buf hn hbuf)
      dsimp only
      rcases ih _ (hk c₁.decodeDirect.1) hIS hm hready hbuf₂ with
        ⟨a, models', c', hrun, hP, hm', hc', hbuf', hs⟩ | ⟨hrun, hs⟩
      · exact .inl ⟨a, models', c', hrun, hP, hm', hc', hbuf', (hspent.trans hs).mono (by omega)⟩
      · exact .inr ⟨hrun, (hspent.short hs hbuf₂).mono (by omega)⟩

/-- What looking ahead makes of a run. -/
def foreseen : Except Stuck (α × (ι → Option Nat) × RangeCoder) →
    Except Stuck (Option (α × RangeCoder))
  | .ok (a, _, c) => .ok (some (a, c))
  | .error .input => .ok none
  | .error .model => .error .model

/-- No model is asked twice, so adapting them makes no difference to what is decoded. -/
theorem check_of_within (ht : t.Within I n P) {models models' : ι → Option Nat}
    (hagree : ∀ i ∈ I, models i = models' i) (c : RangeCoder) :
    t.check src models c = foreseen (t.run src models' c) := by
  induction t generalizing I n models' c with
  | ret a => rfl
  | bit i k ih =>
    obtain ⟨hi, -, hk⟩ := ht
    rw [check, run, ← hagree i hi]
    cases models i with
    | none => rfl
    | some p =>
      dsimp only
      cases c.normalize src with
      | none => rfl
      | some c₁ =>
        refine ih _ (hk _) (fun j hj => ?_) _
        rw [Function.update_of_ne hj.2]
        exact hagree j hj.1
  | direct k ih =>
    obtain ⟨-, hk⟩ := ht
    rw [check, run]
    cases c.normalize src with
    | none => rfl
    | some c₁ => exact ih _ (hk _) hagree _

/-! ## The same questions -/

/-- The two ask the same questions, and after the same answers their results are related. -/
inductive Alike (R : α → β → Prop) : Bits ι α → Bits ι β → Prop
  | ret {a : α} {b : β} (h : R a b) : Alike R (ret a) (ret b)
  | bit (i : ι) {k : Bool → Bits ι α} {l : Bool → Bits ι β} (h : ∀ b, Alike R (k b) (l b)) :
      Alike R (bit i k) (bit i l)
  | direct {k : Bool → Bits ι α} {l : Bool → Bits ι β} (h : ∀ b, Alike R (k b) (l b)) :
      Alike R (direct k) (direct l)

omit [DecidableEq ι] in
theorem Alike.bind {δ : Type} {R : α → β → Prop} {S : γ → δ → Prop} {t : Bits ι α} {u : Bits ι β}
    {f : α → Bits ι γ} {g : β → Bits ι δ} (h : Alike R t u)
    (hfg : ∀ a b, R a b → Alike S (f a) (g b)) : Alike S (t >>= f) (u >>= g) := by
  induction h with
  | ret h => exact hfg _ _ h
  | bit i _ ih => exact .bit i ih
  | direct _ ih => exact .direct ih

omit [DecidableEq ι] in
theorem Alike.mono {R R' : α → β → Prop} {t : Bits ι α} {u : Bits ι β} (h : Alike R t u)
    (hR : ∀ a b, R a b → R' a b) : Alike R' t u := by
  induction h with
  | ret h => exact .ret (hR _ _ h)
  | bit i _ ih => exact .bit i ih
  | direct _ ih => exact .direct ih

omit [DecidableEq ι] in
/-- Where only the second of the two goes on from its result. -/
theorem Alike.bind_right {R : α → β → Prop} {S : α → γ → Prop} {t : Bits ι α} {u : Bits ι β}
    {g : β → γ} (h : Alike R t u) (hg : ∀ a b, R a b → S a (g b)) :
    Alike S t (u >>= fun b => pure (g b)) := by
  induction h with
  | ret h => exact .ret (hg _ _ h)
  | bit i _ ih => exact .bit i ih
  | direct _ ih => exact .direct ih

omit [DecidableEq ι] in
theorem Alike.refl (t : Bits ι α) : Alike (· = ·) t t := by
  induction t with
  | ret a => exact .ret rfl
  | bit i k ih => exact .bit i ih
  | direct k ih => exact .direct ih

omit [DecidableEq ι] in
/-- Looking ahead with either of the two. -/
theorem Alike.check {g : α → β} {t : Bits ι α} {u : Bits ι β}
    (h : Alike (fun a b => b = g a) t u) (models : ι → Option Nat) (c : RangeCoder) :
    u.check src models c = (t.check src models c).map (Option.map fun r => (g r.1, r.2)) := by
  induction h generalizing c with
  | ret h => subst h; rfl
  | bit i _ ih =>
    rw [Bits.check, Bits.check]
    cases models i with
    | none => rfl
    | some p =>
      dsimp only
      cases c.normalize src with
      | none => rfl
      | some c₁ => exact ih _ _
  | direct _ ih =>
    rw [Bits.check, Bits.check]
    cases c.normalize src with
    | none => rfl
    | some c₁ => exact ih _ _

end Bits

end LicheeRvNano
