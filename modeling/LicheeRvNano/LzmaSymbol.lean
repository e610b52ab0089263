import LicheeRvNano.LzmaDec

/-!
# The symbols of the LZMA decoder

The decoder asks for the bits of a symbol without looking whether there is any input: it relies
on twenty bytes being enough, and on `LzmaDec_TryDummy` when there are fewer.

* `decodeSymbol_within` says which probabilities a symbol asks, none of them twice, and what it
  costs: less than the twenty bytes.
* `decodeSymbol_alike` compares it with the symbol of `LzmaDec_TryDummy`, question by question.
* `try_dummy_foresees` is the agreement of the two functions.
-/

namespace LicheeRvNano

namespace Lzma

open Bits RangeCoder Set

/-! ## What a symbol asks -/

theorem places : SpecPos = 0 ∧ IsRep0Long = 128 ∧ RepLenCoder = 384 ∧ LenCoder = 896 ∧
    IsMatch = 1408 ∧ Align = 1664 ∧ IsRep = 1680 ∧ IsRepG0 = 1692 ∧ IsRepG1 = 1704 ∧
    IsRepG2 = 1716 ∧ PosSlot = 1728 ∧ Literal = 1984 ∧ LenHigh = 256 ∧ kNumLenProbs = 512 ∧
    kNumLenToPosStates = 4 ∧ kStartPosModelIndex = 4 ∧ kEndPosModelIndex = 14 ∧
    kNumAlignBits = 4 := by
  decide

theorem le_cost (c n : Nat) : c ≤ c * (n + 1) := Nat.le_mul_of_pos_right _ n.succ_pos

theorem cost_le (c n : Nat) : c * n ≤ c * (n + 1) - c := (Nat.add_sub_cancel (c * n) c).ge

theorem treeDecode_within {prob n i lo hi : Nat} (hpos : 1 ≤ i) (hlo : lo ≤ prob + i)
    (hhi : prob + (i + 1) * 2 ^ n ≤ hi) :
    (treeDecode prob (n + 1) i).Within (Ico lo hi) (bitCost * (n + 1))
      fun r => i * 2 ^ (n + 1) ≤ r ∧ r < (i + 1) * 2 ^ (n + 1) := by
  induction n generalizing i lo with
  | zero =>
    refine ⟨⟨hlo, by omega⟩, le_rfl, fun b => ?_⟩
    have hb := b.toNat_le
    show i * 2 ^ 1 ≤ 2 * i + b.toNat ∧ 2 * i + b.toNat < (i + 1) * 2 ^ 1
    omega
  | succ n ih =>
    have hw : 0 < 2 ^ n := Nat.two_pow_pos n
    have hlt : (i + 1) * 1 ≤ (i + 1) * 2 ^ (n + 1) := Nat.mul_le_mul_left _ Nat.one_le_two_pow
    refine ⟨⟨hlo, by omega⟩, le_cost _ _, fun b => ?_⟩
    have hb := b.toNat_le
    have hup : (2 * i + b.toNat + 1) * 2 ^ n ≤ (i + 1) * 2 ^ (n + 1) := by
      rw [Nat.pow_succ', ← Nat.mul_assoc]
      exact Nat.mul_le_mul_right _ (by omega)
    have hdown : i * 2 ^ (n + 2) ≤ (2 * i + b.toNat) * 2 ^ (n + 1) := by
      rw [Nat.pow_succ' (n := n + 1), ← Nat.mul_assoc]
      exact Nat.mul_le_mul_right _ (by omega)
    have hup' : (2 * i + b.toNat + 1) * 2 ^ (n + 1) ≤ (i + 1) * 2 ^ (n + 2) := by
      rw [Nat.pow_succ' (n := n + 1), ← Nat.mul_assoc]
      exact Nat.mul_le_mul_right _ (by omega)
    refine (@ih (2 * i + b.toNat) (prob + i + 1) (by omega) (by omega) (by omega)).mono ?_
      (cost_le _ _) fun r hr => ⟨hdown.trans hr.1, hr.2.trans_le hup'⟩
    rintro j ⟨hj, hj'⟩
    exact ⟨⟨by omega, hj'⟩, notMem_singleton_iff.mpr (by omega)⟩

theorem revDecode_within {prob n i m lo hi : Nat} (hm : 0 < m) (hlo : lo ≤ prob + i)
    (hhi : i + 2 ^ n * m + 1 ≤ hi + 2 * m) :
    (revDecode prob n i m).Within (Ico lo (prob + hi)) (bitCost * n) fun _ => True := by
  induction n generalizing i m lo with
  | zero => trivial
  | succ n ih =>
    have hw : 1 * m ≤ 2 ^ n * m := Nat.mul_le_mul_right _ Nat.one_le_two_pow
    have hdouble : 2 ^ (n + 1) * m = 2 * (2 ^ n * m) := by rw [Nat.pow_succ', Nat.mul_assoc]
    have hnext : 2 ^ n * (2 * m) = 2 * (2 ^ n * m) := Nat.mul_left_comm _ _ _
    refine ⟨⟨hlo, by omega⟩, le_cost _ _, fun b => ?_⟩
    have hi' : (if b then i + 2 * m else i + m) ≤ i + 2 * m ∧
        i < (if b then i + 2 * m else i + m) := by
      split <;> omega
    refine (@ih _ (2 * m) (prob + i + 1) (by omega) (by omega) (by omega)).mono ?_
      (cost_le _ _) fun _ => id
    rintro j ⟨hj, hj'⟩
    exact ⟨⟨by omega, hj'⟩, notMem_singleton_iff.mpr (by omega)⟩

theorem directDecode_within (n distance : Nat) (I : Set Nat) :
    (directDecode n distance).Within I (directCost * n) fun _ => True := by
  induction n generalizing distance with
  | zero => trivial
  | succ n ih =>
    exact ⟨le_cost _ _, fun b => (ih _).mono subset_rfl (cost_le _ _) fun _ => id⟩

/-- One bit of the byte matched against. -/
theorem and_256 (x : Nat) : 256 &&& x = 0 ∨ 256 &&& x = 256 := by
  have hbit : ∀ i, (2 ^ 8 &&& x).testBit i = (decide (8 = i) && x.testBit i) := fun i => by
    rw [Nat.testBit_and, Nat.testBit_two_pow]
  cases hx : x.testBit 8 with
  | false =>
    refine .inl (Nat.eq_of_testBit_eq fun i => ?_)
    rw [show (256 : Nat) = 2 ^ 8 from rfl, hbit, Nat.zero_testBit]
    by_cases hi : 8 = i
    · rw [← hi, hx, Bool.and_false]
    · rw [decide_eq_false hi, Bool.false_and]
  | true =>
    refine .inr (Nat.eq_of_testBit_eq fun i => ?_)
    rw [show (256 : Nat) = 2 ^ 8 from rfl, hbit, Nat.testBit_two_pow]
    by_cases hi : 8 = i
    · rw [← hi, hx, Bool.and_true]
    · rw [decide_eq_false hi, Bool.false_and]

/-- The three trees of a literal after a match; the low byte of the place is the symbol so far. -/
theorem matchedDecode_within {prob n old symbol : Nat} (matchByte : Nat)
    (hold : old = 0 ∨ old = 256) (hsymbol : 1 ≤ symbol) (hn : (symbol + 1) * 2 ^ n ≤ 2 ^ 9) :
    (matchedDecode prob n old matchByte symbol).Within
      {j | prob ≤ j ∧ j < prob + 0x300 ∧ symbol ≤ (j - prob) % 256} (bitCost * n)
      fun _ => True := by
  induction n generalizing old symbol matchByte with
  | zero => trivial
  | succ n ih =>
    have hdouble : (symbol + 1) * 2 ^ (n + 1) = (2 * symbol + 2) * 2 ^ n := by
      rw [Nat.pow_succ', ← Nat.mul_assoc]
      exact congrArg (· * 2 ^ n) (by omega)
    have hbound : (2 * symbol + 2) * 1 ≤ (2 * symbol + 2) * 2 ^ n :=
      Nat.mul_le_mul_left _ Nat.one_le_two_pow
    have hoffs : (old &&& (matchByte + matchByte) = 0 ∨ old &&& (matchByte + matchByte) = old) := by
      rcases hold with rfl | rfl
      · exact .inl (Nat.zero_and _)
      · exact and_256 _
    have hplace : old &&& (matchByte + matchByte) ≤ 256 := by omega
    refine ⟨⟨?_, ?_, ?_⟩, le_cost _ _, fun b => ?_⟩
    · omega
    · omega
    · rcases hold with rfl | rfl <;> rcases hoffs with h | h <;> rw [h] <;> omega
    · have hb := b.toNat_le
      have hnext : (if b then old &&& (matchByte + matchByte)
          else (old &&& (matchByte + matchByte)) ^^^ old) = 0 ∨
          (if b then old &&& (matchByte + matchByte)
          else (old &&& (matchByte + matchByte)) ^^^ old) = 256 := by
        rcases hoffs with h | h <;> rw [h] <;> rcases hold with rfl | rfl <;> cases b <;> simp
      have hmul : (2 * symbol + b.toNat + 1) * 2 ^ n ≤ (2 * symbol + 2) * 2 ^ n :=
        Nat.mul_le_mul_right _ (by omega)
      refine (ih _ hnext (by omega) (by omega)).mono ?_ (cost_le _ _) fun _ => id
      rintro j ⟨hj, hj', hlow⟩
      refine ⟨⟨hj, hj', by omega⟩, fun heq => ?_⟩
      rw [mem_singleton_iff] at heq
      rcases hold with rfl | rfl <;> rcases hoffs with h | h <;> rw [h] at heq <;> omega

/-- `lenDecode` stays in its coder. -/
theorem lenDecode_within (prob : Nat) {k : Nat} (hk : k < 16) :
    (lenDecode prob (k * 2 ^ 4)).Within (Ico prob (prob + kNumLenProbs)) (bitCost * 10)
      fun _ => True := by
  have hplaces := places
  refine ⟨⟨le_rfl, by omega⟩, by decide, fun b => ?_⟩
  cases b with
  | false =>
    refine ((@treeDecode_within (prob + k * 2 ^ 4) 2 1 (prob + 1) (prob + 256) le_rfl (by omega)
      (by omega)).map fun _ _ => trivial).mono ?_ (by decide) fun _ => id
    rintro j ⟨hj, hj'⟩
    exact ⟨⟨by omega, by omega⟩, notMem_singleton_iff.mpr (by omega)⟩
  | true =>
    refine ⟨⟨⟨by omega, by omega⟩, notMem_singleton_iff.mpr (by omega)⟩,
      by decide, fun b => ?_⟩
    cases b with
    | false =>
      refine (@treeDecode_within (prob + k * 2 ^ 4 + 8) 2 1 (prob + k * 2 ^ 4 + 9) (prob + 256)
        le_rfl (by omega) (by omega)).mono ?_ (by decide) fun _ _ => trivial
      rintro j ⟨hj, hj'⟩
      exact ⟨⟨⟨by omega, by omega⟩, notMem_singleton_iff.mpr (by omega)⟩,
        notMem_singleton_iff.mpr (by omega)⟩
    | true =>
      refine ((@treeDecode_within (prob + LenHigh) 7 1 (prob + LenHigh) (prob + kNumLenProbs)
        le_rfl (by omega) (by omega)).map fun _ _ => trivial).mono ?_ (by decide) fun _ => id
      rintro j ⟨hj, hj'⟩
      exact ⟨⟨⟨by omega, by omega⟩, notMem_singleton_iff.mpr (by omega)⟩,
        notMem_singleton_iff.mpr (by omega)⟩

/-- Where distances are coded: the low bits of short ones, the lowest of long ones, the slots. -/
def distancePlaces : Set Nat :=
  Ico PosSlot (PosSlot + 2 ^ 8) ∪ (Ico SpecPos (SpecPos + 2 ^ 7) ∪ Ico Align (Align + 2 ^ 4))

theorem distanceDecode_within (len : Nat) :
    (distanceDecode len).Within distancePlaces (bitCost * 10 + directCost * 26) fun _ => True := by
  have hplaces := places
  have hslot : (if len < kNumLenToPosStates then len else kNumLenToPosStates - 1) ≤ 3 := by
    split <;> omega
  generalize hs : (if len < kNumLenToPosStates then len else kNumLenToPosStates - 1) = s at hslot
  have htree := @treeDecode_within (PosSlot + s * 2 ^ 6) 5 1 PosSlot (PosSlot + 2 ^ 8) le_rfl
    (by omega) (by omega)
  have hdisj : Disjoint (Ico PosSlot (PosSlot + 2 ^ 8))
      (Ico SpecPos (SpecPos + 2 ^ 7) ∪ Ico Align (Align + 2 ^ 4)) := by
    rw [Set.disjoint_left]
    rintro j ⟨hj, -⟩ (⟨-, hj'⟩ | ⟨-, hj'⟩) <;> omega
  have h := htree.bind (n := bitCost * 4 + directCost * 26) (Q := fun _ => True) hdisj
    (f := fun slot =>
      let posSlot := slot - 2 ^ 6
      if posSlot < kStartPosModelIndex then pure posSlot
      else
        let numDirectBits := posSlot / 2 - 1
        let distance := 2 ||| posSlot &&& 1
        if posSlot < kEndPosModelIndex then
          revDecode SpecPos numDirectBits (distance * 2 ^ numDirectBits + 1) 1 >>= fun i =>
            pure (i - 2 ^ numDirectBits)
        else
          directDecode (numDirectBits - kNumAlignBits) distance >>= fun distance =>
            revDecode Align kNumAlignBits 1 1 >>= fun i =>
              pure (distance * 2 ^ 4 % 2 ^ 32 ||| (i - 2 ^ 4))) ?_
  · rw [distanceDecode, hs]
    exact h.mono subset_rfl (by decide) fun _ => id
  · rintro slot ⟨-, hslot'⟩
    have hlt : slot - 2 ^ 6 < 64 := by omega
    generalize slot - 2 ^ 6 = posSlot at hlt ⊢
    dsimp only
    split
    · trivial
    · split
      case isTrue hge hshort =>
        have hbits : posSlot / 2 - 1 ≤ 5 := by omega
        have hhead : (2 ||| posSlot &&& 1) ≤ 3 := by
          rw [Nat.and_one_is_mod]
          rcases Nat.mod_two_eq_zero_or_one posSlot with h | h <;> rw [h] <;> decide
        have hroom : ((2 ||| posSlot &&& 1) + 1) * 2 ^ (posSlot / 2 - 1) ≤ 4 * 2 ^ 5 :=
          Nat.mul_le_mul (by omega) (Nat.pow_le_pow_right (by decide) hbits)
        rw [Nat.add_mul] at hroom
        have hrev := @revDecode_within SpecPos (posSlot / 2 - 1)
          ((2 ||| posSlot &&& 1) * 2 ^ (posSlot / 2 - 1) + 1) 1 SpecPos (2 ^ 7) (by decide)
          (by omega) (by omega)
        refine (hrev.map (Q := fun _ => True) fun _ _ => trivial).mono ?_ ?_ fun _ => id
        · exact subset_union_left
        · have hcost : bitCost * (posSlot / 2 - 1) ≤ bitCost * 5 := Nat.mul_le_mul_left _ hbits
          exact hcost.trans (by decide)
      case isFalse hge hlong =>
        have hbits : posSlot / 2 - 1 - kNumAlignBits ≤ 26 := by omega
        have hdirect := directDecode_within (posSlot / 2 - 1 - kNumAlignBits)
          (2 ||| posSlot &&& 1) ∅
        have hrev := @revDecode_within Align kNumAlignBits 1 1 Align (2 ^ 4) (by decide) (by omega)
          (by decide)
        refine (hdirect.bind (empty_disjoint _) fun _ _ =>
          hrev.map (Q := fun _ => True) fun _ _ => trivial).mono ?_ ?_ fun _ => id
        · rw [empty_union]
          exact subset_union_right
        · have hcost : directCost * (posSlot / 2 - 1 - kNumAlignBits) ≤ directCost * 26 :=
            Nat.mul_le_mul_left _ hbits
          exact (Nat.add_le_add_right hcost _).trans (by decide)

/-! ## The places of a literal -/

/-- Properties that `LzmaProps_Decode` can give. -/
structure PropsOk (prop : LzmaProps) : Prop where
  lc : prop.lc ≤ 8
  lp : prop.lp ≤ 4
  pb : prop.pb ≤ 4

theorem propsOk_of_decode {data : Bytes} {prop : LzmaProps}
    (h : Bl2.lzmaPropsDecode data = .ok prop) : PropsOk prop := by
  unfold Bl2.lzmaPropsDecode at h
  dsimp only at h
  split at h
  · cases h
  · obtain rfl := Except.ok.inj h
    constructor <;> dsimp only <;> omega

/-- A mask of `n` bits above `k`. -/
theorem and_mask (x k n : Nat) : x &&& (2 ^ k * 2 ^ n - 2 ^ k) = x / 2 ^ k % 2 ^ n * 2 ^ k := by
  have hmask : 2 ^ k * 2 ^ n - 2 ^ k = (2 ^ n - 1) * 2 ^ k := by
    rw [Nat.sub_mul, Nat.one_mul, Nat.mul_comm]
  refine Nat.eq_of_testBit_eq fun i => ?_
  rw [hmask, Nat.testBit_and, Nat.testBit_mul_two_pow, Nat.testBit_mul_two_pow,
    Nat.testBit_two_pow_sub_one, Nat.testBit_mod_two_pow, Nat.testBit_div_two_pow]
  by_cases hi : k ≤ i
  · simp only [hi, decide_true, Bool.true_and, Nat.sub_add_cancel hi]
    exact Bool.and_comm _ _
  · simp only [hi, decide_false, Bool.false_and, Bool.and_false]

/-- The mask of `LZMA_DECODE_REAL` takes the same bits as the shifts of `LzmaDec_TryDummy`. -/
theorem literal_place (pos lp : Nat) {prev lc : Nat} (hlc : lc ≤ 8) (hprev : prev < 2 ^ 8) :
    3 * (((pos * 2 ^ 8 + prev) &&& (2 ^ 8 * 2 ^ lp - 2 ^ 8 / 2 ^ lc)) * 2 ^ lc) =
      0x300 * ((pos &&& (2 ^ lp - 1)) * 2 ^ lc + prev / 2 ^ (8 - lc)) := by
  obtain ⟨k, hk⟩ : ∃ k, lc + k = 8 := ⟨8 - lc, by omega⟩
  have h8 : (2 : Nat) ^ 8 = 2 ^ lc * 2 ^ k := by rw [← Nat.pow_add, hk]
  have hk' : 8 - lc = k := by omega
  have hrest : prev / 2 ^ k < 2 ^ lc := by
    rw [Nat.div_lt_iff_lt_mul (Nat.two_pow_pos k), ← h8]
    exact hprev
  have hmask : 2 ^ 8 * 2 ^ lp - 2 ^ 8 / 2 ^ lc = 2 ^ k * 2 ^ (lc + lp) - 2 ^ k := by
    rw [h8, Nat.mul_div_cancel_left _ (Nat.two_pow_pos lc), Nat.pow_add, Nat.mul_comm (2 ^ lc),
      Nat.mul_assoc]
  have hdiv : (pos * 2 ^ 8 + prev) / 2 ^ k = 2 ^ lc * pos + prev / 2 ^ k := by
    rw [h8, ← Nat.mul_assoc, Nat.mul_comm, Nat.mul_add_div (Nat.two_pow_pos k), Nat.mul_comm pos]
  have hmod : (2 ^ lc * pos + prev / 2 ^ k) % 2 ^ (lc + lp) =
      2 ^ lc * (pos % 2 ^ lp) + prev / 2 ^ k := by
    rw [Nat.pow_add, Nat.mod_mul, Nat.mul_add_mod, Nat.mod_eq_of_lt hrest,
      Nat.mul_add_div (Nat.two_pow_pos lc), Nat.div_eq_of_lt hrest, Nat.add_zero, Nat.add_comm]
  rw [hk', hmask, and_mask, hdiv, hmod, Nat.and_two_pow_sub_one_eq_mod, Nat.mul_comm (2 ^ lc),
    Nat.mul_assoc _ (2 ^ k), Nat.mul_comm (2 ^ k), ← h8]
  omega

/-- The two functions look for a literal in the same place. -/
theorem literalProb_eq {p : CLzmaDec} (hp : PropsOk p.prop) :
    literalProb p = dummyLiteralProb p := by
  rw [literalProb, dummyLiteralProb]
  refine if_congr or_comm (congrArg (Option.map · p.prevByte) (funext fun prev => ?_)) rfl
  exact congrArg (Literal + ·) (literal_place _ _ hp.lc prev.toNat_lt)

theorem literalProb_le {p : CLzmaDec} (hp : PropsOk p.prop) {prob : Nat}
    (h : literalProb p = some prob) : Literal ≤ prob ∧ prob + 0x300 ≤ numProbs p.prop := by
  rw [literalProb_eq hp, dummyLiteralProb] at h
  have hpos : 0x300 * 1 ≤ 0x300 * 2 ^ (p.prop.lc + p.prop.lp) :=
    Nat.mul_le_mul_left _ Nat.one_le_two_pow
  split at h
  · obtain ⟨prev, -, rfl⟩ := Option.map_eq_some_iff.mp h
    have hprev : prev.toNat / 2 ^ (8 - p.prop.lc) < 2 ^ p.prop.lc := by
      rw [Nat.div_lt_iff_lt_mul (Nat.two_pow_pos _), ← Nat.pow_add, Nat.add_sub_of_le hp.lc]
      exact prev.toNat_lt
    have hlow : (p.processedPos &&& (2 ^ p.prop.lp - 1)) < 2 ^ p.prop.lp := by
      rw [Nat.and_two_pow_sub_one_eq_mod]
      exact Nat.mod_lt _ (Nat.two_pow_pos _)
    have hplace : (p.processedPos &&& (2 ^ p.prop.lp - 1)) * 2 ^ p.prop.lc +
        prev.toNat / 2 ^ (8 - p.prop.lc) + 1 ≤ 2 ^ (p.prop.lc + p.prop.lp) := by
      have hmul : ((p.processedPos &&& (2 ^ p.prop.lp - 1)) + 1) * 2 ^ p.prop.lc ≤
          2 ^ p.prop.lp * 2 ^ p.prop.lc := Nat.mul_le_mul_right _ hlow
      rw [Nat.add_comm p.prop.lc, Nat.pow_add]
      rw [Nat.add_mul] at hmul
      omega
    have hmul := Nat.mul_le_mul_left 0x300 hplace
    rw [numProbs]
    constructor <;> omega
  · obtain rfl := Option.some.inj h
    rw [numProbs]
    constructor <;> omega

/-! ## A symbol -/

/-- The probabilities are there for the properties, and the state is one of twelve. -/
structure CLzmaDec.Sound (p : CLzmaDec) : Prop where
  props : PropsOk p.prop
  state : p.state < kNumStates
  probs : Supplied p.probs (Iio (numProbs p.prop))

variable {p : CLzmaDec}

theorem posState_eq (hp : PropsOk p.prop) : ∃ k, k < 16 ∧ p.posState = k * 2 ^ 4 := by
  refine ⟨_, ?_, rfl⟩
  rw [Nat.and_two_pow_sub_one_eq_mod]
  exact (Nat.mod_lt _ (Nat.two_pow_pos _)).trans_le (Nat.pow_le_pow_right (by decide) hp.pb)

theorem decodeLiteral_within (hp : PropsOk p.prop) :
    (decodeLiteral p).Within (Ico Literal (numProbs p.prop)) (bitCost * 8) fun _ => True := by
  unfold decodeLiteral
  cases hprob : literalProb p with
  | none => trivial
  | some prob =>
    obtain ⟨hlo, hhi⟩ := literalProb_le hp hprob
    dsimp only
    split
    · refine ((@treeDecode_within prob 7 1 prob (prob + 2 ^ 8) le_rfl (by omega) (by omega)).map
        fun _ _ => trivial).mono ?_ le_rfl fun _ => id
      rintro j ⟨hj, hj'⟩
      exact ⟨hlo.trans hj, by omega⟩
    · split
      · trivial
      · refine ((matchedDecode_within _ (.inr rfl) le_rfl (by decide)).map
          fun _ _ => trivial).mono ?_ le_rfl fun _ => id
        rintro j ⟨hj, hj', -⟩
        exact ⟨hlo.trans hj, by omega⟩

theorem decodeSimple_within (hp : PropsOk p.prop) :
    (decodeSimple p).Within (Ico LenCoder (LenCoder + kNumLenProbs) ∪ distancePlaces)
      (bitCost * 10 + (bitCost * 10 + directCost * 26)) fun _ => True := by
  obtain ⟨k, hk, hpos⟩ := posState_eq hp
  have hplaces := places
  rw [decodeSimple, hpos]
  refine (lenDecode_within LenCoder hk).bind ?_ fun len _ =>
    (distanceDecode_within len).map fun _ _ => trivial
  rw [Set.disjoint_left]
  rintro j ⟨hj, hj'⟩ (⟨h, h'⟩ | ⟨h, h'⟩ | ⟨h, h'⟩) <;> omega

/-- The places of a match at one of the last distances. -/
def repPlaces : Set Nat := Ico IsRep0Long LenCoder ∪ Ico IsRepG0 PosSlot

theorem repLen_within (hp : PropsOk p.prop) (index : Nat) {I : Set Nat}
    (hI : Ico RepLenCoder LenCoder ⊆ I) {n : Nat} (hn : bitCost * 10 ≤ n) :
    (lenDecode RepLenCoder p.posState >>= fun len =>
      (pure (some (Symbol.rep index len)) : Bits Nat (Option Symbol))).Within I n
        fun _ => True := by
  obtain ⟨k, hk, hpos⟩ := posState_eq hp
  rw [hpos]
  exact ((lenDecode_within RepLenCoder hk).map fun _ _ => trivial).mono hI hn fun _ => id

theorem decodeRep_within (hp : p.Sound) :
    (decodeRep p).Within repPlaces (bitCost * 13) fun _ => True := by
  obtain ⟨k, hk, hpos⟩ := posState_eq hp.props
  have hstate := hp.state
  have hplaces := places
  have hstates : kNumStates = 12 := rfl
  refine ⟨.inr ⟨by omega, by omega⟩, by decide, fun b => ?_⟩
  cases b with
  | false =>
    refine ⟨⟨.inl ⟨by omega, by omega⟩, notMem_singleton_iff.mpr (by omega)⟩,
      by decide, fun b => ?_⟩
    cases b with
    | false => trivial
    | true =>
      refine repLen_within hp.props _ ?_ (by decide)
      rintro j ⟨hj, hj'⟩
      exact ⟨⟨.inl ⟨by omega, hj'⟩, notMem_singleton_iff.mpr (by omega)⟩,
        notMem_singleton_iff.mpr (by omega)⟩
  | true =>
    refine ⟨⟨.inr ⟨by omega, by omega⟩, notMem_singleton_iff.mpr (by omega)⟩,
      by decide, fun b => ?_⟩
    cases b with
    | false =>
      refine repLen_within hp.props _ ?_ (by decide)
      rintro j ⟨hj, hj'⟩
      exact ⟨⟨.inl ⟨by omega, hj'⟩, notMem_singleton_iff.mpr (by omega)⟩,
        notMem_singleton_iff.mpr (by omega)⟩
    | true =>
      refine ⟨⟨⟨.inr ⟨by omega, by omega⟩, notMem_singleton_iff.mpr (by omega)⟩,
        notMem_singleton_iff.mpr (by omega)⟩, by decide, fun b => ?_⟩
      refine repLen_within hp.props _ ?_ (by decide)
      rintro j ⟨hj, hj'⟩
      exact ⟨⟨⟨.inl ⟨by omega, hj'⟩, notMem_singleton_iff.mpr (by omega)⟩,
        notMem_singleton_iff.mpr (by omega)⟩,
        notMem_singleton_iff.mpr (by omega)⟩

/-- The cost of a symbol: 22 bits with a model and 26 plain ones, which is under 160 bits. -/
abbrev symbolCost : Nat := bitCost * 22 + directCost * 26

theorem decodeSymbol_within (hp : p.Sound) :
    (decodeSymbol p).Within (Iio (numProbs p.prop)) symbolCost fun _ => True := by
  obtain ⟨k, hk, hpos⟩ := posState_eq hp.props
  have hstate := hp.state
  have hplaces := places
  have hstates : kNumStates = 12 := rfl
  have hnum : Literal ≤ numProbs p.prop := Nat.le_add_right _ _
  refine ⟨mem_Iio.mpr (by omega), by decide, fun b => ?_⟩
  cases b with
  | false =>
    refine (decodeLiteral_within hp.props).mono ?_ (by decide) fun _ => id
    rintro j ⟨hj, hj'⟩
    exact ⟨hj', notMem_singleton_iff.mpr (by omega)⟩
  | true =>
    refine ⟨⟨mem_Iio.mpr (by omega), notMem_singleton_iff.mpr (by omega)⟩,
      by decide, fun b => ?_⟩
    cases b with
    | false =>
      refine (decodeSimple_within hp.props).mono ?_ (by decide) fun _ => id
      rintro j (⟨hj, hj'⟩ | ⟨hj, hj'⟩ | ⟨hj, hj'⟩ | ⟨hj, hj'⟩) <;>
        exact ⟨⟨mem_Iio.mpr (by omega), notMem_singleton_iff.mpr (by omega)⟩,
          notMem_singleton_iff.mpr (by omega)⟩
    | true =>
      refine (decodeRep_within hp).mono ?_ (by decide) fun _ => id
      rintro j (⟨hj, hj'⟩ | ⟨hj, hj'⟩) <;>
        exact ⟨⟨mem_Iio.mpr (by omega), notMem_singleton_iff.mpr (by omega)⟩,
          notMem_singleton_iff.mpr (by omega)⟩

/-! ## Looking ahead -/

/-- What `LzmaDec_TryDummy` calls a symbol. -/
def Symbol.kind : Symbol → ELzmaDummy
  | literal _ => .DUMMY_LIT
  | shortRep | rep _ _ => .DUMMY_REP
  | simple _ _ => .DUMMY_MATCH

theorem treeDecode_alike (prob n i : Nat) :
    Alike (fun a b => a = b ∧ i * 2 ^ n ≤ a) (treeDecode prob n i) (treeDecode prob n i) := by
  induction n generalizing i with
  | zero => exact .ret ⟨rfl, (Nat.mul_one i).le⟩
  | succ n ih =>
    refine .bit _ fun b => (ih _).mono fun a c h => ⟨h.1, le_trans ?_ h.2⟩
    rw [Nat.pow_succ', ← Nat.mul_assoc]
    exact Nat.mul_le_mul_right _ (by omega)

theorem lenDecode_alike (prob posState : Nat) :
    Alike (· = ·) (lenDecode prob posState) (dummyLen prob posState) := by
  refine .bit _ fun b => ?_
  cases b with
  | false => exact (treeDecode_alike _ 3 1).bind fun a c h => .ret (congrArg (· - 8) h.1)
  | true =>
    refine .bit _ fun b => ?_
    cases b with
    | false =>
      -- the tree leaves eight more than the low codes
      refine (treeDecode_alike _ 3 1).bind_right fun a c h => ?_
      obtain ⟨rfl, hle⟩ := h
      exact (Nat.sub_add_cancel hle).symm
    | true => exact (treeDecode_alike _ 8 1).bind fun a c h => .ret (by rw [h.1])

theorem revDecode_alike {prob prob' i i' : Nat} (n m : Nat) (h : prob + i = prob' + i') :
    Alike (fun _ _ => True) (revDecode prob n i m) (revDecode prob' n i' m) := by
  induction n generalizing i i' m with
  | zero => exact .ret trivial
  | succ n ih =>
    unfold revDecode
    rw [h]
    refine .bit _ fun b => ih _ ?_
    split <;> omega

theorem directDecode_alike (n d d' : Nat) :
    Alike (fun _ _ => True) (directDecode n d) (directDecode n d' : Bits Nat Nat) := by
  induction n generalizing d d' with
  | zero => exact .ret trivial
  | succ n ih => exact .direct fun b => ih _ _

theorem distanceDecode_alike (len : Nat) :
    Alike (fun _ r => r = .DUMMY_MATCH) (distanceDecode len) (dummyDistance len) := by
  have hslot : (if len < kNumLenToPosStates then len else kNumLenToPosStates - 1) =
      if len < kNumLenToPosStates - 1 then len else kNumLenToPosStates - 1 := by
    have hplaces := places
    split <;> split <;> omega
  rw [distanceDecode, dummyDistance, hslot]
  refine (Alike.refl _).bind ?_
  rintro slot _ rfl
  dsimp only
  split
  · exact .ret rfl
  · split
    · refine (revDecode_alike _ _ ?_).bind fun _ _ _ => .ret rfl
      omega
    · exact (directDecode_alike _ _ _).bind fun _ _ _ =>
        (revDecode_alike _ _ rfl).bind fun _ _ _ => .ret rfl

/-- **The questions of the two functions.** They are the same, and `LzmaDec_TryDummy` sees the
kind of symbol. -/
theorem decodeSymbol_alike (hp : PropsOk p.prop) :
    Alike (fun a b => b = a.map Symbol.kind) (decodeSymbol p) (dummySymbol p) := by
  have hrep : ∀ index : Nat, Alike (fun a b => b = Option.map Symbol.kind a)
      (lenDecode RepLenCoder p.posState >>= fun len =>
        (pure (some (Symbol.rep index len)) : Bits Nat (Option Symbol)))
      (dummyLen RepLenCoder p.posState >>= fun _ => pure (some .DUMMY_REP)) := fun index =>
    (lenDecode_alike _ _).bind fun _ _ _ => .ret rfl
  refine .bit _ fun b => ?_
  cases b with
  | false =>
    show Alike _ (decodeLiteral p) (dummyLiteral p)
    rw [decodeLiteral, dummyLiteral, literalProb_eq hp]
    cases dummyLiteralProb p with
    | none => exact .ret rfl
    | some prob =>
      dsimp only
      split
      · exact (Alike.refl _).bind fun _ _ _ => .ret rfl
      · cases p.dicByte p.repPos with
        | none => exact .ret rfl
        | some matchByte => exact (Alike.refl _).bind fun _ _ _ => .ret rfl
  | true =>
    refine .bit _ fun b => ?_
    cases b with
    | false =>
      refine (lenDecode_alike _ _).bind ?_
      rintro len _ rfl
      refine (distanceDecode_alike len).bind ?_
      rintro distance _ rfl
      exact .ret rfl
    | true =>
      refine .bit _ fun b => ?_
      cases b with
      | false =>
        refine .bit _ fun b => ?_
        cases b with
        | false => exact .ret rfl
        | true => exact hrep 0
      | true =>
        refine .bit _ fun b => ?_
        cases b with
        | false => exact hrep 1
        | true => exact .bit _ fun b => hrep _

/-- The symbol is there, with what the decoder reads behind it. -/
def Fed (src : Bytes) (p : CLzmaDec) : Prop :=
  ∃ symbol probs c, (decodeSymbol p).run src p.probs p.toRangeCoder = .ok (symbol, probs, c) ∧
    (c.normalize src).isSome = true

/-- What a symbol leaves. -/
theorem decodeSymbol_run (hp : p.Sound) (hc : p.Ready) {src : Bytes} (hbuf : p.buf ≤ src.length) :
    (∃ symbol probs c, (decodeSymbol p).run src p.probs p.toRangeCoder = .ok (symbol, probs, c) ∧
      Supplied probs (Iio (numProbs p.prop)) ∧ c.Ready ∧ c.buf ≤ src.length ∧
      Spent p.toRangeCoder c symbolCost) ∨
    ((decodeSymbol p).run src p.probs p.toRangeCoder = .error .input ∧
      Short src p.toRangeCoder symbolCost) := by
  rcases run_of_within (decodeSymbol_within hp) subset_rfl hp.probs hc hbuf with
    ⟨symbol, probs, c, hrun, -, hprobs, hready, hbuf', hspent⟩ | h
  · exact .inl ⟨symbol, probs, c, hrun, hprobs, hready, hbuf', hspent⟩
  · exact .inr h

theorem fed_of_room (hp : p.Sound) (hc : p.Ready) {src : Bytes} (hbuf : p.buf ≤ src.length)
    (hroom : ¬ Short src p.toRangeCoder symbolCost) : Fed src p := by
  rcases decodeSymbol_run hp hc hbuf with ⟨symbol, probs, c, hrun, -, -, hbuf', hspent⟩ | ⟨-, hs⟩
  · refine ⟨symbol, probs, c, hrun, ?_⟩
    by_contra hnone
    rw [Bool.not_eq_true, Option.isSome_eq_false_iff, Option.isNone_iff_eq_none] at hnone
    have hshort := hspent.short (short_of_normalize hnone hbuf') hbuf'
    rw [Nat.add_zero] at hshort
    exact hroom hshort
  · exact absurd hs hroom

/-- Twenty bytes are enough, from a coder that is normalized. -/
theorem fed_of_normal (hp : p.Sound) (hc : p.Normal) {src : Bytes}
    (hbuf : p.buf + LZMA_REQUIRED_INPUT_MAX ≤ src.length) : Fed src p :=
  fed_of_room hp hc.toReady (by omega) (not_short (s := 24) hc.normal hbuf (by decide))

/-- From one that is not, it takes one more. -/
theorem fed_of_ready (hp : p.Sound) (hc : p.Ready) {src : Bytes}
    (hbuf : p.buf + (LZMA_REQUIRED_INPUT_MAX + 1) ≤ src.length) : Fed src p :=
  fed_of_room hp hc (by omega) (not_short (s := 16) hc.le_range hbuf (by decide))

/-- **Looking ahead.** `LzmaDec_TryDummy` takes no byte, adapts no probability, and tells what
`LZMA_DECODE_REAL` will do with the same bytes: what it calls a symbol is the kind of the symbol
that is decoded, without a read beyond the input; and where it reports an error the bytes do not
suffice, and are fewer than twenty. -/
theorem try_dummy_foresees (hp : p.Sound) (hc : p.Normal) (hbuf : p.buf = 0) (src : Bytes) :
    (∀ res, tryDummy p src = .ok res → res ≠ .DUMMY_ERROR →
      ∃ symbol probs c, (decodeSymbol p).run src p.probs p.toRangeCoder =
          .ok (some symbol, probs, c) ∧
        symbol.kind = res ∧ (c.normalize src).isSome = true) ∧
    (tryDummy p src = .ok .DUMMY_ERROR →
      src.length < LZMA_REQUIRED_INPUT_MAX ∧ ¬ Fed src p) ∧
    tryDummy p src ≠ .error .input ∧ tryDummy p src ≠ .error .model := by
  have hcoder : ({ p.toRangeCoder with buf := 0 } : RangeCoder) = p.toRangeCoder := by rw [← hbuf]
  have hcheck : (dummySymbol p).check src p.probs { p.toRangeCoder with buf := 0 } =
      (foreseen ((decodeSymbol p).run src p.probs p.toRangeCoder)).map
        (Option.map fun r => (r.1.map Symbol.kind, r.2)) := by
    rw [(decodeSymbol_alike hp.props).check, hcoder,
      check_of_within (decodeSymbol_within hp) fun _ _ => rfl]
  have hlt : ¬ Fed src p → src.length < LZMA_REQUIRED_INPUT_MAX := fun hfed => by
    by_contra hge
    exact hfed (fed_of_normal hp hc (by omega))
  rcases decodeSymbol_run hp hc.toReady (hbuf.le.trans (Nat.zero_le _)) with
    ⟨symbol, probs, c, hrun, -⟩ | ⟨hrun, -⟩
  · rw [hrun] at hcheck
    cases symbol with
    | none =>
      have htry : tryDummy p src = .error .dictionary := by rw [tryDummy, hcheck]; rfl
      rw [htry]
      exact ⟨nofun, nofun, nofun, nofun⟩
    | some symbol =>
      cases hn : c.normalize src with
      | none =>
        have htry : tryDummy p src = .ok .DUMMY_ERROR := by
          simp only [tryDummy, hcheck, foreseen, Except.map, Option.map, hn]
        have hfed : ¬ Fed src p := by
          rintro ⟨_, _, c', hrun', hsome⟩
          rw [hrun] at hrun'
          cases hrun'
          rw [hn] at hsome
          cases hsome
        rw [htry]
        exact ⟨fun _ h hne => absurd (Except.ok.inj h).symm hne, fun _ => ⟨hlt hfed, hfed⟩,
          nofun, nofun⟩
      | some c' =>
        have htry : tryDummy p src = .ok symbol.kind := by
          simp only [tryDummy, hcheck, foreseen, Except.map, Option.map, hn]
        rw [htry]
        refine ⟨fun res h _ => ⟨symbol, probs, c, hrun, Except.ok.inj h, by rw [hn]; rfl⟩,
          fun h => ?_, nofun, nofun⟩
        cases symbol <;> cases h
  · rw [hrun] at hcheck
    have htry : tryDummy p src = .ok .DUMMY_ERROR := by rw [tryDummy, hcheck]; rfl
    have hfed : ¬ Fed src p := by
      rintro ⟨_, _, _, hrun', -⟩
      rw [hrun] at hrun'
      cases hrun'
    rw [htry]
    exact ⟨fun _ h hne => absurd (Except.ok.inj h).symm hne, fun _ => ⟨hlt hfed, hfed⟩,
      nofun, nofun⟩

end Lzma

end LicheeRvNano
