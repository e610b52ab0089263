import LicheeRvNano.LzmaSymbol

/-!
# The LZMA decoder stays within its input

What a whole run of the decoder may touch, over any sequence of calls. `InBounds` leaves out
the two traps of the range coder: a byte beyond the input, and a probability that is not there.
Each function gets one lemma, the loops one induction each, and `decode_in_bounds` is the run
of calls.
-/

namespace LicheeRvNano

namespace Lzma

open Bits RangeCoder Set

variable {α β : Type}

/-- A result without the traps of the range coder. -/
def InBounds (P : α → Prop) : Except Trap α → Prop
  | .ok a => P a
  | .error trap => trap ≠ .input ∧ trap ≠ .model

namespace InBounds

variable {P : α → Prop} {Q : β → Prop} {x : Except Trap α}

/-- What is returned may be said to be less. -/
theorem mono {P' : α → Prop} (h : InBounds P x) (hP : ∀ a, P a → P' a) : InBounds P' x := by
  cases x with
  | ok a => exact hP a h
  | error trap => exact h

/-- Two parts in bounds, one after the other. -/
theorem bind {f : α → Except Trap β} (h : InBounds P x) (hf : ∀ a, P a → InBounds Q (f a)) :
    InBounds Q (x >>= f) := by
  cases x with
  | ok a => exact hf a h
  | error trap => exact h

theorem map {f : α → β} (h : InBounds P x) (hf : ∀ a, P a → Q (f a)) : InBounds Q (x.map f) := by
  cases x with
  | ok a => exact hf a h
  | error trap => exact h

/-- The bounds are those of the input and of the probabilities: these two traps are no breach of
them. -/
theorem dictionary : InBounds P (.error .dictionary) := ⟨nofun, nofun⟩

theorem fuel : InBounds P (.error .fuel) := ⟨nofun, nofun⟩

end InBounds

/-! ## The dictionary -/

/-- What the copies leave alone. -/
structure Kept (v w : CLzmaDec) : Prop where
  prop : w.prop = v.prop
  probs : w.probs = v.probs
  coder : w.toRangeCoder = v.toRangeCoder
  tempBuf : w.tempBuf = v.tempBuf
  state : v.state < kNumStates → w.state < kNumStates

/-- Nothing is done, all is kept. -/
theorem Kept.refl (v : CLzmaDec) : Kept v v := ⟨rfl, rfl, rfl, rfl, id⟩

/-- `Kept.trans`, the last part first. -/
theorem Kept.after {u v w : CLzmaDec} (h₂ : Kept v w) (h₁ : Kept u v) : Kept u w :=
  ⟨h₂.prop.trans h₁.prop, h₂.probs.trans h₁.probs, h₂.coder.trans h₁.coder,
    h₂.tempBuf.trans h₁.tempBuf, h₂.state ∘ h₁.state⟩

theorem Kept.trans {u v w : CLzmaDec} (h₁ : Kept u v) (h₂ : Kept v w) : Kept u w := h₂.after h₁

variable {v p : CLzmaDec} {src : Bytes}

/-- A byte written to the dictionary. -/
theorem putByte_kept (v : CLzmaDec) (b : UInt8) : InBounds (Kept v) (putByte v b) := by
  unfold putByte
  split
  · exact ⟨rfl, rfl, rfl, rfl, id⟩
  · exact .dictionary

/-- A byte read from it. -/
theorem takeByte_inBounds (v : CLzmaDec) (pos : Nat) :
    InBounds (fun _ => True) (takeByte v pos) := by
  unfold takeByte
  split
  · exact .dictionary
  · trivial

/-- A byte copied within it. -/
theorem copyByte_kept (v : CLzmaDec) (pos : Nat) :
    InBounds (Kept v) (takeByte v pos >>= putByte v) :=
  (takeByte_inBounds v pos).bind fun b _ => putByte_kept v b

/-- A copy that does not wrap around. -/
theorem copyStraight_kept (n pos : Nat) (v : CLzmaDec) :
    InBounds (Kept v) (copyStraight n pos v) := by
  induction n generalizing pos v with
  | zero => exact .refl v
  | succ n ih =>
    rw [copyStraight]
    exact (copyByte_kept v _).bind fun w hw => (ih _ w).mono fun _ => hw.trans

/-- A copy that does. -/
theorem copyWrapped_kept (n pos : Nat) (v : CLzmaDec) :
    InBounds (Kept v) (copyWrapped n pos v) := by
  induction n generalizing pos v with
  | zero => exact .refl v
  | succ n ih =>
    rw [copyWrapped]
    exact (copyByte_kept v _).bind fun w hw => (ih _ w).mono fun _ => hw.trans

/-- What is left of a match from the call before. -/
theorem copyRem_kept (n : Nat) (v : CLzmaDec) : InBounds (Kept v) (copyRem n v) := by
  induction n generalizing v with
  | zero => exact .refl v
  | succ n ih =>
    rw [copyRem]
    exact (copyByte_kept v _).bind fun w hw => (ih w).mono fun _ => hw.trans

/-- The state that a turn ends in. -/
def Turn.dec : Turn → CLzmaDec
  | next v | mark v | bad v => v

/-- A match, up to the limit. -/
theorem copyMatch_kept (limit : Nat) (v : CLzmaDec) (len : Nat) :
    InBounds (fun t => Kept v t.dec) (copyMatch limit v len) := by
  unfold copyMatch
  dsimp only
  split
  · exact .refl v
  · generalize (if sizeSub limit v.dicPos < len then sizeSub limit v.dicPos else len) = curLen
    split
    · exact (copyStraight_kept _ _ _).map fun _ h => h.after ⟨rfl, rfl, rfl, rfl, id⟩
    · exact (copyWrapped_kept _ _ _).map fun _ h => h.after ⟨rfl, rfl, rfl, rfl, id⟩

/-- Whatever the symbol is, writing it touches neither input nor probabilities. -/
theorem applySymbol_kept (limit : Nat) (v : CLzmaDec) (symbol : Symbol) :
    InBounds (fun t => Kept v t.dec) (applySymbol limit v symbol) := by
  have hstates : kNumStates = 12 := rfl
  cases symbol with
  | literal symbol =>
    refine (putByte_kept _ _).map fun _ h =>
      h.after ⟨rfl, rfl, rfl, rfl, fun hstate => ?_⟩
    dsimp only
    split
    · omega
    · split <;> omega
  | shortRep =>
    refine (takeByte_inBounds v _).bind fun b _ => (putByte_kept _ b).map fun _ h => h.after ?_
    refine ⟨rfl, rfl, rfl, rfl, fun _ => ?_⟩
    dsimp only
    split <;> decide
  | rep index len =>
    have hstate : ∀ state, (if state < kNumLitStates then 8 else 11) < kNumStates := fun state => by
      split <;> decide
    refine (copyMatch_kept _ _ _).mono fun _ h => h.after ?_
    match index with
    | 0 | 1 | 2 | _ + 3 => exact ⟨rfl, rfl, rfl, rfl, fun _ => hstate _⟩
  | simple distance len =>
    have hstate : (if v.state < kNumLitStates then 7 else 10) < kNumStates := by
      split <;> decide
    rw [applySymbol]
    split
    · exact ⟨rfl, rfl, rfl, rfl, id⟩
    · dsimp only
      generalize (if v.checkDicSize = 0 then v.processedPos else v.checkDicSize) = known
      split
      · exact ⟨rfl, rfl, rfl, rfl, fun _ => hstate⟩
      · exact (copyMatch_kept _ _ _).mono fun _ h =>
          h.after ⟨rfl, rfl, rfl, rfl, fun _ => hstate⟩

/-- `LzmaDec_WriteRem`. -/
theorem writeRem_kept (limit : Nat) (p : CLzmaDec) : InBounds (Kept p) (writeRem limit p) := by
  unfold writeRem
  dsimp only
  split
  · exact (copyRem_kept _ _).mono fun _ h => h.after ⟨rfl, rfl, rfl, rfl, id⟩
  · exact .refl p

/-- The invariant of the decoder does not look at the dictionary. -/
theorem Kept.sound {w : CLzmaDec} (h : Kept v w) (hv : v.Sound) : w.Sound := by
  obtain ⟨hprops, hstate, hprobs⟩ := hv
  exact ⟨h.prop ▸ hprops, h.state hstate, h.prop ▸ h.probs ▸ hprobs⟩

/-! ## Between calls

A symbol does not depend on what the calls keep between them. -/

section Congr

variable (p : CLzmaDec) (buf remainLen : Nat) (tempBuf : Bytes)

/-- The place of the last match does not depend on what is kept. -/
theorem repPos_congr :
    CLzmaDec.repPos { p with buf := buf, remainLen := remainLen, tempBuf := tempBuf } =
      p.repPos := by
  unfold CLzmaDec.repPos
  dsimp only

theorem dicByte_congr (pos : Nat) :
    CLzmaDec.dicByte { p with buf := buf, remainLen := remainLen, tempBuf := tempBuf } pos =
      p.dicByte pos := rfl

theorem literalProb_congr :
    literalProb { p with buf := buf, remainLen := remainLen, tempBuf := tempBuf } =
      literalProb p := rfl

theorem dummyLiteralProb_congr :
    dummyLiteralProb { p with buf := buf, remainLen := remainLen, tempBuf := tempBuf } =
      dummyLiteralProb p := rfl

/-- Neither does decoding a symbol. -/
theorem decodeSymbol_congr :
    decodeSymbol { p with buf := buf, remainLen := remainLen, tempBuf := tempBuf } =
      decodeSymbol p := by
  have hliteral : decodeLiteral { p with buf := buf, remainLen := remainLen, tempBuf := tempBuf } =
      decodeLiteral p := by
    unfold decodeLiteral
    rw [literalProb_congr, repPos_congr, dicByte_congr]
  have hsimple : decodeSimple { p with buf := buf, remainLen := remainLen, tempBuf := tempBuf } =
      decodeSimple p := rfl
  have hrep : decodeRep { p with buf := buf, remainLen := remainLen, tempBuf := tempBuf } =
      decodeRep p := rfl
  unfold decodeSymbol
  rw [hliteral, hsimple, hrep]
  rfl

/-- Nor looking ahead at one. -/
theorem dummySymbol_congr :
    dummySymbol { p with buf := buf, remainLen := remainLen, tempBuf := tempBuf } =
      dummySymbol p := by
  have hliteral : dummyLiteral { p with buf := buf, remainLen := remainLen, tempBuf := tempBuf } =
      dummyLiteral p := by
    unfold dummyLiteral
    rw [dummyLiteralProb_congr, repPos_congr, dicByte_congr]
  have hrep : dummyRep { p with buf := buf, remainLen := remainLen, tempBuf := tempBuf } =
      dummyRep p := rfl
  unfold dummySymbol
  rw [hliteral, hrep]
  rfl

theorem tryDummy_congr (src : Bytes) :
    tryDummy { p with buf := buf, remainLen := remainLen, tempBuf := tempBuf } src =
      tryDummy p src := by
  unfold tryDummy
  rw [dummySymbol_congr]

theorem Fed.congr {p : CLzmaDec} {src : Bytes} (h : Fed src p) :
    Fed src { p with remainLen := remainLen } := by
  obtain ⟨symbol, probs, c, hrun, hc⟩ := h
  refine ⟨symbol, probs, c, ?_, hc⟩
  rw [← hrun]
  exact congrArg (fun t => Bits.run src t p.probs p.toRangeCoder)
    (decodeSymbol_congr p p.buf remainLen p.tempBuf)

end Congr

/-! ## The loops -/

/-- What a turn leaves: the next one may start from it, or the normalization after the loop. -/
structure Stepped (src : Bytes) (v w : CLzmaDec) : Prop where
  prop : w.prop = v.prop
  tempBuf : w.tempBuf = v.tempBuf
  sound : w.Sound
  ready : w.Ready
  buf : w.buf ≤ src.length
  normal : (w.toRangeCoder.normalize src).isSome = true

/-- One turn of the loop with enough input for one more symbol. -/
theorem decodeTurn_inBounds (limit : Nat) (hv : v.Sound) (hc : v.Ready) (hbuf : v.buf ≤ src.length)
    (hfed : Fed src v) :
    InBounds (fun t => Stepped src v t.dec) (decodeTurn src limit v) := by
  obtain ⟨symbol, probs, c, hrun, hnormal⟩ := hfed
  rcases decodeSymbol_run hv hc hbuf with ⟨_, _, _, hrun', hprobs, hready, hbuf', -⟩ | ⟨hrun', -⟩
  · rw [hrun] at hrun'
    cases hrun'
    unfold decodeTurn
    rw [hrun]
    cases symbol with
    | none => exact .dictionary
    | some symbol =>
      refine (applySymbol_kept limit _ symbol).mono fun t ht => ?_
      have hcoder : t.dec.toRangeCoder = c := ht.coder
      refine ⟨ht.prop, ht.tempBuf, ht.sound ⟨hv.props, hv.state, hprobs⟩, ?_, ?_, ?_⟩ <;>
        rw [hcoder] <;> assumption
  · rw [hrun] at hrun'
    cases hrun'

/-- The limits that a call passes on: the loop ends after one symbol, or goes on while twenty
bytes are left. -/
def LimitOk (src : Bytes) (bufLimit : Nat) : Prop :=
  bufLimit = 0 ∨ bufLimit + LZMA_REQUIRED_INPUT_MAX ≤ src.length

/-- Below the limit there is room for a symbol. -/
theorem LimitOk.room {bufLimit : Nat} (h : LimitOk src bufLimit) (hlt : p.buf < bufLimit) :
    p.buf + (LZMA_REQUIRED_INPUT_MAX + 1) ≤ src.length := by
  rcases h with rfl | h
  · omega
  · omega

/-- The loop of `LZMA_DECODE_REAL`. -/
theorem decodeLoop_inBounds (limit : Nat) {bufLimit : Nat} (hlimit : LimitOk src bufLimit)
    (fuel : Nat) (hv : v.Sound) (hc : v.Ready) (hbuf : v.buf ≤ src.length) (hfed : Fed src v) :
    InBounds (fun r => Stepped src v r.2) (decodeLoop src limit bufLimit fuel v) := by
  induction fuel generalizing v with
  | zero => exact .fuel
  | succ fuel ih =>
    have hturn := decodeTurn_inBounds limit hv hc hbuf hfed
    unfold decodeLoop
    cases ht : decodeTurn src limit v with
    | error trap => rw [ht] at hturn; exact hturn
    | ok t =>
      rw [ht] at hturn
      cases t with
      | bad w => exact hturn
      | mark w => exact hturn
      | next w =>
        have hw : Stepped src v w := hturn
        dsimp only
        split
        case isTrue hmore =>
          have hfed' := fed_of_ready hw.sound hw.ready (hlimit.room hmore.2)
          exact (ih hw.sound hw.ready hw.buf hfed').mono fun r h =>
            ⟨h.prop.trans hw.prop, h.tempBuf.trans hw.tempBuf, h.sound, h.ready, h.buf, h.normal⟩
        case isFalse => exact hw

/-- What `LZMA_DECODE_REAL` and `LzmaDec_DecodeReal2` leave. -/
structure Left (src : Bytes) (p : CLzmaDec) (r : Int × CLzmaDec) : Prop where
  prop : r.2.prop = p.prop
  tempBuf : r.2.tempBuf = p.tempBuf
  sound : r.2.Sound
  normal : r.2.Normal
  buf : r.1 = SZ_OK → r.2.buf ≤ src.length

/-- `LZMA_DECODE_REAL`. -/
theorem decodeReal_inBounds (limit : Nat) {bufLimit : Nat} (hlimit : LimitOk src bufLimit)
    (fuel : Nat) (hp : p.Sound) (hc : p.Normal) (hbuf : p.buf ≤ src.length) (hfed : Fed src p) :
    InBounds (Left src p) (decodeReal src limit bufLimit fuel p) := by
  have hloop := decodeLoop_inBounds (v := { p with remainLen := 0 }) limit hlimit fuel
    ⟨hp.props, hp.state, hp.probs⟩ hc.toReady hbuf (hfed.congr 0)
  unfold decodeReal
  cases hl : decodeLoop src limit bufLimit fuel { p with remainLen := 0 } with
  | error trap => rw [hl] at hloop; exact hloop
  | ok r =>
    rw [hl] at hloop
    obtain ⟨ok, w⟩ := r
    have hw : Stepped src { p with remainLen := 0 } w := hloop
    have hprop : w.prop = p.prop := hw.prop
    cases ok with
    | false =>
      refine ⟨rfl, rfl, ⟨hp.props, hp.state, ?_⟩, hc, nofun⟩
      exact hprop ▸ hw.sound.probs
    | true =>
      obtain ⟨c, hn⟩ := Option.isSome_iff_exists.mp hw.normal
      dsimp only
      rw [hn]
      exact ⟨hprop, hw.tempBuf, ⟨hw.sound.props, hw.sound.state, hw.sound.probs⟩,
        hw.ready.normalize hn, fun _ => normalize_buf hn hw.buf⟩

/-- `LzmaDec_DecodeReal2`, which calls it until the limit is reached. -/
theorem decodeReal2_inBounds (limit : Nat) {bufLimit : Nat} (hlimit : LimitOk src bufLimit)
    (turns fuel : Nat) (hp : p.Sound) (hc : p.Normal) (hbuf : p.buf ≤ src.length)
    (hfed : Fed src p) : InBounds (Left src p) (decodeReal2 src limit bufLimit turns fuel p) := by
  induction fuel generalizing p with
  | zero => exact .fuel
  | succ fuel ih =>
    have hreal := decodeReal_inBounds (limit2 limit p) hlimit turns hp hc hbuf hfed
    unfold decodeReal2
    split
    · exact ⟨rfl, rfl, hp, hc, nofun⟩
    · cases hr : decodeReal src (limit2 limit p) bufLimit turns p with
      | error trap => rw [hr] at hreal; exact hreal
      | ok r =>
        rw [hr] at hreal
        obtain ⟨res, q⟩ := r
        have hq : Left src p (res, q) := hreal
        dsimp only
        split
        · exact hq
        case isFalse hres =>
          have hok : res = SZ_OK := of_not_not hres
          set q' := if q.checkDicSize = 0 ∧ q.prop.dicSize ≤ q.processedPos then
            { q with checkDicSize := q.prop.dicSize } else q with hq'
          have hkept : Kept q q' := by
            rw [hq']
            split <;> exact ⟨rfl, rfl, rfl, rfl, id⟩
          have hrem := writeRem_kept limit q'
          cases hwr : writeRem limit q' with
          | error trap => rw [hwr] at hrem; exact hrem
          | ok w =>
            rw [hwr] at hrem
            have hall := hkept.trans hrem
            have hw : Left src p (SZ_OK, w) := by
              refine ⟨hall.prop.trans hq.prop, hall.tempBuf.trans hq.tempBuf, hall.sound hq.sound,
                ?_, fun _ => ?_⟩
              · show w.toRangeCoder.Normal
                rw [hall.coder]
                exact hq.normal
              · show w.toRangeCoder.buf ≤ src.length
                rw [hall.coder]
                exact hq.buf hok
            dsimp only
            split
            case isTrue hmore =>
              have hnormal := hw.normal
              have hfed' := fed_of_ready hw.sound hnormal.toReady (hlimit.room hmore.2.1)
              exact (ih hw.sound hnormal (hw.buf rfl) hfed').mono fun r h =>
                ⟨h.prop.trans hw.prop, h.tempBuf.trans hw.tempBuf, h.sound, h.normal, h.buf⟩
            case isFalse => exact hw

/-! ## Calls -/

/-- `LzmaDec_TryDummy` answers for the symbol that follows, and asks for more when fewer than
twenty bytes are there. -/
theorem tryDummy_fed (hp : p.Sound) (hc : p.Normal) (hbuf : p.buf = 0) (src : Bytes) :
    InBounds (fun res => (res = .DUMMY_ERROR → src.length < LZMA_REQUIRED_INPUT_MAX) ∧
      (res ≠ .DUMMY_ERROR → Fed src p)) (tryDummy p src) := by
  obtain ⟨hok, herror, hinput, hmodel⟩ := try_dummy_foresees hp hc hbuf src
  cases h : tryDummy p src with
  | error trap =>
    exact ⟨fun heq => hinput (heq ▸ h), fun heq => hmodel (heq ▸ h)⟩
  | ok res =>
    refine ⟨fun heq => (herror (heq ▸ h)).1, fun hne => ?_⟩
    obtain ⟨symbol, probs, c, hrun, -, hnormal⟩ := hok res h hne
    exact ⟨some symbol, probs, c, hrun, hnormal⟩

/-- The decoder between two turns of `LzmaDec_DecodeToDic`: the coder is normalized, and what is
kept for the next call fits into `tempBuf`. -/
structure Idle (prop : LzmaProps) (p : CLzmaDec) : Prop where
  prop_eq : p.prop = prop
  sound : p.Sound
  normal : p.Normal
  tempBuf : p.tempBuf.length ≤ LZMA_REQUIRED_INPUT_MAX

variable {prop : LzmaProps}

/-- The kept bytes may be any that fit. -/
theorem Idle.keep (h : Idle prop p) {tempBuf : Bytes}
    (hlen : tempBuf.length ≤ LZMA_REQUIRED_INPUT_MAX) : Idle prop { p with tempBuf := tempBuf } :=
  ⟨h.prop_eq, ⟨h.sound.props, h.sound.state, h.sound.probs⟩, h.normal, hlen⟩

/-- Back to the start of the bytes that are decoded from. -/
theorem Idle.rewound (h : Idle prop p) (tempBuf : Bytes) :
    CLzmaDec.Sound { p with buf := 0, tempBuf := tempBuf } ∧
      RangeCoder.Normal { p.toRangeCoder with buf := 0 } :=
  ⟨⟨h.sound.props, h.sound.state, h.sound.probs⟩,
    ⟨h.normal.le_range, h.normal.range_lt⟩, h.normal.normal⟩

/-- After a call the decoder is idle again. -/
theorem Left.idle {r : Int × CLzmaDec} (h : Left src p r) (hp : p.prop = prop)
    (hlen : p.tempBuf.length ≤ LZMA_REQUIRED_INPUT_MAX) : Idle prop r.2 :=
  ⟨h.prop.trans hp, h.sound, h.normal, h.tempBuf ▸ hlen⟩

/-- What a call leaves: its input was enough for what it has taken. -/
structure Taken (prop : LzmaProps) (limit : Nat) (d : Decoded) : Prop where
  idle : Idle prop d.dec
  srcLen : d.srcLen ≤ limit

/-- A call that stays below a limit stays below a greater one. -/
theorem Taken.mono {limit limit' : Nat} {d : Decoded} (h : Taken prop limit d)
    (hle : limit ≤ limit') : Taken prop limit' d :=
  ⟨h.idle, h.srcLen.trans hle⟩

/-- The look ahead of `LzmaDec_DecodeToDic`, left out where there are twenty bytes. -/
theorem lookAhead_fed (hp : Idle prop p) (input tempBuf : Bytes) (checkEndMarkNow : Bool) :
    InBounds (fun res => (res = .DUMMY_ERROR → input.length < LZMA_REQUIRED_INPUT_MAX) ∧
        (res ≠ .DUMMY_ERROR → Fed input { p with buf := 0, tempBuf := tempBuf }))
      (if input.length < LZMA_REQUIRED_INPUT_MAX ∨ checkEndMarkNow = true then tryDummy p input
        else .ok .DUMMY_MATCH) := by
  obtain ⟨hsound, hnormal⟩ := hp.rewound tempBuf
  split
  case isTrue =>
    rw [← tryDummy_congr p 0 p.remainLen tempBuf]
    exact tryDummy_fed hsound hnormal rfl input
  case isFalse hlong =>
    refine ⟨nofun, fun _ => fed_of_normal hsound hnormal ?_⟩
    show 0 + LZMA_REQUIRED_INPUT_MAX ≤ input.length
    omega

/-- The decoding of `LzmaDec_DecodeToDic`. -/
theorem decodeReal2_idle (hp : Idle prop p) {input tempBuf : Bytes} {bufLimit : Nat}
    (hfed : Fed input { p with buf := 0, tempBuf := tempBuf })
    (hlen : tempBuf.length ≤ LZMA_REQUIRED_INPUT_MAX) (hlimit : LimitOk input bufLimit)
    (limit turns fuel : Nat) :
    InBounds (fun r => Idle prop r.2 ∧ (r.1 = SZ_OK → r.2.buf ≤ input.length))
      (decodeReal2 input limit bufLimit turns fuel { p with buf := 0, tempBuf := tempBuf }) := by
  obtain ⟨hsound, hnormal⟩ := hp.rewound tempBuf
  have hreal := decodeReal2_inBounds limit hlimit turns fuel hsound hnormal
    (Nat.zero_le _) hfed
  exact hreal.mono fun r h => ⟨h.idle hp.prop_eq hlen, h.buf⟩

/-- What is kept of the last call, and the input up to twenty bytes. -/
theorem filled_length {tempBuf src : Bytes} (h : tempBuf.length ≤ LZMA_REQUIRED_INPUT_MAX) :
    (tempBuf ++ src.take (min (LZMA_REQUIRED_INPUT_MAX - tempBuf.length) src.length)).length =
        tempBuf.length + min (LZMA_REQUIRED_INPUT_MAX - tempBuf.length) src.length ∧
      tempBuf.length + min (LZMA_REQUIRED_INPUT_MAX - tempBuf.length) src.length ≤
        LZMA_REQUIRED_INPUT_MAX := by
  rw [List.length_append, List.length_take]
  omega

/-- The turn of `LzmaDec_DecodeToDic` from `input` on. It ends for want of bytes, with an error,
or goes on with what was decoded. -/
theorem lookAhead_inBounds (hp : Idle prop p) {input tempBuf : Bytes}
    (hlen : tempBuf.length ≤ LZMA_REQUIRED_INPUT_MAX) {bufLimit : Nat} {checkEndMarkNow : Bool}
    (hlimit : LimitOk input bufLimit) (dicLimit turns : Nat) {R : Decoded → Prop}
    {short bad : Decoded} {next : Int → CLzmaDec → Except Trap Decoded}
    (hshort : input.length < LZMA_REQUIRED_INPUT_MAX → R short) (hbad : R bad)
    (hnext : ∀ res p', Idle prop p' → (res = SZ_OK → p'.buf ≤ input.length) →
      InBounds R (next res p')) :
    InBounds R
      (match if input.length < LZMA_REQUIRED_INPUT_MAX ∨ checkEndMarkNow = true then
          tryDummy p input else .ok .DUMMY_MATCH with
      | .error trap => .error trap
      | .ok dummyRes =>
        if dummyRes = .DUMMY_ERROR then .ok short
        else if checkEndMarkNow = true ∧ dummyRes ≠ .DUMMY_MATCH then .ok bad
        else
          match decodeReal2 input dicLimit bufLimit turns turns
            { p with buf := 0, tempBuf := tempBuf } with
          | .error trap => .error trap
          | .ok (res, p') => next res p') := by
  have hlook := lookAhead_fed hp input tempBuf checkEndMarkNow
  generalize (if input.length < LZMA_REQUIRED_INPUT_MAX ∨ checkEndMarkNow = true then
    tryDummy p input else Except.ok .DUMMY_MATCH) = dummy at hlook ⊢
  cases dummy with
  | error trap => exact hlook
  | ok dummyRes =>
    obtain ⟨herror, hfed⟩ := hlook
    dsimp only
    split
    case isTrue heq => exact hshort (herror heq)
    case isFalse hne =>
      split
      · exact hbad
      · have hreal := decodeReal2_idle hp (hfed hne) hlen hlimit dicLimit turns turns
        generalize decodeReal2 input dicLimit _ turns turns _ = real at hreal ⊢
        cases real with
        | error trap => exact hreal
        | ok r => exact hnext r.1 r.2 hreal.1 hreal.2

/-- The loop of `LzmaDec_DecodeToDic`. -/
theorem decodeToDicLoop_inBounds (dicLimit : Nat) (finishMode : ELzmaFinishMode)
    (turns fuel : Nat) (hp : Idle prop p) (src : Bytes) (srcLen : Nat) :
    InBounds (Taken prop (srcLen + src.length))
      (decodeToDicLoop dicLimit finishMode turns fuel p src srcLen) := by
  induction fuel generalizing p src srcLen with
  | zero => exact .fuel
  | succ fuel ih =>
    have hstay : srcLen ≤ srcLen + src.length := Nat.le_add_right _ _
    unfold decodeToDicLoop
    split
    · split <;> exact ⟨hp, hstay⟩
    · cases atLimit p dicLimit finishMode with
      | error r => exact ⟨hp, hstay⟩
      | ok checkEndMarkNow =>
        dsimp only
        obtain ⟨hfilled, hroom⟩ := @filled_length p.tempBuf src hp.tempBuf
        have hahead := Nat.min_le_right (LZMA_REQUIRED_INPUT_MAX - p.tempBuf.length) src.length
        generalize min (LZMA_REQUIRED_INPUT_MAX - p.tempBuf.length) src.length = lookAhead
          at hfilled hroom hahead ⊢
        by_cases hfresh : p.tempBuf = []
        · simp only [if_pos hfresh]
          have hlimit : LimitOk src (if (src.length < LZMA_REQUIRED_INPUT_MAX ∨
              checkEndMarkNow = true) ∨ ¬p.tempBuf = [] then 0
              else src.length - LZMA_REQUIRED_INPUT_MAX) := by
            split
            · exact .inl rfl
            · exact .inr (by omega)
          refine lookAhead_inBounds hp (Nat.zero_le _) hlimit dicLimit turns
            (fun hshort => ⟨hp.keep hshort.le, le_rfl⟩) ⟨hp.keep (Nat.zero_le _), hstay⟩
            fun res p' hidle hbuf => ?_
          split
          · exact ⟨hidle, hstay⟩
          case isFalse hok =>
            have hle := hbuf (of_not_not hok)
            refine (ih hidle _ _).mono fun d h => h.mono ?_
            rw [List.length_drop]
            omega
        · simp only [if_neg hfresh]
          generalize p.tempBuf ++ src.take lookAhead = input at hfilled ⊢
          have hlen : input.length ≤ LZMA_REQUIRED_INPUT_MAX := hfilled.trans_le hroom
          have hmore : srcLen + lookAhead ≤ srcLen + src.length := Nat.add_le_add_left hahead _
          refine lookAhead_inBounds hp hlen (.inl (if_pos (Or.inr hfresh))) dicLimit turns
            (fun _ => ⟨hp.keep hlen, hmore⟩) ⟨hp.keep hlen, hstay⟩ fun res p' hidle _ => ?_
          split
          · exact ⟨hidle, hstay⟩
          · split
            · exact ⟨hidle, hstay⟩
            · refine (ih (hidle.keep (Nat.zero_le _)) _ _).mono fun d h => h.mono ?_
              rw [List.length_drop]
              omega

/-- The decoder between two calls: it waits for its first bytes, or it is idle. -/
structure Resumable (prop : LzmaProps) (p : CLzmaDec) : Prop where
  prop_eq : p.prop = prop
  props : PropsOk prop
  tempBuf : p.tempBuf.length ≤ LZMA_REQUIRED_INPUT_MAX
  waits : p.remainLen = kMatchSpecLenStart + 2 ∨ Idle prop p

/-- An idle decoder can be called. -/
theorem Idle.resumable (h : Idle prop p) : Resumable prop p :=
  ⟨h.prop_eq, h.prop_eq ▸ h.sound.props, h.tempBuf, .inr h⟩

/-- So can one with other bytes kept. -/
theorem Resumable.keep (h : Resumable prop p) {tempBuf : Bytes}
    (hlen : tempBuf.length ≤ LZMA_REQUIRED_INPUT_MAX) :
    Resumable prop { p with tempBuf := tempBuf } :=
  ⟨h.prop_eq, h.props, hlen, h.waits.imp id fun hidle => hidle.keep hlen⟩

/-- Copies leave an idle decoder idle. -/
theorem Kept.idle {w : CLzmaDec} (h : Kept v w) (hv : Idle prop v) : Idle prop w := by
  refine ⟨h.prop.trans hv.prop_eq, h.sound hv.sound, ?_, h.tempBuf ▸ hv.tempBuf⟩
  show w.toRangeCoder.Normal
  rw [h.coder]
  exact hv.normal

/-- Starting the range coder gives an idle one. -/
theorem initCoder_idle (h : Resumable prop p) : Idle prop (initCoder p) := by
  have hnormal : ∀ code, RangeCoder.Normal ⟨0xFFFFFFFF, code, p.buf⟩ := fun code =>
    ⟨⟨(by decide : 2 ^ 16 ≤ 0xFFFFFFFF), (by decide : 0xFFFFFFFF < 2 ^ 32)⟩,
      (by decide : 2 ^ 24 ≤ 0xFFFFFFFF)⟩
  have hprops : PropsOk p.prop := h.prop_eq ▸ h.props
  unfold initCoder
  dsimp only
  split
  case isTrue =>
    refine ⟨h.prop_eq, ⟨hprops, (by decide : 0 < kNumStates), fun i hi => ?_⟩, hnormal _,
      Nat.zero_le _⟩
    exact ⟨1024, if_pos hi, fair_half⟩
  case isFalse hshort =>
    rcases h.waits with hwait | hidle
    · omega
    · exact ⟨h.prop_eq, ⟨hprops, hidle.sound.state, hidle.sound.probs⟩, hnormal _, Nat.zero_le _⟩

/-- One call, from any state that calls leave. -/
theorem decodeToDic_inBounds (fuel : Nat) (h : Resumable prop p) (dicLimit : Nat) (src : Bytes)
    (finishMode : ELzmaFinishMode) :
    InBounds (fun d => Resumable prop d.dec ∧ d.srcLen ≤ src.length)
      (decodeToDic fuel p dicLimit src finishMode) := by
  unfold decodeToDic
  dsimp only
  split
  case isTrue =>
    have htaken := Nat.min_le_right (RC_INIT_SIZE - p.tempBuf.length) src.length
    have hlen : (p.tempBuf ++ src.take (min (RC_INIT_SIZE - p.tempBuf.length) src.length)).length ≤
        LZMA_REQUIRED_INPUT_MAX := by
      have hroom : RC_INIT_SIZE ≤ LZMA_REQUIRED_INPUT_MAX := by decide
      have hkept := h.tempBuf
      rw [List.length_append, List.length_take]
      omega
    have hkeep := h.keep hlen
    generalize min (RC_INIT_SIZE - p.tempBuf.length) src.length = taken at htaken hlen hkeep ⊢
    split
    · exact ⟨hkeep, htaken⟩
    · split
      · exact ⟨hkeep, htaken⟩
      · have hrem := (writeRem_kept dicLimit _).mono fun w hw => hw.idle (initCoder_idle hkeep)
        generalize writeRem dicLimit _ = rem at hrem ⊢
        cases rem with
        | error trap => exact hrem
        | ok w =>
          refine (decodeToDicLoop_inBounds dicLimit finishMode fuel fuel hrem _ _).mono
            fun d hd => ⟨hd.idle.resumable, hd.srcLen.trans ?_⟩
          rw [List.length_drop]
          omega
  case isFalse =>
    have hp : Idle prop p := h.waits.resolve_left (by omega)
    have hrem := (writeRem_kept dicLimit p).mono fun w hw => hw.idle hp
    generalize writeRem dicLimit p = rem at hrem ⊢
    cases rem with
    | error trap => exact hrem
    | ok w =>
      refine (decodeToDicLoop_inBounds dicLimit finishMode fuel fuel hrem src 0).mono
        fun d hd => ⟨hd.idle.resumable, ?_⟩
      rw [← Nat.zero_add src.length]
      exact hd.srcLen

/-- A decoder before `LzmaDec_Init`, where nothing was written. -/
def CLzmaDec.allocated (prop : LzmaProps) (dicBufSize : Nat) : CLzmaDec where
  range := 0
  code := 0
  buf := 0
  prop := prop
  probs _ := none
  dic _ := none
  dicBufSize := dicBufSize
  dicPos := 0
  processedPos := 0
  checkDicSize := 0
  rep0 := 0
  rep1 := 0
  rep2 := 0
  rep3 := 0
  state := 0
  remainLen := 0
  tempBuf := []

/-- A call of `LzmaDec_DecodeToDic`. -/
structure Call where
  dicLimit : Nat
  src : Bytes
  finishMode : ELzmaFinishMode

/-- Calls one after another, whatever they return. -/
def decodeCalls (fuel : Nat) : CLzmaDec → List Call → Except Trap (List Decoded)
  | _, [] => .ok []
  | p, call :: calls =>
    decodeToDic fuel p call.dicLimit call.src call.finishMode >>= fun d =>
      (decodeCalls fuel d.dec calls).map (d :: ·)

/-- A sequence of calls, one after the other. -/
theorem decodeCalls_inBounds (fuel : Nat) (h : Resumable prop p) (calls : List Call) :
    InBounds (List.Forall₂ (fun call d => d.srcLen ≤ call.src.length ∧
        d.dec.tempBuf.length ≤ LZMA_REQUIRED_INPUT_MAX) calls) (decodeCalls fuel p calls) := by
  induction calls generalizing p with
  | nil => exact .nil
  | cons call calls ih =>
    refine (decodeToDic_inBounds fuel h _ _ _).bind fun d hd => (ih hd.1).map fun ds hds => ?_
    exact .cons ⟨hd.2, hd.1.tempBuf⟩ hds

/-- **The decoder stays within its input.** After `LzmaDec_Init`, with properties that
`LzmaProps_Decode` accepts, no sequence of calls of `LzmaDec_DecodeToDic` reads a byte beyond the
input of its call or a probability beyond the array, whatever the bytes are and however they are
cut: what a call says that it has taken was there, and what it keeps fits into `tempBuf`. -/
theorem decode_in_bounds {data : Bytes} (hprop : Bl2.lzmaPropsDecode data = .ok prop)
    (p : CLzmaDec) (hp : p.prop = prop) (fuel : Nat) (calls : List Call) :
    InBounds (List.Forall₂ (fun call d => d.srcLen ≤ call.src.length ∧
        d.dec.tempBuf.length ≤ LZMA_REQUIRED_INPUT_MAX) calls)
      (decodeCalls fuel (lzmaDecInit p) calls) := by
  have hinit : Resumable prop (lzmaDecInit p) :=
    ⟨hp, propsOk_of_decode hprop, Nat.zero_le _, .inl rfl⟩
  exact decodeCalls_inBounds fuel hinit calls

theorem decode_in_bounds_cut :
    let calls : List Call := [⟨4096, [0, 0, 26], .LZMA_FINISH_ANY⟩,
      ⟨4096, [11, 132, 255, 255], .LZMA_FINISH_END⟩]
    InBounds (List.Forall₂ (fun call d => d.srcLen ≤ call.src.length ∧
        d.dec.tempBuf.length ≤ LZMA_REQUIRED_INPUT_MAX) calls)
      (decodeCalls 100 (lzmaDecInit (.allocated ⟨3, 0, 2, 65536⟩ 4096)) calls) :=
  @decode_in_bounds _ [0x5D, 0, 0, 1, 0] (by decide) _ rfl 100 _

end Lzma

end LicheeRvNano
