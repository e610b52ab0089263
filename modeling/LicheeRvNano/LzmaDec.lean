import LicheeRvNano.Bl2
import LicheeRvNano.RangeCoder

/-!
# The LZMA decoder of the loader

`LzmaDec.c`, down to its range coder. The macros that decode a bit (`IF_BIT_0` with its two
updates, and the plain bits) are the two effects of `Bits`; `decodeSymbol` asks the bits of a
turn of `LZMA_DECODE_REAL`, and `dummySymbol` those of `LzmaDec_TryDummy`. What reads or writes
outside an array, or reads what was not written, is a `Trap`.
-/

namespace LicheeRvNano

namespace Lzma

open Bits

abbrev kNumStates : Nat := 12
abbrev kNumLitStates : Nat := 7
abbrev kStartPosModelIndex : Nat := 4
abbrev kEndPosModelIndex : Nat := 14
abbrev kNumLenToPosStates : Nat := 4
abbrev kNumPosSlotBits : Nat := 6
abbrev kNumAlignBits : Nat := 4
abbrev kMatchMinLen : Nat := 2
abbrev kLenNumLowSymbols : Nat := 8
abbrev kMatchSpecLenStart : Nat := 274
abbrev kBadRepCode : Nat := 0xC0000000 - 0x400
abbrev LZMA_REQUIRED_INPUT_MAX : Nat := 20
abbrev RC_INIT_SIZE : Nat := 5
abbrev SZ_OK : Int := 0
abbrev SZ_ERROR_DATA : Int := 1
abbrev SZ_ERROR_FAIL : Int := 11

/-! The places in the array of probabilities, from its start. -/

abbrev SpecPos : Nat := 0
abbrev IsRep0Long : Nat := SpecPos + 2 ^ 7
abbrev LenHigh : Nat := 2 * (2 ^ 4 * 2 ^ 3)
abbrev kNumLenProbs : Nat := LenHigh + 2 ^ 8
abbrev RepLenCoder : Nat := IsRep0Long + 16 * 2 ^ 4
abbrev LenCoder : Nat := RepLenCoder + kNumLenProbs
abbrev IsMatch : Nat := LenCoder + kNumLenProbs
abbrev Align : Nat := IsMatch + 16 * 2 ^ 4
abbrev IsRep : Nat := Align + 2 ^ 4
abbrev IsRepG0 : Nat := IsRep + kNumStates
abbrev IsRepG1 : Nat := IsRepG0 + kNumStates
abbrev IsRepG2 : Nat := IsRepG1 + kNumStates
abbrev PosSlot : Nat := IsRepG2 + kNumStates
abbrev Literal : Nat := PosSlot + 4 * 2 ^ 6

/-- `LzmaProps_GetNumProbs`. -/
def numProbs (prop : LzmaProps) : Nat := Literal + 0x300 * 2 ^ (prop.lc + prop.lp)

/-- `CLzmaDec`. A probability or a byte of the dictionary is there once it was written. -/
structure CLzmaDec extends RangeCoder where
  /-- the properties the stream starts with -/
  prop : LzmaProps
  /-- the probabilities, each at its offset -/
  probs : Nat → Option Nat
  /-- the bytes of the dictionary -/
  dic : Nat → Option UInt8
  dicBufSize : Nat
  /-- where the next byte is written -/
  dicPos : Nat
  /-- how many bytes were decoded so far -/
  processedPos : Nat
  /-- the size of the dictionary, once that many bytes were decoded; before that 0 -/
  checkDicSize : Nat
  /-- the distances of the last four matches, the last one first -/
  rep0 : Nat
  rep1 : Nat
  rep2 : Nat
  rep3 : Nat
  /-- which kinds of symbol came last -/
  state : Nat
  /-- what is left of a match, or a mark of what the next call begins with -/
  remainLen : Nat
  /-- input that was taken but is too short for a symbol -/
  tempBuf : Bytes

/-- What no run of the decoder should come to. -/
inductive Trap
  | input
  | model
  | dictionary
  | fuel
  deriving DecidableEq

/-- Differences of `SizeT` and of `UInt32`. -/
@[irreducible] def sizeSub (a b : Nat) : Nat := (a + 2 ^ 64 - b) % 2 ^ 64

@[irreducible] def u32Sub (a b : Nat) : Nat := (a + 2 ^ 32 - b) % 2 ^ 32

namespace CLzmaDec

variable (p : CLzmaDec)

def dicByte (pos : Nat) : Option UInt8 := if pos < p.dicBufSize then p.dic pos else none

/-- `dicPos - rep0 + (dicPos < rep0 ? dicBufSize : 0)`. -/
@[irreducible] def repPos : Nat :=
  (sizeSub p.dicPos p.rep0 + if p.dicPos < p.rep0 then p.dicBufSize else 0) % 2 ^ 64

/-- `CALC_POS_STATE`. -/
def posState : Nat := (p.processedPos &&& (2 ^ p.prop.pb - 1)) * 2 ^ 4

/-- `dic[(dicPos == 0 ? dicBufSize : dicPos) - 1]`. -/
def prevByte : Option UInt8 := p.dicByte ((if p.dicPos = 0 then p.dicBufSize else p.dicPos) - 1)

end CLzmaDec

/-! ## The bits of a symbol -/

/-- `TREE_GET_BIT`, `n` times. -/
def treeDecode (prob : Nat) : Nat → Nat → Bits Nat Nat
  | 0, i => pure i
  | n + 1, i => getBit (prob + i) >>= fun b => treeDecode prob n (2 * i + b.toNat)

/-- `MATCHED_LITER_DEC`, `n` times. -/
def matchedDecode (prob : Nat) : Nat → (offs matchByte symbol : Nat) → Bits Nat Nat
  | 0, _, _, symbol => pure symbol
  | n + 1, old, matchByte, symbol =>
    let offs := old &&& (matchByte + matchByte)
    getBit (prob + (offs + old + symbol)) >>= fun b =>
      matchedDecode prob n (if b then offs else offs ^^^ old) (matchByte + matchByte)
        (2 * symbol + b.toNat)

/-- `REV_BIT_VAR`, `n` times; the caller takes the last `m` off. -/
def revDecode (prob : Nat) : Nat → (i m : Nat) → Bits Nat Nat
  | 0, i, _ => pure i
  | n + 1, i, m =>
    getBit (prob + i) >>= fun b => revDecode prob n (if b then i + 2 * m else i + m) (2 * m)

/-- The plain bits of a distance. -/
def directDecode : Nat → (distance : Nat) → Bits Nat Nat
  | 0, distance => pure distance
  | n + 1, distance => getDirect >>= fun b => directDecode n ((2 * distance + b.toNat) % 2 ^ 32)

/-- The length. The middle codes start at `kLenNumLowSymbols`, where the tree leaves them. -/
def lenDecode (prob posState : Nat) : Bits Nat Nat :=
  getBit prob >>= fun
    | false => treeDecode (prob + posState) 3 1 >>= fun len => pure (len - 8)
    | true =>
      getBit (prob + 8) >>= fun
        | false => treeDecode (prob + posState + 8) 3 1
        | true => treeDecode (prob + LenHigh) 8 1 >>= fun len =>
            pure (len - 2 ^ 8 + kLenNumLowSymbols * 2)

/-- The distance of a match, from its length. -/
def distanceDecode (len : Nat) : Bits Nat Nat :=
  treeDecode (PosSlot + (if len < kNumLenToPosStates then len else kNumLenToPosStates - 1) * 2 ^ 6)
      kNumPosSlotBits 1 >>= fun slot =>
    let posSlot := slot - 2 ^ 6
    if posSlot < kStartPosModelIndex then pure posSlot
    else
      let numDirectBits := posSlot / 2 - 1
      let distance := 2 ||| posSlot &&& 1
      if posSlot < kEndPosModelIndex then
        revDecode SpecPos numDirectBits (distance * 2 ^ numDirectBits + 1) 1 >>= fun i =>
          pure (i - 2 ^ numDirectBits)
      else
        directDecode (numDirectBits - kNumAlignBits) distance >>= fun distance =>
          revDecode Align kNumAlignBits 1 1 >>= fun i =>
            pure (distance * 2 ^ 4 % 2 ^ 32 ||| (i - 2 ^ 4))

inductive Symbol
  | literal (symbol : Nat)
  | shortRep
  /-- a match at one of the last four distances -/
  | rep (index len : Nat)
  | simple (distance len : Nat)
  deriving DecidableEq

/-- The probabilities of a literal, in `LZMA_DECODE_REAL`. -/
def literalProb (p : CLzmaDec) : Option Nat :=
  if p.processedPos ≠ 0 ∨ p.checkDicSize ≠ 0 then
    p.prevByte.map fun prev =>
      let lpMask := 2 ^ 8 * 2 ^ p.prop.lp - 2 ^ 8 / 2 ^ p.prop.lc
      Literal + 3 * (((p.processedPos * 2 ^ 8 + prev.toNat) &&& lpMask) * 2 ^ p.prop.lc)
  else some Literal

/-- A literal in `LZMA_DECODE_REAL`; `none` is a read beside the dictionary. -/
def decodeLiteral (p : CLzmaDec) : Bits Nat (Option Symbol) :=
  match literalProb p with
  | none => pure none
  | some prob =>
    if p.state < kNumLitStates then
      treeDecode prob 8 1 >>= fun symbol => pure (some (.literal symbol))
    else
      match p.dicByte p.repPos with
      | none => pure none
      | some matchByte =>
        matchedDecode prob 8 0x100 matchByte.toNat 1 >>= fun symbol =>
          pure (some (.literal symbol))

/-- A match at a new distance. -/
def decodeSimple (p : CLzmaDec) : Bits Nat (Option Symbol) :=
  lenDecode LenCoder p.posState >>= fun len =>
    distanceDecode len >>= fun distance => pure (some (.simple distance len))

/-- A match at one of the last distances. -/
def decodeRep (p : CLzmaDec) : Bits Nat (Option Symbol) :=
  let repLen index :=
    lenDecode RepLenCoder p.posState >>= fun len => pure (some (Symbol.rep index len))
  getBit (IsRepG0 + p.state) >>= fun
    | false =>
      getBit (IsRep0Long + (p.posState + p.state)) >>= fun
        | false => pure (some .shortRep)
        | true => repLen 0
    | true =>
      getBit (IsRepG1 + p.state) >>= fun
        | false => repLen 1
        | true => getBit (IsRepG2 + p.state) >>= fun b => repLen (if b then 3 else 2)

/-- The bits of a turn of `LZMA_DECODE_REAL`. -/
def decodeSymbol (p : CLzmaDec) : Bits Nat (Option Symbol) :=
  getBit (IsMatch + (p.posState + p.state)) >>= fun
    | false => decodeLiteral p
    | true =>
      getBit (IsRep + p.state) >>= fun
        | false => decodeSimple p
        | true => decodeRep p

/-! ## What a symbol does -/

def putByte (v : CLzmaDec) (b : UInt8) : Except Trap CLzmaDec :=
  if v.dicPos < v.dicBufSize then
    .ok { v with dic := Function.update v.dic v.dicPos (some b), dicPos := v.dicPos + 1 }
  else .error .dictionary

/-- A byte to copy. -/
@[irreducible] def takeByte (v : CLzmaDec) (pos : Nat) : Except Trap UInt8 :=
  match v.dicByte pos with
  | none => .error .dictionary
  | some b => .ok b

/-- The copy that does not pass the end of the dictionary. -/
def copyStraight : Nat → (pos : Nat) → CLzmaDec → Except Trap CLzmaDec
  | 0, _, v => .ok v
  | n + 1, pos, v => takeByte v pos >>= putByte v >>= copyStraight n (pos + 1)

/-- The copy that starts over at the end of the dictionary. -/
def copyWrapped : Nat → (pos : Nat) → CLzmaDec → Except Trap CLzmaDec
  | 0, _, v => .ok v
  | n + 1, pos, v =>
    takeByte v pos >>= putByte v >>= copyWrapped n (if pos + 1 = v.dicBufSize then 0 else pos + 1)

/-- Where a turn ends: at the next one, at the end mark, or with `SZ_ERROR_DATA`. -/
inductive Turn
  | next (v : CLzmaDec)
  | mark (v : CLzmaDec)
  | bad (v : CLzmaDec)

/-- The copy of a match; what is beyond the limit is left in `remainLen`. -/
def copyMatch (limit : Nat) (v : CLzmaDec) (len : Nat) : Except Trap Turn :=
  let rem := sizeSub limit v.dicPos
  if rem = 0 then .ok (.bad v)
  else
    let curLen := if rem < len then rem else len
    let pos := v.repPos
    let v := { v with
      processedPos := (v.processedPos + curLen) % 2 ^ 32
      remainLen := len - curLen }
    (if curLen ≤ sizeSub v.dicBufSize pos then copyStraight curLen pos v
      else copyWrapped curLen pos v).map .next

/-- The end of a turn, from the symbol. -/
def applySymbol (limit : Nat) (v : CLzmaDec) : Symbol → Except Trap Turn
  | .literal symbol =>
    let state := if v.state < 4 then 0 else if v.state < 10 then v.state - 3 else v.state - 6
    (putByte { v with processedPos := (v.processedPos + 1) % 2 ^ 32, state := state }
      (UInt8.ofNat symbol)).map .next
  | .shortRep =>
    let state := if v.state < kNumLitStates then 9 else 11
    takeByte v v.repPos >>= fun b =>
      (putByte { v with processedPos := (v.processedPos + 1) % 2 ^ 32, state := state } b).map .next
  | .rep index len =>
    let v :=
      match index with
      | 0 => v
      | 1 => { v with rep0 := v.rep1, rep1 := v.rep0 }
      | 2 => { v with rep0 := v.rep2, rep1 := v.rep0, rep2 := v.rep1 }
      | _ => { v with rep0 := v.rep3, rep1 := v.rep0, rep2 := v.rep1, rep3 := v.rep2 }
    copyMatch limit { v with state := if v.state < kNumLitStates then 8 else 11 }
      (len + kMatchMinLen)
  | .simple distance len =>
    if distance = 0xFFFFFFFF then .ok (.mark { v with remainLen := kMatchSpecLenStart })
    else
      let v := { v with
        rep0 := distance + 1, rep1 := v.rep0, rep2 := v.rep1, rep3 := v.rep2
        state := if v.state < kNumLitStates then 7 else 10 }
      if (if v.checkDicSize = 0 then v.processedPos else v.checkDicSize) ≤ distance then
        .ok (.bad v)
      else copyMatch limit v (len + kMatchMinLen)

/-- A turn of the loop of `LZMA_DECODE_REAL`. -/
def decodeTurn (src : Bytes) (limit : Nat) (v : CLzmaDec) : Except Trap Turn :=
  match (decodeSymbol v).run src v.probs v.toRangeCoder with
  | .error .input => .error .input
  | .error .model => .error .model
  | .ok (none, _, _) => .error .dictionary
  | .ok (some symbol, probs, c) =>
    applySymbol limit { v with toRangeCoder := c, probs := probs } symbol

/-- The loop of `LZMA_DECODE_REAL`; `false` is `SZ_ERROR_DATA`. -/
def decodeLoop (src : Bytes) (limit bufLimit : Nat) : Nat → CLzmaDec → Except Trap (Bool × CLzmaDec)
  | 0, _ => .error .fuel
  | fuel + 1, v =>
    match decodeTurn src limit v with
    | .error trap => .error trap
    | .ok (.bad v) => .ok (false, v)
    | .ok (.mark v) => .ok (true, v)
    | .ok (.next v) =>
      if v.dicPos < limit ∧ v.buf < bufLimit then decodeLoop src limit bufLimit fuel v
      else .ok (true, v)

/-- `LZMA_DECODE_REAL`. After an error the locals are lost, but for `dicPos`. -/
def decodeReal (src : Bytes) (limit bufLimit fuel : Nat) (p : CLzmaDec) :
    Except Trap (Int × CLzmaDec) :=
  match decodeLoop src limit bufLimit fuel { p with remainLen := 0 } with
  | .error trap => .error trap
  | .ok (false, v) =>
    .ok (SZ_ERROR_DATA, { p with dicPos := v.dicPos, dic := v.dic, probs := v.probs })
  | .ok (true, v) =>
    match v.toRangeCoder.normalize src with
    | none => .error .input
    | some c => .ok (SZ_OK, { v with toRangeCoder := c })

/-- The loop of `LzmaDec_WriteRem`. -/
def copyRem : Nat → CLzmaDec → Except Trap CLzmaDec
  | 0, v => .ok v
  | n + 1, v => takeByte v v.repPos >>= putByte v >>= copyRem n

/-- `LzmaDec_WriteRem`. -/
def writeRem (limit : Nat) (p : CLzmaDec) : Except Trap CLzmaDec :=
  if p.remainLen ≠ 0 ∧ p.remainLen < kMatchSpecLenStart then
    let rem := sizeSub limit p.dicPos
    let len := if rem < p.remainLen then rem else p.remainLen
    copyRem len { p with
      checkDicSize :=
        if p.checkDicSize = 0 ∧ u32Sub p.prop.dicSize p.processedPos ≤ len then p.prop.dicSize
        else p.checkDicSize
      processedPos := (p.processedPos + len) % 2 ^ 32
      remainLen := p.remainLen - len }
  else .ok p

/-- The limit that `LzmaDec_DecodeReal2` passes on: no further than to a full dictionary. -/
def limit2 (limit : Nat) (p : CLzmaDec) : Nat :=
  let rem := u32Sub p.prop.dicSize p.processedPos
  if p.checkDicSize = 0 ∧ rem < sizeSub limit p.dicPos then p.dicPos + rem else limit

/-- `LzmaDec_DecodeReal2`. -/
def decodeReal2 (src : Bytes) (limit bufLimit turns : Nat) :
    Nat → CLzmaDec → Except Trap (Int × CLzmaDec)
  | 0, _ => .error .fuel
  | fuel + 1, p =>
    if p.checkDicSize = 0 ∧ p.processedPos = 0 ∧ kBadRepCode ≤ p.code then .ok (SZ_ERROR_DATA, p)
    else
      match decodeReal src (limit2 limit p) bufLimit turns p with
      | .error trap => .error trap
      | .ok (res, p) =>
        if res ≠ SZ_OK then .ok (res, p)
        else
          let full := p.checkDicSize = 0 ∧ p.prop.dicSize ≤ p.processedPos
          match writeRem limit (if full then { p with checkDicSize := p.prop.dicSize } else p) with
          | .error trap => .error trap
          | .ok p =>
            if p.dicPos < limit ∧ p.buf < bufLimit ∧ p.remainLen < kMatchSpecLenStart then
              decodeReal2 src limit bufLimit turns fuel p
            else .ok (SZ_OK, p)

/-! ## Looking ahead -/

inductive ELzmaDummy
  | DUMMY_ERROR
  | DUMMY_LIT
  | DUMMY_MATCH
  | DUMMY_REP
  deriving DecidableEq

/-- The probabilities of a literal, in `LzmaDec_TryDummy`. -/
def dummyLiteralProb (p : CLzmaDec) : Option Nat :=
  if p.checkDicSize ≠ 0 ∨ p.processedPos ≠ 0 then
    p.prevByte.map fun prev =>
      Literal + 0x300 * ((p.processedPos &&& (2 ^ p.prop.lp - 1)) * 2 ^ p.prop.lc +
        prev.toNat / 2 ^ (8 - p.prop.lc))
  else some Literal

/-- The length, in `LzmaDec_TryDummy`. -/
def dummyLen (prob posState : Nat) : Bits Nat Nat :=
  getBit prob >>= fun
    | false => treeDecode (prob + posState) 3 1 >>= fun len => pure (len - 2 ^ 3 + 0)
    | true =>
      getBit (prob + 8) >>= fun
        | false => treeDecode (prob + posState + 8) 3 1 >>= fun len =>
            pure (len - 2 ^ 3 + kLenNumLowSymbols)
        | true => treeDecode (prob + LenHigh) 8 1 >>= fun len =>
            pure (len - 2 ^ 8 + kLenNumLowSymbols * 2)

/-- The distance, in `LzmaDec_TryDummy`, which does not build it. -/
def dummyDistance (len : Nat) : Bits Nat ELzmaDummy :=
  treeDecode (PosSlot + (if len < kNumLenToPosStates - 1 then len else kNumLenToPosStates - 1) *
      2 ^ 6) kNumPosSlotBits 1 >>= fun slot =>
    let posSlot := slot - 2 ^ 6
    if posSlot < kStartPosModelIndex then pure .DUMMY_MATCH
    else
      let numDirectBits := posSlot / 2 - 1
      if posSlot < kEndPosModelIndex then
        revDecode (SpecPos + (2 ||| posSlot &&& 1) * 2 ^ numDirectBits) numDirectBits 1 1 >>=
          fun _ => pure .DUMMY_MATCH
      else
        directDecode (numDirectBits - kNumAlignBits) 0 >>= fun _ =>
          revDecode Align kNumAlignBits 1 1 >>= fun _ => pure .DUMMY_MATCH

/-- A literal in `LzmaDec_TryDummy`. -/
def dummyLiteral (p : CLzmaDec) : Bits Nat (Option ELzmaDummy) :=
  match dummyLiteralProb p with
  | none => pure none
  | some prob =>
    if p.state < kNumLitStates then treeDecode prob 8 1 >>= fun _ => pure (some .DUMMY_LIT)
    else
      match p.dicByte p.repPos with
      | none => pure none
      | some matchByte =>
        matchedDecode prob 8 0x100 matchByte.toNat 1 >>= fun _ => pure (some .DUMMY_LIT)

/-- A match at one of the last distances, in `LzmaDec_TryDummy`. -/
def dummyRep (p : CLzmaDec) : Bits Nat (Option ELzmaDummy) :=
  let repLen := dummyLen RepLenCoder p.posState >>= fun _ => pure (some .DUMMY_REP)
  getBit (IsRepG0 + p.state) >>= fun
    | false =>
      getBit (IsRep0Long + (p.posState + p.state)) >>= fun
        | false => pure (some .DUMMY_REP)
        | true => repLen
    | true =>
      getBit (IsRepG1 + p.state) >>= fun
        | false => repLen
        | true => getBit (IsRepG2 + p.state) >>= fun _ => repLen

/-- The bits of `LzmaDec_TryDummy`. -/
def dummySymbol (p : CLzmaDec) : Bits Nat (Option ELzmaDummy) :=
  getBit (IsMatch + (p.posState + p.state)) >>= fun
    | false => dummyLiteral p
    | true =>
      getBit (IsRep + p.state) >>= fun
        | false =>
          dummyLen LenCoder p.posState >>= fun len => dummyDistance len >>= fun r => pure (some r)
        | true => dummyRep p

/-- `LzmaDec_TryDummy`, on the bytes `src`. -/
def tryDummy (p : CLzmaDec) (src : Bytes) : Except Trap ELzmaDummy :=
  match (dummySymbol p).check src p.probs { p.toRangeCoder with buf := 0 } with
  | .error _ => .error .model
  | .ok none => .ok .DUMMY_ERROR
  | .ok (some (none, _)) => .error .dictionary
  | .ok (some (some res, c)) =>
    match c.normalize src with
    | none => .ok .DUMMY_ERROR
    | some _ => .ok res

/-! ## The interface -/

inductive ELzmaFinishMode
  | LZMA_FINISH_ANY
  | LZMA_FINISH_END
  deriving DecidableEq

inductive ELzmaStatus
  | LZMA_STATUS_NOT_SPECIFIED
  | LZMA_STATUS_FINISHED_WITH_MARK
  | LZMA_STATUS_NOT_FINISHED
  | LZMA_STATUS_NEEDS_MORE_INPUT
  | LZMA_STATUS_MAYBE_FINISHED_WITHOUT_MARK
  deriving DecidableEq

/-- What `LzmaDec_DecodeToDic` returns: `srcLen` is what it has taken of the input. -/
structure Decoded where
  res : Int
  status : ELzmaStatus
  srcLen : Nat
  dec : CLzmaDec

/-- `LzmaDec_Init`. -/
def lzmaDecInit (p : CLzmaDec) : CLzmaDec :=
  { p with
    dicPos := 0, tempBuf := [], processedPos := 0, checkDicSize := 0
    remainLen := kMatchSpecLenStart + 2 }

/-- The start of `LzmaDec_DecodeToDic`, with the five bytes of the range coder. -/
def initCoder (p : CLzmaDec) : CLzmaDec :=
  let byte i := (p.tempBuf.getD i 0).toNat
  let p' := { p with
    code := byte 1 * 2 ^ 24 + byte 2 * 2 ^ 16 + byte 3 * 2 ^ 8 + byte 4
    range := 0xFFFFFFFF
    tempBuf := []
    remainLen := 0 }
  if kMatchSpecLenStart + 1 < p.remainLen then
    { p' with
      probs := fun i => if i < numProbs p.prop then some 1024 else none
      rep0 := 1, rep1 := 1, rep2 := 1, rep3 := 1, state := 0 }
  else p'

/-- The checks of `LzmaDec_DecodeToDic` at the limit of the dictionary: a result, or whether only
an end mark may follow. -/
def atLimit (p : CLzmaDec) (dicLimit : Nat) (finishMode : ELzmaFinishMode) :
    Except (Int × ELzmaStatus) Bool :=
  if p.dicPos < dicLimit then .ok false
  else if p.remainLen = 0 ∧ p.code = 0 then
    .error (SZ_OK, .LZMA_STATUS_MAYBE_FINISHED_WITHOUT_MARK)
  else if finishMode = .LZMA_FINISH_ANY then .error (SZ_OK, .LZMA_STATUS_NOT_FINISHED)
  else if p.remainLen ≠ 0 then .error (SZ_ERROR_DATA, .LZMA_STATUS_NOT_FINISHED)
  else .ok true

/-- The loop of `LzmaDec_DecodeToDic`; `src` is what is left of the input. -/
def decodeToDicLoop (dicLimit : Nat) (finishMode : ELzmaFinishMode) (turns : Nat) :
    Nat → CLzmaDec → (src : Bytes) → (srcLen : Nat) → Except Trap Decoded
  | 0, _, _, _ => .error .fuel
  | fuel + 1, p, src, srcLen =>
    if p.remainLen = kMatchSpecLenStart then
      if p.code ≠ 0 then .ok ⟨SZ_ERROR_DATA, .LZMA_STATUS_NOT_SPECIFIED, srcLen, p⟩
      else .ok ⟨SZ_OK, .LZMA_STATUS_FINISHED_WITH_MARK, srcLen, p⟩
    else
      match atLimit p dicLimit finishMode with
      | .error (res, status) => .ok ⟨res, status, srcLen, p⟩
      | .ok checkEndMarkNow =>
        let fresh := p.tempBuf = []
        -- what is kept of the last call is filled up from the input
        let lookAhead := min (LZMA_REQUIRED_INPUT_MAX - p.tempBuf.length) src.length
        let input := if fresh then src else p.tempBuf ++ src.take lookAhead
        let short := input.length < LZMA_REQUIRED_INPUT_MAX ∨ checkEndMarkNow = true
        match if short then tryDummy p input else .ok .DUMMY_MATCH with
        | .error trap => .error trap
        | .ok dummyRes =>
          if dummyRes = .DUMMY_ERROR then
            .ok ⟨SZ_OK, .LZMA_STATUS_NEEDS_MORE_INPUT,
              srcLen + (if fresh then src.length else lookAhead), { p with tempBuf := input }⟩
          else if checkEndMarkNow = true ∧ dummyRes ≠ .DUMMY_MATCH then
            .ok ⟨SZ_ERROR_DATA, .LZMA_STATUS_NOT_FINISHED, srcLen, { p with
              tempBuf := if fresh then [] else input }⟩
          else
            let bufLimit :=
              if short ∨ ¬ fresh then 0 else input.length - LZMA_REQUIRED_INPUT_MAX
            match decodeReal2 input dicLimit bufLimit turns turns
              { p with buf := 0, tempBuf := if fresh then [] else input } with
            | .error trap => .error trap
            | .ok (res, p') =>
              if res ≠ SZ_OK then .ok ⟨SZ_ERROR_DATA, .LZMA_STATUS_NOT_SPECIFIED, srcLen, p'⟩
              else if fresh then
                decodeToDicLoop dicLimit finishMode turns fuel p' (src.drop p'.buf)
                  (srcLen + p'.buf)
              else if input.length < p'.buf ∨ lookAhead < input.length - p'.buf then
                .ok ⟨SZ_ERROR_FAIL, .LZMA_STATUS_NOT_SPECIFIED, srcLen, p'⟩
              else
                let taken := lookAhead - (input.length - p'.buf)
                decodeToDicLoop dicLimit finishMode turns fuel { p' with tempBuf := [] }
                  (src.drop taken) (srcLen + taken)

/-- `LzmaDec_DecodeToDic`. -/
def decodeToDic (fuel : Nat) (p : CLzmaDec) (dicLimit : Nat) (src : Bytes)
    (finishMode : ELzmaFinishMode) : Except Trap Decoded :=
  if kMatchSpecLenStart < p.remainLen then
    let taken := min (RC_INIT_SIZE - p.tempBuf.length) src.length
    let p := { p with tempBuf := p.tempBuf ++ src.take taken }
    if p.tempBuf ≠ [] ∧ p.tempBuf.head? ≠ some 0 then
      .ok ⟨SZ_ERROR_DATA, .LZMA_STATUS_NOT_SPECIFIED, taken, p⟩
    else if p.tempBuf.length < RC_INIT_SIZE then
      .ok ⟨SZ_OK, .LZMA_STATUS_NEEDS_MORE_INPUT, taken, p⟩
    else
      match writeRem dicLimit (initCoder p) with
      | .error trap => .error trap
      | .ok p => decodeToDicLoop dicLimit finishMode fuel fuel p (src.drop taken) taken
  else
    match writeRem dicLimit p with
    | .error trap => .error trap
    | .ok p => decodeToDicLoop dicLimit finishMode fuel fuel p src 0

end Lzma

end LicheeRvNano
