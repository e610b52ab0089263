import Mathlib.Tactic.FinCases
import LicheeRvNano.BitPacking
import LicheeRvNano.TpuQueue
import LicheeRvNano.TpuRegs

/-!
# TPU driver: a PIO copy as a TDMA command

`CVITPU_SUBMIT_PIO` takes a copy request, `platform_run_pio` fills a `tdma_reg_t` from it,
`emit_tdma_reg` packs that into sixteen words and `set_tdma_pio` writes them to the
engine. The request has 32 and 64 bit quantities, the command has fields of 8, 16 and 32
bits, and no stage compares the two. `pio_reaches_hardware_iff` says for which requests the
words still describe the copy that was asked for.
-/

namespace LicheeRvNano

/-! ## The command -/

/-- `tdma_reg_t`, with the values of `reset_tdma_reg`. -/
structure TdmaReg where
  vld : BitVec 32 := 0
  compressEn : BitVec 32 := 0
  eod : BitVec 32 := 0
  intpEn : BitVec 32 := 0
  barEn : BitVec 32 := 0
  checkBf16Value : BitVec 32 := 0
  transDir : BitVec 32 := 0
  rsv00 : BitVec 32 := 0
  transFmt : BitVec 32 := 0
  transposeMd : BitVec 32 := 0
  rsv01 : BitVec 32 := 0
  intraCmdParal : BitVec 32 := 0
  outstandingEn : BitVec 32 := 0
  cmdId : BitVec 32 := 0
  specFunc : BitVec 32 := 0
  dstFmt : BitVec 32 := 1
  srcFmt : BitVec 32 := 1
  cmprsFmt : BitVec 32 := 0
  sysDtype : BitVec 32 := 0
  rsv2_1 : BitVec 32 := 0
  int8Sign : BitVec 32 := 0
  compressZeroGuard : BitVec 32 := 0
  int8RndMode : BitVec 32 := 0
  waitIdTpu : BitVec 32 := 0
  waitIdOtherTdma : BitVec 32 := 0
  waitIdSdma : BitVec 32 := 0
  constVal : BitVec 32 := 0
  srcBaseRegSel : BitVec 32 := 0
  mvLutIdx : BitVec 32 := 0
  dstBaseRegSel : BitVec 32 := 0
  mvLutBase : BitVec 32 := 0
  rsv4_5 : BitVec 32 := 0
  dstHStride : BitVec 32 := 1
  dstCStrideLow : BitVec 32 := 1
  dstNStride : BitVec 32 := 1
  srcHStride : BitVec 32 := 1
  srcCStrideLow : BitVec 32 := 1
  srcNStride : BitVec 32 := 1
  dstC : BitVec 32 := 1
  srcC : BitVec 32 := 1
  dstW : BitVec 32 := 1
  dstH : BitVec 32 := 1
  srcW : BitVec 32 := 1
  srcH : BitVec 32 := 1
  dstBaseAddrLow : BitVec 32 := 0
  srcBaseAddrLow : BitVec 32 := 0
  srcN : BitVec 32 := 1
  dstBaseAddrHigh : BitVec 32 := 0
  srcBaseAddrHigh : BitVec 32 := 0
  srcCStrideHigh : BitVec 32 := 0
  dstCStrideHigh : BitVec 32 := 0
  compressBias0 : BitVec 32 := 0
  compressBias1 : BitVec 32 := 0
  layerID : BitVec 32 := 0
  deriving DecidableEq

def resetTdmaReg : TdmaReg := {}

/-- The words that `emit_tdma_reg` builds: the width and the value of each field, from bit
zero on. -/
def tdmaLayout (r : TdmaReg) : List (List (Nat × BitVec 32)) :=
  [[(1, r.vld), (1, r.compressEn), (1, r.eod), (1, r.intpEn), (1, r.barEn),
    (1, r.checkBf16Value), (2, r.transDir), (2, r.rsv00), (1, r.transFmt),
    (2, r.transposeMd), (1, r.rsv01), (1, r.intraCmdParal), (1, r.outstandingEn),
    (16, r.cmdId)],
   [(3, r.specFunc), (2, r.dstFmt), (2, r.srcFmt), (1, r.cmprsFmt), (1, r.sysDtype),
    (4, r.rsv2_1), (1, r.int8Sign), (1, r.compressZeroGuard), (1, r.int8RndMode),
    (16, r.waitIdTpu)],
   [(16, r.waitIdOtherTdma), (16, r.waitIdSdma)],
   [(16, r.constVal), (3, r.srcBaseRegSel), (1, r.mvLutIdx), (3, r.dstBaseRegSel),
    (1, r.mvLutBase), (8, r.rsv4_5)],
   [(16, r.dstHStride), (16, r.dstCStrideLow)],
   [(32, r.dstNStride)],
   [(16, r.srcHStride), (16, r.srcCStrideLow)],
   [(32, r.srcNStride)],
   [(16, r.dstC), (16, r.srcC)],
   [(16, r.dstW), (16, r.dstH)],
   [(16, r.srcW), (16, r.srcH)],
   [(32, r.dstBaseAddrLow)],
   [(32, r.srcBaseAddrLow)],
   [(16, r.srcN), (8, r.dstBaseAddrHigh), (8, r.srcBaseAddrHigh)],
   [(16, r.srcCStrideHigh), (16, r.dstCStrideHigh)],
   [(8, r.compressBias0), (8, r.compressBias1), (16, r.layerID)]]

/-- `emit_tdma_reg`. -/
def emitTdmaReg (r : TdmaReg) (i : Fin 16) : BitVec 32 := packFrom 0 ((tdmaLayout r).getD i [])

/-- The widths of the layout, the same for every command. -/
def tdmaWidths (i : Fin 16) : List Nat := ((tdmaLayout resetTdmaReg).getD i []).map Prod.fst

/-- The command that sixteen words stand for, by the layout of `emit_tdma_reg`. -/
def decodeTdmaReg (p : Fin 16 → BitVec 32) : TdmaReg :=
  let f (i : Fin 16) (j : Nat) := (unpackFrom 0 (p i) (tdmaWidths i)).getD j 0
  { vld := f 0 0, compressEn := f 0 1, eod := f 0 2, intpEn := f 0 3, barEn := f 0 4,
    checkBf16Value := f 0 5, transDir := f 0 6, rsv00 := f 0 7, transFmt := f 0 8,
    transposeMd := f 0 9, rsv01 := f 0 10, intraCmdParal := f 0 11, outstandingEn := f 0 12,
    cmdId := f 0 13, specFunc := f 1 0, dstFmt := f 1 1, srcFmt := f 1 2, cmprsFmt := f 1 3,
    sysDtype := f 1 4, rsv2_1 := f 1 5, int8Sign := f 1 6, compressZeroGuard := f 1 7,
    int8RndMode := f 1 8, waitIdTpu := f 1 9, waitIdOtherTdma := f 2 0, waitIdSdma := f 2 1,
    constVal := f 3 0, srcBaseRegSel := f 3 1, mvLutIdx := f 3 2, dstBaseRegSel := f 3 3,
    mvLutBase := f 3 4, rsv4_5 := f 3 5, dstHStride := f 4 0, dstCStrideLow := f 4 1,
    dstNStride := f 5 0, srcHStride := f 6 0, srcCStrideLow := f 6 1, srcNStride := f 7 0,
    dstC := f 8 0, srcC := f 8 1, dstW := f 9 0, dstH := f 9 1, srcW := f 10 0,
    srcH := f 10 1, dstBaseAddrLow := f 11 0, srcBaseAddrLow := f 12 0, srcN := f 13 0,
    dstBaseAddrHigh := f 13 1, srcBaseAddrHigh := f 13 2, srcCStrideHigh := f 14 0,
    dstCStrideHigh := f 14 1, compressBias0 := f 15 0, compressBias1 := f 15 1,
    layerID := f 15 2 }

/-! ## platform_run_pio -/

/-- The command that `platform_run_pio` fills in. -/
def pioReg (info : PioInfo) : TdmaReg :=
  let reg : TdmaReg :=
    { resetTdmaReg with
      vld := 1
      transDir := 2
      srcBaseAddrLow := info.paddrSrc.setWidth 32
      srcBaseAddrHigh := (info.paddrSrc >>> 32).setWidth 32
      dstBaseAddrLow := info.paddrDst.setWidth 32
      dstBaseAddrHigh := (info.paddrDst >>> 32).setWidth 32
      eod := 1
      intpEn := 1 }
  if info.enable2d ≠ 0 then
    { reg with
      transFmt := 0
      srcN := 1
      srcC := 1
      srcH := info.h
      srcW := info.wBytes
      dstC := 1
      dstH := info.h
      dstW := info.wBytes
      srcNStride := info.strideBytesSrc * info.h
      srcHStride := info.strideBytesSrc
      dstNStride := info.strideBytesDst * info.h
      dstHStride := info.strideBytesDst }
  else { reg with transFmt := 1, srcNStride := info.lengBytes }

/-- The sixteen words in the command registers once `platform_run_pio` has started the copy. -/
def pioWords (hw : TpuHw) (info : PioInfo) (i : Fin 16) : BitVec 32 :=
  (setTdmaPio hw (emitTdmaReg (pioReg info))).reg (.TDMA_CMD_ACCP i)

/-! ## What the words mean -/

/-- The command describes the copy that was asked for. -/
structure TdmaReg.Describes (r : TdmaReg) (arg : TdmaCopyArg) : Prop where
  /-- a valid command from global memory to global memory -/
  valid : r.vld = 1 ∧ r.transDir = 2
  src : r.srcBaseAddrHigh.toNat * 2 ^ 32 + r.srcBaseAddrLow.toNat = arg.paddrSrc.toNat
  dst : r.dstBaseAddrHigh.toNat * 2 ^ 32 + r.dstBaseAddrLow.toNat = arg.paddrDst.toNat
  /-- one image of `h` rows, on both sides -/
  plane : arg.enable2d ≠ 0 → r.transFmt = 0 ∧ r.srcN = 1 ∧ r.srcC = 1 ∧ r.dstC = 1 ∧
    r.srcH.toNat = arg.h.toNat ∧ r.dstH.toNat = arg.h.toNat ∧
    r.srcW.toNat = arg.wBytes.toNat ∧ r.dstW.toNat = arg.wBytes.toNat ∧
    r.srcHStride.toNat = arg.strideBytesSrc.toNat ∧ r.dstHStride.toNat = arg.strideBytesDst.toNat ∧
    r.srcNStride.toNat = arg.strideBytesSrc.toNat * arg.h.toNat ∧
    r.dstNStride.toNat = arg.strideBytesDst.toNat * arg.h.toNat
  line : arg.enable2d = 0 → r.transFmt = 1 ∧ r.srcNStride.toNat = arg.lengBytes.toNat

/-- The request fits the fields of the command: addresses of 40 bits, and rows, row lengths
and strides of 16. -/
def PioFits (arg : TdmaCopyArg) : Prop :=
  arg.paddrSrc.toNat < 2 ^ 40 ∧ arg.paddrDst.toNat < 2 ^ 40 ∧
    (arg.enable2d ≠ 0 → arg.h.toNat < 2 ^ 16 ∧ arg.wBytes.toNat < 2 ^ 16 ∧
      arg.strideBytesSrc.toNat < 2 ^ 16 ∧ arg.strideBytesDst.toNat < 2 ^ 16)

instance (arg : TdmaCopyArg) : Decidable (PioFits arg) := inferInstanceAs (Decidable (_ ∧ _))

/-! ## The registers hold the words -/

theorem reg_foldl_rawWrite32 (pioArray : Fin 16 → BitVec 32) (is : List (Fin 16)) (hw : TpuHw)
    (i : Fin 16) :
    (is.foldl (fun hw i => rawWrite32 hw (.TDMA_CMD_ACCP i) (pioArray i)) hw).reg (.TDMA_CMD_ACCP i) =
      if i ∈ is then pioArray i else hw.reg (.TDMA_CMD_ACCP i) := by
  induction is generalizing hw with
  | nil => simp
  | cons j is ih =>
    rw [List.foldl_cons, ih]
    by_cases hmem : i ∈ is
    · simp [hmem]
    · by_cases heq : i = j
      · simp [heq, reg_rawWrite32_self]
      · simp [hmem, heq, reg_rawWrite32_of_ne]

theorem reg_setTdmaPio (hw : TpuHw) (pioArray : Fin 16 → BitVec 32) (i : Fin 16) :
    (setTdmaPio hw pioArray).reg (.TDMA_CMD_ACCP i) = pioArray i := by
  simp only [setTdmaPio, reg_rawWrite32_of_ne, reg_foldl_rawWrite32, List.mem_finRange, ne_eq,
    reduceCtorEq, not_false_eq_true, if_true]

/-! ## Emitting and decoding -/

theorem map_fst_tdmaLayout (r : TdmaReg) (i : Fin 16) :
    ((tdmaLayout r).getD i []).map Prod.fst = tdmaWidths i := by
  fin_cases i <;> rfl

theorem tdmaWidths_sum (i : Fin 16) : (tdmaWidths i).sum = 32 := by
  revert i
  decide

/-- The words of a command are read back field by field, cut to the width of each. -/
theorem unpackFrom_emitTdmaReg (r : TdmaReg) (i : Fin 16) :
    unpackFrom 0 (emitTdmaReg r i) (tdmaWidths i) =
      ((tdmaLayout r).getD i []).map fun f => f.2 &&& lowMask 32 f.1 := by
  rw [← map_fst_tdmaLayout r]
  apply unpackFrom_packFrom
  rw [map_fst_tdmaLayout, tdmaWidths_sum]

theorem pioWords_eq (hw : TpuHw) (info : PioInfo) : pioWords hw info = emitTdmaReg (pioReg info) := by
  funext i
  exact reg_setTdmaPio hw _ i

/-- What the words keep of a command. -/
def TdmaReg.kept (r : TdmaReg) : TdmaReg :=
  let cut (v : BitVec 32) (n : Nat) := v &&& lowMask 32 n
  { vld := cut r.vld 1, compressEn := cut r.compressEn 1, eod := cut r.eod 1,
    intpEn := cut r.intpEn 1, barEn := cut r.barEn 1,
    checkBf16Value := cut r.checkBf16Value 1, transDir := cut r.transDir 2,
    rsv00 := cut r.rsv00 2, transFmt := cut r.transFmt 1,
    transposeMd := cut r.transposeMd 2, rsv01 := cut r.rsv01 1,
    intraCmdParal := cut r.intraCmdParal 1, outstandingEn := cut r.outstandingEn 1,
    cmdId := cut r.cmdId 16, specFunc := cut r.specFunc 3, dstFmt := cut r.dstFmt 2,
    srcFmt := cut r.srcFmt 2, cmprsFmt := cut r.cmprsFmt 1, sysDtype := cut r.sysDtype 1,
    rsv2_1 := cut r.rsv2_1 4, int8Sign := cut r.int8Sign 1,
    compressZeroGuard := cut r.compressZeroGuard 1, int8RndMode := cut r.int8RndMode 1,
    waitIdTpu := cut r.waitIdTpu 16, waitIdOtherTdma := cut r.waitIdOtherTdma 16,
    waitIdSdma := cut r.waitIdSdma 16, constVal := cut r.constVal 16,
    srcBaseRegSel := cut r.srcBaseRegSel 3, mvLutIdx := cut r.mvLutIdx 1,
    dstBaseRegSel := cut r.dstBaseRegSel 3, mvLutBase := cut r.mvLutBase 1,
    rsv4_5 := cut r.rsv4_5 8, dstHStride := cut r.dstHStride 16,
    dstCStrideLow := cut r.dstCStrideLow 16, dstNStride := cut r.dstNStride 32,
    srcHStride := cut r.srcHStride 16, srcCStrideLow := cut r.srcCStrideLow 16,
    srcNStride := cut r.srcNStride 32, dstC := cut r.dstC 16, srcC := cut r.srcC 16,
    dstW := cut r.dstW 16, dstH := cut r.dstH 16, srcW := cut r.srcW 16,
    srcH := cut r.srcH 16, dstBaseAddrLow := cut r.dstBaseAddrLow 32,
    srcBaseAddrLow := cut r.srcBaseAddrLow 32, srcN := cut r.srcN 16,
    dstBaseAddrHigh := cut r.dstBaseAddrHigh 8, srcBaseAddrHigh := cut r.srcBaseAddrHigh 8,
    srcCStrideHigh := cut r.srcCStrideHigh 16, dstCStrideHigh := cut r.dstCStrideHigh 16,
    compressBias0 := cut r.compressBias0 8, compressBias1 := cut r.compressBias1 8,
    layerID := cut r.layerID 16 }

theorem decodeTdmaReg_emitTdmaReg (r : TdmaReg) : decodeTdmaReg (emitTdmaReg r) = r.kept := by
  simp only [decodeTdmaReg, unpackFrom_emitTdmaReg]
  rfl

/-! ## The request -/

/-- An accepted request has its fields in the node, the ones of its own mode. -/
theorem pioInfo_of_submit {current addr : Nat} {env : SubmitEnv} {arg : TdmaCopyArg} {node : Node}
    {holds : List (Entry Hold)} (h : cviTpuSubmitPio current addr env arg = some (0, some (node, holds))) :
    node.pioInfo =
      if arg.enable2d ≠ 0 then
        { enable2d := 1, paddrSrc := arg.paddrSrc, paddrDst := arg.paddrDst, h := arg.h,
          wBytes := arg.wBytes, strideBytesSrc := arg.strideBytesSrc,
          strideBytesDst := arg.strideBytesDst }
      else { paddrSrc := arg.paddrSrc, paddrDst := arg.paddrDst, lengBytes := arg.lengBytes } := by
  have hmade := made_of_submitNode h
  rw [Prod.mk.injEq] at hmade
  rw [← hmade.1]

/-- An address has 40 bits in the command. -/
theorem address_kept_iff (paddr : BitVec 64) :
    ((paddr >>> 32).setWidth 32 &&& lowMask 32 8).toNat * 2 ^ 32 +
        (paddr.setWidth 32 &&& lowMask 32 32).toNat = paddr.toNat ↔ paddr.toNat < 2 ^ 40 := by
  rw [toNat_and_lowMask _ 8 (by omega), toNat_and_lowMask _ 32 (by omega), BitVec.toNat_setWidth,
    BitVec.toNat_setWidth, BitVec.toNat_ushiftRight, Nat.shiftRight_eq_div_pow]
  omega

theorem half_kept_iff (v : BitVec 32) : (v &&& lowMask 32 16).toNat = v.toNat ↔ v.toNat < 2 ^ 16 := by
  rw [toNat_and_lowMask _ 16 (by omega)]
  omega

/-- The product of a stride and a height of 16 bits is exact. -/
theorem stride_kept {v h : BitVec 32} (hv : v.toNat < 2 ^ 16) (hh : h.toNat < 2 ^ 16) :
    (v * h &&& lowMask 32 32).toNat = v.toNat * h.toNat := by
  have hlt : v.toNat * h.toNat < 2 ^ 32 :=
    Nat.lt_of_le_of_lt (Nat.mul_le_mul (Nat.le_of_lt_succ hv) (Nat.le_of_lt_succ hh)) (by decide)
  rw [toNat_and_lowMask _ 32 (by omega), BitVec.toNat_mul, Nat.mod_mod, Nat.mod_eq_of_lt hlt]

theorem word_kept (v : BitVec 32) : (v &&& lowMask 32 32).toNat = v.toNat := by
  rw [toNat_and_lowMask _ 32 (by omega)]
  omega

/-- The constants of a command fit their fields. -/
theorem const_kept : ((1 : BitVec 32) &&& lowMask 32 1 = 1 ∧ (2 : BitVec 32) &&& lowMask 32 2 = 2) ∧
    (0 : BitVec 32) &&& lowMask 32 1 = 0 ∧ (1 : BitVec 32) &&& lowMask 32 16 = 1 := by decide

/-- The command of a 2-D request. -/
theorem describes_plane_iff {info : PioInfo} {arg : TdmaCopyArg} (h2d : arg.enable2d ≠ 0)
    (hinfo : info =
      { enable2d := 1, paddrSrc := arg.paddrSrc, paddrDst := arg.paddrDst, h := arg.h,
        wBytes := arg.wBytes, strideBytesSrc := arg.strideBytesSrc,
        strideBytesDst := arg.strideBytesDst }) :
    (pioReg info).kept.Describes arg ↔ PioFits arg := by
  subst hinfo
  constructor
  · intro h
    obtain ⟨-, -, -, -, hh, -, hw, -, hss, hsd, -, -⟩ := h.plane h2d
    exact ⟨(address_kept_iff _).mp h.src, (address_kept_iff _).mp h.dst, fun _ =>
      ⟨(half_kept_iff _).mp hh, (half_kept_iff _).mp hw, (half_kept_iff _).mp hss,
        (half_kept_iff _).mp hsd⟩⟩
  · rintro ⟨hsrc, hdst, hplane⟩
    obtain ⟨hh, hw, hss, hsd⟩ := hplane h2d
    refine ⟨const_kept.1, (address_kept_iff _).mpr hsrc, (address_kept_iff _).mpr hdst, fun _ => ?_,
      fun h => absurd h h2d⟩
    have hhKept := (half_kept_iff _).mpr hh
    have hwKept := (half_kept_iff _).mpr hw
    exact ⟨const_kept.2.1, const_kept.2.2, const_kept.2.2, const_kept.2.2, hhKept, hhKept, hwKept,
      hwKept, (half_kept_iff _).mpr hss, (half_kept_iff _).mpr hsd, stride_kept hss hh,
      stride_kept hsd hh⟩

/-- The command of a 1-D request. -/
theorem describes_line_iff {info : PioInfo} {arg : TdmaCopyArg} (h1d : arg.enable2d = 0)
    (hinfo : info =
      { paddrSrc := arg.paddrSrc, paddrDst := arg.paddrDst, lengBytes := arg.lengBytes }) :
    (pioReg info).kept.Describes arg ↔ PioFits arg := by
  subst hinfo
  constructor
  · intro h
    exact ⟨(address_kept_iff _).mp h.src, (address_kept_iff _).mp h.dst, fun h => absurd h1d h⟩
  · rintro ⟨hsrc, hdst, -⟩
    exact ⟨const_kept.1, (address_kept_iff _).mpr hsrc, (address_kept_iff _).mpr hdst,
      fun h => absurd h1d h, fun _ => ⟨const_kept.1.1, word_kept _⟩⟩

/-- An accepted request reaches the engine as the copy it asks for exactly if it fits the
fields of the command. -/
theorem pio_reaches_hardware_iff (hw : TpuHw) (current addr : Nat) (env : SubmitEnv)
    (arg : TdmaCopyArg) (node : Node) (holds : List (Entry Hold))
    (h : cviTpuSubmitPio current addr env arg = some (0, some (node, holds))) :
    (decodeTdmaReg (pioWords hw node.pioInfo)).Describes arg ↔ PioFits arg := by
  have hinfo := pioInfo_of_submit h
  rw [pioWords_eq, decodeTdmaReg_emitTdmaReg]
  by_cases h2d : arg.enable2d = 0
  · rw [if_neg (not_not.mpr h2d)] at hinfo
    exact describes_line_iff h2d hinfo
  · rw [if_pos h2d] at hinfo
    exact describes_plane_iff h2d hinfo

/-- Four rows of 64 bytes between 40 bit addresses. -/
theorem pio_reaches_hardware_rows :
    (decodeTdmaReg (pioWords ⟨fun _ => 0, 0, 0, 0, false, false, false⟩
      { enable2d := 1, paddrSrc := 0x80000000, paddrDst := 0x81000000, h := 4, wBytes := 64,
        strideBytesSrc := 256, strideBytesDst := 64 })).Describes
      ⟨0x80000000, 0x81000000, 4, 64, 256, 64, 1, 0, 7⟩ :=
  (pio_reaches_hardware_iff ⟨fun _ => 0, 0, 0, 0, false, false, false⟩ 1 0 ⟨0, [0], true⟩
    ⟨0x80000000, 0x81000000, 4, 64, 256, 64, 1, 0, 7⟩ _ [] rfl).mpr (by decide)

/-- 65537 rows are accepted and started as one row. -/
theorem not_pio_reaches_hardware :
    ¬ ∀ (hw : TpuHw) (current addr : Nat) (env : SubmitEnv) (arg : TdmaCopyArg) (node : Node)
      (holds : List (Entry Hold)),
      cviTpuSubmitPio current addr env arg = some (0, some (node, holds)) →
        (decodeTdmaReg (pioWords hw node.pioInfo)).Describes arg := by
  intro h
  have hrows := (h ⟨fun _ => 0, 0, 0, 0, false, false, false⟩ 1 0 ⟨0, [0], true⟩
    ⟨0x80000000, 0x81000000, 65537, 16, 16, 16, 1, 0, 7⟩ _ [] rfl).plane (by decide)
  have hsrcH := hrows.2.2.2.2.1
  rw [pioWords_eq, decodeTdmaReg_emitTdmaReg] at hsrcH
  exact absurd hsrcH (by decide)

end LicheeRvNano
