import LicheeRvNano.TpuPio
import Mathlib.Data.Fin.VecNotation

/-!
# TPU driver: the packing of a TDMA command

`emit_tdma_reg` places 54 fields in sixteen words, each with a mask and a shift written by
hand. `emitTdmaWords` has them as the source does; `TdmaField.slot` is the table of the
places, and `emitTdmaWords_eq` connects both with the layout that the PIO copies use.
-/

namespace LicheeRvNano

/-! ## The fields -/

/-- The fields of `tdma_reg_t`. -/
inductive TdmaField where
  | vld | compressEn | eod | intpEn | barEn | checkBf16Value | transDir | rsv00 | transFmt
  | transposeMd | rsv01 | intraCmdParal | outstandingEn | cmdId | specFunc | dstFmt | srcFmt
  | cmprsFmt | sysDtype | rsv2_1 | int8Sign | compressZeroGuard | int8RndMode | waitIdTpu
  | waitIdOtherTdma | waitIdSdma | constVal | srcBaseRegSel | mvLutIdx | dstBaseRegSel
  | mvLutBase | rsv4_5 | dstHStride | dstCStrideLow | dstNStride | srcHStride | srcCStrideLow
  | srcNStride | dstC | srcC | dstW | dstH | srcW | srcH | dstBaseAddrLow | srcBaseAddrLow
  | srcN | dstBaseAddrHigh | srcBaseAddrHigh | srcCStrideHigh | dstCStrideHigh | compressBias0
  | compressBias1 | layerID
  deriving DecidableEq

namespace TdmaReg

def get (r : TdmaReg) : TdmaField → BitVec 32
  | .vld => r.vld
  | .compressEn => r.compressEn
  | .eod => r.eod
  | .intpEn => r.intpEn
  | .barEn => r.barEn
  | .checkBf16Value => r.checkBf16Value
  | .transDir => r.transDir
  | .rsv00 => r.rsv00
  | .transFmt => r.transFmt
  | .transposeMd => r.transposeMd
  | .rsv01 => r.rsv01
  | .intraCmdParal => r.intraCmdParal
  | .outstandingEn => r.outstandingEn
  | .cmdId => r.cmdId
  | .specFunc => r.specFunc
  | .dstFmt => r.dstFmt
  | .srcFmt => r.srcFmt
  | .cmprsFmt => r.cmprsFmt
  | .sysDtype => r.sysDtype
  | .rsv2_1 => r.rsv2_1
  | .int8Sign => r.int8Sign
  | .compressZeroGuard => r.compressZeroGuard
  | .int8RndMode => r.int8RndMode
  | .waitIdTpu => r.waitIdTpu
  | .waitIdOtherTdma => r.waitIdOtherTdma
  | .waitIdSdma => r.waitIdSdma
  | .constVal => r.constVal
  | .srcBaseRegSel => r.srcBaseRegSel
  | .mvLutIdx => r.mvLutIdx
  | .dstBaseRegSel => r.dstBaseRegSel
  | .mvLutBase => r.mvLutBase
  | .rsv4_5 => r.rsv4_5
  | .dstHStride => r.dstHStride
  | .dstCStrideLow => r.dstCStrideLow
  | .dstNStride => r.dstNStride
  | .srcHStride => r.srcHStride
  | .srcCStrideLow => r.srcCStrideLow
  | .srcNStride => r.srcNStride
  | .dstC => r.dstC
  | .srcC => r.srcC
  | .dstW => r.dstW
  | .dstH => r.dstH
  | .srcW => r.srcW
  | .srcH => r.srcH
  | .dstBaseAddrLow => r.dstBaseAddrLow
  | .srcBaseAddrLow => r.srcBaseAddrLow
  | .srcN => r.srcN
  | .dstBaseAddrHigh => r.dstBaseAddrHigh
  | .srcBaseAddrHigh => r.srcBaseAddrHigh
  | .srcCStrideHigh => r.srcCStrideHigh
  | .dstCStrideHigh => r.dstCStrideHigh
  | .compressBias0 => r.compressBias0
  | .compressBias1 => r.compressBias1
  | .layerID => r.layerID

end TdmaReg

/-- There are words, so that a number is one. -/
instance tdmaWords_neZero : NeZero 16 := ⟨by decide⟩

/-- A place in the words: the word, the lowest bit and the width. -/
structure Slot where
  word : Fin 16
  shift : Nat
  width : Nat

/-- Where `emit_tdma_reg` puts a field. -/
def TdmaField.slot : TdmaField → Slot
  | .vld => ⟨0, 0, 1⟩
  | .compressEn => ⟨0, 1, 1⟩
  | .eod => ⟨0, 2, 1⟩
  | .intpEn => ⟨0, 3, 1⟩
  | .barEn => ⟨0, 4, 1⟩
  | .checkBf16Value => ⟨0, 5, 1⟩
  | .transDir => ⟨0, 6, 2⟩
  | .rsv00 => ⟨0, 8, 2⟩
  | .transFmt => ⟨0, 10, 1⟩
  | .transposeMd => ⟨0, 11, 2⟩
  | .rsv01 => ⟨0, 13, 1⟩
  | .intraCmdParal => ⟨0, 14, 1⟩
  | .outstandingEn => ⟨0, 15, 1⟩
  | .cmdId => ⟨0, 16, 16⟩
  | .specFunc => ⟨1, 0, 3⟩
  | .dstFmt => ⟨1, 3, 2⟩
  | .srcFmt => ⟨1, 5, 2⟩
  | .cmprsFmt => ⟨1, 7, 1⟩
  | .sysDtype => ⟨1, 8, 1⟩
  | .rsv2_1 => ⟨1, 9, 4⟩
  | .int8Sign => ⟨1, 13, 1⟩
  | .compressZeroGuard => ⟨1, 14, 1⟩
  | .int8RndMode => ⟨1, 15, 1⟩
  | .waitIdTpu => ⟨1, 16, 16⟩
  | .waitIdOtherTdma => ⟨2, 0, 16⟩
  | .waitIdSdma => ⟨2, 16, 16⟩
  | .constVal => ⟨3, 0, 16⟩
  | .srcBaseRegSel => ⟨3, 16, 3⟩
  | .mvLutIdx => ⟨3, 19, 1⟩
  | .dstBaseRegSel => ⟨3, 20, 3⟩
  | .mvLutBase => ⟨3, 23, 1⟩
  | .rsv4_5 => ⟨3, 24, 8⟩
  | .dstHStride => ⟨4, 0, 16⟩
  | .dstCStrideLow => ⟨4, 16, 16⟩
  | .dstNStride => ⟨5, 0, 32⟩
  | .srcHStride => ⟨6, 0, 16⟩
  | .srcCStrideLow => ⟨6, 16, 16⟩
  | .srcNStride => ⟨7, 0, 32⟩
  | .dstC => ⟨8, 0, 16⟩
  | .srcC => ⟨8, 16, 16⟩
  | .dstW => ⟨9, 0, 16⟩
  | .dstH => ⟨9, 16, 16⟩
  | .srcW => ⟨10, 0, 16⟩
  | .srcH => ⟨10, 16, 16⟩
  | .dstBaseAddrLow => ⟨11, 0, 32⟩
  | .srcBaseAddrLow => ⟨12, 0, 32⟩
  | .srcN => ⟨13, 0, 16⟩
  | .dstBaseAddrHigh => ⟨13, 16, 8⟩
  | .srcBaseAddrHigh => ⟨13, 24, 8⟩
  | .srcCStrideHigh => ⟨14, 0, 16⟩
  | .dstCStrideHigh => ⟨14, 16, 16⟩
  | .compressBias0 => ⟨15, 0, 8⟩
  | .compressBias1 => ⟨15, 8, 8⟩
  | .layerID => ⟨15, 16, 16⟩

/-- The fields of a word, from bit zero on. -/
def tdmaFields (i : Fin 16) : List TdmaField :=
  [[.vld, .compressEn, .eod, .intpEn, .barEn, .checkBf16Value, .transDir, .rsv00, .transFmt,
    .transposeMd, .rsv01, .intraCmdParal, .outstandingEn, .cmdId],
   [.specFunc, .dstFmt, .srcFmt, .cmprsFmt, .sysDtype, .rsv2_1, .int8Sign, .compressZeroGuard,
    .int8RndMode, .waitIdTpu],
   [.waitIdOtherTdma, .waitIdSdma],
   [.constVal, .srcBaseRegSel, .mvLutIdx, .dstBaseRegSel, .mvLutBase, .rsv4_5],
   [.dstHStride, .dstCStrideLow],
   [.dstNStride],
   [.srcHStride, .srcCStrideLow],
   [.srcNStride],
   [.dstC, .srcC],
   [.dstW, .dstH],
   [.srcW, .srcH],
   [.dstBaseAddrLow],
   [.srcBaseAddrLow],
   [.srcN, .dstBaseAddrHigh, .srcBaseAddrHigh],
   [.srcCStrideHigh, .dstCStrideHigh],
   [.compressBias0, .compressBias1, .layerID]].getD i []

/-! ## emit_tdma_reg -/

/-- The words of `emit_tdma_reg`, as they are computed. Four of the masks are 64 bits wide. -/
def emitTdmaWords (r : TdmaReg) : Fin 16 → BitVec 32 :=
  ![
    -- p[0]
    (r.vld &&& 1) |||
      ((r.compressEn &&& 1) <<< 1) |||
      ((r.eod &&& 1) <<< 2) |||
      ((r.intpEn &&& 1) <<< 3) |||
      ((r.barEn &&& 1) <<< 4) |||
      ((r.checkBf16Value &&& 1) <<< 5) |||
      ((r.transDir &&& ((1 <<< 2) - 1)) <<< 6) |||
      ((r.rsv00 &&& ((1 <<< 2) - 1)) <<< 8) |||
      ((r.transFmt &&& 1) <<< 10) |||
      ((r.transposeMd &&& ((1 <<< 2) - 1)) <<< 11) |||
      ((r.rsv01 &&& 1) <<< 13) |||
      ((r.intraCmdParal &&& 1) <<< 14) |||
      ((r.outstandingEn &&& 1) <<< 15) |||
      ((r.cmdId &&& ((1 <<< 16) - 1)) <<< 16),
    -- p[1]
    (r.specFunc &&& ((1 <<< 3) - 1)) |||
      ((r.dstFmt &&& ((1 <<< 2) - 1)) <<< 3) |||
      ((r.srcFmt &&& ((1 <<< 2) - 1)) <<< 5) |||
      ((r.cmprsFmt &&& 1) <<< 7) |||
      ((r.sysDtype &&& 1) <<< 8) |||
      ((r.rsv2_1 &&& ((1 <<< 4) - 1)) <<< 9) |||
      ((r.int8Sign &&& 1) <<< 13) |||
      ((r.compressZeroGuard &&& 1) <<< 14) |||
      ((r.int8RndMode &&& 1) <<< 15) |||
      ((r.waitIdTpu &&& ((1 <<< 16) - 1)) <<< 16),
    -- p[2]
    (r.waitIdOtherTdma &&& ((1 <<< 16) - 1)) |||
      ((r.waitIdSdma &&& ((1 <<< 16) - 1)) <<< 16),
    -- p[3]
    (r.constVal &&& ((1 <<< 16) - 1)) |||
      ((r.srcBaseRegSel &&& ((1 <<< 3) - 1)) <<< 16) |||
      ((r.mvLutIdx &&& 1) <<< 19) |||
      ((r.dstBaseRegSel &&& ((1 <<< 3) - 1)) <<< 20) |||
      ((r.mvLutBase &&& 1) <<< 23) |||
      ((r.rsv4_5 &&& ((1 <<< 8) - 1)) <<< 24),
    -- p[4]
    (r.dstHStride &&& ((1 <<< 16) - 1)) |||
      ((r.dstCStrideLow &&& ((1 <<< 16) - 1)) <<< 16),
    -- p[5]
    (r.dstNStride.setWidth 64 &&& ((1 <<< 32) - 1)).setWidth 32,
    -- p[6]
    (r.srcHStride &&& ((1 <<< 16) - 1)) |||
      ((r.srcCStrideLow &&& ((1 <<< 16) - 1)) <<< 16),
    -- p[7]
    (r.srcNStride.setWidth 64 &&& ((1 <<< 32) - 1)).setWidth 32,
    -- p[8]
    (r.dstC &&& ((1 <<< 16) - 1)) |||
      ((r.srcC &&& ((1 <<< 16) - 1)) <<< 16),
    -- p[9]
    (r.dstW &&& ((1 <<< 16) - 1)) |||
      ((r.dstH &&& ((1 <<< 16) - 1)) <<< 16),
    -- p[10]
    (r.srcW &&& ((1 <<< 16) - 1)) |||
      ((r.srcH &&& ((1 <<< 16) - 1)) <<< 16),
    -- p[11]
    (r.dstBaseAddrLow.setWidth 64 &&& ((1 <<< 32) - 1)).setWidth 32,
    -- p[12]
    (r.srcBaseAddrLow.setWidth 64 &&& ((1 <<< 32) - 1)).setWidth 32,
    -- p[13]
    (r.srcN &&& ((1 <<< 16) - 1)) |||
      ((r.dstBaseAddrHigh &&& ((1 <<< 8) - 1)) <<< 16) |||
      ((r.srcBaseAddrHigh &&& ((1 <<< 8) - 1)) <<< 24),
    -- p[14]
    (r.srcCStrideHigh &&& ((1 <<< 16) - 1)) |||
      ((r.dstCStrideHigh &&& ((1 <<< 16) - 1)) <<< 16),
    -- p[15]
    (r.compressBias0 &&& ((1 <<< 8) - 1)) |||
      ((r.compressBias1 &&& ((1 <<< 8) - 1)) <<< 8) |||
      ((r.layerID &&& ((1 <<< 16) - 1)) <<< 16)]

/-- The words as the source computes them are those of the layout. -/
theorem emitTdmaWords_eq (r : TdmaReg) (i : Fin 16) : emitTdmaWords r i = emitTdmaReg r i := by
  fin_cases i <;> simp [emitTdmaReg, emitTdmaWords, tdmaLayout, packFrom, lowMask, BitVec.or_assoc]

theorem tdmaLayout_eq (r : TdmaReg) (i : Fin 16) : (tdmaLayout r).getD i [] =
    (tdmaFields i).map fun f => (f.slot.width, r.get f) := by
  fin_cases i <;> rfl

theorem emitTdmaWords_packed (r : TdmaReg) (i : Fin 16) : emitTdmaWords r i =
    packFrom 0 ((tdmaFields i).map fun f => (f.slot.width, r.get f)) := by
  rw [emitTdmaWords_eq, emitTdmaReg, tdmaLayout_eq]

/-! ## The table of places -/

/-- The places of a word's fields are adjacent, and fill it. -/
theorem adjacent_tdmaFields (i : Fin 16) :
    Adjacent (fun f : TdmaField => f.slot.shift) (fun f => f.slot.width) 0 (tdmaFields i) := by
  fin_cases i <;> simp [tdmaFields, Adjacent, TdmaField.slot]

theorem tdmaFields_sum (i : Fin 16) : ((tdmaFields i).map fun f => f.slot.width).sum = 32 := by
  fin_cases i <;> rfl

theorem mem_tdmaFields (f : TdmaField) : f ∈ tdmaFields f.slot.word := by
  cases f <;> decide

theorem word_of_mem_tdmaFields {i : Fin 16} {f : TdmaField} (h : f ∈ tdmaFields i) :
    f.slot.word = i :=
  (by decide : ∀ i, ∀ f ∈ tdmaFields i, f.slot.word = i) i f h

/-- Every bit of the words belongs to one field and no other. -/
theorem tdmaField_at (i : Fin 16) {b : Nat} (hb : b < 32) : ∃! f : TdmaField,
    f.slot.word = i ∧ f.slot.shift ≤ b ∧ b < f.slot.shift + f.slot.width := by
  have hadj := adjacent_tdmaFields i
  obtain ⟨f, hf, hfb⟩ := hadj.cover (Nat.zero_le b) (by rwa [tdmaFields_sum, Nat.zero_add])
  refine ⟨f, ⟨word_of_mem_tdmaFields hf, hfb⟩, ?_⟩
  rintro g ⟨rfl, hgb⟩
  exact hadj.eq_of_common (mem_tdmaFields g) hf hgb hfb

/-! ## Faithfulness -/

/-- A field is read back at its place, as far as it fits. -/
theorem extract_emitTdmaWords (r : TdmaReg) (f : TdmaField) :
    (emitTdmaWords r f.slot.word).extractLsb' f.slot.shift f.slot.width =
      (r.get f).setWidth f.slot.width := by
  rw [emitTdmaWords_packed]
  exact extractLsb'_packFrom r.get (adjacent_tdmaFields _) (by rw [tdmaFields_sum]) (mem_tdmaFields f)

/-- The words hold nothing but the fields. -/
theorem emitTdmaWords_congr {r r' : TdmaReg}
    (h : ∀ f, (r.get f).toNat % 2 ^ f.slot.width = (r'.get f).toNat % 2 ^ f.slot.width) :
    emitTdmaWords r = emitTdmaWords r' := by
  funext i
  apply BitVec.eq_of_getLsbD_eq
  intro b hb
  -- the bit is one of the field that stands there
  obtain ⟨f, ⟨rfl, hlo, hhi⟩, -⟩ := tdmaField_at i hb
  have hbit (q : TdmaReg) : (emitTdmaWords q f.slot.word).getLsbD b =
      ((emitTdmaWords q f.slot.word).extractLsb' f.slot.shift f.slot.width).getLsbD
        (b - f.slot.shift) := by
    have hk : b - f.slot.shift < f.slot.width := by omega
    have hb : f.slot.shift + (b - f.slot.shift) = b := by omega
    rw [BitVec.getLsbD_extractLsb', decide_eq_true hk, Bool.true_and, hb]
  have hfield : (r.get f).setWidth f.slot.width = (r'.get f).setWidth f.slot.width := by
    apply BitVec.eq_of_toNat_eq
    rw [BitVec.toNat_setWidth, BitVec.toNat_setWidth, h f]
  rw [hbit, hbit, extract_emitTdmaWords, extract_emitTdmaWords, hfield]

/-- **The packing is faithful.** Every field is found at its place modulo its width, each of
the 512 bits belongs to one field, and commands that agree in their fields give the same
words. -/
theorem emit_tdma_reg_faithful :
    (∀ (r : TdmaReg) (f : TdmaField),
      ((emitTdmaWords r f.slot.word).extractLsb' f.slot.shift f.slot.width).toNat =
        (r.get f).toNat % 2 ^ f.slot.width) ∧
    (∀ (i : Fin 16) (b : Nat), b < 32 → ∃! f : TdmaField,
      f.slot.word = i ∧ f.slot.shift ≤ b ∧ b < f.slot.shift + f.slot.width) ∧
    (∀ r r' : TdmaReg,
      (∀ f, (r.get f).toNat % 2 ^ f.slot.width = (r'.get f).toNat % 2 ^ f.slot.width) →
      emitTdmaWords r = emitTdmaWords r') := by
  refine ⟨fun r f => ?_, fun i b => tdmaField_at i, fun r r' => emitTdmaWords_congr⟩
  rw [extract_emitTdmaWords, BitVec.toNat_setWidth]

end LicheeRvNano
