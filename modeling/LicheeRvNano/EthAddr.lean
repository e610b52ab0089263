import LicheeRvNano.CrcRegister
import Mathlib.Data.Fin.VecNotation
import Mathlib.Data.FinEnum
import Mathlib.Data.Fintype.EquivFin

/-!
# The Ethernet address of the board

`board_late_init` folds the serial of the chip, five words of the eFuse, into a locally
administered address: four bytes of a first CRC-32 and one byte of a second, which goes
over the same words with the first as its seed. The CRC is the one of `lib/crc32.c`, with
its alignment loop, its word loop and its tail.
-/

namespace LicheeRvNano

/-! ## lib/crc32.c -/

/-- `tole` is the identity: the core is little-endian. -/
def crcTable : List (BitVec 32) :=
  [0x00000000, 0x77073096, 0xee0e612c, 0x990951ba, 0x076dc419, 0x706af48f,
   0xe963a535, 0x9e6495a3, 0x0edb8832, 0x79dcb8a4, 0xe0d5e91e, 0x97d2d988,
   0x09b64c2b, 0x7eb17cbd, 0xe7b82d07, 0x90bf1d91, 0x1db71064, 0x6ab020f2,
   0xf3b97148, 0x84be41de, 0x1adad47d, 0x6ddde4eb, 0xf4d4b551, 0x83d385c7,
   0x136c9856, 0x646ba8c0, 0xfd62f97a, 0x8a65c9ec, 0x14015c4f, 0x63066cd9,
   0xfa0f3d63, 0x8d080df5, 0x3b6e20c8, 0x4c69105e, 0xd56041e4, 0xa2677172,
   0x3c03e4d1, 0x4b04d447, 0xd20d85fd, 0xa50ab56b, 0x35b5a8fa, 0x42b2986c,
   0xdbbbc9d6, 0xacbcf940, 0x32d86ce3, 0x45df5c75, 0xdcd60dcf, 0xabd13d59,
   0x26d930ac, 0x51de003a, 0xc8d75180, 0xbfd06116, 0x21b4f4b5, 0x56b3c423,
   0xcfba9599, 0xb8bda50f, 0x2802b89e, 0x5f058808, 0xc60cd9b2, 0xb10be924,
   0x2f6f7c87, 0x58684c11, 0xc1611dab, 0xb6662d3d, 0x76dc4190, 0x01db7106,
   0x98d220bc, 0xefd5102a, 0x71b18589, 0x06b6b51f, 0x9fbfe4a5, 0xe8b8d433,
   0x7807c9a2, 0x0f00f934, 0x9609a88e, 0xe10e9818, 0x7f6a0dbb, 0x086d3d2d,
   0x91646c97, 0xe6635c01, 0x6b6b51f4, 0x1c6c6162, 0x856530d8, 0xf262004e,
   0x6c0695ed, 0x1b01a57b, 0x8208f4c1, 0xf50fc457, 0x65b0d9c6, 0x12b7e950,
   0x8bbeb8ea, 0xfcb9887c, 0x62dd1ddf, 0x15da2d49, 0x8cd37cf3, 0xfbd44c65,
   0x4db26158, 0x3ab551ce, 0xa3bc0074, 0xd4bb30e2, 0x4adfa541, 0x3dd895d7,
   0xa4d1c46d, 0xd3d6f4fb, 0x4369e96a, 0x346ed9fc, 0xad678846, 0xda60b8d0,
   0x44042d73, 0x33031de5, 0xaa0a4c5f, 0xdd0d7cc9, 0x5005713c, 0x270241aa,
   0xbe0b1010, 0xc90c2086, 0x5768b525, 0x206f85b3, 0xb966d409, 0xce61e49f,
   0x5edef90e, 0x29d9c998, 0xb0d09822, 0xc7d7a8b4, 0x59b33d17, 0x2eb40d81,
   0xb7bd5c3b, 0xc0ba6cad, 0xedb88320, 0x9abfb3b6, 0x03b6e20c, 0x74b1d29a,
   0xead54739, 0x9dd277af, 0x04db2615, 0x73dc1683, 0xe3630b12, 0x94643b84,
   0x0d6d6a3e, 0x7a6a5aa8, 0xe40ecf0b, 0x9309ff9d, 0x0a00ae27, 0x7d079eb1,
   0xf00f9344, 0x8708a3d2, 0x1e01f268, 0x6906c2fe, 0xf762575d, 0x806567cb,
   0x196c3671, 0x6e6b06e7, 0xfed41b76, 0x89d32be0, 0x10da7a5a, 0x67dd4acc,
   0xf9b9df6f, 0x8ebeeff9, 0x17b7be43, 0x60b08ed5, 0xd6d6a3e8, 0xa1d1937e,
   0x38d8c2c4, 0x4fdff252, 0xd1bb67f1, 0xa6bc5767, 0x3fb506dd, 0x48b2364b,
   0xd80d2bda, 0xaf0a1b4c, 0x36034af6, 0x41047a60, 0xdf60efc3, 0xa867df55,
   0x316e8eef, 0x4669be79, 0xcb61b38c, 0xbc66831a, 0x256fd2a0, 0x5268e236,
   0xcc0c7795, 0xbb0b4703, 0x220216b9, 0x5505262f, 0xc5ba3bbe, 0xb2bd0b28,
   0x2bb45a92, 0x5cb36a04, 0xc2d7ffa7, 0xb5d0cf31, 0x2cd99e8b, 0x5bdeae1d,
   0x9b64c2b0, 0xec63f226, 0x756aa39c, 0x026d930a, 0x9c0906a9, 0xeb0e363f,
   0x72076785, 0x05005713, 0x95bf4a82, 0xe2b87a14, 0x7bb12bae, 0x0cb61b38,
   0x92d28e9b, 0xe5d5be0d, 0x7cdcefb7, 0x0bdbdf21, 0x86d3d2d4, 0xf1d4e242,
   0x68ddb3f8, 0x1fda836e, 0x81be16cd, 0xf6b9265b, 0x6fb077e1, 0x18b74777,
   0x88085ae6, 0xff0f6a70, 0x66063bca, 0x11010b5c, 0x8f659eff, 0xf862ae69,
   0x616bffd3, 0x166ccf45, 0xa00ae278, 0xd70dd2ee, 0x4e048354, 0x3903b3c2,
   0xa7672661, 0xd06016f7, 0x4969474d, 0x3e6e77db, 0xaed16a4a, 0xd9d65adc,
   0x40df0b66, 0x37d83bf0, 0xa9bcae53, 0xdebb9ec5, 0x47b2cf7f, 0x30b5ffe9,
   0xbdbdf21c, 0xcabac28a, 0x53b39330, 0x24b4a3a6, 0xbad03605, 0xcdd70693,
   0x54de5729, 0x23d967bf, 0xb3667a2e, 0xc4614ab8, 0x5d681b02, 0x2a6f2b94,
   0xb40bbe37, 0xc30c8ea1, 0x5a05df1b, 0x2d02ef8d]

/-- `DO_CRC(x)`. -/
def doCrc (crc x : BitVec 32) : BitVec 32 :=
  crcTable.getD ((crc ^^^ x) &&& 255).toNat 0 ^^^ (crc >>> 8)

/-- `DO_CRC(x)` on a byte. -/
def doCrcByte (crc : BitVec 32) (x : BitVec 8) : BitVec 32 := doCrc crc (x.setWidth 32)

/-- "Align it": bytes up to the first address that is a multiple of four. -/
def crcAlign (addr : Nat) (crc : BitVec 32) : List (BitVec 8) → BitVec 32 × List (BitVec 8)
  | [] => (crc, [])
  | x :: buf =>
    if addr % 4 = 0 then (crc, x :: buf) else crcAlign (addr + 1) (doCrcByte crc x) buf

/-- A 32 bit load from four bytes. -/
def loadWord (b₀ b₁ b₂ b₃ : BitVec 8) : BitVec 32 := b₃ ++ b₂ ++ b₁ ++ b₀

/-- "Load data 32 bits wide, xor data 32 bits wide." -/
def crcWords (crc : BitVec 32) : List (BitVec 8) → BitVec 32 × List (BitVec 8)
  | b₀ :: b₁ :: b₂ :: b₃ :: buf =>
    crcWords (doCrc (doCrc (doCrc (doCrc (crc ^^^ loadWord b₀ b₁ b₂ b₃) 0) 0) 0) 0) buf
  | buf => (crc, buf)

/-- `crc32_no_comp`: the buffer is the bytes from address `addr` on. -/
def crc32NoComp (crc : BitVec 32) (addr : Nat) (buf : List (BitVec 8)) : BitVec 32 :=
  let aligned := crcAlign addr crc buf
  let words := crcWords aligned.1 aligned.2
  words.2.foldl doCrcByte words.1

/-- `crc32`: the register is inverted before and after. -/
def UBoot.crc32 (crc : BitVec 32) (addr : Nat) (p : List (BitVec 8)) : BitVec 32 :=
  crc32NoComp (crc ^^^ 0xffffffff) addr p ^^^ 0xffffffff

/-! ## board_late_init -/

/-- The words FTSN0 to FTSN4 of the eFuse window. -/
abbrev Ftsn := Fin 5 → BitVec 32

/-- "Empty or unprogrammed eFuse: leave the usual path." -/
def Ftsn.Programmed (ftsn : Ftsn) : Prop := ftsn 2 ||| ftsn 3 ||| ftsn 4 ≠ 0

instance (ftsn : Ftsn) : Decidable ftsn.Programmed := inferInstanceAs (Decidable (_ ≠ _))

/-- A word in memory, little-endian. -/
def wordBytes (v : BitVec 32) : List (BitVec 8) :=
  [v.setWidth 8, (v >>> 8).setWidth 8, (v >>> 16).setWidth 8, (v >>> 24).setWidth 8]

/-- `(const u8 *)ftsn`. -/
def Ftsn.bytes (ftsn : Ftsn) : List (BitVec 8) := (List.ofFn ftsn).flatMap wordBytes

/-- The array `mac` of six bytes. -/
structure MacAddr where
  b₀ : BitVec 8
  b₁ : BitVec 8
  b₂ : BitVec 8
  b₃ : BitVec 8
  b₄ : BitVec 8
  b₅ : BitVec 8
  deriving DecidableEq, Repr

/-- The two checksums, the second one started from the first. -/
def crcA (addr : Nat) (ftsn : Ftsn) : BitVec 32 := UBoot.crc32 0 addr ftsn.bytes

def crcB (addr : Nat) (ftsn : Ftsn) : BitVec 32 := UBoot.crc32 (crcA addr ftsn) addr ftsn.bytes

/-- The array `mac`; `ftsn` is on the stack at `addr`. -/
def macOf (addr : Nat) (ftsn : Ftsn) : MacAddr where
  b₀ := 0x02
  b₁ := (crcB addr ftsn &&& 0xff).setWidth 8
  b₂ := (crcA addr ftsn >>> 24 &&& 0xff).setWidth 8
  b₃ := (crcA addr ftsn >>> 16 &&& 0xff).setWidth 8
  b₄ := (crcA addr ftsn >>> 8 &&& 0xff).setWidth 8
  b₅ := (crcA addr ftsn &&& 0xff).setWidth 8

/-- The digits that `snprintf` prints. -/
def hexDigits : List Char :=
  ['0', '1', '2', '3', '4', '5', '6', '7', '8', '9', 'a', 'b', 'c', 'd', 'e', 'f']

/-- `%02x`. -/
def hexByte (b : BitVec 8) : List Char :=
  [hexDigits.getD (b.toNat / 16) '0', hexDigits.getD (b.toNat % 16) '0']

/-- The text that `snprintf` leaves in `buf`: seventeen characters. -/
def MacAddr.text (m : MacAddr) : String :=
  String.ofList (hexByte m.b₀ ++ ':' :: hexByte m.b₁ ++ ':' :: hexByte m.b₂ ++ ':' :: hexByte m.b₃ ++
    ':' :: hexByte m.b₄ ++ ':' :: hexByte m.b₅)

/-- `board_late_init` on the variable `ethaddr` of the environment. -/
def boardLateInit (ethaddr : Option String) (addr : Nat) (ftsn : Ftsn) : Option String :=
  match ethaddr with
  -- an address that is already set is respected
  | some text => some text
  | none => if ftsn.Programmed then some (macOf addr ftsn).text else none

/-! ## The table is eight shifts -/

/-- The polynomial of CRC-32, reflected. -/
def crcPoly : BitVec 32 := 0xedb88320

/-- A shift of the register can be undone. -/
theorem crcPoly_injective : Function.Injective (crcShift crcPoly) :=
  crcShift_injective crcPoly (by decide) (by decide)

/-- Each entry of the table is eight shifts of its index. -/
theorem crcTable_eq_iterate :
    ∀ i < 256, crcTable.getD i 0 = (crcShift crcPoly)^[8] (BitVec.ofNat 32 i) := by
  decide +kernel

/-- A look-up in the table is eight shifts of the register with the byte added. -/
theorem doCrc_eq_iterate (crc : BitVec 32) {x : BitVec 32} (hx : x >>> 8 = 0) :
    doCrc crc x = (crcShift crcPoly)^[8] (crc ^^^ x) := by
  have hlow : ((crc ^^^ x) &&& 255).toNat = ((crc ^^^ x).setWidth 8).toNat := by
    rw [BitVec.toNat_and, BitVec.toNat_setWidth]
    exact Nat.and_two_pow_sub_one_eq_mod _ 8
  have hhigh : (crc ^^^ x) >>> 8 = crc >>> 8 := by
    rw [BitVec.ushiftRight_xor_distrib, hx]
    exact BitVec.xor_zero
  rw [doCrc, hlow, crcTable_eq_iterate _ (BitVec.isLt _), ← hhigh,
    iterate_crcShift_split crcPoly (crc ^^^ x) 8, BitVec.ofNat_toNat]

/-- So is a byte that goes into the register. -/
theorem doCrcByte_eq_iterate (crc : BitVec 32) (x : BitVec 8) :
    doCrcByte crc x = (crcShift crcPoly)^[8] (crc ^^^ x.setWidth 32) := by
  apply doCrc_eq_iterate
  apply BitVec.eq_of_getLsbD_eq
  intro i _
  simp

/-- A loaded word is the sum of its bytes, each in its place. -/
theorem loadWord_eq (b₀ b₁ b₂ b₃ : BitVec 8) : loadWord b₀ b₁ b₂ b₃ = b₀.setWidth 32 ^^^
    (b₁.setWidth 32 ^^^ (b₂.setWidth 32 ^^^ b₃.setWidth 32 <<< 8) <<< 8) <<< 8 := by
  apply BitVec.eq_of_getLsbD_eq
  intro i hi
  simp [loadWord, hi]
  grind

/-- Eight shifts bring what is above the low byte down by eight. -/
theorem iterate_crcShift_shiftLeft (x v : BitVec 32) (hv : v <<< 8 >>> 8 = v) :
    (crcShift crcPoly)^[8] (x ^^^ v <<< 8) = (crcShift crcPoly)^[8] x ^^^ v := by
  have hlow : ∀ i < 8, (v <<< 8).getLsbD i = false := fun i hi => by simp [hi]
  rw [iterate_crcShift_xor, iterate_crcShift_of_low_clear crcPoly hlow, hv]

/-- The word step is four byte steps, the lowest byte first. -/
theorem iterate_crcShift_loadWord (crc : BitVec 32) (b₀ b₁ b₂ b₃ : BitVec 8) :
    (crcShift crcPoly)^[32] (crc ^^^ loadWord b₀ b₁ b₂ b₃) =
      doCrcByte (doCrcByte (doCrcByte (doCrcByte crc b₀) b₁) b₂) b₃ := by
  have hbits : ∀ v : BitVec 32, (∀ i, 24 ≤ i → v.getLsbD i = false) → v <<< 8 >>> 8 = v := by
    intro v hv
    apply BitVec.eq_of_getLsbD_eq
    intro i hi
    by_cases h : i < 24
    · have hin : 8 + i < 32 := by omega
      simp [hin, BitVec.getLsbD_eq_getElem hi]
    · have hout : ¬ 8 + i < 32 := by omega
      simp [hout, hv i (by omega)]
  show (crcShift crcPoly)^[8 + (8 + (8 + 8))] _ = _
  rw [Function.iterate_add_apply, Function.iterate_add_apply, Function.iterate_add_apply, loadWord_eq,
    ← BitVec.xor_assoc]
  simp only [doCrcByte_eq_iterate]
  rw [iterate_crcShift_shiftLeft, ← BitVec.xor_assoc, iterate_crcShift_shiftLeft, ← BitVec.xor_assoc,
    iterate_crcShift_shiftLeft]
  -- what is shifted up is the word without its lowest one, two or three bytes
  all_goals
    apply hbits
    intro i hi
    have h₁ : 8 ≤ i := by omega
    have h₂ : 8 ≤ i - 8 := by omega
    have h₃ : 8 ≤ i - 8 - 8 := by omega
    simp [h₁, h₂, h₃]

/-- Four look-ups without new data are 32 shifts. -/
theorem doCrc_four (crc : BitVec 32) :
    doCrc (doCrc (doCrc (doCrc crc 0) 0) 0) 0 = (crcShift crcPoly)^[32] crc := by
  have hzero : ∀ c, doCrc c 0 = (crcShift crcPoly)^[8] c := fun c => by
    rw [doCrc_eq_iterate c rfl]
    exact congrArg _ BitVec.xor_zero
  simp only [hzero, ← Function.iterate_add_apply]

/-! ## Words, bytes and alignment do not matter -/

/-- Aligning first makes no difference to the register at the end. -/
theorem foldl_crcAlign (addr : Nat) (crc : BitVec 32) (buf : List (BitVec 8)) :
    (crcAlign addr crc buf).2.foldl doCrcByte (crcAlign addr crc buf).1 = buf.foldl doCrcByte crc := by
  fun_induction crcAlign addr crc buf with
  | case1 => rfl
  | case2 => rfl
  | case3 addr crc x buf _ ih => exact ih

/-- Nor does going on by words. -/
theorem foldl_crcWords (crc : BitVec 32) (buf : List (BitVec 8)) :
    (crcWords crc buf).2.foldl doCrcByte (crcWords crc buf).1 = buf.foldl doCrcByte crc := by
  fun_induction crcWords crc buf with
  | case1 crc b₀ b₁ b₂ b₃ buf ih =>
    rw [ih, doCrc_four, iterate_crcShift_loadWord]
    rfl
  | case2 => rfl

/-- The three loops compute the CRC of the bytes one after the other, wherever they start. -/
theorem crc32NoComp_eq_foldl (crc : BitVec 32) (addr : Nat) (buf : List (BitVec 8)) :
    crc32NoComp crc addr buf = buf.foldl doCrcByte crc :=
  (foldl_crcWords _ _).trans (foldl_crcAlign addr crc buf)

/-- A word that is stored is loaded again. -/
theorem loadWord_wordBytes (v : BitVec 32) :
    loadWord (v.setWidth 8) ((v >>> 8).setWidth 8) ((v >>> 16).setWidth 8)
      ((v >>> 24).setWidth 8) = v := by
  apply BitVec.eq_of_getLsbD_eq
  intro i hi
  simp [loadWord, hi]
  grind

/-- And the other way round. -/
theorem wordBytes_loadWord (b₀ b₁ b₂ b₃ : BitVec 8) :
    wordBytes (loadWord b₀ b₁ b₂ b₃) = [b₀, b₁, b₂, b₃] := by
  simp only [wordBytes, loadWord, List.cons.injEq, and_true]
  refine ⟨?_, ?_, ?_, ?_⟩
  all_goals
    apply BitVec.eq_of_getLsbD_eq
    intro i hi
    simp [hi]
  all_goals grind

/-- The bytes of words go in as the words do. -/
theorem foldl_wordBytes (crc : BitVec 32) (ws : List (BitVec 32)) :
    (ws.flatMap wordBytes).foldl doCrcByte crc = crcAbsorb crcPoly 32 crc ws := by
  induction ws generalizing crc with
  | nil => rfl
  | cons v ws ih =>
    rw [List.flatMap_cons, List.foldl_append, ih, crcAbsorb_cons, ← loadWord_wordBytes v,
      iterate_crcShift_loadWord, loadWord_wordBytes]
    rfl

/-- The register over a serial. -/
theorem crc32NoComp_bytes (crc : BitVec 32) (addr : Nat) (ftsn : Ftsn) :
    crc32NoComp crc addr ftsn.bytes = crcAbsorb crcPoly 32 crc (List.ofFn ftsn) := by
  rw [crc32NoComp_eq_foldl, Ftsn.bytes, foldl_wordBytes]

/-! ## What the two CRCs tell of the serial -/

/-- The first checksum is a CRC over the five words, wherever they lie. -/
theorem crcA_eq (addr : Nat) (ftsn : Ftsn) : crcA addr ftsn =
    crcAbsorb crcPoly 32 0xffffffff (List.ofFn ftsn) ^^^ 0xffffffff := by
  rw [crcA, UBoot.crc32, crc32NoComp_bytes]
  rfl

/-- The second CRC over the same words is a fixed linear map of the first. -/
theorem crcB_eq (addr : Nat) (ftsn : Ftsn) :
    crcB addr ftsn = (crcShift crcPoly)^[160] (crcA addr ftsn) ^^^ crcA addr ftsn := by
  have hback : crcA addr ftsn ^^^ 0xffffffff = crcAbsorb crcPoly 32 0xffffffff (List.ofFn ftsn) := by
    rw [crcA_eq, BitVec.xor_assoc, BitVec.xor_self, BitVec.xor_zero]
  rw [crcB, UBoot.crc32, crc32NoComp_bytes, hback, crcAbsorb_twice, ← crcA_eq addr, ← hback,
    BitVec.xor_assoc, BitVec.xor_assoc, BitVec.xor_self, BitVec.xor_zero, List.length_ofFn]

/-- The serial with one word replaced, as a list. -/
theorem ofFn_update (ftsn : Ftsn) (i : Fin 5) (v : BitVec 32) :
    List.ofFn (Function.update ftsn i v) =
      (List.ofFn ftsn).take i ++ v :: (List.ofFn ftsn).drop (i + 1) := by
  have hset : List.ofFn (Function.update ftsn i v) = (List.ofFn ftsn).set i v := by
    apply List.ext_getElem (by simp)
    intro j _ _
    simp only [List.getElem_ofFn, List.getElem_set, Function.update_apply, Fin.ext_iff, eq_comm]
  rw [hset, List.set_eq_take_append_cons_drop, if_pos (by simp)]

/-- With the other words as they are, no two values of a word have one checksum. -/
theorem crcA_update_injective (addr : Nat) (ftsn : Ftsn) (i : Fin 5) :
    Function.Injective fun v => crcA addr (Function.update ftsn i v) := by
  intro u v h
  simp only [crcA_eq, ofFn_update] at h
  exact crcAbsorb_word_injective 32 crcPoly_injective _ _ _ ((BitVec.xor_left_inj _).mp h)

/-- And every checksum has a value of the word. -/
theorem crcA_update_surjective (addr : Nat) (ftsn : Ftsn) (i : Fin 5) :
    Function.Surjective fun v => crcA addr (Function.update ftsn i v) :=
  Finite.injective_iff_surjective.mp (crcA_update_injective addr ftsn i)

/-! ## The address -/

/-- The mask of the low byte is no loss to a byte. -/
theorem setWidth_and_ff (v : BitVec 32) : (v &&& 0xff).setWidth 8 = v.setWidth 8 := by
  apply BitVec.eq_of_toNat_eq
  rw [BitVec.toNat_setWidth, BitVec.toNat_setWidth, BitVec.toNat_and]
  exact (congrArg (· % 256) (Nat.and_two_pow_sub_one_eq_mod v.toNat 8)).trans (Nat.mod_mod _ _)

/-- The last four bytes are the first CRC. -/
def MacAddr.tail (m : MacAddr) : BitVec 32 := loadWord m.b₅ m.b₄ m.b₃ m.b₂

/-- The last four bytes of the address are the first checksum. -/
theorem tail_macOf (addr : Nat) (ftsn : Ftsn) : (macOf addr ftsn).tail = crcA addr ftsn := by
  simp only [MacAddr.tail, macOf, setWidth_and_ff]
  exact loadWord_wordBytes _

/-- Those four bytes can be read off their word. -/
theorem MacAddr.tail_inj {m n : MacAddr} (h : m.tail = n.tail) :
    m.b₂ = n.b₂ ∧ m.b₃ = n.b₃ ∧ m.b₄ = n.b₄ ∧ m.b₅ = n.b₅ := by
  have hbytes := congrArg wordBytes h
  simp only [MacAddr.tail, wordBytes_loadWord, List.cons.injEq, and_true] at hbytes
  obtain ⟨h₅, h₄, h₃, h₂⟩ := hbytes
  exact ⟨h₂, h₃, h₄, h₅⟩

/-- The byte that the second CRC adds to the last four. -/
def secondByte (c : BitVec 32) : BitVec 8 := ((crcShift crcPoly)^[160] c ^^^ c).setWidth 8

/-- Which addresses a serial has: the tail is its checksum, the second byte follows from that. -/
theorem macOf_eq_iff (addr : Nat) (ftsn : Ftsn) (m : MacAddr) : macOf addr ftsn = m ↔
    m.b₀ = 0x02 ∧ m.b₁ = secondByte m.tail ∧ crcA addr ftsn = m.tail := by
  have hb₁ : (macOf addr ftsn).b₁ = secondByte (crcA addr ftsn) := by
    rw [secondByte, ← crcB_eq]
    exact setWidth_and_ff _
  constructor
  · rintro rfl
    exact ⟨rfl, by rw [tail_macOf, hb₁], (tail_macOf addr ftsn).symm⟩
  · rintro ⟨h₀, h₁, hc⟩
    obtain ⟨h₂, h₃, h₄, h₅⟩ := MacAddr.tail_inj ((tail_macOf addr ftsn).trans hc)
    have h₁' : (macOf addr ftsn).b₁ = m.b₁ := by rw [hb₁, hc, h₁]
    cases m
    simp only at h₀ h₁' h₂ h₃ h₄ h₅
    simp only [← h₁', ← h₂, ← h₃, ← h₄, ← h₅, h₀]
    rfl

/-! ## The text in the environment -/

/-- No digit stands for two numbers. -/
theorem hexDigits_injective : ∀ i < 16, hexDigits.idxOf (hexDigits.getD i '0') = i := by decide

/-- No text of a byte for two bytes. -/
theorem hexByte_injective : Function.Injective hexByte := by
  intro a b h
  have h' := h
  simp only [hexByte, List.cons.injEq, and_true] at h
  have hhigh : a.toNat / 16 = b.toNat / 16 := by
    rw [← hexDigits_injective (a.toNat / 16) (by omega), h.1, hexDigits_injective _ (by omega)]
  have hlow : a.toNat % 16 = b.toNat % 16 := by
    rw [← hexDigits_injective (a.toNat % 16) (by omega), h.2, hexDigits_injective _ (by omega)]
  apply BitVec.eq_of_toNat_eq
  omega

/-- No text of an address for two addresses. -/
theorem MacAddr.text_injective : Function.Injective MacAddr.text := by
  intro m n h
  have hlist := String.ofList_injective h
  have hlen : ∀ b, (hexByte b).length = 2 := fun _ => rfl
  obtain ⟨m₀, m₁, m₂, m₃, m₄, m₅⟩ := m
  obtain ⟨n₀, n₁, n₂, n₃, n₄, n₅⟩ := n
  simp only [List.append_assoc, List.cons_append] at hlist
  obtain ⟨h₀, hlist⟩ := List.append_inj hlist rfl
  obtain ⟨h₁, hlist⟩ := List.append_inj (List.cons.inj hlist).2 rfl
  obtain ⟨h₂, hlist⟩ := List.append_inj (List.cons.inj hlist).2 rfl
  obtain ⟨h₃, hlist⟩ := List.append_inj (List.cons.inj hlist).2 rfl
  obtain ⟨h₄, hlist⟩ := List.append_inj (List.cons.inj hlist).2 rfl
  have h₅ := (List.cons.inj hlist).2
  rw [hexByte_injective h₀, hexByte_injective h₁, hexByte_injective h₂, hexByte_injective h₃,
    hexByte_injective h₄, hexByte_injective h₅]

/-- Without an address in the environment the one set is that of the serial. -/
theorem boardLateInit_eq_some_iff (addr : Nat) (ftsn : Ftsn) (m : MacAddr) :
    boardLateInit none addr ftsn = some m.text ↔ ftsn.Programmed ∧ macOf addr ftsn = m := by
  rw [boardLateInit]
  split
  case isTrue h => simp only [Option.some.injEq, MacAddr.text_injective.eq_iff, h, true_and]
  case isFalse h => simp only [reduceCtorEq, h, false_and]

/-! ## Which serials are told apart -/

/-- Serials that differ in exactly one word, in any of its bits. -/
def Ftsn.DifferInOneWord (s t : Ftsn) : Prop := ∃ i, s i ≠ t i ∧ ∀ j ≠ i, s j = t j

/-- Serials that differ in one word have two checksums. -/
theorem crcA_ne_of_differInOneWord (addr : Nat) {s t : Ftsn} (h : s.DifferInOneWord t) :
    crcA addr s ≠ crcA addr t := by
  obtain ⟨i, hi, hother⟩ := h
  have ht : t = Function.update s i (t i) := by
    funext j
    by_cases hj : j = i
    · rw [hj, Function.update_self]
    · rw [Function.update_of_ne hj, hother j hj]
  intro heq
  apply hi
  apply crcA_update_injective addr s i
  show crcA addr (Function.update s i (s i)) = crcA addr (Function.update s i (t i))
  rw [Function.update_eq_self, ← ht, heq]

/-- Two chips whose serials differ in one word get different addresses, and every address is
unicast and locally administered. -/
theorem mac_separates_one_word (addr : Nat) :
    (∀ s t : Ftsn, s.Programmed → t.Programmed → s.DifferInOneWord t → macOf addr s ≠ macOf addr t ∧
      boardLateInit none addr s ≠ boardLateInit none addr t) ∧
    ∀ s : Ftsn, (macOf addr s).b₀ = 0x02 ∧ (macOf addr s).b₀.getLsbD 0 = false ∧
      (macOf addr s).b₀.getLsbD 1 = true := by
  have hlocal : (0x02 : BitVec 8).getLsbD 0 = false ∧ (0x02 : BitVec 8).getLsbD 1 = true := by decide
  refine ⟨?_, fun s => ⟨rfl, hlocal⟩⟩
  intro s t hs ht hone
  have hmac : macOf addr s ≠ macOf addr t := by
    intro heq
    apply crcA_ne_of_differInOneWord addr hone
    rw [← tail_macOf, heq, tail_macOf]
  refine ⟨hmac, fun heq => hmac ?_⟩
  rw [(boardLateInit_eq_some_iff addr t _).mpr ⟨ht, rfl⟩] at heq
  exact ((boardLateInit_eq_some_iff addr s _).mp heq).2

theorem mac_separates_one_word_ftsn4 :
    macOf 0 ![0, 0, 0, 0, 1] ≠ macOf 0 ![0, 0, 0, 0, 2] ∧
      boardLateInit none 0 ![0, 0, 0, 0, 1] ≠ boardLateInit none 0 ![0, 0, 0, 0, 2] :=
  (mac_separates_one_word 0).1 _ _ (by decide) (by decide) ⟨4, by decide, by decide⟩

/-- The addresses that occur: the second CRC adds nothing, its byte is a function of the
other four. -/
theorem mac_occurs_iff (addr : Nat) (b₁ b₂ b₃ b₄ b₅ : BitVec 8) :
    (∃ ftsn : Ftsn, ftsn.Programmed ∧
      boardLateInit none addr ftsn = some (MacAddr.text ⟨0x02, b₁, b₂, b₃, b₄, b₅⟩)) ↔
    b₁ = secondByte (loadWord b₅ b₄ b₃ b₂) := by
  constructor
  · rintro ⟨ftsn, -, h⟩
    have hmac := ((boardLateInit_eq_some_iff _ _ _).mp h).2
    exact ((macOf_eq_iff _ _ _).mp hmac).2.1
  · intro h
    -- FTSN3 marks the serial as programmed, FTSN4 is solved for
    obtain ⟨v, hv⟩ := crcA_update_surjective addr ![0, 0, 0, 1, 0] 4 (loadWord b₅ b₄ b₃ b₂)
    have hprog : Ftsn.Programmed (Function.update ![0, 0, 0, 1, 0] 4 v) := by
      show (0 ||| 1 ||| v : BitVec 32) ≠ 0
      intro hzero
      have := congrArg (BitVec.getLsbD · 0) hzero
      simp at this
    refine ⟨_, hprog, (boardLateInit_eq_some_iff _ _ _).mpr ⟨hprog, ?_⟩⟩
    exact (macOf_eq_iff _ _ _).mpr ⟨rfl, h, hv⟩

/-- No chip has 02:01:00:00:00:00. -/
theorem mac_never_occurs : ¬ ∀ (addr : Nat) (b₁ b₂ b₃ b₄ b₅ : BitVec 8), ∃ ftsn : Ftsn,
    ftsn.Programmed ∧
      boardLateInit none addr ftsn = some (MacAddr.text ⟨0x02, b₁, b₂, b₃, b₄, b₅⟩) := by
  intro h
  obtain ⟨ftsn, -, hset⟩ := h 0 1 0 0 0 0
  have hmac := ((boardLateInit_eq_some_iff _ _ _).mp hset).2
  have h₁ : (1 : BitVec 8) = secondByte (loadWord 0 0 0 0) := ((macOf_eq_iff _ _ _).mp hmac).2.1
  exact absurd h₁ (by decide +kernel)

end LicheeRvNano
