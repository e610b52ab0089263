import LicheeRvNano.FipFormat
import Mathlib.Data.Int.ModEq
import Mathlib.Data.List.Monad

/-!
# fiptool: packing the firmware image package

`src/fiptool/fiptool` writes a FIP from five files: the first stage loader, the DDR
parameters, the C906L firmware, OpenSBI and u-boot. `int.to_bytes` raises an
`OverflowError` on a number that does not fit, so everything that packs a number
returns an `Option`.

The compressor is Python's `lzma` module. It is a parameter, `lzmaCompress`.
-/

namespace LicheeRvNano

open Layout

/-! ## Numbers, checksums and padding -/

/-- One byte of `binascii.crc_hqx`: CRC-16 with the polynomial `0x1021`, the high
bit first. -/
def crcHqxByte (crc : UInt16) (b : UInt8) : UInt16 :=
  let shift (c : UInt16) : UInt16 := if c &&& 0x8000 = 0 then c <<< 1 else (c <<< 1) ^^^ 0x1021
  shift (shift (shift (shift (shift (shift (shift (shift (crc ^^^ (b.toUInt16 <<< 8)))))))))

/-- `binascii.crc_hqx(data, crc)`. -/
def crcHqx (data : Bytes) (crc : UInt16) : UInt16 := data.foldl crcHqxByte crc

-- "123456789", the usual check value of this CRC
example : crcHqx [0x31, 0x32, 0x33, 0x34, 0x35, 0x36, 0x37, 0x38, 0x39] 0 = 0x31C3 := by decide +kernel

/-- `crc32`: the CRC-16, with `0xCAFE` above it. -/
def crc32 (data : Bytes) : Bytes := toLE 2 (crcHqx data 0).toNat ++ [0xFE, 0xCA]

/-- `x.to_bytes(w, 'little')`. -/
def toBytes (w : Nat) (x : Int) : Option Bytes :=
  if 0 ≤ x ∧ x < 256 ^ w then some (toLE w x.toNat) else none

/-- `pack` of a number into four bytes. -/
def p32 (x : Int) : Option Bytes := toBytes 4 x

/-- And into eight. -/
def p64 (x : Int) : Option Bytes := toBytes 8 x

/-- `b'\0' * n`. -/
def zeros (n : Nat) : Bytes := List.replicate n 0

/-- `pad`: zeros up to a multiple of 512. -/
def pad (data : Bytes) : Bytes := data ++ zeros (-(data.length : Int) % 512).toNat

/-- A checksum takes four bytes. -/
@[simp] theorem length_crc32 (data : Bytes) : (crc32 data).length = 4 := by
  simp [crc32]

/-- The number that the four checksum bytes hold. -/
theorem ofLE_crc32 (data : Bytes) : ofLE (crc32 data) = 0xCAFE0000 + (crcHqx data 0).toNat := by
  rw [crc32, ofLE_append, length_toLE, ofLE_toLE (UInt16.toNat_lt _), Nat.add_comm]
  rfl

/-- A number that fits is packed. -/
theorem toBytes_natCast {w n : Nat} (h : n < 256 ^ w) : toBytes w n = some (toLE w n) := by
  have : (n : Int) < 256 ^ w := by exact_mod_cast h
  rw [toBytes, if_pos ⟨Int.natCast_nonneg n, this⟩, Int.toNat_natCast]

theorem p32_natCast {n : Nat} (h : n < 2 ^ 32) : p32 n = some (toLE 4 n) :=
  toBytes_natCast (by omega)

theorem p64_natCast {n : Nat} (h : n < 2 ^ 64) : p64 n = some (toLE 8 n) :=
  toBytes_natCast (by omega)

/-- Only a number that fits is packed; for any other `to_bytes` raises. -/
theorem isSome_toBytes {w : Nat} {x : Int} : (toBytes w x).isSome ↔ 0 ≤ x ∧ x < 256 ^ w := by
  rw [toBytes]
  split <;> simp_all

theorem isSome_p32 {x : Int} : (p32 x).isSome ↔ 0 ≤ x ∧ x < 2 ^ 32 := isSome_toBytes

theorem isSome_p64 {x : Int} : (p64 x).isSome ↔ 0 ≤ x ∧ x < 2 ^ 64 := isSome_toBytes

/-- What is packed has the width it was packed to. -/
theorem length_getD_toBytes {w : Nat} {x : Int} (h : 0 ≤ x ∧ x < 256 ^ w) :
    ((toBytes w x).getD []).length = w := by
  rw [toBytes, if_pos h, Option.getD_some, length_toLE]

@[simp] theorem length_zeros (n : Nat) : (zeros n).length = n := List.length_replicate

/-- Padding rounds the length up to whole blocks. -/
theorem length_pad (data : Bytes) : (pad data).length = (data.length + 511) / 512 * 512 := by
  rw [pad, List.length_append, length_zeros]
  omega

/-! ## The element lists -/

/-- The values of an element list, in order; one that raises ends it. -/
def elements {F : Type} (es : List (F × Option Bytes)) : Option (List (F × Bytes)) :=
  es.mapM fun e => e.2.map (e.1, ·)

/-- The values of an element list that does not raise. -/
def values {F : Type} (es : List (F × Option Bytes)) : List (F × Bytes) :=
  es.map fun e => (e.1, e.2.getD [])

/-- When no element raises, the elements are their values. -/
theorem elements_eq_values {F : Type} {es : List (F × Option Bytes)}
    (h : ∀ e ∈ es, e.2.isSome) : elements es = some (values es) := by
  induction es with
  | nil => rfl
  | cons e es ih =>
    obtain ⟨f, v⟩ := e
    obtain ⟨b, rfl⟩ := Option.isSome_iff_exists.mp (h (f, v) (by simp))
    have htail := ih fun e he => h e (List.mem_cons_of_mem _ he)
    rw [elements] at htail
    rw [elements, List.mapM_cons, htail]
    rfl

section Members

variable {F : Type} [DecidableEq F] {l : Layout F} {es : List (F × Bytes)} {f : F} {rest : Bytes}

/-- A member packed with `p32` holds the number. -/
theorem get_p32 {x : Int} {n : Nat} (hl : ofElements es = l)
    (h : es.lookup f = some ((p32 x).getD [])) (hx : x = n) (hn : n < 2 ^ 32) :
    l.get f (join es ++ rest) = n := by
  rw [get_join hl h, hx, p32_natCast hn, Option.getD_some, ofLE_toLE (by omega)]

/-- A member packed with `p64` holds the number. -/
theorem get_p64 {x : Int} {n : Nat} (hl : ofElements es = l)
    (h : es.lookup f = some ((p64 x).getD [])) (hx : x = n) (hn : n < 2 ^ 64) :
    l.get f (join es ++ rest) = n := by
  rw [get_join hl h, hx, p64_natCast hn, Option.getD_some, ofLE_toLE (by omega)]

/-- A member packed with `crc32` holds the checksum. -/
theorem get_crc32 {data : Bytes} (hl : ofElements es = l) (h : es.lookup f = some (crc32 data)) :
    l.get f (join es ++ rest) = 0xCAFE0000 + (crcHqx data 0).toNat := by
  rw [get_join hl h, ofLE_crc32]

end Members

/-- The command line of fiptool: the contents of the files, and the text base. -/
structure FipArgs where
  fsbl : Bytes
  ddrParam : Bytes
  rtos : Bytes
  opensbi : Bytes
  uboot : Bytes
  textBase : Int

variable (lzmaCompress : Bytes → Bytes) (args : FipArgs)

/-! ## Param1 -/

/-- `CHIP_CONF`: six words, and zeros up to 760 bytes. -/
def chipConf : Option Bytes := do
  let words ← [0x0E00000C, 0xA0000001, 0x0E00000C, 0xA0000002, 0xFFFFFFA0, 0xFFFFFFFF].mapM p32
  let b := words.flatten
  -- `ljust(760, b'\0')`
  return b ++ zeros (760 - b.length)

/-- The members of Param1 that its checksum covers. -/
def param1Data (fsbl : Bytes) : List (Param1Member × Option Bytes) :=
  [(.nandInfo, zeros 128),
   (.spinorInfo, some (List.replicate 36 0xff)),
   (.fipFlags, p64 0),
   (.chipConfSize, p32 760),
   (.blcpImgCksum, crc32 []),
   (.blcpImgSize, p32 0),
   (.blcpImgRunaddr, p32 0x5200200),
   (.blcpParamLoadaddr, p32 0),
   (.blcpParamSize, p32 0),
   (.bl2ImgCksum, crc32 fsbl),
   (.bl2ImgSize, p32 fsbl.length),
   (.bldImgSize, p32 0),
   (.param2Loadaddr, p32 (0x1000 + fsbl.length)),
   (.reserved1, zeros 4),
   (.chipConf, chipConf),
   (.blEk, zeros 32),
   (.rootPk, zeros 512),
   (.blPk, zeros 512)]

/-- The members before them, with the checksum. -/
def param1Head (data : Bytes) : List (Param1Member × Option Bytes) :=
  [(.magic1, some [0x43, 0x56, 0x42, 0x4C, 0x30, 0x31, 0x0A, 0x00]),
   (.magic2, p32 0),
   (.paramCksum, crc32 data)]

/-- The signatures, all zero. -/
def param1Sigs : List (Param1Member × Option Bytes) :=
  [(.blPkSig, zeros 512), (.chipConfSig, zeros 512), (.bl2ImgSig, zeros 512),
   (.blcpImgSig, zeros 512)]

/-- Param1 and behind it the boot loader. -/
def packParam1 : Option Bytes := do
  let fsbl := pad args.fsbl
  let data ← elements (param1Data fsbl)
  let head ← elements (param1Head (join data))
  let sigs ← elements param1Sigs
  return join head ++ join data ++ join sigs ++ fsbl

/-! ## The loader -/

/-- The members of the loader header that its checksum covers. The size counts the header. -/
def ubootHead (size : Nat) : List (LoaderMember × Option Bytes) :=
  [(.size, p32 (size + 0x20)),
   (.runaddr, p64 (args.textBase - 0x20)),
   (.reserved1, p32 0),
   (.reserved2, p32 0)]

/-- The members before them, with the checksum. -/
def ubootJump (data : Bytes) : List (LoaderMember × Option Bytes) :=
  [(.jump0, p32 0),
   (.magic, some [0x42, 0x33, 0x4D, 0x41]),
   (.cksum, crc32 data)]

/-- The compressed loader, padded so that with its header it fills whole blocks. -/
def ubootBody : Bytes :=
  let uboot := lzmaCompress args.uboot
  uboot ++ zeros ((-(uboot.length : Int) - 0x20) % 512).toNat

/-- The header of the second stage loader, and its compressed image. -/
def packUboot : Option Bytes := do
  let uboot := ubootBody lzmaCompress args
  let head ← elements (ubootHead args uboot.length)
  let data := join head ++ uboot
  let jump ← elements (ubootJump data)
  return join jump ++ data

/-! ## Param2 -/

/-- Where each image comes to lie in the file: one after the other, each padded. -/
def addrDdrParam : Nat := 0x1000 + (pad args.fsbl).length + 0x1000
def addrRtos : Nat := addrDdrParam args + (pad args.ddrParam).length
def addrOpensbi : Nat := addrRtos args + (pad args.rtos).length
def addrUboot : Nat := addrOpensbi args + (pad args.opensbi).length

/-- The members of Param2 that its checksum covers. -/
def param2Data : List (Param2Member × Option Bytes) :=
  [(.reserved1, p32 0),
   (.ddrParamCksum, crc32 (pad args.ddrParam)),
   (.ddrParamLoadaddr, p32 (addrDdrParam args)),
   (.ddrParamSize, p32 (pad args.ddrParam).length),
   (.ddrParamReserved, p32 0),
   (.blcp2ndCksum, crc32 (pad args.rtos)),
   (.blcp2ndLoadaddr, p32 (addrRtos args)),
   (.blcp2ndSize, p32 (pad args.rtos).length),
   (.blcp2ndRunaddr, p32 0x83F40000),
   (.monitorCksum, crc32 (pad args.opensbi)),
   (.monitorLoadaddr, p32 (addrOpensbi args)),
   (.monitorSize, p32 (pad args.opensbi).length),
   (.monitorRunaddr, p32 0x80000000),
   (.loader2ndReserved0, p32 0),
   (.loader2ndLoadaddr, p32 (addrUboot args)),
   (.loader2ndReserved1, p32 0),
   (.loader2ndReserved2, p32 0),
   (.reserved4, zeros 4016)]

/-- The members before them, with the checksum. -/
def param2Head (data : Bytes) : List (Param2Member × Option Bytes) :=
  [(.magic1, some [0x43, 0x56, 0x4C, 0x44, 0x30, 0x32, 0x0A, 0x00]),
   (.param2Cksum, crc32 data)]

/-- Param2 and behind it the four images. -/
def packParam2 : Option Bytes := do
  let data ← elements (param2Data args)
  let head ← elements (param2Head (join data))
  let loader ← packUboot lzmaCompress args
  return join head ++ join data ++ pad args.ddrParam ++ pad args.rtos ++ pad args.opensbi ++ loader

/-- `generate_fip`: the contents of the output file. -/
def generateFip : Option Bytes := do
  return (← packParam1 args) ++ (← packParam2 lzmaCompress args)

/-! ## What the file contains

Where no number overflows, `param1Elements`, `param2Elements` and `loaderElements`
are the elements of the three headers, and the file is the headers and the images
one after the other. -/

/-- All members of Param1 with their bytes. -/
def param1Elements : List (Param1Member × Bytes) :=
  let data := values (param1Data (pad args.fsbl))
  values (param1Head (join data)) ++ data ++ values param1Sigs

/-- All members of Param2. -/
def param2Elements : List (Param2Member × Bytes) :=
  let data := values (param2Data args)
  values (param2Head (join data)) ++ data

/-- All members of the loader header. -/
def loaderElements : List (LoaderMember × Bytes) :=
  let body := ubootBody lzmaCompress args
  let head := values (ubootHead args body.length)
  values (ubootJump (join head ++ body)) ++ head

/-- The offsets that the headers hold. -/
def fipOffsets : List Nat :=
  [0x1000 + (pad args.fsbl).length, addrDdrParam args, addrRtos args, addrOpensbi args,
   addrUboot args]

/-- `CHIP_CONF` has 760 bytes. -/
theorem chipConf_eq : ∃ b, chipConf = some b ∧ b.length = 760 := by
  simp [chipConf, p32, toBytes]

section Param1

variable {args} (h : 0x1000 + (pad args.fsbl).length < 2 ^ 32)
include h

/-- Param1 is its members one after the other, and the boot loader behind them. -/
theorem packParam1_eq : packParam1 args = some (join (param1Elements args) ++ pad args.fsbl) := by
  obtain ⟨conf, hconf, -⟩ := chipConf_eq
  have hdata : elements (param1Data (pad args.fsbl)) = some (values (param1Data (pad args.fsbl))) := by
    apply elements_eq_values
    simp only [param1Data, List.forall_mem_cons, hconf, isSome_p32, isSome_p64, Option.isSome_some]
    simp
    omega
  have hhead (b : Bytes) : elements (param1Head b) = some (values (param1Head b)) := rfl
  have hsigs : elements param1Sigs = some (values param1Sigs) := rfl
  simp [packParam1, hdata, hhead, hsigs, param1Elements, join_append]

/-- The members that fiptool packs are those of the struct, in order and size. -/
theorem param1Elements_layout : ofElements (param1Elements args) = fipParam1Layout := by
  obtain ⟨conf, hconf, hlen⟩ := chipConf_eq
  have hsize : ((p32 (pad args.fsbl).length).getD []).length = 4 := length_getD_toBytes (by omega)
  have haddr : ((p32 (0x1000 + (pad args.fsbl).length)).getD []).length = 4 :=
    length_getD_toBytes (by omega)
  simp [param1Elements, values, param1Head, param1Data, param1Sigs, hconf, hlen, hsize, haddr,
    ofElements, fipParam1Layout]
  decide

/-- Param1 says where Param2 is. -/
theorem param1_param2Loadaddr (rest : Bytes) :
    fipParam1Layout.get .param2Loadaddr (join (param1Elements args) ++ rest) =
      0x1000 + (pad args.fsbl).length := by
  have hl : (param1Elements args).lookup .param2Loadaddr =
      some ((p32 (0x1000 + (pad args.fsbl).length)).getD []) := by
    simp only [param1Elements, values, param1Head, param1Data, List.map_cons, List.map_nil,
      List.cons_append, List.nil_append]
    rfl
  exact get_p32 (param1Elements_layout h) hl (by push_cast; ring) h

end Param1

section Param2

variable {args} (h : ∀ a ∈ fipOffsets args, a < 2 ^ 32)
include h

theorem addrUboot_lt : addrUboot args < 2 ^ 32 := h _ (by simp [fipOffsets])

/-- No member of Param2 raises. -/
theorem elements_param2Data : elements (param2Data args) = some (values (param2Data args)) := by
  have huboot := addrUboot_lt h
  simp only [addrUboot, addrOpensbi, addrRtos] at huboot
  apply elements_eq_values
  simp only [param2Data, List.forall_mem_cons, isSome_p32, Option.isSome_some, addrUboot,
    addrOpensbi, addrRtos]
  simp
  omega

/-- The members are those of `struct fip_param2`. -/
theorem param2Elements_layout : ofElements (param2Elements args) = fipParam2Layout := by
  have huboot := addrUboot_lt h
  simp only [addrUboot, addrOpensbi, addrRtos] at huboot
  have hlen {n : Nat} (hn : n < 2 ^ 32) : ((p32 n).getD []).length = 4 :=
    length_getD_toBytes (by omega)
  simp only [param2Elements, values, param2Head, param2Data, ofElements, fipParam2Layout,
    List.map_cons, List.map_nil, List.cons_append, List.nil_append, addrUboot, addrOpensbi,
    addrRtos]
  rw [hlen, hlen, hlen, hlen, hlen, hlen, hlen]
  · simp
    decide
  all_goals omega

/-- Param2 is its members one after the other, and the images behind them. -/
theorem packParam2_eq : packParam2 lzmaCompress args = (packUboot lzmaCompress args).map
    fun loader => join (param2Elements args) ++ pad args.ddrParam ++ pad args.rtos ++
      pad args.opensbi ++ loader := by
  have hhead (b : Bytes) : elements (param2Head b) = some (values (param2Head b)) := rfl
  rw [packParam2, elements_param2Data h, param2Elements, join_append]
  generalize values (param2Data args) = data
  cases packUboot lzmaCompress args with
  | none => simp [hhead]
  | some loader => simp [hhead]

end Param2

section Loader

variable {args} {T : Nat} (hT : args.textBase = T) (hlo : 0x20 ≤ T) (hhi : T < 2 ^ 64)
  (hbody : (ubootBody lzmaCompress args).length + 0x20 < 2 ^ 32)
include hT hlo hhi hbody

/-- The loader is the members of its header, and the padded image. -/
theorem packUboot_eq : packUboot lzmaCompress args =
    some (join (loaderElements lzmaCompress args) ++ ubootBody lzmaCompress args) := by
  have hhead (n : Nat) (hn : n + 0x20 < 2 ^ 32) :
      elements (ubootHead args n) = some (values (ubootHead args n)) := by
    apply elements_eq_values
    simp only [ubootHead, List.forall_mem_cons, isSome_p32, isSome_p64]
    simp
    omega
  have hjump (b : Bytes) : elements (ubootJump b) = some (values (ubootJump b)) := rfl
  simp only [packUboot, hhead _ hbody, hjump, Option.bind_eq_bind, Option.bind_some,
    loaderElements, join_append, List.append_assoc]
  rfl

/-- The members are those of `struct loader_2nd_header`. -/
theorem loaderElements_layout :
    ofElements (loaderElements lzmaCompress args) = loader2ndHeader := by
  have hsize : ((p32 ((ubootBody lzmaCompress args).length + 0x20)).getD []).length = 4 :=
    length_getD_toBytes (by omega)
  have hrun : ((p64 (args.textBase - 0x20)).getD []).length = 8 := length_getD_toBytes (by omega)
  simp [loaderElements, values, ubootHead, ubootJump, ofElements, loader2ndHeader, hsize, hrun]
  decide

end Loader

/-- The whole file: Param1 and the first stage loader, Param2 and its images. -/
def fipFile : Bytes :=
  join (param1Elements args) ++ pad args.fsbl ++ join (param2Elements args) ++
    pad args.ddrParam ++ pad args.rtos ++ pad args.opensbi ++
    (join (loaderElements lzmaCompress args) ++ ubootBody lzmaCompress args)

/-- The whole file: two headers, and the images behind them. -/
theorem generateFip_eq {args : FipArgs} {T : Nat} (h : ∀ a ∈ fipOffsets args, a < 2 ^ 32)
    (hT : args.textBase = T) (hlo : 0x20 ≤ T) (hhi : T < 2 ^ 64)
    (hbody : (ubootBody lzmaCompress args).length + 0x20 < 2 ^ 32) :
    generateFip lzmaCompress args = some (fipFile lzmaCompress args) := by
  have h₁ : packParam1 args = some (join (param1Elements args) ++ pad args.fsbl) :=
    packParam1_eq (h _ (by simp [fipOffsets]))
  have h₂ := packParam2_eq lzmaCompress h
  rw [packUboot_eq lzmaCompress hT hlo hhi hbody, Option.map_some] at h₂
  rw [generateFip, h₁, h₂, fipFile]
  generalize join (param1Elements args) = p₁
  generalize join (param2Elements args) = p₂
  simp [List.append_assoc]

/-- With its header the compressed loader fills whole blocks, and the padding is
less than one. -/
theorem length_ubootBody : ((ubootBody lzmaCompress args).length + 0x20) % 512 = 0 ∧
    (lzmaCompress args.uboot).length ≤ (ubootBody lzmaCompress args).length ∧
    (ubootBody lzmaCompress args).length < (lzmaCompress args.uboot).length + 512 := by
  rw [ubootBody, List.length_append, length_zeros]
  omega

end LicheeRvNano
