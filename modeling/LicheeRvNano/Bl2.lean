import LicheeRvNano.FipFormat
import LicheeRvNano.Kernel

/-!
# BL2: loading the firmware image package

`bl2_opt.c` of the first stage loader, from `load_param2` to the jump into the
monitor, with the decompression of `decompress.c`.

* `Rom` is the boot ROM, code outside of the repository. Its state is of any type,
  so a load may depend on everything that was loaded before.
* `Bl2Env` adds what is linked into the loader and is not modelled: the image
  verification of a secure build, and the two decoders behind `decompress`.
* `Bl2` is the loader's state. The variables in SRAM are apart from the memory
  `mem`, which stands for the DRAM.
* `BootEvent` is what the loader did, in order: its loads, the tests it made with
  their outcome, and what it set in motion.

A panic does not return, and the fallback to flash may go on for ever, so a run is
bounded by fuel: `Halt` says how a run that does not reach the end was stopped.
Sizes and addresses are numbers, wrapped where the C code wraps them.
-/

namespace LicheeRvNano

/-! ## The memory map -/

/-- The memory map of the board. -/
abbrev DRAM_BASE : Nat := 0x80000000
abbrev DRAM_SIZE : Nat := 0x10000000
abbrev FSBL_UNZIP_ADDR : Nat := 0x81800000
abbrev FSBL_UNZIP_SIZE : Nat := 0x1000000
abbrev DECOMP_ALLOC_ADDR : Nat := FSBL_UNZIP_ADDR
abbrev DECOMP_ALLOC_SIZE : Nat := 0x100000
abbrev DECOMP_BUF_ADDR : Nat := DECOMP_ALLOC_ADDR + DECOMP_ALLOC_SIZE
abbrev DECOMP_BUF_SIZE : Nat := FSBL_UNZIP_SIZE - DECOMP_ALLOC_SIZE
abbrev DECOMP_DST_SIZE : Nat := 0x1000000
abbrev DDR_PARAM_SIZE : Nat := 1024 * 16
abbrev CVI_RTOS_MAGIC_CODE : Nat := 0xABC0DEF

/-- `IN_RANGE`. -/
def inRange (addr start size : Nat) : Bool := start ≤ addr ∧ addr < start + size

/-- `ROUND_UP` in 32 bits. -/
def roundUp (dividend divisor : Nat) : Nat :=
  (dividend + divisor - 1) % 2 ^ 32 / divisor * divisor % 2 ^ 32

/-- A `uint32_t` as an `int`. -/
def toInt32 (x : Nat) : Int := if x < 2 ^ 31 then x else x - 2 ^ 32

/-- An `int` as a `size_t`. -/
def toSize (x : Int) : Nat := (x % 2 ^ 64).toNat

/-! ## The code around the loader -/

/-- What `p_rom_api_get_boot_src` answers. -/
inductive BootSrc where
  | spiNand | spiNor | emmc | sd | usb | uart
  deriving DecidableEq

/-- The boot ROM. A load returns its result and the bytes it stored. -/
structure Rom (σ : Type) where
  loadImage : σ → (offset size : Nat) → (retry : Int) → Int × Bytes × σ
  imageCrc : (len : Int) → Bytes → Nat
  flashInit : σ → σ
  getBootSrc : σ → BootSrc
  getNumberOfRetries : σ → Int

/-- `CLzmaProps`: the properties that an LZMA stream starts with. -/
structure LzmaProps where
  lc : Nat
  lp : Nat
  pb : Nat
  dicSize : Nat
  deriving DecidableEq

/-- What `LzmaDec_DecodeToDic` does: its result, whether it ended for want of input,
the bytes it stored from the start of the dictionary, and the contents of its
probability array. -/
structure LzmaRun where
  res : Int
  needsMoreInput : Bool
  out : Bytes
  probs : Bytes

/-- The code around the loader: the ROM, the check of images, and the two decompressors. -/
structure Bl2Env (σ : Type) where
  rom : Rom σ
  /-- `dec_verify_image` on an image: its result, and the image it leaves. -/
  decVerifyImage : (image : Bytes) → (decSkip : Nat) → (fipParam1 : Bytes) → Int × Bytes
  lzmaDecDecodeToDic : LzmaProps → (dicLimit : Nat) → (src : Bytes) → LzmaRun
  /-- `sizeof(LZ4F_dctx)`. -/
  lz4fDctxSize : Nat
  lz4fDecompress : (dstSize : Nat) → (src : Bytes) → Bytes

/-- `dec_verify_image` of a build without `FSBL_SECURE_BOOT_SUPPORT`. -/
def decVerifyNone (image : Bytes) (_decSkip : Nat) (_fipParam1 : Bytes) : Int × Bytes := (0, image)

/-! ## State and events -/

/-- Where a load goes. -/
inductive Place where
  | fipParam2
  | sramUnionBuf
  | dram (addr : Nat)
  deriving DecidableEq

/-- The images that are loaded into DRAM. -/
inductive ImageName where
  | blcp2nd | monitor | loader2nd
  deriving DecidableEq

/-- `enum COMPRESS_TYPE`. -/
inductive CompressType where
  | none | lzma | lz4
  deriving DecidableEq

/-- The tests that the loader makes on what it has loaded. -/
inductive BootTest where
  | param2Magic
  | param2Cksum
  | ddrParamCksum
  | runaddr (image : ImageName)
  | size (image : ImageName)
  | cksum (image : ImageName)
  | verify (image : ImageName)
  deriving DecidableEq

/-- What the loader does that can be seen from outside. -/
inductive BootEvent where
  | load (dst : Place) (offset size : Nat) (retry : Int)
  | test (t : BootTest) (passed : Bool)
  | flashInit
  | ddrInit (ddrParam : Bytes)
  /-- `reset_c906l`. -/
  | resetC906l (addr : Nat)
  /-- The write to `AXI_SRAM_RTOS_BASE`. -/
  | handOver (addr : Nat)
  | decompress (type : CompressType) (ret : Int)
  | jumpToMonitor (monitorEntry nextAddr : Nat)
  | jumpToLoader2nd (entry : Nat)
  deriving DecidableEq

/-- The memory, the variables of the loader, and what has happened so far. -/
structure Bl2 (σ : Type) where
  rom : σ
  mem : Mem
  fipParam1 : Bytes
  fipParam2 : Bytes
  sramUnionBuf : Bytes
  /-- The word at `AXI_SRAM_RTOS_BASE`. -/
  rtosBase : Nat
  compAllocBuf : Nat
  compAllocSize : Nat
  monitorEntry : Nat
  loader2ndEntry : Nat
  log : List BootEvent

/-- How the loader ends before its jump: in `panic_handler`, or without fuel. -/
inductive Halt where
  | panic | outOfFuel
  deriving DecidableEq

/-- A function of the loader. -/
abbrev Bl2M (σ : Type) : Type → Type := EStateM Halt (Bl2 σ)

namespace Bl2

variable {σ : Type}

/-- The bytes at the start of a buffer, the rest of it as it was. -/
def overlay (b buf : Bytes) : Bytes := b ++ buf.drop b.length

/-- Store what was loaded. -/
def put (s : Bl2 σ) (b : Bytes) : Place → Bl2 σ
  | .fipParam2 => { s with fipParam2 := overlay b s.fipParam2 }
  | .sramUnionBuf => { s with sramUnionBuf := overlay b s.sramUnionBuf }
  | .dram addr => { s with mem := s.mem.write addr b }

/-- A member of each header in its buffer. -/
def param1 (s : Bl2 σ) (f : Param1Member) : Nat := fipParam1Layout.get f s.fipParam1
def param2 (s : Bl2 σ) (f : Param2Member) : Nat := fipParam2Layout.get f s.fipParam2
def loader (s : Bl2 σ) (f : LoaderMember) : Nat := loader2ndHeader.get f s.sramUnionBuf

/-- The state with one more event. -/
def said (s : Bl2 σ) (e : BootEvent) : Bl2 σ := { s with log := s.log ++ [e] }

/-- Note an event. -/
def say (e : BootEvent) : Bl2M σ Unit := modify fun s => s.said e

/-- Make a test, and note it. -/
def passes (t : BootTest) (ok : Bool) : Bl2M σ Bool := do
  say (.test t ok)
  return ok

/-! ## Evaluation

A program of the loader is a function of the state. These equations run one. -/

section Evaluation

variable {α β : Type} (s t : Bl2 σ)

/-- A part that returns hands its value and its state on. -/
theorem bind_ok {x : Bl2M σ α} {f : α → Bl2M σ β} {a : α} {s' : Bl2 σ} (h : x s = .ok a s') :
    (x >>= f) s = f a s' := by
  show EStateM.bind x f s = f a s'
  rw [EStateM.bind, h]

/-- A part that panics is the end. -/
theorem bind_error {x : Bl2M σ α} {f : α → Bl2M σ β} {e : Halt} {s' : Bl2 σ}
    (h : x s = .error e s') : (x >>= f) s = .error e s' := by
  show EStateM.bind x f s = .error e s'
  rw [EStateM.bind, h]

@[simp] theorem pure_apply (a : α) : (pure a : Bl2M σ α) s = .ok a s := rfl

@[simp] theorem get_bind (f : Bl2 σ → Bl2M σ β) : (get >>= f) s = f s s := rfl

@[simp] theorem set_bind (f : PUnit → Bl2M σ β) : (set t >>= f) s = f ⟨⟩ t := rfl

@[simp] theorem modify_bind (g : Bl2 σ → Bl2 σ) (f : PUnit → Bl2M σ β) :
    (modify g >>= f) s = f ⟨⟩ (g s) := rfl

@[simp] theorem say_apply (e : BootEvent) : say e s = .ok ⟨⟩ (s.said e) := rfl

@[simp] theorem say_bind (e : BootEvent) (f : Unit → Bl2M σ β) :
    (say e >>= f) s = f ⟨⟩ (s.said e) := rfl

@[simp] theorem passes_bind (b : BootTest) (ok : Bool) (f : Bool → Bl2M σ β) :
    (passes b ok >>= f) s = f ok (s.said (.test b ok)) := rfl

/-- A branch on what is known runs one of its sides. -/
@[simp] theorem ite_apply_state (c : Prop) [Decidable c] (x y : Bl2M σ α) :
    (if c then x else y) s = if c then x s else y s := by
  split <;> rfl

end Evaluation

section Said

variable (s : Bl2 σ) (e : BootEvent)

/-- An event changes nothing but the log. -/
@[simp] theorem said_rom : (s.said e).rom = s.rom := rfl
@[simp] theorem said_mem : (s.said e).mem = s.mem := rfl
@[simp] theorem said_fipParam1 : (s.said e).fipParam1 = s.fipParam1 := rfl
@[simp] theorem said_fipParam2 : (s.said e).fipParam2 = s.fipParam2 := rfl
@[simp] theorem said_sramUnionBuf : (s.said e).sramUnionBuf = s.sramUnionBuf := rfl
@[simp] theorem said_log : (s.said e).log = s.log ++ [e] := rfl
@[simp] theorem said_param1 (f : Param1Member) : (s.said e).param1 f = s.param1 f := rfl
@[simp] theorem said_param2 (f : Param2Member) : (s.said e).param2 f = s.param2 f := rfl
@[simp] theorem said_loader (f : LoaderMember) : (s.said e).loader f = s.loader f := rfl

end Said

variable (env : Bl2Env σ)

/-! ## Calls -/

/-- `p_rom_api_load_image`. -/
def loadImage (dst : Place) (offset size : Nat) (retry : Int) : Bl2M σ Int := do
  say (.load dst offset size retry)
  let s ← get
  let (ret, b, rom) := env.rom.loadImage s.rom offset size retry
  set { s.put b dst with rom := rom }
  return ret

/-- `p_rom_api_image_crc` on the memory. -/
def imageCrc (addr : Nat) (len : Int) : Bl2M σ Nat := do
  return env.rom.imageCrc len ((← get).mem.read addr len.toNat)

/-- `dec_verify_image`: a secure build also decrypts the image in its place. -/
def decVerifyImage (image : ImageName) (addr size decSkip : Nat) : Bl2M σ Int := do
  let s ← get
  let (ret, b) := env.decVerifyImage (s.mem.read addr size) decSkip s.fipParam1
  set { s with mem := s.mem.write addr b }
  let _ ← passes (.verify image) (0 ≤ ret)
  return ret

/-! ## The DDR parameters -/

/-- `load_param2`. -/
def loadParam2 (retry : Int) : Bl2M σ Int := do
  let ret ← loadImage env .fipParam2 ((← get).param1 .param2Loadaddr) PARAM2_SIZE retry
  if ret < 0 then return ret
  let s ← get
  if !(← passes .param2Magic (s.param2 .magic1 = FIP_PARAM2_MAGIC1)) then return -1
  let crc := env.rom.imageCrc (PARAM2_SIZE - 12 : Nat) (slice s.fipParam2 12 (PARAM2_SIZE - 12))
  if !(← passes .param2Cksum (crc = s.param2 .param2Cksum)) then return -1
  return 0

/-- `load_ddr_param`. -/
def loadDdrParam (retry : Int) : Bl2M σ Int := do
  if DDR_PARAM_SIZE ≤ (← get).param2 .ddrParamSize then
    modify fun s =>
      { s with fipParam2 := fipParam2Layout.set .ddrParamSize DDR_PARAM_SIZE s.fipParam2 }
  let s ← get
  let size := s.param2 .ddrParamSize
  let ret ← loadImage env .sramUnionBuf (s.param2 .ddrParamLoadaddr) size retry
  if ret < 0 then return ret
  let s ← get
  let crc := env.rom.imageCrc (toInt32 size) (s.sramUnionBuf.take (toInt32 size).toNat)
  if !(← passes .ddrParamCksum (crc = s.param2 .ddrParamCksum)) then return -1
  return 0

/-! ## The images in DRAM -/

/-- The members of Param2 that describe an image. -/
structure DramImage where
  name : ImageName
  cksum : Param2Member
  loadaddr : Param2Member
  size : Param2Member
  runaddr : Param2Member

/-- The members for the second core's program. -/
def blcp2nd : DramImage :=
  ⟨.blcp2nd, .blcp2ndCksum, .blcp2ndLoadaddr, .blcp2ndSize, .blcp2ndRunaddr⟩

/-- The members for the monitor. -/
def monitor : DramImage :=
  ⟨.monitor, .monitorCksum, .monitorLoadaddr, .monitorSize, .monitorRunaddr⟩

/-- What `load_blcp_2nd` and `load_monitor` have in common: the range tests, the load,
and the tests on what was loaded. -/
def loadDramImage (img : DramImage) (retry : Int) : Bl2M σ Int := do
  let s ← get
  let runaddr := s.param2 img.runaddr
  let size := s.param2 img.size
  if !(← passes (.runaddr img.name) (inRange runaddr DRAM_BASE DRAM_SIZE)) then throw .panic
  if !(← passes (.size img.name) (inRange ((runaddr + size) % 2 ^ 32) DRAM_BASE DRAM_SIZE)) then
    throw .panic
  let ret ← loadImage env (.dram runaddr) (s.param2 img.loadaddr) size retry
  if ret < 0 then return ret
  let crc ← imageCrc env runaddr (toInt32 size)
  if !(← passes (.cksum img.name) (crc = s.param2 img.cksum)) then return -1
  let ret ← decVerifyImage env img.name runaddr size 0
  if ret < 0 then return ret
  return 0

/-- `load_blcp_2nd`. -/
def loadBlcp2nd (retry : Int) : Bl2M σ Int := do
  let runaddr := (← get).param2 .blcp2ndRunaddr
  if runaddr = 0 then return 0
  let ret ← loadDramImage env blcp2nd retry
  if ret < 0 then return ret
  -- A C906L that already runs a small program in SRAM waits for the address there.
  if (← get).rtosBase = CVI_RTOS_MAGIC_CODE then
    say (.handOver runaddr)
    modify fun s => { s with rtosBase := runaddr }
  else
    say (.resetC906l runaddr)
  return 0

/-- `load_monitor`. -/
def loadMonitor (retry : Int) : Bl2M σ Int := do
  let runaddr := (← get).param2 .monitorRunaddr
  if runaddr = 0 then return 0
  let ret ← loadDramImage env monitor retry
  if ret < 0 then return ret
  modify fun s => { s with monitorEntry := runaddr }
  return 0

/-! ## Decompression -/

/-- The results of the LZMA decoder, and the sizes it starts with. -/
abbrev SZ_OK : Int := 0
abbrev SZ_ERROR_MEM : Int := 2
abbrev SZ_ERROR_UNSUPPORTED : Int := 4
abbrev SZ_ERROR_INPUT_EOF : Int := 6
abbrev LZMA_PROPS_SIZE : Nat := 5
abbrev RC_INIT_SIZE : Nat := 5

/-- `SzInit`: the arena is empty again. -/
def szInit : Bl2M σ Unit := modify fun s =>
  { s with compAllocBuf := DECOMP_ALLOC_ADDR, compAllocSize := DECOMP_ALLOC_SIZE }

/-- `SzAlloc`; 0 is `NULL`. -/
def szAlloc (size : Nat) : Bl2M σ Nat := do
  let s ← get
  let buf := (s.compAllocBuf + size) % 2 ^ 64
  set { s with compAllocBuf := buf }
  return if (buf + s.compAllocSize) % 2 ^ 64 ≤ buf then 0 else s.compAllocBuf

/-- `LzmaProps_Decode`. -/
def lzmaPropsDecode (data : Bytes) : Except Int LzmaProps :=
  let d := ofLE (data.take 1)
  if 9 * 5 * 5 ≤ d then .error SZ_ERROR_UNSUPPORTED
  else .ok
    { lc := d % 9, lp := d / 9 % 5, pb := d / 9 / 5
      dicSize := max (ofLE (slice data 1 4)) (2 ^ 12) }

/-- `LzmaProps_GetNumProbs`, in bytes. -/
def lzmaProbsSize (p : LzmaProps) : Nat := (1984 + 0x300 * 2 ^ (p.lc + p.lp)) * 2

/-- `LzmaDecode`: the result and the number of bytes decoded. -/
def lzmaDecode (dest destLen src srcLen : Nat) (propData : Bytes) : Bl2M σ (Int × Nat) := do
  if srcLen < RC_INIT_SIZE then return (SZ_ERROR_INPUT_EOF, 0)
  match lzmaPropsDecode propData with
  | .error res => return (res, 0)
  | .ok props =>
    let probs ← szAlloc (lzmaProbsSize props)
    if probs = 0 then return (SZ_ERROR_MEM, 0)
    let s ← get
    let run := env.lzmaDecDecodeToDic props destLen (s.mem.read src srcLen)
    set { s with mem := (s.mem.write probs run.probs).write dest run.out }
    if run.res = SZ_OK ∧ run.needsMoreInput then return (SZ_ERROR_INPUT_EOF, run.out.length)
    return (run.res, run.out.length)

/-- `decompress_lzma`. The value at `dst_size` is not read. -/
def decompressLzma (dst src srcSize : Nat) : Bl2M σ Int := do
  szInit
  let mem := (← get).mem
  let prop := mem.read src LZMA_PROPS_SIZE
  -- Only four of the eight size bytes are used.
  let uncompSize := ofLE (mem.read (src + LZMA_PROPS_SIZE) 4)
  let srcLen := toSize (srcSize - LZMA_PROPS_SIZE - 8)
  let (ret, _) ← lzmaDecode env dst uncompSize (src + LZMA_PROPS_SIZE + 8) srcLen prop
  if ret ≠ SZ_OK then return -EFAULT
  return 0

/-- `decompress_lz4`: the result of `LZ4F_decompress` is not looked at. -/
def decompressLz4 (dst dstSize src srcSize : Nat) : Bl2M σ Int := do
  szInit
  let dctx ← szAlloc env.lz4fDctxSize
  if dctx = 0 then return -1
  modify fun s => { s with mem := s.mem.write dctx (List.replicate env.lz4fDctxSize 0) }
  modify fun s =>
    { s with mem := s.mem.write dst (env.lz4fDecompress dstSize (s.mem.read src srcSize)) }
  return 0

/-- `decompress`. -/
def decompress (dst dstSize src srcSize : Nat) (type : CompressType) : Bl2M σ Int := do
  let ret ← match type with
    | .lz4 => decompressLz4 env dst dstSize src srcSize
    | .lzma => decompressLzma env dst src srcSize
    | .none => pure (-EINVAL)
  say (.decompress type ret)
  return ret

/-! ## The second stage loader -/

/-- `sizeof(struct loader_2nd_header)`. -/
abbrev LOADER_HEADER_SIZE : Nat := 32

/-- The end of the checksum in the header: what lies behind it is covered by it. -/
abbrev CKSUM_OFFSET : Nat := 12

/-- Which compression a magic number stands for. -/
def compType (magic : Nat) : CompressType :=
  if magic = LOADER_2ND_MAGIC_LZMA then .lzma
  else if magic = LOADER_2ND_MAGIC_LZ4 then .lz4
  else .none

/-- `load_loader_2nd`. -/
def loadLoader2nd (retry : Int) : Bl2M σ Int := do
  let loadaddr := (← get).param2 .loader2ndLoadaddr
  let ret ← loadImage env .sramUnionBuf loadaddr BLOCK_SIZE retry
  if ret < 0 then return -1
  let s ← get
  let size := s.loader .size
  let runaddr := s.loader .runaddr
  let readingSize := toInt32 (roundUp size BLOCK_SIZE)
  let type := compType (s.loader .magic)
  let imageBuf := if type = .none then runaddr else DECOMP_BUF_ADDR
  let ret ← loadImage env (.dram imageBuf) loadaddr (toSize readingSize) retry
  if ret < 0 then return -1
  -- `size - cksum_offset` is unsigned.
  let bodySize := (size + 2 ^ 32 - CKSUM_OFFSET) % 2 ^ 32
  let crc ← imageCrc env (imageBuf + CKSUM_OFFSET) (toInt32 bodySize)
  if !(← passes (.cksum .loader2nd) (crc = s.loader .cksum)) then return -1
  let ret ← decVerifyImage env .loader2nd (imageBuf + CKSUM_OFFSET) bodySize
    (LOADER_HEADER_SIZE - CKSUM_OFFSET)
  if ret < 0 then return ret
  if type ≠ .none then
    -- The header is not compressed, and the size passed on still counts it.
    modify fun s => { s with mem := s.mem.write runaddr (s.mem.read imageBuf LOADER_HEADER_SIZE) }
    let ret ← decompress env (runaddr + LOADER_HEADER_SIZE) DECOMP_DST_SIZE
      (imageBuf + LOADER_HEADER_SIZE) size type
    if ret < 0 then return -1
  modify fun s => { s with loader2ndEntry := (runaddr + LOADER_HEADER_SIZE) % 2 ^ 64 }
  return 0

/-! ## Retries -/

/-- The `for` loop over the retries: try until an attempt succeeds. Returns the
loop variable. -/
def tryUntil (attempt : Int → Bl2M σ Int) : (fuel : Nat) → (retry : Int) → Bl2M σ Int
  | 0, _ => throw .outOfFuel
  | fuel + 1, retry => do
    if retry < env.rom.getNumberOfRetries (← get).rom then
      if (← attempt retry) < 0 then tryUntil attempt fuel (retry + 1)
      else return retry
    else return retry

/-- The loop, with the `goto retry_from_flash` behind it. -/
def retryFromFlash (attempt : Int → Bl2M σ Int) : (fuel : Nat) → Bl2M σ Unit
  | 0 => throw .outOfFuel
  | fuel + 1 => do
    let retry ← tryUntil env attempt (fuel + 1) 0
    let rom := (← get).rom
    if env.rom.getNumberOfRetries rom ≤ retry then
      match env.rom.getBootSrc rom with
      | .uart | .sd | .usb =>
        say .flashInit
        modify fun s => { s with rom := env.rom.flashInit s.rom }
        retryFromFlash attempt fuel
      | _ => throw .panic

/-- One attempt of `load_ddr`. -/
def tryDdr (retry : Int) : Bl2M σ Int := do
  if (← loadParam2 env retry) < 0 then return -1
  loadDdrParam env retry

/-- `load_ddr`. -/
def loadDdr (fuel : Nat) : Bl2M σ Unit := do
  retryFromFlash env (tryDdr env) fuel
  say (.ddrInit ((← get).sramUnionBuf.take DDR_PARAM_SIZE))

/-- One attempt of `load_rest`. -/
def tryRest (retry : Int) : Bl2M σ Int := do
  if (← loadBlcp2nd env retry) < 0 then return -1
  if (← loadMonitor env retry) < 0 then return -1
  loadLoader2nd env retry

/-- `load_rest`, up to its jump. -/
def loadRest (fuel : Nat) : Bl2M σ Unit := do
  modify fun s => { s with monitorEntry := 0, loader2ndEntry := 0 }
  retryFromFlash env (tryRest env) fuel
  let s ← get
  if s.monitorEntry ≠ 0 then say (.jumpToMonitor s.monitorEntry s.loader2ndEntry)
  else say (.jumpToLoader2nd s.loader2ndEntry)

/-- `bl2_main`, from `load_ddr` on. -/
def bl2Main (fuel : Nat) : Bl2M σ Unit := do
  loadDdr env fuel
  loadRest env fuel

end Bl2

/-! ## The loader in parts -/

/-- What is read from `loader_2nd_header`. -/
structure LoaderHeader where
  magic : Nat
  size : Nat
  runaddr : Nat

namespace LoaderHeader

variable (h : LoaderHeader)

/-- Which compression a magic number stands for. -/
def compType : CompressType := Bl2.compType h.magic

/-- Where the image goes: a compressed one to the buffer of the decompressor. -/
def imageBuf : Nat := if h.compType = .none then h.runaddr else DECOMP_BUF_ADDR

/-- How much is read: whole blocks. -/
def readingSize : Nat := toSize (toInt32 (roundUp h.size BLOCK_SIZE))

/-- What the checksum covers; the subtraction is unsigned. -/
def bodySize : Nat := (h.size + 2 ^ 32 - Bl2.CKSUM_OFFSET) % 2 ^ 32

end LoaderHeader

namespace Bl2

variable {σ : Type} (env : Bl2Env σ) (h : LoaderHeader)

/-- `load_loader_2nd` behind the verification. -/
def loaderDecode : Bl2M σ Int := do
  if h.compType ≠ .none then
    modify fun s => { s with mem := s.mem.write h.runaddr (s.mem.read h.imageBuf LOADER_HEADER_SIZE) }
    let ret ← decompress env (h.runaddr + LOADER_HEADER_SIZE) DECOMP_DST_SIZE
      (h.imageBuf + LOADER_HEADER_SIZE) h.size h.compType
    if ret < 0 then return -1
  modify fun s => { s with loader2ndEntry := (h.runaddr + LOADER_HEADER_SIZE) % 2 ^ 64 }
  return 0

/-- `load_loader_2nd` behind the load of the header. -/
def loaderBody (cksum loadaddr : Nat) (retry : Int) : Bl2M σ Int := do
  let ret ← loadImage env (.dram h.imageBuf) loadaddr h.readingSize retry
  if ret < 0 then return -1
  let crc ← imageCrc env (h.imageBuf + CKSUM_OFFSET) (toInt32 h.bodySize)
  if !(← passes (.cksum .loader2nd) (crc = cksum)) then return -1
  let ret ← decVerifyImage env .loader2nd (h.imageBuf + CKSUM_OFFSET) h.bodySize
    (LOADER_HEADER_SIZE - CKSUM_OFFSET)
  if ret < 0 then return ret
  loaderDecode env h

/-- The header that the buffer in the SRAM holds. -/
def header (s : Bl2 σ) : LoaderHeader := ⟨s.loader .magic, s.loader .size, s.loader .runaddr⟩

/-- `load_loader_2nd` as the load of the header and what depends on it. -/
theorem loadLoader2nd_eq (retry : Int) : loadLoader2nd env retry = (do
    let loadaddr := (← get).param2 .loader2ndLoadaddr
    let ret ← loadImage env .sramUnionBuf loadaddr BLOCK_SIZE retry
    if ret < 0 then return -1
    let s ← get
    loaderBody env s.header (s.loader .cksum) loadaddr retry) := rfl

end Bl2

end LicheeRvNano
