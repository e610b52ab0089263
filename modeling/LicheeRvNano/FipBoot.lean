import LicheeRvNano.Bl2
import LicheeRvNano.FipTool

/-!
# From fiptool to the monitor

BL2 runs on the file that fiptool wrote. The two programs agree on the format, so
each test passes at the first try and the images end up in memory as they went in,
with one exception: an image that ends exactly at the end of the DRAM is refused.
-/

namespace LicheeRvNano

open Layout Bl2

/-- The boot ROM with `file` on the medium it boots from, as long as its state is in
`card`: it allows a try, the first try of a load copies the bytes of the file, and the
checksum is that of fiptool. -/
structure Rom.Reads {σ : Type} (rom : Rom σ) (file : Bytes) (card : σ → Prop) : Prop where
  retries : ∀ r, card r → 0 < rom.getNumberOfRetries r
  load : ∀ r offset size, card r → offset + size ≤ file.length → ∃ ret r',
    rom.loadImage r offset size 0 = (ret, slice file offset size, r') ∧ 0 ≤ ret ∧ card r'
  crc : ∀ b : Bytes, b.length < 2 ^ 31 → rom.imageCrc b.length b = 0xCAFE0000 + (crcHqx b 0).toNat

/-- The decoder linked into BL2 undoes the compressor of fiptool on `uboot`. The
compressor writes the format of `lzma.FORMAT_ALONE`: the properties `lc = 3`, `lp = 0`,
`pb = 2`, four bytes of dictionary size, an unknown length, and a stream with an end
mark. The decoder stops at the end mark, so it does not matter what follows. -/
structure Bl2Env.Inverts {σ : Type} (env : Bl2Env σ) (lzmaCompress : Bytes → Bytes)
    (uboot : Bytes) : Prop where
  length : 13 + RC_INIT_SIZE ≤ (lzmaCompress uboot).length
  props : (lzmaCompress uboot).take 1 = [0x5D]
  unknown : slice (lzmaCompress uboot) 5 8 = List.replicate 8 0xFF
  decode : ∀ props rest, lzmaPropsDecode ((lzmaCompress uboot).take 5) = .ok props →
    ∃ probs, probs.length ≤ lzmaProbsSize props ∧
      env.lzmaDecDecodeToDic props 0xFFFFFFFF ((lzmaCompress uboot).drop 13 ++ rest) =
        { res := SZ_OK, needsMoreInput := false, out := uboot, probs := probs }

namespace Bl2

variable {σ : Type} {env : Bl2Env σ} {file : Bytes} {card : σ → Prop} {s : Bl2 σ}

/-! ## Loads and tests that succeed -/

theorem inRange_dram {addr : Nat} :
    inRange addr DRAM_BASE DRAM_SIZE = true ↔ 0x80000000 ≤ addr ∧ addr < 0x90000000 :=
  decide_eq_true_iff

/-- Without secure boot an image is accepted as it is. -/
theorem decVerifyImage_none (h : env.decVerifyImage = decVerifyNone) (image : ImageName)
    (addr size decSkip : Nat) : decVerifyImage env image addr size decSkip s =
      .ok 0 (s.said (.test (.verify image) true)) := by
  simp only [decVerifyImage, h, decVerifyNone, get_bind, set_bind, Mem.write_read_self, passes_bind]
  rfl

/-- An image that ends at the end of the DRAM: the end is tested as if it were the
address of a byte. -/
theorem loadDramImage_panic {img : DramImage} {A n : Nat} (hA : s.param2 img.runaddr = A)
    (hn : s.param2 img.size = n) (hlo : 0x80000000 ≤ A) (hhi : A < 0x90000000)
    (hend : A + n = 0x90000000) : ∃ s', loadDramImage env img 0 s = .error .panic s' := by
  have hrun : inRange A DRAM_BASE DRAM_SIZE = true := inRange_dram.mpr (by omega)
  have hout : inRange (0x90000000 % 2 ^ 32) DRAM_BASE DRAM_SIZE = false := rfl
  simp only [loadDramImage, get_bind, hA, hn, hend, passes_bind, hrun, hout, ite_apply_state,
    Bool.not_true, Bool.not_false, Bool.false_eq_true, if_false, if_true]
  exact ⟨_, bind_error _ rfl⟩

section Loads

variable (hrom : env.rom.Reads file card)
include hrom

theorem loadImage_ok (hc : card s.rom) (d : Place) {off size : Nat}
    (h : off + size ≤ file.length) : ∃ ret r, loadImage env d off size 0 s =
      .ok ret { (s.said (.load d off size 0)).put (slice file off size) d with rom := r } ∧
      0 ≤ ret ∧ card r := by
  obtain ⟨ret, r, hload, hret, hr⟩ := hrom.load s.rom off size hc h
  refine ⟨ret, r, ?_, hret, hr⟩
  simp only [loadImage, say_bind, get_bind, said_rom, hload, set_bind, pure_apply]

theorem imageCrc_eq {data : Bytes} {n : Nat} (hn : data.length = n) (h : n < 2 ^ 31) :
    env.rom.imageCrc (toInt32 n) data = 0xCAFE0000 + (crcHqx data 0).toNat := by
  subst hn
  rw [toInt32, if_pos h, hrom.crc data h]

/-- An image whose description in Param2 is that of a part of the file, and that ends
before the end of the DRAM. -/
theorem loadDramImage_ok (hnone : env.decVerifyImage = decVerifyNone) (hc : card s.rom)
    (img : DramImage) {A n off : Nat}
    (hA : s.param2 img.runaddr = A) (hn : s.param2 img.size = n) (hoff : s.param2 img.loadaddr = off)
    (hck : s.param2 img.cksum = 0xCAFE0000 + (crcHqx (slice file off n) 0).toNat)
    (hlo : 0x80000000 ≤ A) (hhi : A + n < 0x90000000) (hfile : off + n ≤ file.length) :
    ∃ r, loadDramImage env img 0 s = .ok 0
      { s with
        mem := s.mem.write A (slice file off n), rom := r
        log := s.log ++ [.test (.runaddr img.name) true, .test (.size img.name) true,
          .load (.dram A) off n 0, .test (.cksum img.name) true, .test (.verify img.name) true] } ∧
      card r := by
  have hrun : inRange A DRAM_BASE DRAM_SIZE = true := inRange_dram.mpr (by omega)
  have hend : inRange ((A + n) % 2 ^ 32) DRAM_BASE DRAM_SIZE = true := inRange_dram.mpr (by omega)
  obtain ⟨ret, r, hload, hret, hr⟩ := loadImage_ok hrom
    (s := (s.said (.test (.runaddr img.name) true)).said (.test (.size img.name) true))
    hc (.dram A) hfile
  have hlen := length_slice hfile
  have hsize : (toInt32 n).toNat = n := by
    rw [toInt32, if_pos (by omega), Int.toNat_natCast]
  have hread : (s.mem.write A (slice file off n)).read A n = slice file off n := by
    nth_rewrite 2 [← hlen]
    rw [Mem.read_write_self]
  refine ⟨r, ?_, hr⟩
  simp only [loadDramImage, get_bind, hA, hn, hoff, passes_bind, hrun, hend, ite_apply_state,
    Bool.not_true, Bool.false_eq_true, if_false, pure_bind, bind_ok _ hload, not_lt.mpr hret,
    imageCrc, put, bind_assoc, said_mem, hsize, hread, imageCrc_eq hrom hlen (by omega), hck,
    decide_true, bind_ok _ (decVerifyImage_none hnone _ _ _ _), pure_apply]
  simp [said]

theorem loadBlcp2nd_ok (hnone : env.decVerifyImage = decVerifyNone) (hc : card s.rom)
    {A n off : Nat} (hA : s.param2 .blcp2ndRunaddr = A) (hn : s.param2 .blcp2ndSize = n)
    (hoff : s.param2 .blcp2ndLoadaddr = off)
    (hck : s.param2 .blcp2ndCksum = 0xCAFE0000 + (crcHqx (slice file off n) 0).toNat)
    (hlo : 0x80000000 ≤ A) (hhi : A + n < 0x90000000) (hfile : off + n ≤ file.length) :
    ∃ s' e, loadBlcp2nd env 0 s = .ok 0 s' ∧ card s'.rom ∧
      (e = .handOver A ∨ e = .resetC906l A) ∧ s'.fipParam2 = s.fipParam2 ∧
      s'.mem = s.mem.write A (slice file off n) ∧
      s'.log = s.log ++ [.test (.runaddr .blcp2nd) true, .test (.size .blcp2nd) true,
        .load (.dram A) off n 0, .test (.cksum .blcp2nd) true, .test (.verify .blcp2nd) true, e] := by
  obtain ⟨r, hload, hr⟩ := loadDramImage_ok hrom hnone hc blcp2nd hA hn hoff hck hlo hhi hfile
  have hA0 : A ≠ 0 := by omega
  by_cases hb : s.rtosBase = CVI_RTOS_MAGIC_CODE
  · have hrun : loadBlcp2nd env 0 s = .ok 0
        { s with
          mem := s.mem.write A (slice file off n), rom := r, rtosBase := A
          log := s.log ++ [.test (.runaddr .blcp2nd) true, .test (.size .blcp2nd) true,
            .load (.dram A) off n 0, .test (.cksum .blcp2nd) true, .test (.verify .blcp2nd) true,
            .handOver A] } := by
      simp only [loadBlcp2nd, get_bind, hA, hA0, ite_apply_state, if_false, bind_ok _ hload,
        lt_irrefl, hb, if_true, say_bind, modify_bind, pure_apply, said]
      simp [blcp2nd]
    exact ⟨_, _, hrun, hr, .inl rfl, rfl, rfl, rfl⟩
  · have hrun : loadBlcp2nd env 0 s = .ok 0
        { s with
          mem := s.mem.write A (slice file off n), rom := r
          log := s.log ++ [.test (.runaddr .blcp2nd) true, .test (.size .blcp2nd) true,
            .load (.dram A) off n 0, .test (.cksum .blcp2nd) true, .test (.verify .blcp2nd) true,
            .resetC906l A] } := by
      simp only [loadBlcp2nd, get_bind, hA, hA0, ite_apply_state, if_false, bind_ok _ hload,
        lt_irrefl, hb, say_bind, pure_apply, said]
      simp [blcp2nd]
    exact ⟨_, _, hrun, hr, .inr rfl, rfl, rfl, rfl⟩

theorem loadMonitor_ok (hnone : env.decVerifyImage = decVerifyNone) (hc : card s.rom)
    {A n off : Nat} (hA : s.param2 .monitorRunaddr = A) (hn : s.param2 .monitorSize = n)
    (hoff : s.param2 .monitorLoadaddr = off)
    (hck : s.param2 .monitorCksum = 0xCAFE0000 + (crcHqx (slice file off n) 0).toNat)
    (hlo : 0x80000000 ≤ A) (hhi : A + n < 0x90000000) (hfile : off + n ≤ file.length) :
    ∃ s', loadMonitor env 0 s = .ok 0 s' ∧ card s'.rom ∧ s'.fipParam2 = s.fipParam2 ∧
      s'.monitorEntry = A ∧ s'.mem = s.mem.write A (slice file off n) ∧
      s'.log = s.log ++ [.test (.runaddr .monitor) true, .test (.size .monitor) true,
        .load (.dram A) off n 0, .test (.cksum .monitor) true, .test (.verify .monitor) true] := by
  obtain ⟨r, hload, hr⟩ := loadDramImage_ok hrom hnone hc monitor hA hn hoff hck hlo hhi hfile
  have hA0 : A ≠ 0 := by omega
  have hrun : loadMonitor env 0 s = .ok 0
      { s with
        mem := s.mem.write A (slice file off n), rom := r, monitorEntry := A
        log := s.log ++ [.test (.runaddr .monitor) true, .test (.size .monitor) true,
          .load (.dram A) off n 0, .test (.cksum .monitor) true, .test (.verify .monitor) true] } := by
    simp only [loadMonitor, get_bind, hA, hA0, ite_apply_state, if_false, bind_ok _ hload,
      lt_irrefl, modify_bind, pure_apply]
    rfl
  exact ⟨_, hrun, hr, rfl, rfl, rfl, rfl⟩

end Loads

/-! ## Decompression -/

/-- The first block of the arena. -/
theorem szAlloc_ok {n : Nat} (hbuf : s.compAllocBuf = DECOMP_ALLOC_ADDR)
    (hsize : s.compAllocSize = DECOMP_ALLOC_SIZE) (hn : n ≤ 0x100000) :
    szAlloc n s = .ok 0x81800000 { s with compAllocBuf := 0x81800000 + n } := by
  have hmod : (0x81800000 + n) % 2 ^ 64 = 0x81800000 + n := Nat.mod_eq_of_lt (by omega)
  have hroom : ¬ (0x81800000 + n + 0x100000) % 2 ^ 64 ≤ 0x81800000 + n := by omega
  simp only [szAlloc, get_bind, set_bind, hbuf, hsize, hmod, hroom, if_false, pure_apply]

theorem lzmaDecode_ok {dest destLen src srcLen : Nat} {propData uboot probs : Bytes}
    {props : LzmaProps} (hbuf : s.compAllocBuf = DECOMP_ALLOC_ADDR)
    (hsize : s.compAllocSize = DECOMP_ALLOC_SIZE) (hlen : RC_INIT_SIZE ≤ srcLen)
    (hdec : lzmaPropsDecode propData = .ok props) (hn : lzmaProbsSize props ≤ 0x100000)
    (hrun : env.lzmaDecDecodeToDic props destLen (s.mem.read src srcLen) =
      { res := SZ_OK, needsMoreInput := false, out := uboot, probs := probs }) :
    lzmaDecode env dest destLen src srcLen propData s = .ok (SZ_OK, uboot.length)
      { s with
        mem := (s.mem.write 0x81800000 probs).write dest uboot
        compAllocBuf := 0x81800000 + lzmaProbsSize props } := by
  simp only [lzmaDecode, not_lt.mpr hlen, if_false, hdec, bind_ok _ (szAlloc_ok hbuf hsize hn),
    get_bind, set_bind, hrun, Bool.false_eq_true, and_false, OfNat.ofNat_ne_zero, pure_apply,
    ite_apply_state]

/-- The properties byte of the default parameters, and the array they need. -/
theorem lzmaPropsDecode_default {c : Bytes} (h : c.take 1 = [0x5D]) :
    ∃ props, lzmaPropsDecode (c.take 5) = .ok props ∧ lzmaProbsSize props = 16256 := by
  have hd : ofLE ((c.take 5).take 1) = 93 := by
    rw [List.take_take, Nat.min_eq_left (by omega), h]
    rfl
  refine ⟨⟨3, 0, 2, max (ofLE (slice (c.take 5) 1 4)) (2 ^ 12)⟩, ?_, by simp [lzmaProbsSize]⟩
  simp [lzmaPropsDecode, hd]

/-- The loader is decompressed to `dst` from where its compressed form lies, whatever
follows it. -/
theorem decompressLzma_ok {lzmaCompress : Bytes → Bytes} {uboot : Bytes}
    (hinv : env.Inverts lzmaCompress uboot) (dst src size : Nat)
    (hsrc : s.mem.read src (lzmaCompress uboot).length = lzmaCompress uboot)
    (hsize : (lzmaCompress uboot).length ≤ size) (hlt : size < 2 ^ 32) :
    ∃ probs buf, probs.length ≤ 0x100000 ∧ decompressLzma env dst src size s = .ok 0
      { s with
        mem := (s.mem.write 0x81800000 probs).write dst uboot
        compAllocBuf := buf, compAllocSize := DECOMP_ALLOC_SIZE } := by
  obtain ⟨hlen, hprops, hunknown, hdecode⟩ := hinv
  generalize lzmaCompress uboot = c at *
  simp only [RC_INIT_SIZE] at hlen
  -- the three parts of the compressed loader that are looked at
  have hprop : s.mem.read src 5 = c.take 5 := s.mem.read_part (k := 0) hsrc (by omega)
  have huncomp : ofLE (s.mem.read (src + 5) 4) = 0xFFFFFFFF := by
    have h : slice (slice c 5 8) 0 4 = slice c 5 4 := slice_slice (by omega)
    rw [s.mem.read_part hsrc (by omega), ← h, hunknown]
    rfl
  have hstream : s.mem.read (src + 5 + 8) (size - 13) =
      c.drop 13 ++ s.mem.read (src + c.length) (size - c.length) := by
    have h₁ : size - 13 = (c.length - 13) + (size - c.length) := by omega
    have h₂ : slice c 13 (c.length - 13) = c.drop 13 := List.take_of_length_le (by simp)
    have h₃ : src + 13 + (c.length - 13) = src + c.length := by omega
    rw [Nat.add_assoc, h₁, Mem.read_add, s.mem.read_part hsrc (by omega), h₂, h₃]
  have hsrcLen : toSize ((size : Int) - (5 : Nat) - 8) = size - 13 := by
    rw [toSize]
    omega
  -- the properties, and with them the size of the probability array
  obtain ⟨props, hdec, hprobsSize⟩ := lzmaPropsDecode_default hprops
  obtain ⟨probs, hprobs, hrun⟩ := hdecode props (s.mem.read (src + c.length) (size - c.length)) hdec
  rw [hprobsSize] at hprobs
  rw [← hstream] at hrun
  have hlzma : lzmaDecode env dst 0xFFFFFFFF (src + 5 + 8) (size - 13) (c.take 5)
      { s with compAllocBuf := DECOMP_ALLOC_ADDR, compAllocSize := DECOMP_ALLOC_SIZE } = _ :=
    lzmaDecode_ok rfl rfl (by simp only [RC_INIT_SIZE]; omega) hdec (by omega) hrun
  refine ⟨probs, 0x81800000 + lzmaProbsSize props, by omega, ?_⟩
  simp only [decompressLzma, szInit, modify_bind, get_bind, LZMA_PROPS_SIZE, hprop, huncomp, hsrcLen,
    bind_ok _ hlzma, ne_eq, not_true_eq_false, if_false, pure_apply]

/-! ## The second stage loader -/

/-- What the header of the loader says about a loader of `n` bytes with its header,
compressed with LZMA, that runs at `T`. -/
structure LoaderHead (image : Bytes) (T : Nat) : Prop where
  magic : loader2ndHeader.get .magic (image.take BLOCK_SIZE) = LOADER_2ND_MAGIC_LZMA
  cksum : loader2ndHeader.get .cksum (image.take BLOCK_SIZE) =
    0xCAFE0000 + (crcHqx (image.drop 12) 0).toNat
  size : loader2ndHeader.get .size (image.take BLOCK_SIZE) = image.length
  runaddr : loader2ndHeader.get .runaddr (image.take BLOCK_SIZE) + 0x20 = T

/-- The header is read from the first bytes of the buffer. -/
theorem loader_overlay {b : Bytes} (h : 32 ≤ b.length) (buf : Bytes) (f : LoaderMember) :
    loader2ndHeader.get f (overlay b buf) = loader2ndHeader.get f b := by
  rw [Layout.get, Layout.get, Layout.member, Layout.member, overlay, slice_append_left]
  cases f
  all_goals
    simp only [loader2ndHeader, offsetOf, widthOf, reduceCtorEq, if_false, if_true]
    omega

theorem roundUp_of_mod {n : Nat} (h : n % 512 = 0) (hlt : n < 2 ^ 31) : roundUp n 512 = n := by
  rw [roundUp]
  omega

/-- The header is copied and the loader decompressed, from the buffer to `T`. -/
theorem loaderDecode_ok {lzmaCompress : Bytes → Bytes} {uboot : Bytes} {h : LoaderHeader} {T : Nat}
    (hinv : env.Inverts lzmaCompress uboot) (htype : h.compType = .lzma)
    (hbody : s.mem.read (0x81900000 + 32) (lzmaCompress uboot).length = lzmaCompress uboot)
    (hsize : (lzmaCompress uboot).length ≤ h.size) (hlt : h.size < 2 ^ 32)
    (hrun : h.runaddr + 32 = T) (hT : T ≤ 0x81800000) :
    ∃ probs buf, probs.length ≤ 0x100000 ∧ loaderDecode env h s = .ok 0
      { s with
        mem := ((s.mem.write h.runaddr (s.mem.read 0x81900000 32)).write 0x81800000 probs).write
          T uboot
        compAllocBuf := buf, compAllocSize := DECOMP_ALLOC_SIZE, loader2ndEntry := T
        log := s.log ++ [.decompress .lzma 0] } := by
  have hbuf : h.imageBuf = 0x81900000 := by
    rw [LoaderHeader.imageBuf, htype]
    rfl
  -- the copy ends before the buffer begins
  have hkept : (s.mem.write h.runaddr (s.mem.read 0x81900000 32)).read (0x81900000 + 32)
      (lzmaCompress uboot).length = lzmaCompress uboot := by
    rw [Mem.read_write_of_disjoint _ (.inl (by rw [Mem.length_read]; omega)), hbody]
  have hentry : T % 2 ^ 64 = T := Nat.mod_eq_of_lt (by omega)
  obtain ⟨probs, buf, hprobs, hdec⟩ := decompressLzma_ok
    (s := { s with mem := s.mem.write h.runaddr (s.mem.read 0x81900000 32) })
    hinv T (0x81900000 + 32) h.size hkept hsize hlt
  refine ⟨probs, buf, hprobs, ?_⟩
  simp only [loaderDecode, htype, ne_eq, reduceCtorEq, not_false_eq_true, if_true, modify_bind, hbuf,
    LOADER_HEADER_SIZE, hrun, decompress, bind_assoc, bind_ok _ hdec, say_bind, said, pure_bind,
    lt_irrefl, if_false, hentry, pure_apply]

/-- The loader is read to the buffer and passes its tests. -/
theorem loaderBody_ok (hrom : env.rom.Reads file card) (hnone : env.decVerifyImage = decVerifyNone)
    (hc : card s.rom) {h : LoaderHeader} {image : Bytes} {off cksum : Nat}
    (htype : h.compType = .lzma) (hsize : h.size = image.length)
    (hfile : off + image.length ≤ file.length) (himage : slice file off image.length = image)
    (hmod : image.length % 512 = 0) (hlen : image.length ≤ 0xF00200) (hpos : 512 ≤ image.length)
    (hcksum : cksum = 0xCAFE0000 + (crcHqx (image.drop 12) 0).toNat) :
    ∃ r, card r ∧ loaderBody env h cksum off 0 s = loaderDecode env h
      { s with
        mem := s.mem.write 0x81900000 image, rom := r
        log := s.log ++ [.load (.dram 0x81900000) off image.length 0,
          .test (.cksum .loader2nd) true, .test (.verify .loader2nd) true] } := by
  have hbuf : h.imageBuf = 0x81900000 := by
    rw [LoaderHeader.imageBuf, htype]
    rfl
  have hreading : h.readingSize = image.length := by
    rw [LoaderHeader.readingSize, hsize, roundUp_of_mod hmod (by omega), toInt32, if_pos (by omega),
      toSize]
    omega
  have hbodySize : h.bodySize = image.length - 12 := by
    rw [LoaderHeader.bodySize, hsize, CKSUM_OFFSET]
    omega
  have hcrcLen : (toInt32 (image.length - 12)).toNat = image.length - 12 := by
    rw [toInt32, if_pos (by omega), Int.toNat_natCast]
  have hdrop : (s.mem.write 0x81900000 image).read (0x81900000 + 12) (image.length - 12) =
      image.drop 12 := by
    rw [Mem.read_write_part _ (by omega), slice, List.take_of_length_le (by simp)]
  have hdropLen : (image.drop 12).length = image.length - 12 := List.length_drop
  obtain ⟨ret, r, hload, hret, hr⟩ := loadImage_ok hrom hc (.dram 0x81900000) hfile
  rw [himage] at hload
  refine ⟨r, hr, ?_⟩
  simp only [loaderBody, hbuf, hreading, bind_ok _ hload, not_lt.mpr hret, if_false, imageCrc,
    bind_assoc, get_bind, pure_bind, put, said, CKSUM_OFFSET, hbodySize, hcrcLen, hdrop,
    imageCrc_eq hrom hdropLen (by omega), hcksum, passes_bind, decide_true, Bool.not_true,
    Bool.false_eq_true, bind_ok _ (decVerifyImage_none hnone _ _ _ _), lt_irrefl, List.append_assoc,
    List.cons_append, List.nil_append]

/-- The first load brings the header to the SRAM. -/
theorem loaderHeader_ok (hrom : env.rom.Reads file card) (hc : card s.rom) {image : Bytes}
    {off : Nat} (hfile : off + image.length ≤ file.length)
    (himage : slice file off image.length = image) (h512 : 512 ≤ image.length) :
    ∃ ret t, loadImage env .sramUnionBuf off BLOCK_SIZE 0 s = .ok ret t ∧ 0 ≤ ret ∧ card t.rom ∧
      t.mem = s.mem ∧ t.monitorEntry = s.monitorEntry ∧
      t.log = s.log ++ [.load .sramUnionBuf off 512 0] ∧
      ∀ f, t.loader f = loader2ndHeader.get f (image.take 512) := by
  have hfirst : slice file off 512 = image.take 512 := by
    rw [← himage, slice, slice, List.take_take, Nat.min_eq_left h512]
  obtain ⟨ret, r, hload, hret, hr⟩ :=
    loadImage_ok hrom hc .sramUnionBuf (show off + 512 ≤ file.length by omega)
  rw [hfirst] at hload
  refine ⟨ret, _, hload, hret, hr, rfl, rfl, rfl, fun f => ?_⟩
  exact loader_overlay (by rw [List.length_take]; omega) _ f

/-- An image in the file passes the tests of the loader. -/
theorem loadLoader2nd_tested (hrom : env.rom.Reads file card)
    (hnone : env.decVerifyImage = decVerifyNone) (hc : card s.rom) {image : Bytes} {off T : Nat}
    (hoff : s.param2 .loader2ndLoadaddr = off) (hfile : off + image.length ≤ file.length)
    (himage : slice file off image.length = image) (hmod : image.length % 512 = 0)
    (hlen : image.length ≤ 0xF00200) (h512 : 512 ≤ image.length) (hhead : LoaderHead image T) :
    ∃ h t, loadLoader2nd env 0 s = loaderDecode env h t ∧ h.compType = .lzma ∧
      h.size = image.length ∧ h.runaddr + 32 = T ∧ card t.rom ∧
      t.mem = s.mem.write 0x81900000 image ∧ t.monitorEntry = s.monitorEntry ∧
      t.log = s.log ++ [.load .sramUnionBuf off 512 0, .load (.dram 0x81900000) off image.length 0,
        .test (.cksum .loader2nd) true, .test (.verify .loader2nd) true] := by
  obtain ⟨ret, t, hload, hret, hr, hmem, hentry, hlog, hmember⟩ :=
    loaderHeader_ok (s := s) hrom hc hfile himage h512
  have hheader : loadLoader2nd env 0 s = loaderBody env t.header (t.loader .cksum) off 0 t := by
    rw [loadLoader2nd_eq, get_bind, hoff]
    refine (bind_ok _ hload).trans ?_
    rw [if_neg (not_lt.mpr hret), get_bind]
  have htype : t.header.compType = .lzma := by
    rw [LoaderHeader.compType, header, hmember, hhead.magic]
    rfl
  have hsize : t.header.size = image.length := (hmember .size).trans hhead.size
  have hrun : t.header.runaddr + 32 = T := by
    rw [← hhead.runaddr]
    exact congrArg (· + 32) (hmember .runaddr)
  obtain ⟨r, hr', hloaded⟩ := loaderBody_ok (s := t) hrom hnone hr htype hsize hfile himage hmod hlen
    h512 ((hmember .cksum).trans hhead.cksum)
  refine ⟨_, _, hheader.trans hloaded, htype, hsize, hrun, hr', ?_, hentry, ?_⟩
  · rw [hmem]
  · rw [hlog, List.append_assoc]
    rfl

theorem loadLoader2nd_ok (hrom : env.rom.Reads file card) (hnone : env.decVerifyImage = decVerifyNone)
    (hc : card s.rom) {lzmaCompress : Bytes → Bytes} {uboot image : Bytes} {off T : Nat}
    (hinv : env.Inverts lzmaCompress uboot) (hoff : s.param2 .loader2ndLoadaddr = off)
    (hfile : off + image.length ≤ file.length) (himage : slice file off image.length = image)
    (hmod : image.length % 512 = 0) (hlen : image.length ≤ 0xF00200) (hhead : LoaderHead image T)
    (hbody : slice image 32 (lzmaCompress uboot).length = lzmaCompress uboot)
    (hbodyLen : 32 + (lzmaCompress uboot).length ≤ image.length)
    (hT : T ≤ 0x81800000) :
    ∃ s' probs, loadLoader2nd env 0 s = .ok 0 s' ∧ card s'.rom ∧
      s'.monitorEntry = s.monitorEntry ∧ s'.loader2ndEntry = T ∧ probs.length ≤ 0x100000 ∧
      s'.mem = (((s.mem.write 0x81900000 image).write (T - 0x20) (image.take 32)).write
        0x81800000 probs).write T uboot ∧
      s'.log = s.log ++ [.load .sramUnionBuf off 512 0, .load (.dram 0x81900000) off image.length 0,
        .test (.cksum .loader2nd) true, .test (.verify .loader2nd) true, .decompress .lzma 0] := by
  obtain ⟨h, t, htested, htype, hsize, hrun, hr, hmem, hentry, hlog⟩ :=
    loadLoader2nd_tested hrom hnone hc hoff hfile himage hmod hlen (by omega) hhead
  have htake : t.mem.read 0x81900000 32 = image.take 32 := by
    rw [hmem]
    exact s.mem.read_write_part (a := 0x81900000) (k := 0) (by omega)
  obtain ⟨probs, buf, hprobs, hdecoded⟩ := loaderDecode_ok (s := t) hinv htype
    (by rw [hmem, Mem.read_write_part _ (by omega), hbody]) (by omega) (by omega) hrun hT
  refine ⟨_, probs, htested.trans hdecoded, hr, hentry, rfl, hprobs, ?_, ?_⟩
  · have hT32 : h.runaddr = T - 0x20 := by omega
    simp only [htake, hT32]
    rw [hmem]
  · rw [hlog, List.append_assoc]
    rfl

/-! ## The DDR parameters -/

section Params

variable (hrom : env.rom.Reads file card)
include hrom

theorem loadParam2_ok (hc : card s.rom) {off : Nat} {p : Bytes}
    (hoff : s.param1 .param2Loadaddr = off) (hfile : off + 0x1000 ≤ file.length)
    (hp : slice file off 0x1000 = p)
    (hmagic : ∀ rest, fipParam2Layout.get .magic1 (p ++ rest) = FIP_PARAM2_MAGIC1)
    (hck : ∀ rest, fipParam2Layout.get .param2Cksum (p ++ rest) =
      0xCAFE0000 + (crcHqx (p.drop 12) 0).toNat) :
    ∃ r, loadParam2 env 0 s = .ok 0
      { s with
        fipParam2 := overlay p s.fipParam2, rom := r
        log := s.log ++ [.load .fipParam2 off 0x1000 0, .test .param2Magic true,
          .test .param2Cksum true] } ∧ card r := by
  obtain ⟨ret, r, hload, hret, hr⟩ := loadImage_ok hrom hc .fipParam2 hfile
  have hlen : p.length = 0x1000 := by rw [← hp, length_slice hfile]
  rw [hp] at hload
  have hslice : slice (overlay p s.fipParam2) 12 4084 = p.drop 12 := by
    rw [overlay, slice_append_left (by omega), slice, List.take_of_length_le (by simp [hlen])]
  have hcrc : env.rom.imageCrc (4084 : Nat) (p.drop 12) =
      0xCAFE0000 + (crcHqx (p.drop 12) 0).toNat := by
    have h := hrom.crc (p.drop 12) (by rw [List.length_drop]; omega)
    rwa [List.length_drop, hlen] at h
  have hmagic' : fipParam2Layout.get .magic1 (overlay p s.fipParam2) = FIP_PARAM2_MAGIC1 := hmagic _
  have hck' : fipParam2Layout.get .param2Cksum (overlay p s.fipParam2) = _ := hck _
  refine ⟨r, ?_, hr⟩
  simp only [loadParam2, get_bind, hoff, PARAM2_SIZE, bind_ok _ hload, ite_apply_state,
    not_lt.mpr hret, if_false, param2, put, said, passes_bind, hmagic', hck', Nat.reduceSub, hslice,
    hcrc, decide_true, Bool.not_true, Bool.false_eq_true, pure_apply, List.append_assoc,
    List.cons_append, List.nil_append]

theorem loadDdrParam_ok (hc : card s.rom) {n off : Nat} (hlen : 28 ≤ s.fipParam2.length)
    (hn : s.param2 .ddrParamSize = n) (hoff : s.param2 .ddrParamLoadaddr = off)
    (hck : s.param2 .ddrParamCksum = 0xCAFE0000 + (crcHqx (slice file off n) 0).toNat)
    (hle : n ≤ 16384) (hfile : off + n ≤ file.length) :
    ∃ r, loadDdrParam env 0 s = .ok 0
      { s with
        sramUnionBuf := overlay (slice file off n) s.sramUnionBuf, rom := r
        log := s.log ++ [.load .sramUnionBuf off n 0, .test .ddrParamCksum true] } ∧ card r := by
  obtain ⟨ret, r, hload, hret, hr⟩ := loadImage_ok hrom hc .sramUnionBuf hfile
  -- A size that is cut is cut to what it was.
  have hcut : DDR_PARAM_SIZE ≤ n →
      fipParam2Layout.set .ddrParamSize DDR_PARAM_SIZE s.fipParam2 = s.fipParam2 := by
    intro h
    have hsize : fipParam2Layout.get .ddrParamSize s.fipParam2 = DDR_PARAM_SIZE := by
      simp only [param2, DDR_PARAM_SIZE] at hn h ⊢
      omega
    rw [← hsize]
    exact set_get hlen
  have hdata := length_slice hfile
  have hlen' : (toInt32 n).toNat = n := by
    rw [toInt32, if_pos (by omega), Int.toNat_natCast]
  have htake : (overlay (slice file off n) s.sramUnionBuf).take n = slice file off n := by
    rw [overlay, List.take_left' hdata]
  refine ⟨r, ?_, hr⟩
  by_cases h : DDR_PARAM_SIZE ≤ n
  · simp only [loadDdrParam, get_bind, hn, h, if_true, modify_bind, hcut h, hoff, bind_ok _ hload,
      ite_apply_state, not_lt.mpr hret, if_false, put, said, hlen', htake,
      imageCrc_eq hrom hdata (by omega), passes_bind]
    simp only [param2] at hck
    simp [param2, hck]
  · simp only [loadDdrParam, get_bind, hn, h, hoff, bind_ok _ hload,
      ite_apply_state, not_lt.mpr hret, if_false, put, said, hlen', htake,
      imageCrc_eq hrom hdata (by omega), passes_bind]
    simp only [param2] at hck
    simp [param2, hck]

end Params

/-! ## The first try -/

section Retries

variable {attempt : Int → Bl2M σ Int} {s' : Bl2 σ}

theorem retryFromFlash_ok {ret : Int} (h : attempt 0 s = .ok ret s') (hret : 0 ≤ ret)
    (h₀ : 0 < env.rom.getNumberOfRetries s.rom) (h₁ : 0 < env.rom.getNumberOfRetries s'.rom)
    (fuel : Nat) : retryFromFlash env attempt (fuel + 1) s = .ok ⟨⟩ s' := by
  have htry : tryUntil env attempt (fuel + 1) 0 s = .ok 0 s' := by
    simp only [tryUntil, get_bind, h₀, if_true, bind_ok _ h, not_lt.mpr hret, if_false, pure_apply]
  simp only [retryFromFlash, bind_ok _ htry, get_bind, not_le.mpr h₁, if_false, pure_apply]

theorem retryFromFlash_error {e : Halt} (h : attempt 0 s = .error e s')
    (h₀ : 0 < env.rom.getNumberOfRetries s.rom) (fuel : Nat) :
    retryFromFlash env attempt (fuel + 1) s = .error e s' := by
  have htry : tryUntil env attempt (fuel + 1) 0 s = .error e s' := by
    simp only [tryUntil, get_bind, h₀, if_true, bind_error _ h]
  simp only [retryFromFlash, bind_error _ htry]

theorem tryDdr_ok {retry a b : Int} {s₁ s₂ : Bl2 σ} (h₁ : loadParam2 env retry s = .ok a s₁)
    (ha : 0 ≤ a) (h₂ : loadDdrParam env retry s₁ = .ok b s₂) : tryDdr env retry s = .ok b s₂ := by
  simp only [tryDdr, bind_ok _ h₁, not_lt.mpr ha, if_false, h₂]

theorem tryRest_ok {retry a b c : Int} {s₁ s₂ s₃ : Bl2 σ} (h₁ : loadBlcp2nd env retry s = .ok a s₁)
    (ha : 0 ≤ a) (h₂ : loadMonitor env retry s₁ = .ok b s₂) (hb : 0 ≤ b)
    (h₃ : loadLoader2nd env retry s₂ = .ok c s₃) : tryRest env retry s = .ok c s₃ := by
  simp only [tryRest, bind_ok _ h₁, not_lt.mpr ha, bind_ok _ h₂, not_lt.mpr hb, if_false, h₃]

theorem tryRest_error {retry : Int} {e : Halt} {s₁ : Bl2 σ}
    (h : loadBlcp2nd env retry s = .error e s₁) : tryRest env retry s = .error e s₁ := by
  rw [tryRest, bind_error _ h]

end Retries

end Bl2

/-! ## The file -/

section File

variable {lzmaCompress : Bytes → Bytes} {args : FipArgs}

/-- The loader as it lies in the file. -/
def loaderImage (lzmaCompress : Bytes → Bytes) (args : FipArgs) : Bytes :=
  join (loaderElements lzmaCompress args) ++ ubootBody lzmaCompress args

theorem length_param1Elements (h : 0x1000 + (pad args.fsbl).length < 2 ^ 32) :
    (join (param1Elements args)).length = 0x1000 := by
  rw [length_join, param1Elements_layout h]
  rfl

theorem length_param2Elements (h : ∀ a ∈ fipOffsets args, a < 2 ^ 32) :
    (join (param2Elements args)).length = 0x1000 := by
  rw [length_join, param2Elements_layout h]
  rfl

/-- Where the parts of the file are. -/
theorem slices_fipFile (h : ∀ a ∈ fipOffsets args, a < 2 ^ 32) :
    let file := fipFile lzmaCompress args
    file.length = addrUboot args + (loaderImage lzmaCompress args).length ∧
    file.take 0x1000 = join (param1Elements args) ∧
    slice file (0x1000 + (pad args.fsbl).length) 0x1000 = join (param2Elements args) ∧
    slice file (addrDdrParam args) (pad args.ddrParam).length = pad args.ddrParam ∧
    slice file (addrRtos args) (pad args.rtos).length = pad args.rtos ∧
    slice file (addrOpensbi args) (pad args.opensbi).length = pad args.opensbi ∧
    slice file (addrUboot args) (loaderImage lzmaCompress args).length =
      loaderImage lzmaCompress args := by
  have h₁ : (join (param1Elements args)).length = 0x1000 :=
    length_param1Elements (h _ (by simp [fipOffsets]))
  have h₂ := length_param2Elements h
  have hfile : fipFile lzmaCompress args = join (param1Elements args) ++ pad args.fsbl ++
    join (param2Elements args) ++ pad args.ddrParam ++ pad args.rtos ++ pad args.opensbi ++
    loaderImage lzmaCompress args := rfl
  generalize join (param1Elements args) = p₁ at *
  generalize join (param2Elements args) = p₂ at *
  generalize loaderImage lzmaCompress args = image at *
  simp only [hfile, addrUboot, addrOpensbi, addrRtos, addrDdrParam]
  generalize pad args.fsbl = fsbl
  generalize pad args.ddrParam = ddr
  generalize pad args.rtos = rtos
  generalize pad args.opensbi = opensbi
  -- each part lies between the parts before it and those behind it
  have hpart (pre x post : Bytes) {off : Nat}
      (heq : p₁ ++ fsbl ++ p₂ ++ ddr ++ rtos ++ opensbi ++ image = pre ++ (x ++ post))
      (hoff : pre.length = off) :
      slice (p₁ ++ fsbl ++ p₂ ++ ddr ++ rtos ++ opensbi ++ image) off x.length = x := by
    rw [heq, slice_mid hoff rfl]
  refine ⟨by simp [h₁, h₂]; omega, by simp [h₁], ?_, ?_, ?_, ?_, ?_⟩
  · rw [← h₂]
    exact hpart (p₁ ++ fsbl) p₂ (ddr ++ rtos ++ opensbi ++ image)
      (by simp only [List.append_assoc]) (by simp [h₁, h₂])
  · exact hpart (p₁ ++ fsbl ++ p₂) ddr (rtos ++ opensbi ++ image)
      (by simp only [List.append_assoc]) (by simp [h₁, h₂]; omega)
  · exact hpart (p₁ ++ fsbl ++ p₂ ++ ddr) rtos (opensbi ++ image)
      (by simp only [List.append_assoc]) (by simp [h₁, h₂]; omega)
  · exact hpart (p₁ ++ fsbl ++ p₂ ++ ddr ++ rtos) opensbi image
      (by simp only [List.append_assoc]) (by simp [h₁, h₂]; omega)
  · exact hpart (p₁ ++ fsbl ++ p₂ ++ ddr ++ rtos ++ opensbi) image []
      (by simp only [List.append_nil]) (by simp [h₁, h₂]; omega)

/-- The members of Param2 that BL2 reads describe the parts of the file. -/
structure Param2Describes (args : FipArgs) (get : Param2Member → Nat) : Prop where
  magic1 : get .magic1 = FIP_PARAM2_MAGIC1
  param2Cksum : get .param2Cksum =
    0xCAFE0000 + (crcHqx ((join (param2Elements args)).drop 12) 0).toNat
  ddrParamCksum : get .ddrParamCksum = 0xCAFE0000 + (crcHqx (pad args.ddrParam) 0).toNat
  ddrParamLoadaddr : get .ddrParamLoadaddr = addrDdrParam args
  ddrParamSize : get .ddrParamSize = (pad args.ddrParam).length
  blcp2ndCksum : get .blcp2ndCksum = 0xCAFE0000 + (crcHqx (pad args.rtos) 0).toNat
  blcp2ndLoadaddr : get .blcp2ndLoadaddr = addrRtos args
  blcp2ndSize : get .blcp2ndSize = (pad args.rtos).length
  blcp2ndRunaddr : get .blcp2ndRunaddr = 0x83F40000
  monitorCksum : get .monitorCksum = 0xCAFE0000 + (crcHqx (pad args.opensbi) 0).toNat
  monitorLoadaddr : get .monitorLoadaddr = addrOpensbi args
  monitorSize : get .monitorSize = (pad args.opensbi).length
  monitorRunaddr : get .monitorRunaddr = 0x80000000
  loader2ndLoadaddr : get .loader2ndLoadaddr = addrUboot args

theorem param2Describes (h : ∀ a ∈ fipOffsets args, a < 2 ^ 32) (rest : Bytes) :
    Param2Describes args fun f => fipParam2Layout.get f (join (param2Elements args) ++ rest) := by
  have hl := param2Elements_layout h
  have hlt : (pad args.ddrParam).length < 2 ^ 32 ∧ (pad args.rtos).length < 2 ^ 32 ∧
      (pad args.opensbi).length < 2 ^ 32 := by
    have huboot := addrUboot_lt h
    simp only [addrUboot, addrOpensbi, addrRtos] at huboot
    omega
  have hdrop : (join (param2Elements args)).drop 12 = join (values (param2Data args)) := by
    have hhead (b : Bytes) : (join (values (param2Head b))).length = 12 := by
      rw [length_join]
      simp [values, param2Head, ofElements, Layout.size]
    rw [param2Elements, join_append, List.drop_left' (hhead _)]
  simp only [fipOffsets, List.mem_cons, List.not_mem_nil, or_false, forall_eq_or_imp, forall_eq] at h
  obtain ⟨-, haddr, hrtos, hsbi, huboot⟩ := h
  have hnum {f : Param2Member} (n : Nat)
      (hf : (param2Elements args).lookup f = some ((p32 n).getD [])) (hn : n < 2 ^ 32) :
      fipParam2Layout.get f (join (param2Elements args) ++ rest) = n := get_p32 hl hf rfl hn
  have hcrc {f : Param2Member} (b : Bytes) (hf : (param2Elements args).lookup f = some (crc32 b)) :
      fipParam2Layout.get f (join (param2Elements args) ++ rest) =
        0xCAFE0000 + (crcHqx b 0).toNat := get_crc32 hl hf
  have hmagic : fipParam2Layout.get .magic1 (join (param2Elements args) ++ rest) =
      ofLE [0x43, 0x56, 0x4C, 0x44, 0x30, 0x32, 0x0A, 0x00] := get_join hl rfl
  refine
    { magic1 := hmagic
      param2Cksum := hdrop ▸ hcrc (join (values (param2Data args))) ?_
      ddrParamCksum := hcrc (pad args.ddrParam) ?_
      ddrParamLoadaddr := hnum (addrDdrParam args) ?_ haddr
      ddrParamSize := hnum (pad args.ddrParam).length ?_ hlt.1
      blcp2ndCksum := hcrc (pad args.rtos) ?_
      blcp2ndLoadaddr := hnum (addrRtos args) ?_ hrtos
      blcp2ndSize := hnum (pad args.rtos).length ?_ hlt.2.1
      blcp2ndRunaddr := hnum 0x83F40000 ?_ (by omega)
      monitorCksum := hcrc (pad args.opensbi) ?_
      monitorLoadaddr := hnum (addrOpensbi args) ?_ hsbi
      monitorSize := hnum (pad args.opensbi).length ?_ hlt.2.2
      monitorRunaddr := hnum 0x80000000 ?_ (by omega)
      loader2ndLoadaddr := hnum (addrUboot args) ?_ huboot }
  all_goals
    simp only [param2Elements, values, param2Head, param2Data, List.map_cons, List.map_nil,
      List.cons_append, List.nil_append]
    rfl

section Loader

variable {T : Nat} (hT : args.textBase = T) (hlo : 0x20 ≤ T) (hhi : T < 2 ^ 64)
  (hbody : (ubootBody lzmaCompress args).length + 0x20 < 2 ^ 32)
include hT hlo hhi hbody

theorem length_loaderElements : (join (loaderElements lzmaCompress args)).length = 32 := by
  rw [length_join, loaderElements_layout lzmaCompress hT hlo hhi hbody]
  rfl

theorem length_loaderImage : (loaderImage lzmaCompress args).length =
    (ubootBody lzmaCompress args).length + 0x20 := by
  rw [loaderImage, List.length_append, length_loaderElements hT hlo hhi hbody, Nat.add_comm]

/-- Behind its header the loader is the output of the compressor, padded. -/
theorem slice_loaderImage : slice (loaderImage lzmaCompress args) 32 (lzmaCompress args.uboot).length =
    lzmaCompress args.uboot := by
  rw [loaderImage, ubootBody]
  exact slice_mid (length_loaderElements hT hlo hhi hbody) rfl

/-- The header of the loader describes the loader. -/
theorem loaderHead : LoaderHead (loaderImage lzmaCompress args) T := by
  have hl := loaderElements_layout lzmaCompress hT hlo hhi hbody
  have hlen := length_loaderElements hT hlo hhi hbody
  have htake : (loaderImage lzmaCompress args).take BLOCK_SIZE =
      join (loaderElements lzmaCompress args) ++ (ubootBody lzmaCompress args).take 480 := by
    rw [loaderImage, List.take_append, hlen, List.take_of_length_le (by rw [hlen]; decide)]
    rfl
  have hdrop : (loaderImage lzmaCompress args).drop 12 =
      join (values (ubootHead args (ubootBody lzmaCompress args).length)) ++
        ubootBody lzmaCompress args := by
    have hjump (b : Bytes) : (join (values (ubootJump b))).length = 12 := by
      rw [length_join]
      simp [values, ubootJump, ofElements, Layout.size]
      rfl
    rw [loaderImage, loaderElements, join_append, List.append_assoc, List.drop_left' (hjump _)]
  have hmagic : loader2ndHeader.get .magic ((loaderImage lzmaCompress args).take BLOCK_SIZE) =
      ofLE [0x42, 0x33, 0x4D, 0x41] := by
    rw [htake]
    exact get_join hl rfl
  have hrun : (args.textBase - 0x20 : Int) = (T - 0x20 : Nat) := by omega
  refine ⟨hmagic, ?_, ?_, ?_⟩
  · rw [htake, hdrop]
    exact get_crc32 hl rfl
  · rw [htake, length_loaderImage hT hlo hhi hbody]
    refine get_p32 hl ?_ (Nat.cast_add _ _).symm hbody
    simp only [loaderElements, values, ubootHead, ubootJump, List.map_cons, List.map_nil,
      List.cons_append, List.nil_append]
    rfl
  · rw [htake, get_p64 hl ?_ hrun (by omega)]
    · omega
    · simp only [loaderElements, values, ubootHead, ubootJump, List.map_cons, List.map_nil,
        List.cons_append, List.nil_append]
      rfl

end Loader

end File

/-! ## The boot -/

/-- What the images have to respect: every offset in the headers fits its 32 bits, and
every image fits the place it is loaded to. -/
structure FipFits (lzmaCompress : Bytes → Bytes) (args : FipArgs) (T : Nat) : Prop where
  textBase : args.textBase = T
  offsets : ∀ a ∈ fipOffsets args, a < 2 ^ 32
  ddrParam : (pad args.ddrParam).length ≤ DDR_PARAM_SIZE
  rtos : 0x83F40000 + (pad args.rtos).length ≤ DRAM_BASE + DRAM_SIZE
  opensbi : 0x80000000 + (pad args.opensbi).length + 0x20 ≤ T
  uboot : T + args.uboot.length ≤ FSBL_UNZIP_ADDR
  loader : (lzmaCompress args.uboot).length ≤ DECOMP_BUF_SIZE

/-- BL2 as the ROM starts it: Param1 is in its place, and nothing has happened yet. -/
structure Bl2.Starts {σ : Type} (s : Bl2 σ) (file : Bytes) (card : σ → Prop) : Prop where
  rom : card s.rom
  fipParam1 : s.fipParam1 = file.take PARAM1_SIZE
  log : s.log = []

/-- The tests of a boot from an unencrypted package. -/
def bootTests : List BootTest :=
  [.param2Magic, .param2Cksum, .ddrParamCksum,
   .runaddr .blcp2nd, .size .blcp2nd, .cksum .blcp2nd, .verify .blcp2nd,
   .runaddr .monitor, .size .monitor, .cksum .monitor, .verify .monitor,
   .cksum .loader2nd, .verify .loader2nd]

/-- The package has been booted: all tests were made and passed, at the first try; the
DDR controller was given the DDR parameters; the images are in place; and the last
thing was the jump into the monitor. -/
structure FipBooted {σ : Type} (args : FipArgs) (T : Nat) (s : Bl2 σ) : Prop where
  firstTry : ∀ d off size retry, .load d off size retry ∈ s.log → retry = 0
  passed : ∀ t ok, .test t ok ∈ s.log → ok = true
  made : ∀ t ∈ bootTests, .test t true ∈ s.log
  ddrInit : ∃ p, pad args.ddrParam <+: p ∧ ∀ p', .ddrInit p' ∈ s.log ↔ p' = p
  rtos : s.mem.read 0x83F40000 (pad args.rtos).length = pad args.rtos
  opensbi : s.mem.read 0x80000000 (pad args.opensbi).length = pad args.opensbi
  uboot : s.mem.read T args.uboot.length = args.uboot
  jump : s.log.getLast? = some (.jumpToMonitor 0x80000000 T)

section Boot

variable {σ : Type} {env : Bl2Env σ} {lzmaCompress : Bytes → Bytes} {args : FipArgs} {T : Nat}
  {card : σ → Prop} {s : Bl2 σ} (hfits : FipFits lzmaCompress args T)
  (hrom : env.rom.Reads (fipFile lzmaCompress args) card)
include hfits hrom

/-- The state behind `load_ddr`. -/
theorem loadDdr_ok (hs : s.Starts (fipFile lzmaCompress args) card) (fuel : Nat) :
    ∃ s' p, loadDdr env (fuel + 1) s = .ok ⟨⟩ s' ∧ pad args.ddrParam <+: p ∧ card s'.rom ∧
      s'.fipParam2 = overlay (join (param2Elements args)) s.fipParam2 ∧
      s'.log = [.load .fipParam2 (0x1000 + (pad args.fsbl).length) 0x1000 0, .test .param2Magic true,
        .test .param2Cksum true, .load .sramUnionBuf (addrDdrParam args) (pad args.ddrParam).length 0,
        .test .ddrParamCksum true, .ddrInit p] := by
  obtain ⟨hc, hparam1, hlog⟩ := hs
  have hoffsets := hfits.offsets
  have hddrLen : (pad args.ddrParam).length ≤ 16384 := hfits.ddrParam
  obtain ⟨hlen, htake, hp2, hddr, -⟩ := @slices_fipFile lzmaCompress args hoffsets
  have hdesc := param2Describes hoffsets
  have hp2Len := length_param2Elements hoffsets
  simp only [addrUboot, addrOpensbi, addrRtos, addrDdrParam] at hlen
  have hoff : s.param1 .param2Loadaddr = 0x1000 + (pad args.fsbl).length := by
    have hfsbl : 0x1000 + (pad args.fsbl).length < 2 ^ 32 := hoffsets _ (by simp [fipOffsets])
    have h := param1_param2Loadaddr hfsbl []
    rwa [List.append_nil, ← htake, ← hparam1] at h
  obtain ⟨r₁, hparam2, hr₁⟩ := loadParam2_ok hrom hc hoff (by omega) hp2
    (fun rest => (hdesc rest).magic1) (fun rest => (hdesc rest).param2Cksum)
  obtain ⟨r₂, hddrParam, hr₂⟩ := loadDdrParam_ok (s :=
    { s with
      fipParam2 := overlay (join (param2Elements args)) s.fipParam2, rom := r₁
      log := s.log ++ [.load .fipParam2 (0x1000 + (pad args.fsbl).length) 0x1000 0,
        .test .param2Magic true, .test .param2Cksum true] })
    hrom hr₁ (by rw [overlay, List.length_append]; omega) (hdesc _).ddrParamSize
    (hdesc _).ddrParamLoadaddr (by rw [hddr]; exact (hdesc _).ddrParamCksum) hddrLen
    (by rw [addrDdrParam]; omega)
  rw [hddr] at hddrParam
  have htry := tryDdr_ok hparam2 (le_refl 0) hddrParam
  have hretry := retryFromFlash_ok htry (le_refl 0) (hrom.retries _ hc) (hrom.retries _ hr₂) fuel
  have hrun := bind_ok (f := fun _ => get >>= fun t : Bl2 σ =>
    say (.ddrInit (t.sramUnionBuf.take DDR_PARAM_SIZE))) _ hretry
  refine ⟨_, (overlay (pad args.ddrParam) s.sramUnionBuf).take DDR_PARAM_SIZE, hrun, ?_, hr₂, rfl, ?_⟩
  · rw [overlay, List.take_append, List.take_of_length_le hddrLen]
    exact List.prefix_append _ _
  · simp only [said_log, hlog, List.cons_append, List.nil_append]

/-- The state behind `load_rest`, where the C906L firmware ends before the end of the
DRAM. -/
theorem loadRest_ok (hnone : env.decVerifyImage = decVerifyNone)
    (hinv : env.Inverts lzmaCompress args.uboot) (hc : card s.rom)
    (hparam2 : s.fipParam2 = overlay (join (param2Elements args)) s.fipParam2)
    (hend : 0x83F40000 + (pad args.rtos).length < 0x90000000) (fuel : Nat) :
    ∃ s', loadRest env (fuel + 1) s = .ok ⟨⟩ s' ∧
      s'.mem.read 0x83F40000 (pad args.rtos).length = pad args.rtos ∧
      s'.mem.read 0x80000000 (pad args.opensbi).length = pad args.opensbi ∧
      s'.mem.read T args.uboot.length = args.uboot ∧
      ∃ e, (e = .handOver 0x83F40000 ∨ e = .resetC906l 0x83F40000) ∧ s'.log = s.log ++
        [.test (.runaddr .blcp2nd) true, .test (.size .blcp2nd) true,
          .load (.dram 0x83F40000) (addrRtos args) (pad args.rtos).length 0,
          .test (.cksum .blcp2nd) true, .test (.verify .blcp2nd) true, e,
          .test (.runaddr .monitor) true, .test (.size .monitor) true,
          .load (.dram 0x80000000) (addrOpensbi args) (pad args.opensbi).length 0,
          .test (.cksum .monitor) true, .test (.verify .monitor) true,
          .load .sramUnionBuf (addrUboot args) 512 0,
          .load (.dram 0x81900000) (addrUboot args) (loaderImage lzmaCompress args).length 0,
          .test (.cksum .loader2nd) true, .test (.verify .loader2nd) true, .decompress .lzma 0,
          .jumpToMonitor 0x80000000 T] := by
  obtain ⟨hT, hoffsets, -, hrtosLe, hsbiLe, hubootLe, hloaderLe⟩ := hfits
  simp only [FSBL_UNZIP_ADDR, FSBL_UNZIP_SIZE, DECOMP_BUF_SIZE, DECOMP_ALLOC_SIZE] at hubootLe hloaderLe
  obtain ⟨hlen, -, -, -, hrtos, hsbi, huboot⟩ := @slices_fipFile lzmaCompress args hoffsets
  have hdesc {t : Bl2 σ} (ht : t.fipParam2 = s.fipParam2) : Param2Describes args t.param2 := by
    have h := param2Describes hoffsets (s.fipParam2.drop (join (param2Elements args)).length)
    rw [overlay] at hparam2
    rwa [← hparam2, ← ht] at h
  obtain ⟨hbodyMod, hbodyGe, hbodyLt⟩ := length_ubootBody lzmaCompress args
  have hbody : (ubootBody lzmaCompress args).length + 0x20 < 2 ^ 32 := by omega
  have hlo : 0x20 ≤ T := by omega
  have hhi : T < 2 ^ 64 := by omega
  have himageLen := length_loaderImage hT hlo hhi hbody
  simp only [addrUboot, addrOpensbi] at hlen
  -- the three loads, one after the other
  have h₀ := hdesc (t := { s with monitorEntry := 0, loader2ndEntry := 0 }) rfl
  obtain ⟨s₁, e, hblcp, hc₁, he, hp₁, hm₁, hl₁⟩ := loadBlcp2nd_ok
    (s := { s with monitorEntry := 0, loader2ndEntry := 0 }) hrom hnone hc h₀.blcp2ndRunaddr
    h₀.blcp2ndSize h₀.blcp2ndLoadaddr (by rw [hrtos]; exact h₀.blcp2ndCksum) (by omega) hend
    (by omega)
  have h₁ := hdesc hp₁
  obtain ⟨s₂, hmon, hc₂, hp₂, hentry₂, hm₂, hl₂⟩ := loadMonitor_ok hrom hnone hc₁ h₁.monitorRunaddr
    h₁.monitorSize h₁.monitorLoadaddr (by rw [hsbi]; exact h₁.monitorCksum) (by omega) (by omega)
    (by rw [addrOpensbi]; omega)
  have h₂ := hdesc (hp₂.trans hp₁)
  obtain ⟨s₃, probs, hloader, hc₃, hmon₃, hentry₃, hprobs, hm₃, hl₃⟩ := loadLoader2nd_ok hrom hnone hc₂
    hinv h₂.loader2ndLoadaddr (by rw [addrUboot, addrOpensbi]; omega) huboot (by omega) (by omega)
    (loaderHead hT hlo hhi hbody) (slice_loaderImage hT hlo hhi hbody) (by omega) (by omega)
  rw [hrtos] at hm₁
  rw [hsbi] at hm₂
  have hretry := retryFromFlash_ok (tryRest_ok hblcp (le_refl 0) hmon (le_refl 0) hloader) (le_refl 0)
    (hrom.retries _ hc) (hrom.retries _ hc₃) fuel
  have hentry : s₃.monitorEntry = 0x80000000 := hmon₃.trans hentry₂
  have hhdrLen : ((loaderImage lzmaCompress args).take 32).length ≤ 32 :=
    List.length_take_le _ _
  have hrest : loadRest env (fuel + 1) s = .ok ⟨⟩ (s₃.said (.jumpToMonitor 0x80000000 T)) := by
    rw [loadRest, modify_bind, bind_ok _ hretry]
    simp only [get_bind, hentry, hentry₃, ne_eq, OfNat.ofNat_ne_zero, not_false_eq_true, if_true,
      say_apply]
  refine ⟨_, hrest, ?_, ?_, ?_, e, he, ?_⟩
  · -- Everything else is written below the firmware of the C906L.
    rw [said_mem, hm₃, Mem.read_write_of_disjoint _ (.inl (by omega)),
      Mem.read_write_of_disjoint _ (.inl (by omega)), Mem.read_write_of_disjoint _ (.inl (by omega)),
      Mem.read_write_of_disjoint _ (.inl (by omega)), hm₂,
      Mem.read_write_of_disjoint _ (.inl (by omega)), hm₁, Mem.read_write_self]
  · -- and everything else above the monitor.
    rw [said_mem, hm₃, Mem.read_write_of_disjoint _ (.inr (by omega)),
      Mem.read_write_of_disjoint _ (.inr (by omega)), Mem.read_write_of_disjoint _ (.inr (by omega)),
      Mem.read_write_of_disjoint _ (.inr (by omega)), hm₂, Mem.read_write_self]
  · rw [said_mem, hm₃, Mem.read_write_self]
  · rw [said_log, hl₃, hl₂, hl₁]
    simp

/-- Where the C906L firmware ends at the end of the DRAM, BL2 does not get beyond it. -/
theorem loadRest_panic (hc : card s.rom)
    (hparam2 : s.fipParam2 = overlay (join (param2Elements args)) s.fipParam2)
    (hend : 0x83F40000 + (pad args.rtos).length = 0x90000000) (fuel : Nat) :
    ∃ s', loadRest env (fuel + 1) s = .error .panic s' := by
  have hdesc : Param2Describes args (Bl2.param2 { s with monitorEntry := 0, loader2ndEntry := 0 }) := by
    have h := param2Describes hfits.offsets (s.fipParam2.drop (join (param2Elements args)).length)
    rw [overlay] at hparam2
    rwa [← hparam2] at h
  obtain ⟨s', hpanic⟩ := @loadDramImage_panic _ env _ blcp2nd _ _ hdesc.blcp2ndRunaddr
    hdesc.blcp2ndSize (by omega) (by omega) hend
  have hblcp : loadBlcp2nd env 0 { s with monitorEntry := 0, loader2ndEntry := 0 } =
      .error .panic s' := by
    simp only [loadBlcp2nd, get_bind, hdesc.blcp2ndRunaddr, OfNat.ofNat_ne_zero, if_false]
    rw [bind_error _ hpanic]
  have hretry := retryFromFlash_error (tryRest_error hblcp) (hrom.retries _ hc) fuel
  exact ⟨s', by simp only [loadRest, modify_bind, bind_error _ hretry]⟩

end Boot

theorem generateFip_fits {lzmaCompress : Bytes → Bytes} {args : FipArgs} {T : Nat}
    (h : FipFits lzmaCompress args T) :
    generateFip lzmaCompress args = some (fipFile lzmaCompress args) := by
  obtain ⟨hT, hoffsets, -, -, hsbi, huboot, hloader⟩ := h
  obtain ⟨-, -, hbody⟩ := length_ubootBody lzmaCompress args
  simp only [FSBL_UNZIP_ADDR, FSBL_UNZIP_SIZE, DECOMP_BUF_SIZE, DECOMP_ALLOC_SIZE] at huboot hloader
  exact generateFip_eq lzmaCompress hoffsets hT (by omega) (by omega) (by omega)

theorem Bl2.overlay_overlay (b buf : Bytes) : overlay b (overlay b buf) = overlay b buf := by
  rw [overlay, overlay, List.drop_left]

/-- What fiptool packs, BL2 boots: exactly when the C906L firmware does not end at the
end of the DRAM. -/
theorem fip_boots_iff {σ : Type} {env : Bl2Env σ} {lzmaCompress : Bytes → Bytes} {args : FipArgs}
    {T : Nat} (hfits : FipFits lzmaCompress args T) (hnone : env.decVerifyImage = decVerifyNone)
    (hinv : env.Inverts lzmaCompress args.uboot) :
    ∃ file, generateFip lzmaCompress args = some file ∧
      ∀ (card : σ → Prop) (s : Bl2 σ) (fuel : Nat), env.rom.Reads file card → s.Starts file card →
        ((∃ s', bl2Main env (fuel + 1) s = .ok ⟨⟩ s' ∧ FipBooted args T s') ↔
          0x83F40000 + (pad args.rtos).length ≠ DRAM_BASE + DRAM_SIZE) := by
  refine ⟨fipFile lzmaCompress args, generateFip_fits hfits, ?_⟩
  intro card s fuel hrom hs
  obtain ⟨s₁, p, hddr, hp, hr, hover, hlog₁⟩ := loadDdr_ok hfits hrom hs fuel
  have hparam2 : s₁.fipParam2 = overlay (join (param2Elements args)) s₁.fipParam2 := by
    rw [hover, overlay_overlay]
  constructor
  · rintro ⟨s', hrun, -⟩ hend
    obtain ⟨t, hpanic⟩ := loadRest_panic hfits hrom hr hparam2 hend fuel
    rw [bl2Main, bind_ok _ hddr] at hrun
    exact nomatch hrun.symm.trans hpanic
  · intro hend
    have hlt : 0x83F40000 + (pad args.rtos).length < 0x90000000 := lt_of_le_of_ne hfits.rtos hend
    obtain ⟨s', hrest, hrtos, hsbi, huboot, e, he, hlog⟩ :=
      loadRest_ok hfits hrom hnone hinv hr hparam2 hlt fuel
    refine ⟨s', by rw [bl2Main, bind_ok _ hddr]; exact hrest, ?_⟩
    rw [hlog₁] at hlog
    have hnot (b : BootEvent) (hb : ∀ a, b ≠ .handOver a ∧ b ≠ .resetC906l a) : b ≠ e := by
      rcases he with rfl | rfl
      · exact (hb _).1
      · exact (hb _).2
    refine ⟨?_, ?_, ?_, ⟨p, hp, ?_⟩, hrtos, hsbi, huboot, ?_⟩
    · intro d off size retry hmem
      have hne := hnot (.load d off size retry) (by simp)
      simp only [hlog, List.cons_append, List.nil_append, List.mem_cons, List.not_mem_nil, hne,
        BootEvent.load.injEq, reduceCtorEq, or_false, false_or] at hmem
      tauto
    · intro t ok hmem
      have hne := hnot (.test t ok) (by simp)
      simp only [hlog, List.cons_append, List.nil_append, List.mem_cons, List.not_mem_nil, hne,
        BootEvent.test.injEq, reduceCtorEq, or_false, false_or] at hmem
      tauto
    · intro t ht
      simp only [bootTests, List.mem_cons, List.not_mem_nil, or_false] at ht
      rw [hlog]
      rcases ht with rfl | rfl | rfl | rfl | rfl | rfl | rfl | rfl | rfl | rfl | rfl | rfl | rfl
      all_goals simp
    · intro p'
      have hne := hnot (.ddrInit p') (by simp)
      simp [hlog, hne]
    · simp [hlog]

/-! ### A package

One instruction of u-boot, and what Python's `lzma` makes of it. -/

def jumpUboot : Bytes := [0x6F, 0x00, 0x00, 0x14]

def jumpLzma : Bytes :=
  [0x5D, 0x00, 0x00, 0x04, 0x00, 0xFF, 0xFF, 0xFF, 0xFF, 0xFF, 0xFF, 0xFF, 0xFF, 0x00, 0x37, 0x80,
   0x2C, 0x29, 0x07, 0xFF, 0xFF, 0xFF, 0xFF, 0x80, 0x00, 0x00, 0x00]

def jumpCompress (uboot : Bytes) : Bytes := if uboot = jumpUboot then jumpLzma else []

/-- A package of one byte each, with the given C906L firmware. -/
def jumpArgs (rtos : Bytes) : FipArgs := ⟨[0x01], [0x02], rtos, [0x03], jumpUboot, 0x80200000⟩

/-- A ROM that reads the file from an SD card, and a decoder that knows one stream. -/
def jumpEnv (file : Bytes) : Bl2Env Unit where
  rom :=
    { loadImage := fun _ offset size _ => (0, slice file offset size, ())
      imageCrc := fun _ b => 0xCAFE0000 + (crcHqx b 0).toNat
      flashInit := id
      getBootSrc := fun _ => .sd
      getNumberOfRetries := fun _ => 1 }
  decVerifyImage := decVerifyNone
  lzmaDecDecodeToDic := fun props _ src =>
    if jumpLzma.drop 13 <+: src then ⟨SZ_OK, false, jumpUboot, List.replicate (lzmaProbsSize props) 0⟩
    else ⟨1, false, [], []⟩
  lz4fDctxSize := 0
  lz4fDecompress := fun _ _ => []

def jumpStart (file : Bytes) : Bl2 Unit where
  rom := ()
  mem := fun _ => 0
  fipParam1 := file.take PARAM1_SIZE
  fipParam2 := []
  sramUnionBuf := []
  rtosBase := 0
  compAllocBuf := 0
  compAllocSize := 0
  monitorEntry := 0
  loader2ndEntry := 0
  log := []

theorem jumpArgs_fits (rtos : Bytes) (h : 0x83F40000 + (pad rtos).length ≤ 0x90000000) :
    FipFits jumpCompress (jumpArgs rtos) 0x80200000 where
  textBase := rfl
  offsets := by
    simp only [fipOffsets, addrUboot, addrOpensbi, addrRtos, addrDdrParam, jumpArgs, List.mem_cons,
      List.not_mem_nil, or_false, forall_eq_or_imp, forall_eq, length_pad, List.length_cons,
      List.length_nil] at h ⊢
    omega
  ddrParam := by
    rw [length_pad]
    simp [jumpArgs, DDR_PARAM_SIZE]
  rtos := h
  opensbi := by
    rw [length_pad]
    simp [jumpArgs]
  uboot := (by decide : 0x80200000 + jumpUboot.length ≤ FSBL_UNZIP_ADDR)
  loader := (by decide : (jumpCompress jumpUboot).length ≤ DECOMP_BUF_SIZE)

theorem jumpEnv_inverts (file : Bytes) : (jumpEnv file).Inverts jumpCompress jumpUboot where
  length := by decide
  props := rfl
  unknown := rfl
  decode := by
    intro props rest _
    refine ⟨List.replicate (lzmaProbsSize props) 0, by rw [List.length_replicate], ?_⟩
    have hprefix : jumpLzma.drop 13 <+: (jumpCompress jumpUboot).drop 13 ++ rest :=
      List.prefix_append _ _
    simp only [jumpEnv, if_pos hprefix]

theorem jumpEnv_reads (file : Bytes) : (jumpEnv file).rom.Reads file fun _ => True where
  retries := fun _ _ => Int.one_pos
  load := fun _ _ _ _ _ => ⟨0, (), rfl, le_refl 0, trivial⟩
  crc := fun _ _ => rfl

theorem jumpStart_starts (file : Bytes) : (jumpStart file).Starts file fun _ => True :=
  ⟨trivial, rfl, rfl⟩

theorem fip_boots_iff_jump : ∃ file, generateFip jumpCompress (jumpArgs [0x04]) = some file ∧
    ∃ s', bl2Main (jumpEnv file) 1 (jumpStart file) = .ok ⟨⟩ s' ∧
      FipBooted (jumpArgs [0x04]) 0x80200000 s' := by
  have hfits := jumpArgs_fits [0x04] (by rw [length_pad]; decide)
  have hfile := generateFip_fits hfits
  obtain ⟨file, hfile', h⟩ := fip_boots_iff hfits rfl
    (jumpEnv_inverts (fipFile jumpCompress (jumpArgs [0x04])))
  obtain rfl : fipFile jumpCompress (jumpArgs [0x04]) = file :=
    Option.some.inj (hfile.symm.trans hfile')
  refine ⟨_, hfile, (h _ _ 0 (jumpEnv_reads _) (jumpStart_starts _)).mpr ?_⟩
  rw [length_pad]
  decide

/-- C906L firmware that fills the DRAM to its end. -/
def fullRtos : Bytes := List.replicate 0xC0C0000 0

theorem length_pad_fullRtos : (pad fullRtos).length = 0xC0C0000 := by
  rw [length_pad, fullRtos, List.length_replicate]

/-- A package that respects every limit is refused. -/
theorem not_fip_boots : ¬ ∀ (σ : Type) (env : Bl2Env σ) (lzmaCompress : Bytes → Bytes)
    (args : FipArgs) (T : Nat) (file : Bytes) (card : σ → Prop) (s : Bl2 σ) (fuel : Nat),
    FipFits lzmaCompress args T → env.decVerifyImage = decVerifyNone →
    env.Inverts lzmaCompress args.uboot → generateFip lzmaCompress args = some file →
    env.rom.Reads file card → s.Starts file card →
    ∃ s', bl2Main env (fuel + 1) s = .ok ⟨⟩ s' ∧ FipBooted args T s' := by
  intro hall
  have hfits := jumpArgs_fits fullRtos (by rw [length_pad_fullRtos])
  have hrom := jumpEnv_reads (fipFile jumpCompress (jumpArgs fullRtos))
  have hstart := jumpStart_starts (fipFile jumpCompress (jumpArgs fullRtos))
  obtain ⟨s', hrun, -⟩ := hall _ _ _ _ _ _ _ _ 0 hfits rfl (jumpEnv_inverts _)
    (generateFip_fits hfits) hrom hstart
  obtain ⟨s₁, p, hddr, -, hr, hover, -⟩ := loadDdr_ok hfits hrom hstart 0
  have hparam2 : s₁.fipParam2 = overlay (join (param2Elements (jumpArgs fullRtos))) s₁.fipParam2 := by
    rw [hover, overlay_overlay]
  have hend : 0x83F40000 + (pad (jumpArgs fullRtos).rtos).length = 0x90000000 := by
    simp only [jumpArgs, length_pad_fullRtos]
  obtain ⟨t, hpanic⟩ := loadRest_panic hfits hrom hr hparam2 hend 0
  rw [bl2Main, bind_ok _ hddr] at hrun
  exact nomatch hrun.symm.trans hpanic

end LicheeRvNano
