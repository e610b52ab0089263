import LicheeRvNano.BumpArena
import LicheeRvNano.DramPlacement

/-!
# BL2: the buffers of the decompression

A compressed loader is read to `DECOMP_BUF_ADDR`, and the decoder works in the arena below it.
The sizes come from the file: the size of the image from the header of the loader, the
requests to `SzAlloc` from the properties of the stream, and the output limit of
`LzmaDecode` from its size bytes. None of the three is compared with its buffer.

* `decompAlloc` is the arena, and `szAllocs_eq` connects `SzAlloc` with `BumpArena`.
* `loadLoader2nd_issues_iff` gives the loads of `load_loader_2nd`.
* `decompressLzmaWith` is `decompress_lzma` over any decoder: what it hands on is what all
  decoders get.
-/

namespace LicheeRvNano

open Set

/-! ## The arena -/

/-- The arena of the decoders, in an address space of 64 bits. -/
def decompAlloc : BumpArena where
  base := DECOMP_ALLOC_ADDR
  len := DECOMP_ALLOC_SIZE
  limit := 2 ^ 64
  base_pos := by decide
  len_pos := by decide
  room := by decide

theorem decompAlloc_good_iff {used : Nat} : decompAlloc.Good used ↔
    used ≤ 0x100000 ∨ 2 ^ 64 ≤ (0x81800000 + used) % 2 ^ 64 + 0x100000 := Iff.rfl

namespace Bl2

variable {σ : Type} {env : Bl2Env σ} {s : Bl2 σ}

/-- A decoder makes its requests. -/
def szAllocs (reqs : List Nat) : Bl2M σ (List Nat) := do
  szInit
  reqs.mapM szAlloc

/-- `SzAlloc` is a request to the arena. -/
theorem szAlloc_apply (used n : Nat) (hbuf : s.compAllocBuf = decompAlloc.pointer used)
    (hsize : s.compAllocSize = DECOMP_ALLOC_SIZE) : szAlloc n s =
      .ok (decompAlloc.answer used n) { s with compAllocBuf := decompAlloc.pointer (used + n) } := by
  have hnext : (s.compAllocBuf + n) % 2 ^ 64 = decompAlloc.pointer (used + n) := by
    rw [BumpArena.pointer_add, hbuf]
    rfl
  rw [szAlloc, get_bind, set_bind, pure_apply, hnext, hsize, hbuf, BumpArena.answer,
    BumpArena.refuses]
  simp only [decide_eq_true_eq]
  rfl

theorem mapM_szAlloc_apply (reqs : List Nat) (used : Nat)
    (hbuf : s.compAllocBuf = decompAlloc.pointer used)
    (hsize : s.compAllocSize = DECOMP_ALLOC_SIZE) : ∃ t, reqs.mapM szAlloc s =
      .ok ((decompAlloc.blocks used reqs).map Prod.fst) t := by
  induction reqs generalizing used s with
  | nil => exact ⟨s, rfl⟩
  | cons n reqs ih =>
    obtain ⟨t, ht⟩ := ih (s := { s with compAllocBuf := decompAlloc.pointer (used + n) })
      (used + n) rfl hsize
    refine ⟨t, ?_⟩
    rw [List.mapM_cons, bind_ok _ (szAlloc_apply used n hbuf hsize), bind_ok _ ht, pure_apply,
      BumpArena.blocks, List.map_cons]

/-- The blocks of a decoder are those of the arena. -/
theorem szAllocs_eq (reqs : List Nat) (s : Bl2 σ) : ∃ ptrs t, szAllocs reqs s = .ok ptrs t ∧
    ptrs.zip reqs = decompAlloc.blocks 0 reqs := by
  have hstart : DECOMP_ALLOC_ADDR = decompAlloc.pointer 0 :=
    ((BumpArena.pointer_of_le (a := decompAlloc) (Nat.zero_le _)).trans (Nat.add_zero _)).symm
  obtain ⟨t, ht⟩ := mapM_szAlloc_apply (s := { s with
    compAllocBuf := DECOMP_ALLOC_ADDR, compAllocSize := DECOMP_ALLOC_SIZE }) reqs 0 hstart rfl
  exact ⟨_, t, ht, BumpArena.zip_blocks 0 reqs⟩

/-! ## The compressed image -/

/-- `decompress_lzma`, over any decoder. -/
def decompressLzmaWith (decode : (dest destLen src srcLen : Nat) → Bytes → Bl2M σ (Int × Nat))
    (dst src srcSize : Nat) : Bl2M σ Int := do
  szInit
  let mem := (← get).mem
  let prop := mem.read src LZMA_PROPS_SIZE
  let uncompSize := ofLE (mem.read (src + LZMA_PROPS_SIZE) 4)
  let srcLen := toSize (srcSize - LZMA_PROPS_SIZE - 8)
  let (ret, _) ← decode dst uncompSize (src + LZMA_PROPS_SIZE + 8) srcLen prop
  if ret ≠ SZ_OK then return -EFAULT
  return 0

namespace Notes

variable {P : BootEvent → Prop}

/-- A change of the state that leaves the log alone, by a look at the state. -/
theorem update {β : Type} {g : Bl2 σ → Bl2 σ} {f : Bl2 σ → PUnit → Bl2M σ β}
    (hg : ∀ s, (g s).log = s.log) (hf : ∀ s u, Notes P (f s u)) :
    Notes P (MonadState.get >>= fun s => set (g s) >>= f s) := by
  intro s
  obtain ⟨ev, hlog, hev⟩ := hf s ⟨⟩ (g s)
  exact ⟨ev, hlog.trans (congrArg (· ++ ev) (hg s)), hev⟩

theorem szInit : Notes P (szInit : Bl2M σ Unit) := modify fun _ => rfl

theorem szAlloc (size : Nat) : Notes P (szAlloc size : Bl2M σ Nat) := silent fun _ => rfl

theorem lzmaDecode (dest destLen src srcLen : Nat) (prop : Bytes) :
    Notes P (lzmaDecode env dest destLen src srcLen prop) := by
  refine .ite (.pure _) ?_
  split
  · exact .pure _
  · refine .bind (.szAlloc _) fun probs => .ite (.pure _) ?_
    exact .update (fun _ => rfl) fun _ _ => .ite (.pure _) (.pure _)

theorem decompressLzma (dst src srcSize : Nat) : Notes P (decompressLzma env dst src srcSize) :=
  .bind .szInit fun _ => .bind .get fun _ => .bind (.lzmaDecode _ _ _ _ _) fun _ =>
    .ite (.pure _) (.pure _)

theorem decompressLz4 (dst dstSize src srcSize : Nat) :
    Notes P (decompressLz4 env dst dstSize src srcSize) :=
  .bind .szInit fun _ => .bind (.szAlloc _) fun _ => .ite (.pure _)
    (.bind (.modify fun _ => rfl) fun _ => .bind (.modify fun _ => rfl) fun _ => .pure _)

theorem decompress {dst dstSize src srcSize : Nat} {type : CompressType}
    (h : ∀ ret, P (.decompress type ret)) :
    Notes P (decompress env dst dstSize src srcSize type) := by
  cases type with
  | none => exact .bind (.pure _) fun ret => .bind (.say (h ret)) fun _ => .pure _
  | lzma => exact .bind (.decompressLzma _ _ _) fun ret => .bind (.say (h ret)) fun _ => .pure _
  | lz4 => exact .bind (.decompressLz4 _ _ _ _) fun ret => .bind (.say (h ret)) fun _ => .pure _

theorem loaderDecode {h : LoaderHeader} (hP : ∀ ret, P (.decompress h.compType ret)) :
    Notes P (loaderDecode env h) := by
  refine .ite ?_ (.bind (.modify fun _ => rfl) fun _ => .pure _)
  refine .bind (.modify fun _ => rfl) fun _ => .bind (.decompress hP) fun ret => ?_
  exact .ite (.pure _) (.bind (.modify fun _ => rfl) fun _ => .pure _)

end Notes

/-- A load of the ROM. -/
def IsLoad : BootEvent → Prop
  | .load _ _ _ _ => True
  | _ => False

/-- The header of the loader, as the first load leaves it in the SRAM. -/
def firstHeader (env : Bl2Env σ) (retry : Int) (s : Bl2 σ) : LoaderHeader :=
  (final (loadImage env .sramUnionBuf (s.param2 .loader2ndLoadaddr) BLOCK_SIZE retry s)).header

/-- Behind its two loads the loader only tests and decompresses. -/
theorem loadLoader2nd_log (env : Bl2Env σ) (retry : Int) (s : Bl2 σ) :
    (final (loadLoader2nd env retry s)).log =
        s.log ++ [.load .sramUnionBuf (s.param2 .loader2ndLoadaddr) BLOCK_SIZE retry] ∨
      ∃ ev, (final (loadLoader2nd env retry s)).log =
        s.log ++ .load .sramUnionBuf (s.param2 .loader2ndLoadaddr) BLOCK_SIZE retry ::
          .load (.dram (firstHeader env retry s).imageBuf) (s.param2 .loader2ndLoadaddr)
            (firstHeader env retry s).readingSize retry :: ev ∧ ∀ e ∈ ev, ¬ IsLoad e := by
  obtain ⟨ret, t, hrun⟩ : ∃ ret t, loadImage env .sramUnionBuf (s.param2 .loader2ndLoadaddr)
      BLOCK_SIZE retry s = .ok ret t := ⟨_, _, rfl⟩
  have hlog : t.log = s.log ++ [.load .sramUnionBuf (s.param2 .loader2ndLoadaddr) BLOCK_SIZE retry] :=
    (congrArg (fun r => (final r).log) hrun).symm
  rw [loadLoader2nd_eq, get_bind, bind_ok _ hrun, firstHeader, hrun]
  by_cases hret : ret < 0
  · rw [if_pos hret]
    exact .inl hlog
  rw [if_neg hret, get_bind, loaderBody]
  right
  refine (loadImage_bind_log (P := fun e => ¬ IsLoad e) (fun ret => ?_) t).imp fun ev h =>
    ⟨h.1.trans (by rw [hlog, List.append_assoc]; rfl), h.2⟩
  refine .ite (.pure _) (.bind (.imageCrc _ _) fun crc => .bind (.passes id) fun ok => ?_)
  refine .ite (.pure _) (.bind (.decVerifyImage fun _ => id) fun ret => .ite (.pure _) ?_)
  exact .loaderDecode fun _ => id

/-- **The body's load**, of a loader whose checksum was found right. -/
theorem loadLoader2nd_issues_iff {retry : Int} {addr off n : Nat} {r : Int}
    (hck : Issues (loadLoader2nd env retry) s (.test (.cksum .loader2nd) true)) :
    Issues (loadLoader2nd env retry) s (.load (.dram addr) off n r) ↔
      BootEvent.load (.dram addr) off n r = .load (.dram (firstHeader env retry s).imageBuf)
        (s.param2 .loader2ndLoadaddr) (firstHeader env retry s).readingSize retry := by
  rcases loadLoader2nd_log env retry s with hlog | ⟨ev, hlog, hev⟩
  · rw [issues_iff hlog] at hck
    simp at hck
  · have hnot : BootEvent.load (.dram addr) off n r ∉ ev := fun he => hev _ he trivial
    rw [issues_iff hlog]
    simp [hnot]

/-- The compressed image is read into its buffer. -/
def ReadsInBuffer (env : Bl2Env σ) (retry : Int) (s : Bl2 σ) : Prop :=
  (firstHeader env retry s).compType ≠ .none → ∀ off n r,
    Issues (loadLoader2nd env retry) s (.load (.dram DECOMP_BUF_ADDR) off n r) → n ≤ DECOMP_BUF_SIZE

/-- The image is not compressed, or as small as the buffer, or so large that rounding up to
a block gives 0. -/
def ReadFits (h : LoaderHeader) : Prop :=
  h.compType = .none ∨ h.size ≤ DECOMP_BUF_SIZE ∨ 2 ^ 32 - BLOCK_SIZE < h.size

/-- A negative `int` is an enormous `size_t`. -/
theorem toSize_toInt32_le_iff {x bound : Nat} (hx : x < 2 ^ 32) (hbound : bound < 2 ^ 31) :
    toSize (toInt32 x) ≤ bound ↔ x ≤ bound := by
  rw [toSize, toInt32]
  split
  case isTrue hpos => omega
  case isFalse hneg => omega

theorem readingSize_le_iff {h : LoaderHeader} (hsize : h.size < 2 ^ 32) :
    h.readingSize ≤ DECOMP_BUF_SIZE ↔ h.size ≤ DECOMP_BUF_SIZE ∨ 2 ^ 32 - BLOCK_SIZE < h.size := by
  have hbuf : DECOMP_BUF_SIZE = 0xF00000 := rfl
  have hblock : BLOCK_SIZE = 512 := rfl
  have hround : roundUp h.size 512 < 2 ^ 32 := Nat.mod_lt _ (by decide)
  rw [LoaderHeader.readingSize, hblock, toSize_toInt32_le_iff hround (by rw [hbuf]; decide), hbuf,
    roundUp]
  rcases le_or_gt h.size (2 ^ 32 - 512) with hle | hgt
  · rw [Nat.mod_eq_of_lt (a := h.size + 512 - 1) (by omega), Nat.mod_eq_of_lt (by omega)]
    omega
  · have hwrap : (h.size + 512 - 1) % 2 ^ 32 / 512 = 0 := by omega
    rw [hwrap]
    omega

theorem readsInBuffer_iff {retry : Int}
    (hck : Issues (loadLoader2nd env retry) s (.test (.cksum .loader2nd) true)) :
    ReadsInBuffer env retry s ↔ ReadFits (firstHeader env retry s) := by
  have hsize : (firstHeader env retry s).size < 2 ^ 32 := Layout.get_lt ..
  rw [ReadFits, ← readingSize_le_iff hsize]
  by_cases hnone : (firstHeader env retry s).compType = .none
  · exact iff_of_true (fun h => absurd hnone h) (.inl hnone)
  have hbuf : (firstHeader env retry s).imageBuf = DECOMP_BUF_ADDR := if_neg hnone
  rw [or_iff_right hnone]
  constructor
  · intro h
    exact h hnone _ _ _ ((loadLoader2nd_issues_iff hck).mpr (by rw [hbuf]))
  · rintro h - off n r hload
    obtain ⟨-, -, rfl, -⟩ := BootEvent.load.inj ((loadLoader2nd_issues_iff hck).mp hload)
    exact h

/-! ## The output limit -/

/-- With any decoder, the run is a call with this limit and what `decompress_lzma` makes of it. -/
def HandsLimit (dst src srcSize : Nat) (s : Bl2 σ) (limit : Nat) : Prop :=
  ∃ (p len : Nat) (prop : Bytes) (t : Bl2 σ),
    ∀ decode : (dest destLen src srcLen : Nat) → Bytes → Bl2M σ (Int × Nat),
      decompressLzmaWith decode dst src srcSize s = (do
        let (ret, _) ← decode dst limit p len prop
        if ret ≠ SZ_OK then return -EFAULT
        return 0 : Bl2M σ Int) t

/-- The limit is what the stream says, whatever room the caller has. -/
theorem handsLimit_iff {dst src srcSize limit : Nat} :
    HandsLimit dst src srcSize s limit ↔ limit = ofLE (s.mem.read (src + LZMA_PROPS_SIZE) 4) := by
  constructor
  · rintro ⟨p, len, prop, t, h⟩
    -- a decoder that keeps the limit it was given
    have hspy := h fun _ destLen _ _ _ => do
      modify fun s => { s with rtosBase := destLen }
      return (SZ_OK, 0)
    exact (congrArg (fun r => (final r).rtosBase) hspy).symm
  · rintro rfl
    exact ⟨_, _, _, _, fun decode => rfl⟩

/-- The decoder that the loader has is one of them. -/
theorem decompressLzma_of_handsLimit {dst src srcSize limit : Nat}
    (h : HandsLimit dst src srcSize s limit) : ∃ p len prop t,
      decompressLzma env dst src srcSize s = (do
        let (ret, _) ← lzmaDecode env dst limit p len prop
        if ret ≠ SZ_OK then return -EFAULT
        return 0 : Bl2M σ Int) t := by
  obtain ⟨p, len, prop, t, h⟩ := h
  exact ⟨p, len, prop, t, h (lzmaDecode env)⟩

/-- What `decompress_lzma` hands on is in the room of its caller. -/
def LimitKept (dst src srcSize : Nat) (s : Bl2 σ) : Prop :=
  ∀ limit, HandsLimit dst src srcSize s limit → limit ≤ DECOMP_DST_SIZE

theorem lzmaPropsDecode_le {data : Bytes} {props : LzmaProps}
    (h : lzmaPropsDecode data = .ok props) : props.lc ≤ 8 ∧ props.lp ≤ 4 := by
  rw [lzmaPropsDecode] at h
  split_ifs at h
  obtain rfl := Except.ok.inj h
  exact ⟨by simp only; omega, by simp only; omega⟩

/-- The only request of `LzmaDecode` fits when its properties ask for few contexts. -/
theorem fits_lzmaProbs_iff {data : Bytes} {props : LzmaProps}
    (h : lzmaPropsDecode data = .ok props) :
    decompAlloc.Fits 0 [lzmaProbsSize props] ↔ props.lc + props.lp ≤ 9 := by
  obtain ⟨hlc, hlp⟩ := lzmaPropsDecode_le h
  have hmax : 2 ^ (props.lc + props.lp) ≤ 2 ^ 12 := Nat.pow_le_pow_right (by omega) (by omega)
  have hgood : decompAlloc.Good 0 := .inl (Nat.zero_le _)
  -- so small a request is never refused
  have hfits : decompAlloc.Good (0 + lzmaProbsSize props) ↔ lzmaProbsSize props ≤ 0x100000 := by
    rw [decompAlloc_good_iff, lzmaProbsSize, Nat.mod_eq_of_lt (by omega)]
    omega
  rw [BumpArena.fits_cons_iff hgood, hfits]
  constructor
  · rintro ⟨hle, -⟩
    by_contra hbig
    have hpow : 2 ^ 10 ≤ 2 ^ (props.lc + props.lp) := Nat.pow_le_pow_right (by omega) (by omega)
    rw [lzmaProbsSize] at hle
    omega
  · intro hsmall
    have hpow : 2 ^ (props.lc + props.lp) ≤ 2 ^ 9 := Nat.pow_le_pow_right (by omega) hsmall
    have hle : lzmaProbsSize props ≤ 0x100000 := by
      rw [lzmaProbsSize]
      omega
    refine ⟨hle, fun pre hpre => ?_⟩
    rw [List.prefix_nil.mp hpre]
    exact hfits.mpr hle

/-- **The buffers of the decompression.** Each of the three limits holds exactly where the file
keeps it. -/
theorem decompression_in_buffers_iff (env : Bl2Env σ) (retry : Int) (s : Bl2 σ) :
    (Issues (loadLoader2nd env retry) s (.test (.cksum .loader2nd) true) →
      (ReadsInBuffer env retry s ↔ ReadFits (firstHeader env retry s))) ∧
    (∀ reqs, ∃ ptrs t, szAllocs reqs s = .ok ptrs t ∧
      (decompAlloc.InArena (ptrs.zip reqs) ↔ decompAlloc.Fits 0 reqs)) ∧
    (∀ dst src srcSize, LimitKept dst src srcSize s ↔
      ofLE (s.mem.read (src + LZMA_PROPS_SIZE) 4) ≤ DECOMP_DST_SIZE) := by
  refine ⟨readsInBuffer_iff, fun reqs => ?_, fun dst src srcSize => ?_⟩
  · obtain ⟨ptrs, t, hrun, hblocks⟩ := szAllocs_eq reqs s
    refine ⟨ptrs, t, hrun, ?_⟩
    rw [hblocks, BumpArena.inArena_blocks_iff]
  · constructor
    · exact fun h => h _ (handsLimit_iff.mpr rfl)
    · rintro h limit hlimit
      rwa [handsLimit_iff.mp hlimit]

/-! ## Two loaders -/

/-- A card with a loader that starts with these bytes, at the beginning of the file. -/
def loaderCard (body : Bytes) : Bytes := loaderImage (fun _ => body) (jumpArgs [])

section Card

variable {body : Bytes} (hbody : body.length < 2 ^ 31)
include hbody

theorem length_loaderCard : (loaderCard body).length % 512 = 0 ∧
    32 + body.length ≤ (loaderCard body).length ∧ (loaderCard body).length < 32 + body.length + 512 := by
  obtain ⟨hmod, hle, hlt⟩ := length_ubootBody (fun _ => body) (jumpArgs [])
  rw [loaderCard, length_loaderImage rfl (by decide) (by decide) (by omega)]
  omega

theorem loaderHead_loaderCard : LoaderHead (loaderCard body) 0x80200000 := by
  obtain ⟨-, -, hlt⟩ := length_ubootBody (fun _ => body) (jumpArgs [])
  exact loaderHead rfl (by decide) (by decide) (by omega)

/-- The loader of the card is found in order, and its header says how long it is. -/
theorem loaderCard_tested (hlen : (loaderCard body).length ≤ 0xF00200)
    (h512 : 512 ≤ (loaderCard body).length) :
    Issues (loadLoader2nd (jumpEnv (loaderCard body)) 0) (jumpStart []) (.test (.cksum .loader2nd) true) ∧
      (firstHeader (jumpEnv (loaderCard body)) 0 (jumpStart [])).compType = .lzma ∧
      (firstHeader (jumpEnv (loaderCard body)) 0 (jumpStart [])).size = (loaderCard body).length := by
  have hhead := loaderHead_loaderCard hbody
  have hslice : slice (loaderCard body) 0 (loaderCard body).length = loaderCard body :=
    List.take_of_length_le le_rfl
  have hfile : 0 + (loaderCard body).length ≤ (loaderCard body).length := by omega
  obtain ⟨ret, t, hload, -, -, -, -, -, hmember⟩ := loaderHeader_ok (s := jumpStart [])
    (jumpEnv_reads (loaderCard body)) trivial hfile hslice h512
  have hheader : firstHeader (jumpEnv (loaderCard body)) 0 (jumpStart []) = t.header :=
    congrArg (fun r => (final r).header) hload
  obtain ⟨h, t', htested, -, -, -, -, -, -, hlog⟩ := loadLoader2nd_tested (s := jumpStart [])
    (jumpEnv_reads (loaderCard body)) rfl trivial rfl hfile hslice (length_loaderCard hbody).1 hlen
    h512 hhead
  refine ⟨?_, ?_, ?_⟩
  · -- the test is in the log before the decompression, which only adds to it
    have hdecode : Notes (fun _ => True) (Bl2.loaderDecode (jumpEnv (loaderCard body)) h) :=
      Notes.loaderDecode fun _ => trivial
    obtain ⟨ev, hev, -⟩ := hdecode t'
    rw [Issues, htested, hev, hlog]
    exact ⟨_, List.append_assoc .., by simp⟩
  · rw [hheader, LoaderHeader.compType, header, hmember, hhead.magic]
    rfl
  · rw [hheader]
    exact (hmember .size).trans hhead.size

end Card

/-- A small loader stays in its buffer. -/
theorem decompression_in_buffers_iff_small :
    Issues (loadLoader2nd (jumpEnv (loaderCard [])) 0) (jumpStart []) (.test (.cksum .loader2nd) true) ∧
      ReadsInBuffer (jumpEnv (loaderCard [])) 0 (jumpStart []) := by
  have hempty : ([] : Bytes).length < 2 ^ 31 := by decide
  obtain ⟨hmod, hge, hlt⟩ := length_loaderCard hempty
  rw [List.length_nil] at hge hlt
  obtain ⟨hck, -, hsize⟩ := loaderCard_tested hempty (by omega) (by omega)
  refine ⟨hck, ((decompression_in_buffers_iff _ _ _).1 hck).mpr (.inr (.inl ?_))⟩
  rw [hsize]
  exact le_trans (b := 1024) (by omega) (by decide)

/-- A stream that asks for many contexts, does not know its size, and fills the buffer with
its header. -/
def overBody : Bytes := [26, 0, 0, 0x80, 0] ++ (List.replicate 8 0xFF ++ List.replicate 0xEFFFF4 0)

/-- The image is a block longer than the buffer, the array of the decoder leaves the arena, and
the limit is the unknown size. -/
theorem not_decompression_in_buffers :
    (Issues (loadLoader2nd (jumpEnv (loaderCard overBody)) 0) (jumpStart [])
        (.test (.cksum .loader2nd) true) ∧
      ¬ ReadsInBuffer (jumpEnv (loaderCard overBody)) 0 (jumpStart [])) ∧
    (∃ props ptrs t, lzmaPropsDecode (overBody.take 5) = .ok props ∧
      szAllocs [lzmaProbsSize props] (jumpStart []) = .ok ptrs t ∧
      ¬ decompAlloc.InArena (ptrs.zip [lzmaProbsSize props])) ∧
    ¬ LimitKept 0x80200000 (DECOMP_BUF_ADDR + 32) 0xF00001
      { jumpStart [] with mem := (jumpStart []).mem.write (DECOMP_BUF_ADDR + 32) overBody } := by
  have hlen : overBody.length = 0xF00001 := by
    rw [overBody, List.length_append, List.length_append, List.length_replicate, List.length_replicate]
    rfl
  have hbody : overBody.length < 2 ^ 31 := by
    rw [hlen]
    decide
  obtain ⟨hmod, hge, hlt⟩ := length_loaderCard hbody
  rw [hlen] at hge hlt
  obtain ⟨hck, htype, hsize⟩ := loaderCard_tested hbody (by omega) (by omega)
  refine ⟨⟨hck, fun hreads => ?_⟩, ?_, fun hkept => ?_⟩
  · have hbuf : DECOMP_BUF_SIZE = 0xF00000 := rfl
    have hblock : BLOCK_SIZE = 512 := rfl
    rcases (readsInBuffer_iff hck).mp hreads with hnone | hle | hgt
    · exact nomatch htype.symm.trans hnone
    · omega
    · omega
  · have hprops : lzmaPropsDecode (overBody.take 5) = .ok ⟨8, 2, 0, 0x800000⟩ := rfl
    obtain ⟨ptrs, t, hrun, hblocks⟩ :=
      szAllocs_eq [lzmaProbsSize ⟨8, 2, 0, 0x800000⟩] (jumpStart [])
    refine ⟨_, ptrs, t, hprops, hrun, ?_⟩
    rw [hblocks, BumpArena.inArena_blocks_iff, fits_lzmaProbs_iff hprops]
    decide
  · have hlimit := hkept _ (handsLimit_iff.mpr rfl)
    rw [Mem.read_write_part _ (by rw [hlen]; decide)] at hlimit
    exact absurd hlimit (by decide)

end Bl2

end LicheeRvNano
