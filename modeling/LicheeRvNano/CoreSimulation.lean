import LicheeRvNano.CoreRelease

/-!
# BL2: the loader as a run of answers

`load_rest` is modelled twice: in `Bl2` as a program over the memory, for any surroundings,
and in `CoreRelease` as a machine of the answers it gets. `loadRest_simulated` connects the
two. With any boot ROM, verification and decoders, and however the program ends, there is a
run of the machine with the same log, and the memory changes only where the run stores.

* `Called s s' ev` is a call that leaves the loader's variables alone: what it noted and
  where it stored is `ev`. Each function of the loader is described so.
* `Simulated s pc r post` is a program that starts with the machine at `pc`. It composes as
  the programs do.
-/

namespace LicheeRvNano

/-- Neither the ROM nor the verification stores more than it was asked for. -/
structure Bl2Env.Bounded {σ : Type} (env : Bl2Env σ) : Prop where
  load : ∀ r offset size retry, (env.rom.loadImage r offset size retry).2.1.length ≤ size
  verify : ∀ image decSkip fipParam1,
    (env.decVerifyImage image decSkip fipParam1).2.length ≤ image.length

namespace Bl2

variable {σ α β : Type} {env : Bl2Env σ} {s s' s'' : Bl2 σ} {ev ev' : List RestEvent}

/-- From `s` to `s'` the events were noted, and the memory changed only where they store. -/
structure Traced (s s' : Bl2 σ) (ev : List RestEvent) : Prop where
  log : s'.log = s.log ++ bootLog ev
  mem : ∀ x, (∀ addr len, .store addr len ∈ ev → x < addr ∨ addr + len ≤ x) → s'.mem x = s.mem x

/-- The variables of the loader are the same. -/
structure SameVars (s s' : Bl2 σ) : Prop where
  fipParam2 : s'.fipParam2 = s.fipParam2
  rtosBase : s'.rtosBase = s.rtosBase
  monitorEntry : s'.monitorEntry = s.monitorEntry
  loader2ndEntry : s'.loader2ndEntry = s.loader2ndEntry

/-- A call of the surroundings. -/
structure Called (s s' : Bl2 σ) (ev : List RestEvent) : Prop where
  traced : Traced s s' ev
  same : SameVars s s'

theorem Traced.append (h : Traced s s' ev) (h' : Traced s' s'' ev') : Traced s s'' (ev ++ ev') := by
  constructor
  · rw [h'.log, h.log, List.append_assoc, bootLog, bootLog, bootLog, List.filterMap_append]
  · intro x hx
    rw [h'.mem x fun addr len hmem => hx addr len (List.mem_append_right _ hmem),
      h.mem x fun addr len hmem => hx addr len (List.mem_append_left _ hmem)]

theorem traced_write {addr : Nat} {b : Bytes} (hlog : s'.log = s.log)
    (hmem : s'.mem = s.mem.write addr b) : Traced s s' [.store addr b.length] := by
  constructor
  · rw [hlog]
    exact (List.append_nil _).symm
  · intro x hx
    rw [hmem]
    rcases hx addr b.length List.mem_cons_self with h | h
    · exact Mem.write_apply_of_lt _ h
    · exact Mem.write_apply_of_le _ h

theorem SameVars.trans (h : SameVars s s') (h' : SameVars s' s'') : SameVars s s'' :=
  ⟨h'.fipParam2.trans h.fipParam2, h'.rtosBase.trans h.rtosBase,
    h'.monitorEntry.trans h.monitorEntry,
    h'.loader2ndEntry.trans h.loader2ndEntry⟩

theorem SameVars.param2 (h : SameVars s s') : s'.param2 = s.param2 := by
  funext f
  rw [Bl2.param2, Bl2.param2, h.fipParam2]

theorem Called.append (h : Called s s' ev) (h' : Called s' s'' ev') : Called s s'' (ev ++ ev') :=
  ⟨h.traced.append h'.traced, h.same.trans h'.same⟩

theorem called_said (s : Bl2 σ) (e : BootEvent) : Called s (s.said e) [.did e] :=
  ⟨⟨rfl, fun _ _ => rfl⟩, rfl, rfl, rfl, rfl⟩

theorem called_write (addr : Nat) (b : Bytes) (s : Bl2 σ) :
    Called s { s with mem := s.mem.write addr b } [.store addr b.length] :=
  ⟨traced_write rfl rfl, rfl, rfl, rfl, rfl⟩

/-- A load, and what it stored. -/
theorem loadImage_called (hb : env.Bounded) (addr offset size : Nat) (retry : Int) (s : Bl2 σ) :
    ∃ ret len t, len ≤ size ∧ loadImage env (.dram addr) offset size retry s = .ok ret t ∧
      Called s t [.did (.load (.dram addr) offset size retry), .store addr len] := by
  refine ⟨_, _, _, hb.load s.rom offset size retry, rfl, ?_⟩
  refine (called_said s _).append ⟨traced_write rfl rfl, rfl, rfl, rfl, rfl⟩

/-- The load of a header, which goes to the SRAM. -/
theorem loadHeader_called (offset size : Nat) (retry : Int) (s : Bl2 σ) :
    ∃ ret t, loadImage env .sramUnionBuf offset size retry s = .ok ret t ∧
      Called s t [.did (.load .sramUnionBuf offset size retry)] :=
  ⟨_, _, rfl, ⟨rfl, fun _ _ => rfl⟩, rfl, rfl, rfl, rfl⟩

/-- A verification, and what it stored. -/
theorem decVerifyImage_called (hb : env.Bounded) (image : ImageName) (addr size decSkip : Nat)
    (s : Bl2 σ) : ∃ ret len t, len ≤ size ∧ decVerifyImage env image addr size decSkip s = .ok ret t ∧
      Called s t [.store addr len, .did (.test (.verify image) (0 ≤ ret))] := by
  have hlen := hb.verify (s.mem.read addr size) decSkip s.fipParam1
  rw [Mem.length_read] at hlen
  exact ⟨_, _, _, hlen, rfl, (called_write addr _ s).append (called_said _ _)⟩

/-! ## The images -/

/-- How a call ends: `none` stands for a panic. -/
def outcome (ret : Option Int) (s' : Bl2 σ) : EStateM.Result Halt (Bl2 σ) Int :=
  match ret with
  | none => .error .panic s'
  | some ret => .ok ret s'

theorem loadDramImage_called (hb : env.Bounded) (img : DramImage) (retry : Int) (s : Bl2 σ) :
    ∃ (o : ImageAnswers) (s' : Bl2 σ) (ret : Option Int) (ev : List RestEvent),
      o.Fits (s.param2 img.size) ∧
      dramImage img.name (s.param2 img.runaddr) (s.param2 img.size) (s.param2 img.loadaddr) retry o =
        (ret, ev) ∧
      loadDramImage env img retry s = outcome ret s' ∧ Called s s' ev := by
  generalize hA : s.param2 img.runaddr = A
  generalize hn : s.param2 img.size = n
  generalize hoff : s.param2 img.loadaddr = off
  by_cases h₁ : inRange A DRAM_BASE DRAM_SIZE = false
  · refine ⟨⟨0, 0, false, 0, 0⟩, s.said (.test (.runaddr img.name) false),
      none, _, ⟨Nat.zero_le _, Nat.zero_le _⟩, ?_, ?_, called_said s _⟩
    · simp only [dramImage, h₁, Bool.not_false, if_true]
    · simp only [loadDramImage, get_bind, passes_bind, hA, h₁, Bool.not_false, if_true]
      rfl
  rw [Bool.not_eq_false] at h₁
  by_cases h₂ : inRange ((A + n) % 2 ^ 32) DRAM_BASE DRAM_SIZE = false
  · refine ⟨⟨0, 0, false, 0, 0⟩, (s.said (.test (.runaddr img.name) true)).said
      (.test (.size img.name) false), none, _, ⟨Nat.zero_le _, Nat.zero_le _⟩, ?_, ?_,
      (called_said s _).append (called_said _ _)⟩
    · simp only [dramImage, h₁, h₂, Bool.not_true, Bool.not_false, Bool.false_eq_true, if_false, if_true]
      rfl
    · simp only [loadDramImage, get_bind, passes_bind, hA, hn, h₁, h₂, Bool.not_true, Bool.not_false,
        Bool.false_eq_true, if_false, if_true]
      rfl
  rw [Bool.not_eq_false] at h₂
  have htests := (called_said s (.test (.runaddr img.name) true)).append
    (called_said _ (.test (.size img.name) true))
  obtain ⟨ret, stored, t, hstored, hload, hloaded⟩ := loadImage_called hb A off n retry
    ((s.said (.test (.runaddr img.name) true)).said (.test (.size img.name) true))
  have hfrom := htests.append hloaded
  by_cases hret : ret < 0
  · refine ⟨⟨ret, stored, false, 0, 0⟩, t, some ret, _, ⟨hstored, Nat.zero_le _⟩, ?_, ?_, hfrom⟩
    · simp only [dramImage, h₁, h₂, Bool.not_true, Bool.false_eq_true, if_false, hret, if_true]
      rfl
    · simp only [loadDramImage, get_bind, passes_bind, hA, hn, hoff, h₁, h₂, Bool.not_true,
        Bool.false_eq_true, if_false, bind_ok _ hload, hret, if_true]
      rfl
  generalize hcrc : decide (env.rom.imageCrc (toInt32 n) (t.mem.read A (toInt32 n).toNat) =
    s.param2 img.cksum) = cksum
  by_cases hck : cksum = false
  · subst hck
    refine ⟨⟨ret, stored, false, 0, 0⟩, t.said (.test (.cksum img.name) false), some (-1), _,
      ⟨hstored, Nat.zero_le _⟩, ?_, ?_, hfrom.append (called_said t _)⟩
    · simp only [dramImage, h₁, h₂, Bool.not_true, Bool.false_eq_true, if_false, hret, Bool.not_false,
        if_true]
      rfl
    · simp only [loadDramImage, get_bind, passes_bind, hA, hn, hoff, h₁, h₂, Bool.not_true,
        Bool.false_eq_true, if_false, bind_ok _ hload, hret, if_true, imageCrc, bind_assoc, pure_bind,
        hcrc, Bool.not_false]
      rfl
  rw [Bool.not_eq_false] at hck
  subst hck
  obtain ⟨verify, rewritten, t', hrewritten, hver, hverified⟩ := decVerifyImage_called hb img.name A n 0
    (t.said (.test (.cksum img.name) true))
  refine ⟨⟨ret, stored, true, verify, rewritten⟩, t', some (if verify < 0 then verify else 0), _,
    ⟨hstored, hrewritten⟩, ?_, ?_, hfrom.append ((called_said t _).append hverified)⟩
  · simp only [dramImage, h₁, h₂, Bool.not_true, Bool.false_eq_true, if_false, hret]
    rfl
  · simp only [loadDramImage, get_bind, passes_bind, hA, hn, hoff, h₁, h₂, Bool.not_true,
      Bool.false_eq_true, if_false, bind_ok _ hload, hret, imageCrc, bind_assoc, pure_bind,
      hcrc, bind_ok _ hver, ite_apply_state, pure_apply]
    split_ifs <;> rfl

/-- A decoder stores in its arena and at `dst`; one that gives up early stores nothing. -/
theorem decoder_called {arena dst : Nat} {probs out : Bytes} (hlog : s'.log = s.log)
    (hmem : s'.mem = (s.mem.write arena probs).write dst out) (hsame : SameVars s s') :
    Called s s' [.store arena probs.length, .store dst out.length] := by
  have harena : Traced s { s with mem := s.mem.write arena probs } [.store arena probs.length] :=
    traced_write rfl rfl
  exact ⟨harena.append (traced_write hlog hmem), hsame⟩

theorem called_nothing {arena dst : Nat} (hlog : s'.log = s.log) (hmem : s'.mem = s.mem)
    (hsame : SameVars s s') : Called s s' [.store arena 0, .store dst 0] :=
  ⟨⟨hlog.trans (List.append_nil _).symm, fun _ _ => by rw [hmem]⟩, hsame⟩

/-- `SzAlloc` gives the start of the arena or nothing. -/
theorem szAlloc_eq (hbuf : s.compAllocBuf = DECOMP_ALLOC_ADDR) (n : Nat) : ∃ probs buf,
    szAlloc n s = .ok probs { s with compAllocBuf := buf } ∧
      (probs = 0 ∨ probs = DECOMP_ALLOC_ADDR) := by
  refine ⟨_, _, rfl, ?_⟩
  split_ifs
  · exact .inl rfl
  · exact .inr hbuf

variable (env) in
theorem lzmaDecode_called (hbuf : s.compAllocBuf = DECOMP_ALLOC_ADDR) (dest destLen src srcLen : Nat)
    (propData : Bytes) : ∃ res scratch out t,
      lzmaDecode env dest destLen src srcLen propData s = .ok res t ∧
      Called s t [.store DECOMP_ALLOC_ADDR scratch, .store dest out] := by
  by_cases hlen : srcLen < RC_INIT_SIZE
  · refine ⟨(SZ_ERROR_INPUT_EOF, 0), 0, 0, s, ?_, called_nothing rfl rfl ⟨rfl, rfl, rfl, rfl⟩⟩
    simp only [lzmaDecode, hlen, if_true, pure_apply]
  cases hp : lzmaPropsDecode propData with
  | error res =>
    refine ⟨(res, 0), 0, 0, s, ?_, called_nothing rfl rfl ⟨rfl, rfl, rfl, rfl⟩⟩
    simp only [lzmaDecode, hlen, if_false, hp, pure_apply]
  | ok props =>
    obtain ⟨probs, buf, halloc, rfl | rfl⟩ := szAlloc_eq hbuf (lzmaProbsSize props)
    · refine ⟨(SZ_ERROR_MEM, 0), 0, 0, { s with compAllocBuf := buf }, ?_,
        called_nothing rfl rfl ⟨rfl, rfl, rfl, rfl⟩⟩
      simp only [lzmaDecode, hlen, if_false, hp, bind_ok _ halloc, if_true, pure_apply]
    · have hne : DECOMP_ALLOC_ADDR ≠ 0 := nofun
      generalize hrun : env.lzmaDecDecodeToDic props destLen (s.mem.read src srcLen) = run
      have hdecoded : Called s
          { s with
            compAllocBuf := buf
            mem := (s.mem.write DECOMP_ALLOC_ADDR run.probs).write dest run.out }
          [.store DECOMP_ALLOC_ADDR run.probs.length, .store dest run.out.length] :=
        decoder_called rfl rfl ⟨rfl, rfl, rfl, rfl⟩
      refine ⟨if run.res = SZ_OK ∧ run.needsMoreInput then (SZ_ERROR_INPUT_EOF, run.out.length)
        else (run.res, run.out.length), _, _, _, ?_, hdecoded⟩
      simp only [lzmaDecode, hlen, if_false, hp, bind_ok _ halloc, hne, get_bind, set_bind, hrun,
        ite_apply_state, pure_apply]
      split_ifs <;> rfl

variable (env) in
theorem decompressLzma_called (dst src srcSize : Nat) (s : Bl2 σ) : ∃ ret scratch out t,
    decompressLzma env dst src srcSize s = .ok ret t ∧
      Called s t [.store DECOMP_ALLOC_ADDR scratch, .store dst out] := by
  let s₁ : Bl2 σ := { s with compAllocBuf := DECOMP_ALLOC_ADDR, compAllocSize := DECOMP_ALLOC_SIZE }
  obtain ⟨res, scratch, out, t, hdec, hcalled⟩ := lzmaDecode_called env (s := s₁) rfl dst
    (ofLE (s.mem.read (src + LZMA_PROPS_SIZE) 4)) (src + LZMA_PROPS_SIZE + 8)
    (toSize (srcSize - LZMA_PROPS_SIZE - 8)) (s.mem.read src LZMA_PROPS_SIZE)
  refine ⟨if res.1 ≠ SZ_OK then -EFAULT else 0, scratch, out, t, ?_, ⟨hcalled.traced.log,
    hcalled.traced.mem⟩, hcalled.same.fipParam2, hcalled.same.rtosBase,
    hcalled.same.monitorEntry, hcalled.same.loader2ndEntry⟩
  simp only [decompressLzma, szInit, modify_bind, get_bind]
  rw [bind_ok _ hdec]
  simp only [ite_apply_state, pure_apply]
  split_ifs <;> rfl

variable (env) in
theorem decompressLz4_called (dst dstSize src srcSize : Nat) (s : Bl2 σ) : ∃ ret scratch out t,
    decompressLz4 env dst dstSize src srcSize s = .ok ret t ∧
      Called s t [.store DECOMP_ALLOC_ADDR scratch, .store dst out] := by
  obtain ⟨dctx, buf, halloc, hdctx⟩ := szAlloc_eq
    (s := { s with compAllocBuf := DECOMP_ALLOC_ADDR, compAllocSize := DECOMP_ALLOC_SIZE }) rfl
    env.lz4fDctxSize
  by_cases h₀ : dctx = 0
  · have hrun : decompressLz4 env dst dstSize src srcSize s = .ok (-1)
        { s with compAllocBuf := buf, compAllocSize := DECOMP_ALLOC_SIZE } := by
      rw [decompressLz4, szInit, modify_bind]
      refine (bind_ok _ halloc).trans ?_
      rw [if_pos h₀, pure_apply]
    exact ⟨_, 0, 0, _, hrun, called_nothing rfl rfl ⟨rfl, rfl, rfl, rfl⟩⟩
  · have haddr : dctx = DECOMP_ALLOC_ADDR := hdctx.resolve_left h₀
    generalize hctx : List.replicate env.lz4fDctxSize (0 : UInt8) = ctx
    have hrun : decompressLz4 env dst dstSize src srcSize s = .ok 0
        { s with
          mem := (s.mem.write dctx ctx).write dst
            (env.lz4fDecompress dstSize ((s.mem.write dctx ctx).read src srcSize))
          compAllocBuf := buf, compAllocSize := DECOMP_ALLOC_SIZE } := by
      rw [decompressLz4, szInit, modify_bind, hctx]
      refine (bind_ok _ halloc).trans ?_
      rw [if_neg h₀, modify_bind, modify_bind, pure_apply]
    rw [← haddr]
    exact ⟨_, _, _, _, hrun, decoder_called rfl rfl ⟨rfl, rfl, rfl, rfl⟩⟩

variable (env) in
theorem decompress_called (dst dstSize src srcSize : Nat) {type : CompressType} (htype : type ≠ .none)
    (s : Bl2 σ) : ∃ ret scratch out t, decompress env dst dstSize src srcSize type s = .ok ret t ∧
      Called s t [.store DECOMP_ALLOC_ADDR scratch, .store dst out, .did (.decompress type ret)] := by
  have hsaid {ret scratch out t} (h : Called s t [.store DECOMP_ALLOC_ADDR scratch, .store dst out]) :
      Called s (t.said (.decompress type ret)) ([.store DECOMP_ALLOC_ADDR scratch, .store dst out] ++
        [.did (.decompress type ret)]) := h.append (called_said t _)
  cases type with
  | none => exact absurd rfl htype
  | lzma =>
    obtain ⟨ret, scratch, out, t, hdec, hcalled⟩ := decompressLzma_called env dst src srcSize s
    exact ⟨ret, scratch, out, _, bind_ok _ hdec, hsaid hcalled⟩
  | lz4 =>
    obtain ⟨ret, scratch, out, t, hdec, hcalled⟩ :=
      decompressLz4_called env dst dstSize src srcSize s
    exact ⟨ret, scratch, out, _, bind_ok _ hdec, hsaid hcalled⟩

section Loader

variable (env) (h : LoaderHeader)

/-- The entry is set by the last line, when nothing has failed. -/
def setsEntry (ret : Int) (t : Bl2 σ) : Bl2 σ :=
  if ret < 0 then t else { t with loader2ndEntry := (h.runaddr + LOADER_HEADER_SIZE) % 2 ^ 64 }

theorem loaderDecode_called (o : LoaderAnswers) (s : Bl2 σ) : ∃ scratch out dec t,
    let o := { o with scratch := scratch, out := out, decompress := dec }
    loaderDecode env o.toLoaderHeader s = .ok o.decode.1 (setsEntry o.toLoaderHeader o.decode.1 t) ∧
      Called s t o.decode.2 := by
  by_cases hnone : o.compType = .none
  · refine ⟨0, 0, 0, s, ?_, ?_⟩
    · simp only [loaderDecode, LoaderAnswers.decode, hnone, ne_eq, not_true_eq_false, if_false, if_true,
        modify_bind, pure_apply, setsEntry, lt_irrefl]
    · simp only [LoaderAnswers.decode, hnone, if_true]
      exact ⟨⟨(List.append_nil _).symm, fun _ _ => rfl⟩, rfl, rfl, rfl, rfl⟩
  -- the copy of the header, then the decoder
  have hcopied := called_write o.runaddr (s.mem.read o.imageBuf LOADER_HEADER_SIZE) s
  rw [Mem.length_read] at hcopied
  obtain ⟨dec, scratch, out, t, hdec, hcalled⟩ := decompress_called env
    (o.runaddr + LOADER_HEADER_SIZE) DECOMP_DST_SIZE (o.imageBuf + LOADER_HEADER_SIZE) o.size hnone
    { s with mem := s.mem.write o.runaddr (s.mem.read o.imageBuf LOADER_HEADER_SIZE) }
  refine ⟨scratch, out, dec, t, ?_, ?_⟩
  · simp only [loaderDecode, LoaderAnswers.decode, hnone, ne_eq, not_false_eq_true, if_false, if_true,
      modify_bind]
    refine (bind_ok _ hdec).trans ?_
    by_cases hd : dec < 0
    · simp only [hd, if_true, pure_apply, setsEntry]
      rfl
    · simp only [hd, if_false, modify_bind, pure_apply, setsEntry, lt_irrefl]
  · simp only [LoaderAnswers.decode, hnone, if_false]
    exact hcopied.append hcalled

theorem loaderBody_called (hb : env.Bounded) (headerRet : Int) (cksum loadaddr : Nat) (retry : Int)
    (s : Bl2 σ) : ∃ (o : LoaderAnswers) (t : Bl2 σ), o.toLoaderHeader = h ∧ o.headerRet = headerRet ∧
      o.Fits ∧ loaderBody env h cksum loadaddr retry s =
        .ok (o.body loadaddr retry).1 (setsEntry h (o.body loadaddr retry).1 t) ∧
      Called s t (o.body loadaddr retry).2 := by
  obtain ⟨ret, stored, s₁, hstored, hload, hcalled₁⟩ :=
    loadImage_called hb h.imageBuf loadaddr h.readingSize retry s
  by_cases hret : ret < 0
  · refine ⟨⟨h, headerRet, ret, stored, false, 0, 0, 0, 0, 0⟩, s₁, rfl, rfl,
      ⟨hstored, Nat.zero_le _⟩, ?_, ?_⟩
    · rw [loaderBody]
      refine (bind_ok _ hload).trans ?_
      simp only [LoaderAnswers.body, hret, if_true, pure_apply, setsEntry]
      rfl
    · simp only [LoaderAnswers.body, hret, if_true]
      exact hcalled₁
  generalize hcrc : decide (env.rom.imageCrc (toInt32 h.bodySize)
    (s₁.mem.read (h.imageBuf + CKSUM_OFFSET) (toInt32 h.bodySize).toNat) = cksum) = crcOk
  cases crcOk with
  | false =>
    refine ⟨⟨h, headerRet, ret, stored, false, 0, 0, 0, 0, 0⟩, s₁.said (.test (.cksum .loader2nd) false),
      rfl, rfl, ⟨hstored, Nat.zero_le _⟩, ?_, ?_⟩
    · rw [loaderBody]
      refine (bind_ok _ hload).trans ?_
      simp only [LoaderAnswers.body, hret, if_false, imageCrc, bind_assoc, get_bind, pure_bind,
        passes_bind, hcrc, Bool.not_false, if_true, pure_apply, setsEntry]
      rfl
    · simp only [LoaderAnswers.body, hret, if_false, Bool.not_false, if_true]
      exact hcalled₁.append (called_said s₁ _)
  | true =>
    obtain ⟨verify, rewritten, s₂, hrewritten, hver, hcalled₂⟩ := decVerifyImage_called hb .loader2nd
      (h.imageBuf + CKSUM_OFFSET) h.bodySize (LOADER_HEADER_SIZE - CKSUM_OFFSET)
      (s₁.said (.test (.cksum .loader2nd) true))
    have hverified := hcalled₁.append ((called_said s₁ _).append hcalled₂)
    by_cases hv : verify < 0
    · refine ⟨⟨h, headerRet, ret, stored, true, verify, rewritten, 0, 0, 0⟩, s₂, rfl, rfl,
        ⟨hstored, hrewritten⟩, ?_, ?_⟩
      · rw [loaderBody]
        refine (bind_ok _ hload).trans ?_
        simp only [LoaderAnswers.body, hret, if_false, imageCrc, bind_assoc, get_bind, pure_bind,
          passes_bind, hcrc, Bool.not_true, Bool.false_eq_true]
        refine (bind_ok _ hver).trans ?_
        simp only [hv, if_true, pure_apply, setsEntry]
      · simp only [LoaderAnswers.body, hret, if_false, Bool.not_true, Bool.false_eq_true, hv, if_true]
        exact hverified
    · obtain ⟨scratch, out, dec, t, hdecode, hdecoded⟩ := loaderDecode_called env
        ⟨h, headerRet, ret, stored, true, verify, rewritten, 0, 0, 0⟩ s₂
      refine ⟨⟨h, headerRet, ret, stored, true, verify, rewritten, scratch, out, dec⟩, t, rfl, rfl,
        ⟨hstored, hrewritten⟩, ?_, ?_⟩
      · rw [loaderBody]
        refine (bind_ok _ hload).trans ?_
        simp only [LoaderAnswers.body, hret, if_false, imageCrc, bind_assoc, get_bind, pure_bind,
          passes_bind, hcrc, Bool.not_true, Bool.false_eq_true]
        refine (bind_ok _ hver).trans ?_
        simp only [hv, if_false]
        exact hdecode
      · simp only [LoaderAnswers.body, hret, if_false, Bool.not_true, Bool.false_eq_true, hv]
        exact hverified.append hdecoded

theorem loadLoader2nd_called (hb : env.Bounded) (retry : Int) (s : Bl2 σ) :
    ∃ (o : LoaderAnswers) (t : Bl2 σ), o.Fits ∧
      loadLoader2nd env retry s = .ok (o.load (s.param2 .loader2ndLoadaddr) retry).1
        (setsEntry o.toLoaderHeader (o.load (s.param2 .loader2ndLoadaddr) retry).1 t) ∧
      Called s t (o.load (s.param2 .loader2ndLoadaddr) retry).2 := by
  obtain ⟨headerRet, s₁, hheader, hcalled₁⟩ :=
    @loadHeader_called _ env (s.param2 .loader2ndLoadaddr) BLOCK_SIZE retry s
  rw [loadLoader2nd_eq]
  by_cases hh : headerRet < 0
  · refine ⟨⟨s₁.header, headerRet, 0, 0, false, 0, 0, 0, 0, 0⟩, s₁,
      ⟨Nat.zero_le _, Nat.zero_le _⟩, ?_, ?_⟩
    · rw [get_bind]
      refine (bind_ok _ hheader).trans ?_
      simp only [LoaderAnswers.load, hh, if_true, pure_apply, setsEntry]
      rfl
    · simp only [LoaderAnswers.load, hh, if_true]
      exact hcalled₁
  · obtain ⟨o, t, ho, hret, hfits, hbody, hcalled₂⟩ := loaderBody_called env s₁.header hb headerRet
      (s₁.loader .cksum) (s.param2 .loader2ndLoadaddr) retry s₁
    rw [← hret] at hh
    refine ⟨o, t, hfits, ?_, ?_⟩
    · rw [get_bind]
      refine (bind_ok _ hheader).trans ?_
      rw [if_neg (hret ▸ hh), get_bind, hbody]
      simp only [LoaderAnswers.load, hh, if_false, ho]
    · simp only [LoaderAnswers.load, hh, if_false]
      exact hcalled₁.append hcalled₂

end Loader

/-! ## Programs -/

/-- The machine where the loader stands. -/
def standsAt (s : Bl2 σ) (pc : RestPc) (released : Bool) : RestState where
  pc := pc
  param2 := s.param2
  rtosBase := s.rtosBase
  released := released
  monitorEntry := s.monitorEntry
  loader2ndEntry := s.loader2ndEntry

/-- The state in which a program ends, one way or the other. -/
def final : EStateM.Result Halt (Bl2 σ) α → Bl2 σ
  | .ok _ s => s
  | .error _ s => s

/-- A program that ends in `r` is a run of the machine from `pc` on, to `post` if it
returns. -/
def Simulated (s : Bl2 σ) (pc : RestPc) (r : EStateM.Result Halt (Bl2 σ) α) (post : α → RestPc) :
    Prop :=
  ∀ released, ∃ as st ev, restLoader.exec (s.standsAt pc released) as = some (st, ev) ∧
    Traced s (final r) ev ∧ ∀ a s', r = .ok a s' → ∃ released', st = s'.standsAt (post a) released'

section Simulated

variable {pc : RestPc} {post : α → RestPc} {post' : β → RestPc}

theorem Simulated.bind {x : Bl2M σ α} {f : α → Bl2M σ β} (hx : Simulated s pc (x s) post)
    (hf : ∀ a s', Simulated s' (post a) (f a s') post') : Simulated s pc ((x >>= f) s) post' := by
  intro released
  obtain ⟨as, st, ev, he, ht, hok⟩ := hx released
  rcases hr : x s with ⟨a, s'⟩ | ⟨e, s'⟩
  · rw [hr] at ht
    obtain ⟨released', rfl⟩ := hok a s' hr
    obtain ⟨bs, st', ev', he', ht', hok'⟩ := hf a s' released'
    rw [bind_ok _ hr]
    exact ⟨as ++ bs, st', ev ++ ev', Machine.exec_append he he', ht.append ht', hok'⟩
  · rw [hr] at ht
    rw [bind_error _ hr]
    exact ⟨as, st, ev, he, ht, nofun⟩

/-- A program that is one step of the machine. -/
theorem Simulated.step {r : EStateM.Result Halt (Bl2 σ) α}
    (h : ∀ released, ∃ act st ev, restStep (s.standsAt pc released) act = some (st, ev) ∧
      Traced s (final r) ev ∧
      ∀ a s', r = .ok a s' → ∃ released', st = s'.standsAt (post a) released') :
    Simulated s pc r post := by
  intro released
  obtain ⟨act, st, ev, hstep, h⟩ := h released
  have he := Machine.exec_cons (M := restLoader) hstep (Machine.exec_nil st)
  rw [List.append_nil] at he
  exact ⟨[act], st, ev, he, h⟩

/-- A program that does nothing. -/
theorem Simulated.skip {a : α} (hpc : pc = post a) : Simulated s pc (.ok a s) post := by
  intro released
  refine ⟨[], _, [], rfl, ⟨(List.append_nil _).symm, fun _ _ => rfl⟩, ?_⟩
  rintro b s' ⟨⟩
  exact ⟨released, by rw [hpc]⟩

/-- A program that stops at once. -/
theorem Simulated.stop (e : Halt) : Simulated s pc (.error e s : EStateM.Result Halt (Bl2 σ) α) post :=
  fun _ => ⟨[], _, [], rfl, ⟨(List.append_nil _).symm, fun _ _ => rfl⟩, nofun⟩

/-- A step of the machine, and a program from the state after it on. -/
theorem Simulated.after {pc' : RestPc} {r : EStateM.Result Halt (Bl2 σ) α} (act : RestAction)
    (h : ∀ released, restStep (s.standsAt pc released) act = some (s'.standsAt pc' released, ev))
    (ht : Traced s s' ev) (hr : Simulated s' pc' r post) : Simulated s pc r post := by
  intro released
  obtain ⟨as, st, ev', he, ht', hok⟩ := hr released
  exact ⟨act :: as, st, ev ++ ev', Machine.exec_cons (M := restLoader) (h released) he,
    ht.append ht', hok⟩

theorem traced_refl (s : Bl2 σ) : Traced s s [] := ⟨(List.append_nil _).symm, fun _ _ => rfl⟩

theorem SameVars.standsAt (h : SameVars s s') (pc : RestPc) (released : Bool) :
    s'.standsAt pc released = s.standsAt pc released := by
  rw [Bl2.standsAt, Bl2.standsAt, h.param2, h.rtosBase, h.monitorEntry, h.loader2ndEntry]

/-- What `load_blcp_2nd` and `load_monitor` do: load the image, if there is one, then `k`. -/
def imageThen (env : Bl2Env σ) (img : DramImage) (retry : Int) (k : Nat → Bl2M σ Int) :
    Bl2M σ Int := do
  let runaddr := (← get).param2 img.runaddr
  if runaddr = 0 then return 0
  let ret ← loadDramImage env img retry
  if ret < 0 then return ret
  k runaddr

theorem loadBlcp2nd_eq (env : Bl2Env σ) (retry : Int) : loadBlcp2nd env retry =
    imageThen env blcp2nd retry fun runaddr => do
      if (← get).rtosBase = CVI_RTOS_MAGIC_CODE then
        say (.handOver runaddr)
        modify fun s => { s with rtosBase := runaddr }
      else
        say (.resetC906l runaddr)
      return 0 := rfl

theorem loadMonitor_eq (env : Bl2Env σ) (retry : Int) : loadMonitor env retry =
    imageThen env monitor retry fun runaddr => do
      modify fun s => { s with monitorEntry := runaddr }
      return 0 := rfl

/-- The same in the machine, with `done` for `k`. -/
def imageStep (st : RestState) (img : DramImage) (retry : Int) (next : RestPc)
    (done : RestState × List RestEvent) (o : ImageAnswers) : RestState × List RestEvent :=
  if st.param2 img.runaddr = 0 then ({ st with pc := next }, [])
  else
    match dramImage img.name (st.param2 img.runaddr) (st.param2 img.size) (st.param2 img.loadaddr)
      retry o with
    | (none, ev) => ({ st with pc := .panicked }, ev)
    | (some ret, ev) =>
      if ret < 0 then ({ st with pc := .head (retry + 1) }, ev) else (done.1, ev ++ done.2)

/-- An image is one step of the machine when what follows it is. -/
theorem imageThen_simulated (hb : env.Bounded) {img : DramImage} {retry : Int} {next : RestPc}
    {k : Nat → Bl2M σ Int} (done : RestState → RestState × List RestEvent)
    (hstep : ∀ released o, o.Fits (s.param2 img.size) →
      restStep (s.standsAt pc released) (.image o) =
        some (imageStep (s.standsAt pc released) img retry next (done (s.standsAt pc released)) o))
    (hk : ∀ released s', SameVars s s' → ∃ t released', k (s.param2 img.runaddr) s' = .ok 0 t ∧
      Traced s' t (done (s.standsAt pc released)).2 ∧
      (done (s.standsAt pc released)).1 = t.standsAt next released') :
    Simulated s pc (imageThen env img retry k s)
      (fun ret => if ret < 0 then .head (retry + 1) else next) := by
  refine .step fun released => ?_
  by_cases h₀ : s.param2 img.runaddr = 0
  · have hrun : imageThen env img retry k s = .ok 0 s := by
      simp only [imageThen, get_bind, h₀, if_true, pure_apply]
    have h := hstep released ⟨0, 0, false, 0, 0⟩ ⟨Nat.zero_le _, Nat.zero_le _⟩
    rw [imageStep, if_pos (show (s.standsAt pc released).param2 img.runaddr = 0 from h₀)] at h
    rw [hrun]
    refine ⟨_, _, _, h, traced_refl s, ?_⟩
    rintro a s' ⟨⟩
    exact ⟨released, rfl⟩
  obtain ⟨o, s', ret, ev, hfits, hd, hload, hcalled⟩ := loadDramImage_called hb img retry s
  have hrun : imageThen env img retry k s = (loadDramImage env img retry >>= fun ret =>
      if ret < 0 then pure ret else k (s.param2 img.runaddr)) s := by
    simp only [imageThen, get_bind, h₀, if_false]
  have h := hstep released o hfits
  simp only [imageStep, standsAt, h₀, if_false, hd] at h
  rw [hrun]
  rcases ret with _ | ret
  · rw [bind_error _ hload]
    exact ⟨_, _, _, h, hcalled.traced, nofun⟩
  rw [bind_ok _ hload]
  simp only at h
  by_cases hret : ret < 0
  · rw [if_pos hret] at h
    simp only [hret, if_true, pure_apply]
    refine ⟨_, _, _, h, hcalled.traced, ?_⟩
    rintro a t ⟨⟩
    refine ⟨released, ?_⟩
    rw [if_pos hret, hcalled.same.standsAt]
    rfl
  · rw [if_neg hret] at h
    simp only [hret, if_false]
    obtain ⟨t, released', hkt, ht, hdone⟩ := hk released s' hcalled.same
    rw [hkt]
    refine ⟨_, _, _, h, hcalled.traced.append ht, ?_⟩
    rintro a s'' ⟨⟩
    exact ⟨released', hdone⟩

theorem loadBlcp2nd_simulated (hb : env.Bounded) (retry : Int) (s : Bl2 σ) :
    Simulated s (.blcp2nd retry) (loadBlcp2nd env retry s)
      (fun ret => if ret < 0 then .head (retry + 1) else .monitor retry) := by
  let runaddr := s.param2 .blcp2ndRunaddr
  rw [loadBlcp2nd_eq]
  refine imageThen_simulated hb
    (fun st => ((st.release runaddr retry).1, [(st.release runaddr retry).2]))
    (fun released o hfits => if_pos hfits) ?_
  intro released s' hsame
  rw [get_bind]
  by_cases hbase : s.rtosBase = CVI_RTOS_MAGIC_CODE
  · have hbase' : s'.rtosBase = CVI_RTOS_MAGIC_CODE := hsame.rtosBase.trans hbase
    refine ⟨{ s'.said (.handOver runaddr) with rtosBase := runaddr }, true, ?_, ?_, ?_⟩
    · rw [if_pos hbase', say_bind, modify_bind]
      rfl
    · simp only [RestState.release, standsAt, hbase, if_true]
      exact ⟨rfl, fun _ _ => rfl⟩
    · simp only [RestState.release, standsAt, hbase, if_true]
      show _ = RestState.mk (.monitor retry) s'.param2 _ true s'.monitorEntry s'.loader2ndEntry
      rw [hsame.param2, hsame.monitorEntry, hsame.loader2ndEntry]
  · have hbase' : ¬ s'.rtosBase = CVI_RTOS_MAGIC_CODE := fun h => hbase (hsame.rtosBase.symm.trans h)
    have hsaid := called_said s' (.resetC906l runaddr)
    refine ⟨s'.said (.resetC906l runaddr), true, ?_, ?_, ?_⟩
    · rw [if_neg hbase', say_bind]
      rfl
    · simp only [RestState.release, standsAt, hbase, if_false]
      exact hsaid.traced
    · simp only [RestState.release, standsAt, hbase, if_false]
      exact ((hsame.trans hsaid.same).standsAt _ _).symm

theorem loadMonitor_simulated (hb : env.Bounded) (retry : Int) (s : Bl2 σ) :
    Simulated s (.monitor retry) (loadMonitor env retry s)
      (fun ret => if ret < 0 then .head (retry + 1) else .loader2nd retry) := by
  let runaddr := s.param2 .monitorRunaddr
  rw [loadMonitor_eq]
  refine imageThen_simulated hb
    (fun st => ({ st with pc := .loader2nd retry, monitorEntry := runaddr }, [])) ?_ ?_
  · intro released o hfits
    rw [imageStep]
    simp only [List.append_nil]
    exact if_pos hfits
  · intro released s' hsame
    refine ⟨{ s' with monitorEntry := runaddr }, released, rfl,
      ⟨(List.append_nil _).symm, fun _ _ => rfl⟩, ?_⟩
    show _ = RestState.mk (.loader2nd retry) s'.param2 s'.rtosBase released _ s'.loader2ndEntry
    rw [hsame.param2, hsame.rtosBase, hsame.loader2ndEntry]
    rfl

theorem loadLoader2nd_simulated (hb : env.Bounded) (retry : Int) (s : Bl2 σ) :
    Simulated s (.loader2nd retry) (loadLoader2nd env retry s)
      (fun ret => if ret < 0 then .head (retry + 1) else .behind retry) := by
  refine .step fun released => ?_
  obtain ⟨o, t, hfits, hrun, hcalled⟩ := loadLoader2nd_called env hb retry s
  have hstep : restStep (s.standsAt (.loader2nd retry) released) (.loader o) =
      some ((s.standsAt (.loader2nd retry) released).loadLoader2nd retry o) := if_pos hfits
  rcases hload : o.load (s.param2 .loader2ndLoadaddr) retry with ⟨ret, ev⟩
  rw [hload] at hrun hcalled
  simp only [RestState.loadLoader2nd, standsAt, hload] at hstep
  rw [hrun]
  by_cases hret : ret < 0
  · rw [if_pos hret] at hstep
    refine ⟨_, _, _, hstep, ?_, ?_⟩
    · rw [setsEntry, if_pos hret]
      exact hcalled.traced
    · rintro a s' ⟨⟩
      refine ⟨released, ?_⟩
      rw [if_pos hret, setsEntry, if_pos hret, hcalled.same.standsAt]
      rfl
  · rw [if_neg hret] at hstep
    refine ⟨_, _, _, hstep, ?_, ?_⟩
    · rw [setsEntry, if_neg hret]
      exact ⟨hcalled.traced.log, hcalled.traced.mem⟩
    · rintro a s' ⟨⟩
      refine ⟨released, ?_⟩
      rw [if_neg hret, setsEntry, if_neg hret]
      show _ = RestState.mk (.behind retry) t.param2 t.rtosBase released t.monitorEntry _
      rw [hcalled.same.param2, hcalled.same.rtosBase, hcalled.same.monitorEntry]

/-! ## The loop -/

theorem tryRest_simulated (hb : env.Bounded) (retry : Int) (s : Bl2 σ) :
    Simulated s (.blcp2nd retry) (tryRest env retry s)
      (fun ret => if ret < 0 then .head (retry + 1) else .behind retry) := by
  refine (loadBlcp2nd_simulated hb retry s).bind fun ret s₁ => ?_
  by_cases hret : ret < 0
  · simp only [hret, if_true]
    exact .skip rfl
  simp only [hret, if_false]
  refine (loadMonitor_simulated hb retry s₁).bind fun ret s₂ => ?_
  by_cases hret : ret < 0
  · simp only [hret, if_true]
    exact .skip rfl
  simp only [hret, if_false]
  exact loadLoader2nd_simulated hb retry s₂

theorem tryUntil_simulated (hb : env.Bounded) (fuel : Nat) : ∀ (retry : Int) (s : Bl2 σ),
    Simulated s (.head retry) (tryUntil env (tryRest env) fuel retry s) .behind := by
  induction fuel with
  | zero => exact fun retry s => .stop .outOfFuel
  | succ fuel ih =>
    intro retry s
    rw [tryUntil, get_bind]
    by_cases hn : retry < env.rom.getNumberOfRetries s.rom
    · have hstep (released : Bool) :
          restStep (s.standsAt (.head retry) released)
            (.numberOfRetries (env.rom.getNumberOfRetries s.rom)) =
          some (s.standsAt (.blcp2nd retry) released, []) := by
        simp only [restStep, standsAt, hn, if_true]
      refine .after _ hstep (traced_refl s) ?_
      rw [if_pos hn]
      refine (tryRest_simulated hb retry s).bind fun ret s₁ => ?_
      by_cases hret : ret < 0
      · simp only [hret, if_true]
        exact ih (retry + 1) s₁
      · simp only [hret, if_false]
        exact .skip rfl
    · have hstep (released : Bool) :
          restStep (s.standsAt (.head retry) released)
            (.numberOfRetries (env.rom.getNumberOfRetries s.rom)) =
          some (s.standsAt (.behind retry) released, []) := by
        simp only [restStep, standsAt, hn, if_false]
      refine .after _ hstep (traced_refl s) ?_
      rw [if_neg hn]
      exact .skip rfl

theorem retryFromFlash_simulated (hb : env.Bounded) (fuel : Nat) : ∀ s : Bl2 σ,
    Simulated s (.head 0) (retryFromFlash env (tryRest env) fuel s) (fun _ => .loaded) := by
  induction fuel with
  | zero => exact fun s => .stop .outOfFuel
  | succ fuel ih =>
    intro s
    refine (tryUntil_simulated hb (fuel + 1) 0 s).bind fun retry s₁ => ?_
    rw [get_bind]
    by_cases hn : env.rom.getNumberOfRetries s₁.rom ≤ retry
    · rw [if_pos hn]
      let s₂ : Bl2 σ := { s₁.said .flashInit with rom := env.rom.flashInit s₁.rom }
      have ht : Traced s₁ s₂ [.did .flashInit] := ⟨rfl, fun _ _ => rfl⟩
      -- the three external sources fall back to flash, the others panic
      cases env.rom.getBootSrc s₁.rom with
      | spiNand => exact .stop .panic
      | spiNor => exact .stop .panic
      | emmc => exact .stop .panic
      | sd =>
        refine .after (.leave (env.rom.getNumberOfRetries s₁.rom) .sd) ?_ ht (ih s₂)
        exact fun _ => if_pos hn
      | usb =>
        refine .after (.leave (env.rom.getNumberOfRetries s₁.rom) .usb) ?_ ht (ih s₂)
        exact fun _ => if_pos hn
      | uart =>
        refine .after (.leave (env.rom.getNumberOfRetries s₁.rom) .uart) ?_ ht (ih s₂)
        exact fun _ => if_pos hn
    · rw [if_neg hn]
      exact .after (.leave _ .sd) (fun _ => if_neg hn) (traced_refl s₁) (.skip rfl)

/-- **The loader of `Bl2` is a run of the machine.** -/
theorem loadRest_simulated (hb : env.Bounded) (fuel : Nat) (s : Bl2 σ) : ∃ as st ev,
    restLoader.exec (.start s.param2 s.rtosBase) as = some (st, ev) ∧
      Traced s (final (loadRest env fuel s)) ev := by
  have hstart := retryFromFlash_simulated hb fuel { s with monitorEntry := 0, loader2ndEntry := 0 }
  have hjump (s₁ : Bl2 σ) : Simulated s₁ .loaded ((do
      let s ← get
      if s.monitorEntry ≠ 0 then say (.jumpToMonitor s.monitorEntry s.loader2ndEntry)
      else say (.jumpToLoader2nd s.loader2ndEntry) : Bl2M σ Unit) s₁) (fun _ => .jumped) := by
    rw [get_bind]
    by_cases hm : s₁.monitorEntry ≠ 0
    · rw [if_pos hm]
      refine .after .jump (fun _ => ?_) (called_said s₁ _).traced (.skip rfl)
      exact congrArg (fun e => some (s₁.standsAt .jumped _, [RestEvent.did e])) (if_pos hm)
    · rw [if_neg hm]
      refine .after .jump (fun _ => ?_) (called_said s₁ _).traced (.skip rfl)
      exact congrArg (fun e => some (s₁.standsAt .jumped _, [RestEvent.did e])) (if_neg hm)
  obtain ⟨as, st, ev, he, ht, -⟩ := hstart.bind (fun _ => hjump) false
  exact ⟨as, st, ev, he, ht.log, ht.mem⟩

end Simulated

end Bl2

end LicheeRvNano
