import LicheeRvNano.Bl2
import LicheeRvNano.Machine
import Mathlib.Order.CompletePartialOrder
import Mathlib.Order.Interval.Set.Disjoint

/-!
# BL2: the released core

`load_rest` starts the C906L in the middle of a loop that may come round again. Here it is
a machine whose actions are the answers of the code around it: what the ROM loads, whether
the checksums agree, what the verification and the decoders say. A run of the machine is
one sequence of such answers, over any number of retries and fallbacks to flash.

The events are those of `Bl2`, with each store to the DRAM among them.
`released_core_kept` says when the image of the C906L is left alone after the release.
`CoreSimulation` shows that the loader of `Bl2` is a run of this machine.
-/

namespace LicheeRvNano

/-! ## Events -/

inductive RestEvent where
  | did (e : BootEvent)
  /-- `len` bytes were stored from `addr` on. -/
  | store (addr len : Nat)
  deriving DecidableEq

/-- The C906L is set going. -/
def RestEvent.IsRelease : RestEvent → Prop
  | .did (.resetC906l _) => True
  | .did (.handOver _) => True
  | _ => False

instance (e : RestEvent) : Decidable e.IsRelease := by
  unfold RestEvent.IsRelease
  split <;> infer_instance

/-- The part of the events that `Bl2` notes. -/
def bootLog (ev : List RestEvent) : List BootEvent :=
  ev.filterMap fun
    | .did e => some e
    | .store _ _ => none

/-! ## Answers -/

/-- To the calls of `load_blcp_2nd` or `load_monitor`. -/
structure ImageAnswers where
  /-- of `p_rom_api_load_image` -/
  ret : Int
  /-- the bytes it has stored, also when it failed -/
  stored : Nat
  /-- `p_rom_api_image_crc` gives the checksum in Param2 -/
  cksum : Bool
  /-- of `dec_verify_image` -/
  verify : Int
  /-- the bytes it has stored back -/
  rewritten : Nat

/-- To the calls of `load_loader_2nd`. -/
structure LoaderAnswers extends LoaderHeader where
  /-- of the `p_rom_api_load_image` of the header -/
  headerRet : Int
  ret : Int
  stored : Nat
  cksum : Bool
  verify : Int
  rewritten : Nat
  /-- the bytes the decoder has stored in its arena -/
  scratch : Nat
  /-- the bytes it has decoded -/
  out : Nat
  /-- of `decompress` -/
  decompress : Int

/-- What `load_blcp_2nd` and `load_monitor` have in common: their return value, `none` for
a panic. -/
def dramImage (image : ImageName) (runaddr size loadaddr : Nat) (retry : Int) (o : ImageAnswers) :
    Option Int × List RestEvent :=
  if !inRange runaddr DRAM_BASE DRAM_SIZE then (none, [.did (.test (.runaddr image) false)])
  else if !inRange ((runaddr + size) % 2 ^ 32) DRAM_BASE DRAM_SIZE then
    (none, [.did (.test (.runaddr image) true), .did (.test (.size image) false)])
  else
    let loaded : List RestEvent :=
      [.did (.test (.runaddr image) true), .did (.test (.size image) true),
        .did (.load (.dram runaddr) loadaddr size retry), .store runaddr o.stored]
    if o.ret < 0 then (some o.ret, loaded)
    else if !o.cksum then (some (-1), loaded ++ [.did (.test (.cksum image) false)])
    else
      (some (if o.verify < 0 then o.verify else 0),
        loaded ++ [.did (.test (.cksum image) true), .store runaddr o.rewritten,
          .did (.test (.verify image) (0 ≤ o.verify))])

namespace LoaderAnswers

variable (o : LoaderAnswers)

/-- What comes behind the verification. -/
def decode : Int × List RestEvent :=
  if o.compType = .none then (0, [])
  else
    (if o.decompress < 0 then -1 else 0,
      [.store o.runaddr Bl2.LOADER_HEADER_SIZE, .store DECOMP_ALLOC_ADDR o.scratch,
        .store (o.runaddr + Bl2.LOADER_HEADER_SIZE) o.out, .did (.decompress o.compType o.decompress)])

/-- What comes behind the load of the header. -/
def body (loadaddr : Nat) (retry : Int) : Int × List RestEvent :=
  let loaded : List RestEvent :=
    [.did (.load (.dram o.imageBuf) loadaddr o.readingSize retry), .store o.imageBuf o.stored]
  if o.ret < 0 then (-1, loaded)
  else if !o.cksum then (-1, loaded ++ [.did (.test (.cksum .loader2nd) false)])
  else
    let verified : List RestEvent := loaded ++
      [.did (.test (.cksum .loader2nd) true), .store (o.imageBuf + Bl2.CKSUM_OFFSET) o.rewritten,
        .did (.test (.verify .loader2nd) (0 ≤ o.verify))]
    if o.verify < 0 then (o.verify, verified) else (o.decode.1, verified ++ o.decode.2)

/-- `load_loader_2nd`. -/
def load (loadaddr : Nat) (retry : Int) : Int × List RestEvent :=
  let header : List RestEvent := [.did (.load .sramUnionBuf loadaddr BLOCK_SIZE retry)]
  if o.headerRet < 0 then (-1, header)
  else ((o.body loadaddr retry).1, header ++ (o.body loadaddr retry).2)

end LoaderAnswers

/-! ## The machine -/

/-- Where `load_rest` is. -/
inductive RestPc where
  /-- at the test of the `for` loop -/
  | head (retry : Int)
  | blcp2nd (retry : Int)
  | monitor (retry : Int)
  | loader2nd (retry : Int)
  /-- behind the loop -/
  | behind (retry : Int)
  | loaded
  | jumped
  | panicked
  deriving DecidableEq

structure RestState where
  pc : RestPc
  /-- `fip_param2`, which `load_rest` only reads -/
  param2 : Param2Member → Nat
  /-- the word at `AXI_SRAM_RTOS_BASE` -/
  rtosBase : Nat
  /-- the C906L runs the image -/
  released : Bool
  monitorEntry : Nat
  loader2ndEntry : Nat

/-- What is answered next. -/
inductive RestAction where
  /-- by `p_rom_api_get_number_of_retries`, in the test of the loop -/
  | numberOfRetries (n : Int)
  /-- in `load_blcp_2nd` or `load_monitor` -/
  | image (o : ImageAnswers)
  | loader (o : LoaderAnswers)
  /-- behind the loop -/
  | leave (n : Int) (bootSrc : BootSrc)
  | jump

/-- Neither the ROM nor the verification stores beyond the image. -/
def ImageAnswers.Fits (o : ImageAnswers) (size : Nat) : Prop := o.stored ≤ size ∧ o.rewritten ≤ size

def LoaderAnswers.Fits (o : LoaderAnswers) : Prop :=
  o.stored ≤ o.readingSize ∧ o.rewritten ≤ o.bodySize

instance (o : ImageAnswers) (size : Nat) : Decidable (o.Fits size) :=
  inferInstanceAs (Decidable (_ ∧ _))

instance (o : LoaderAnswers) : Decidable o.Fits := inferInstanceAs (Decidable (_ ∧ _))

namespace RestState

variable (s : RestState)

/-- The C906L is released, by the way it waits for it. -/
def release (runaddr : Nat) (retry : Int) : RestState × RestEvent :=
  if s.rtosBase = CVI_RTOS_MAGIC_CODE then
    ({ s with pc := .monitor retry, released := true, rtosBase := runaddr }, .did (.handOver runaddr))
  else ({ s with pc := .monitor retry, released := true }, .did (.resetC906l runaddr))

def loadBlcp2nd (retry : Int) (o : ImageAnswers) : RestState × List RestEvent :=
  let runaddr := s.param2 .blcp2ndRunaddr
  if runaddr = 0 then ({ s with pc := .monitor retry }, [])
  else
    match dramImage .blcp2nd runaddr (s.param2 .blcp2ndSize) (s.param2 .blcp2ndLoadaddr) retry o with
    | (none, ev) => ({ s with pc := .panicked }, ev)
    | (some ret, ev) =>
      if ret < 0 then ({ s with pc := .head (retry + 1) }, ev)
      else ((s.release runaddr retry).1, ev ++ [(s.release runaddr retry).2])

def loadMonitor (retry : Int) (o : ImageAnswers) : RestState × List RestEvent :=
  let runaddr := s.param2 .monitorRunaddr
  if runaddr = 0 then ({ s with pc := .loader2nd retry }, [])
  else
    match dramImage .monitor runaddr (s.param2 .monitorSize) (s.param2 .monitorLoadaddr) retry o with
    | (none, ev) => ({ s with pc := .panicked }, ev)
    | (some ret, ev) =>
      if ret < 0 then ({ s with pc := .head (retry + 1) }, ev)
      else ({ s with pc := .loader2nd retry, monitorEntry := runaddr }, ev)

def loadLoader2nd (retry : Int) (o : LoaderAnswers) : RestState × List RestEvent :=
  let (ret, ev) := o.load (s.param2 .loader2ndLoadaddr) retry
  if ret < 0 then ({ s with pc := .head (retry + 1) }, ev)
  else
    ({ s with
        pc := .behind retry
        loader2ndEntry := (o.runaddr + Bl2.LOADER_HEADER_SIZE) % 2 ^ 64 }, ev)

end RestState

def restStep (s : RestState) (a : RestAction) : Option (RestState × List RestEvent) :=
  match s.pc, a with
  | .head retry, .numberOfRetries n =>
    some ({ s with pc := if retry < n then .blcp2nd retry else .behind retry }, [])
  | .blcp2nd retry, .image o =>
    if o.Fits (s.param2 .blcp2ndSize) then some (s.loadBlcp2nd retry o) else none
  | .monitor retry, .image o =>
    if o.Fits (s.param2 .monitorSize) then some (s.loadMonitor retry o) else none
  | .loader2nd retry, .loader o => if o.Fits then some (s.loadLoader2nd retry o) else none
  | .behind retry, .leave n bootSrc =>
    if n ≤ retry then
      match bootSrc with
      | .uart | .sd | .usb => some ({ s with pc := .head 0 }, [.did .flashInit])
      | _ => some ({ s with pc := .panicked }, [])
    else some ({ s with pc := .loaded }, [])
  | .loaded, .jump =>
    some ({ s with pc := .jumped },
      [.did (if s.monitorEntry ≠ 0 then .jumpToMonitor s.monitorEntry s.loader2ndEntry
        else .jumpToLoader2nd s.loader2ndEntry)])
  | _, _ => none

/-- `load_rest` under the answers of its surroundings. -/
def restLoader : Machine RestState RestAction RestEvent where
  step := restStep

/-- `load_rest` is entered: its two variables are zero, the C906L has not been released. -/
def RestState.start (param2 : Param2Member → Nat) (rtosBase : Nat) : RestState where
  pc := .head 0
  param2 := param2
  rtosBase := rtosBase
  released := false
  monitorEntry := 0
  loader2ndEntry := 0

/-! ## A core that is left alone -/

/-- `len` bytes from `addr` on leave the image alone. -/
def Apart (addr len runaddr size : Nat) : Prop :=
  Disjoint (Set.Ico addr (addr + len)) (Set.Ico runaddr (runaddr + size))

instance (addr len runaddr size : Nat) : Decidable (Apart addr len runaddr size) :=
  decidable_of_iff _ Set.Ico_disjoint_Ico.symm

/-- The event neither stores into the image nor releases the core. -/
def Spares (runaddr size : Nat) : RestEvent → Prop
  | .did e => ¬ (RestEvent.did e).IsRelease
  | .store addr len => Apart addr len runaddr size

instance (runaddr size : Nat) : DecidablePred (Spares runaddr size)
  | .did e => inferInstanceAs (Decidable (¬ (RestEvent.did e).IsRelease))
  | .store addr len => inferInstanceAs (Decidable (Apart addr len runaddr size))

/-- Once the core is released, its image stays as it is and it is not released again. -/
def CoreKept (runaddr size : Nat) (past : List RestEvent) (e : RestEvent) : Prop :=
  (∃ r ∈ past, r.IsRelease) → Spares runaddr size e

instance (runaddr size : Nat) (past : List RestEvent) (e : RestEvent) :
    Decidable (CoreKept runaddr size past e) := inferInstanceAs (Decidable (_ → _))

/-! ## The condition -/

/-- Where `load_loader_2nd` stores: the image, read and verified in its buffer; for a
compressed one also the copy of the header, the decoder's arena and what it decodes. -/
def LoaderAnswers.spans (o : LoaderAnswers) : List (Nat × Nat) :=
  [(o.imageBuf, o.readingSize), (o.imageBuf + Bl2.CKSUM_OFFSET, o.bodySize)] ++
    if o.compType = .none then []
    else [(o.runaddr, Bl2.LOADER_HEADER_SIZE), (DECOMP_ALLOC_ADDR, o.scratch),
      (o.runaddr + Bl2.LOADER_HEADER_SIZE, o.out)]

/-- Once the core runs: no load of its image is begun that stores anything, and the
monitor and the loader lie elsewhere. -/
def RestCond (s : RestState) (a : RestAction) : Prop :=
  s.released = true →
    let Clear := fun span : Nat × Nat =>
      Apart span.1 span.2 (s.param2 .blcp2ndRunaddr) (s.param2 .blcp2ndSize)
    match s.pc, a with
    | .blcp2nd _, .image o => o.ret < 0 ∧ o.stored = 0
    | .monitor _, .image _ =>
      s.param2 .monitorRunaddr ≠ 0 → Clear (s.param2 .monitorRunaddr, s.param2 .monitorSize)
    | .loader2nd _, .loader o => 0 ≤ o.headerRet → ∀ span ∈ o.spans, Clear span
    | _, _ => True

/-! ## What the calls do -/

theorem Apart.mono {addr len len' runaddr size : Nat} (h : Apart addr len' runaddr size)
    (hle : len ≤ len') : Apart addr len runaddr size :=
  h.mono_left (Set.Ico_subset_Ico_right (Nat.add_le_add_left hle addr))

theorem apart_zero (addr runaddr size : Nat) : Apart addr 0 runaddr size := by
  rw [Apart, Nat.add_zero, Set.Ico_self]
  exact Set.empty_disjoint _

/-- An image is stored at its address and nowhere else, and does not start the core. -/
theorem forall_mem_dramImage {Q : RestEvent → Prop} {image : ImageName}
    {runaddr size loadaddr : Nat} {retry : Int} {o : ImageAnswers}
    (hdid : ∀ b, ¬ (RestEvent.did b).IsRelease → Q (.did b)) (hstored : Q (.store runaddr o.stored))
    (hrewritten : 0 ≤ o.ret → Q (.store runaddr o.rewritten)) :
    ∀ e ∈ (dramImage image runaddr size loadaddr retry o).2, Q e := by
  rw [dramImage]
  split_ifs with h₁ h₂ h₃ h₄
  all_goals simp only [List.forall_mem_append, List.forall_mem_cons, List.not_mem_nil, false_imp_iff,
    implies_true, and_true]
  · exact hdid _ id
  · exact ⟨hdid _ id, hdid _ id⟩
  · exact ⟨hdid _ id, hdid _ id, hdid _ id, hstored⟩
  · exact ⟨⟨hdid _ id, hdid _ id, hdid _ id, hstored⟩, hdid _ id⟩
  all_goals
    exact ⟨⟨hdid _ id, hdid _ id, hdid _ id, hstored⟩, hdid _ id, hrewritten (not_lt.mp h₃), hdid _ id⟩

/-- A load that fails is not taken for a good one. -/
theorem dramImage_failed {image : ImageName} {runaddr size loadaddr : Nat} {retry ret : Int}
    {o : ImageAnswers} {ev : List RestEvent} (h : o.ret < 0)
    (hd : dramImage image runaddr size loadaddr retry o = (some ret, ev)) : ret < 0 := by
  rw [dramImage] at hd
  split_ifs at hd
  · exact absurd (Prod.mk.inj hd).1 nofun
  · exact absurd (Prod.mk.inj hd).1 nofun
  · rwa [← Option.some.inj (Prod.mk.inj hd).1]

/-- The loader is stored within its spans, and does not start the core. -/
theorem forall_mem_load {Q : RestEvent → Prop} {o : LoaderAnswers} (hfits : o.Fits) {loadaddr : Nat}
    {retry : Int} (hdid : ∀ b, ¬ (RestEvent.did b).IsRelease → Q (.did b))
    (hstore : 0 ≤ o.headerRet → ∀ span ∈ o.spans, ∀ len ≤ span.2, Q (.store span.1 len)) :
    ∀ e ∈ (o.load loadaddr retry).2, Q e := by
  by_cases hh : o.headerRet < 0
  · simp only [LoaderAnswers.load, if_pos hh, List.forall_mem_singleton]
    exact hdid _ id
  have hspans := hstore (not_lt.mp hh)
  simp only [LoaderAnswers.spans, List.forall_mem_append, List.forall_mem_cons, List.not_mem_nil,
    false_imp_iff, implies_true, and_true] at hspans
  obtain ⟨⟨hread, hbody⟩, hdecode⟩ := hspans
  have hloaded := hread o.stored hfits.1
  have hverified := hbody o.rewritten hfits.2
  have hdecoded : ∀ e ∈ o.decode.2, Q e := by
    by_cases h : o.compType = .none
    · simp [LoaderAnswers.decode, h]
    · simp only [LoaderAnswers.decode, if_neg h, List.forall_mem_cons, List.not_mem_nil, false_imp_iff,
        implies_true, and_true] at hdecode ⊢
      exact ⟨hdecode.1 _ le_rfl, hdecode.2.1 _ le_rfl, hdecode.2.2 _ le_rfl, hdid _ id⟩
  rw [LoaderAnswers.load, if_neg hh, LoaderAnswers.body]
  split_ifs
  all_goals simp only [List.forall_mem_append, List.forall_mem_cons, List.not_mem_nil, false_imp_iff,
    implies_true, and_true]
  · exact ⟨hdid _ id, hdid _ id, hloaded⟩
  · exact ⟨hdid _ id, ⟨hdid _ id, hloaded⟩, hdid _ id⟩
  · exact ⟨hdid _ id, ⟨hdid _ id, hloaded⟩, hdid _ id, hverified, hdid _ id⟩
  · exact ⟨hdid _ id, ⟨⟨hdid _ id, hloaded⟩, hdid _ id, hverified, hdid _ id⟩, hdecoded⟩

/-! ## Every run -/

section Kept

variable {runaddr size : Nat} {past ev : List RestEvent}

theorem kept_of_spares (h : ∀ e ∈ ev, Spares runaddr size e) :
    Judged (CoreKept runaddr size) past ev :=
  Judged.of_forall fun e he _ _ => h e he

/-- As long as the core is not released, anything may happen. -/
theorem kept_of_quiet (h : ∀ e ∈ ev, ¬ e.IsRelease) :
    ∀ {past : List RestEvent}, (¬ ∃ r ∈ past, r.IsRelease) →
      Judged (CoreKept runaddr size) past ev := by
  induction ev with
  | nil =>
    intro past _
    trivial
  | cons e ev ih =>
    intro past hp
    refine ⟨fun hr => absurd hr hp, ih (fun e' he' => h e' (List.mem_cons_of_mem _ he')) ?_⟩
    rintro ⟨r, hr, hrel⟩
    rcases List.mem_append.mp hr with hr | hr
    · exact hp ⟨r, hr, hrel⟩
    · rw [List.mem_singleton.mp hr] at hrel
      exact h e List.mem_cons_self hrel

end Kept

/-- What is known in every state: whether the core runs, and that it was let alone since. -/
structure RestInv (p : Param2Member → Nat) (s : RestState) (log : List RestEvent) : Prop where
  param2 : s.param2 = p
  released : s.released = true ↔ ∃ r ∈ log, r.IsRelease
  kept : Judged (CoreKept (p .blcp2ndRunaddr) (p .blcp2ndSize)) [] log

namespace RestInv

variable {p : Param2Member → Nat} {s s' : RestState} {log ev : List RestEvent}

/-- A step without a release, which spares the image of a core that runs. -/
theorem quiet (hI : RestInv p s log) (hp : s'.param2 = s.param2)
    (hr : s'.released = s.released) (hquiet : ∀ e ∈ ev, ¬ e.IsRelease)
    (hspares : s.released = true →
      ∀ e ∈ ev, Spares (p .blcp2ndRunaddr) (p .blcp2ndSize) e) :
    RestInv p s' (log ++ ev) := by
  refine ⟨hp.trans hI.param2, ?_, Judged.append_iff.mpr ⟨hI.kept, ?_⟩⟩
  · rw [hr, hI.released]
    constructor
    · rintro ⟨r, hr, hrel⟩
      exact ⟨r, List.mem_append_left _ hr, hrel⟩
    · rintro ⟨r, hr, hrel⟩
      rcases List.mem_append.mp hr with hr | hr
      · exact ⟨r, hr, hrel⟩
      · exact absurd hrel (hquiet r hr)
  · rw [List.nil_append]
    by_cases hrun : s.released = true
    · exact kept_of_spares (hspares hrun)
    · exact kept_of_quiet hquiet (fun h => hrun (hI.released.mpr h))

/-- A step without events. -/
theorem silent (hI : RestInv p s log) (hp : s'.param2 = s.param2)
    (hr : s'.released = s.released) : RestInv p s' (log ++ []) :=
  hI.quiet hp hr (by simp) (by simp)

/-- A step with one event that has nothing to do with the image. -/
theorem said (hI : RestInv p s log) (hp : s'.param2 = s.param2) (hr : s'.released = s.released)
    {b : BootEvent} (hb : ¬ (RestEvent.did b).IsRelease) : RestInv p s' (log ++ [.did b]) :=
  hI.quiet hp hr (List.forall_mem_singleton.mpr hb) (fun _ => List.forall_mem_singleton.mpr hb)

/-- The release of a core that does not run yet. -/
theorem release (hI : RestInv p s log) (hrun : s.released ≠ true)
    (hquiet : ∀ e ∈ ev, ¬ e.IsRelease) (runaddr : Nat) (retry : Int) :
    RestInv p (s.release runaddr retry).1 (log ++ (ev ++ [(s.release runaddr retry).2])) := by
  have hev : RestInv p s (log ++ ev) := hI.quiet rfl rfl hquiet (fun h => absurd h hrun)
  have hrel : (s.release runaddr retry).2.IsRelease := by
    rw [RestState.release]
    split_ifs <;> exact trivial
  have hset : (s.release runaddr retry).1.released = true ∧
      (s.release runaddr retry).1.param2 = s.param2 := by
    rw [RestState.release]
    split_ifs <;> exact ⟨rfl, rfl⟩
  rw [← List.append_assoc]
  refine ⟨hset.2.trans hI.param2, iff_of_true hset.1 ⟨_, List.mem_append_right _ (by simp), hrel⟩, ?_⟩
  refine Judged.append_iff.mpr ⟨hev.kept, ?_, trivial⟩
  rw [List.nil_append]
  exact fun h => absurd (hev.released.mpr h) hrun

/-- `load_blcp_2nd`: the first load that succeeds releases the core; after it a load has to
fail at once. -/
theorem loadBlcp2nd (hI : RestInv p s log) {retry : Int} {o : ImageAnswers}
    (hc : s.released = true → o.ret < 0 ∧ o.stored = 0) :
    RestInv p (s.loadBlcp2nd retry o).1 (log ++ (s.loadBlcp2nd retry o).2) := by
  have hquiet := @forall_mem_dramImage (fun e => ¬ e.IsRelease) .blcp2nd (s.param2 .blcp2ndRunaddr)
    (s.param2 .blcp2ndSize) (s.param2 .blcp2ndLoadaddr) retry o (fun _ hb => hb) id (fun _ => id)
  have hspares (hrun : s.released = true) := @forall_mem_dramImage
    (Spares (p .blcp2ndRunaddr) (p .blcp2ndSize)) .blcp2nd (s.param2 .blcp2ndRunaddr)
    (s.param2 .blcp2ndSize) (s.param2 .blcp2ndLoadaddr) retry o (fun _ hb => hb)
    (by rw [(hc hrun).2]; exact apart_zero ..) (fun h => absurd h (not_le.mpr (hc hrun).1))
  rw [RestState.loadBlcp2nd]
  split_ifs with h₀
  · exact hI.silent rfl rfl
  rcases hd : dramImage .blcp2nd (s.param2 .blcp2ndRunaddr) (s.param2 .blcp2ndSize)
    (s.param2 .blcp2ndLoadaddr) retry o with ⟨_ | ret, ev⟩
  · rw [hd] at hquiet hspares
    exact hI.quiet rfl rfl hquiet hspares
  · rw [hd] at hquiet hspares
    simp only
    split_ifs with hret
    · exact hI.quiet rfl rfl hquiet hspares
    · refine hI.release (fun hrun => hret ?_) hquiet _ _
      exact dramImage_failed (hc hrun).1 hd

theorem loadMonitor (hI : RestInv p s log) {retry : Int} {o : ImageAnswers}
    (hfits : o.Fits (s.param2 .monitorSize))
    (hc : s.released = true → s.param2 .monitorRunaddr ≠ 0 → Apart (s.param2 .monitorRunaddr)
      (s.param2 .monitorSize) (p .blcp2ndRunaddr) (p .blcp2ndSize)) :
    RestInv p (s.loadMonitor retry o).1 (log ++ (s.loadMonitor retry o).2) := by
  rw [RestState.loadMonitor]
  split_ifs with h₀
  · exact hI.silent rfl rfl
  have hquiet := @forall_mem_dramImage (fun e => ¬ e.IsRelease) .monitor (s.param2 .monitorRunaddr)
    (s.param2 .monitorSize) (s.param2 .monitorLoadaddr) retry o (fun _ hb => hb) id (fun _ => id)
  have hspares (hrun : s.released = true) := @forall_mem_dramImage
    (Spares (p .blcp2ndRunaddr) (p .blcp2ndSize)) .monitor (s.param2 .monitorRunaddr)
    (s.param2 .monitorSize) (s.param2 .monitorLoadaddr) retry o (fun _ hb => hb)
    ((hc hrun h₀).mono hfits.1) (fun _ => (hc hrun h₀).mono hfits.2)
  rcases hd : dramImage .monitor (s.param2 .monitorRunaddr) (s.param2 .monitorSize)
    (s.param2 .monitorLoadaddr) retry o with ⟨_ | ret, ev⟩
  · rw [hd] at hquiet hspares
    exact hI.quiet rfl rfl hquiet hspares
  · rw [hd] at hquiet hspares
    simp only
    split_ifs
    · exact hI.quiet rfl rfl hquiet hspares
    · exact hI.quiet rfl rfl hquiet hspares

theorem loadLoader2nd (hI : RestInv p s log) {retry : Int} {o : LoaderAnswers} (hfits : o.Fits)
    (hc : s.released = true → 0 ≤ o.headerRet → ∀ span ∈ o.spans,
      Apart span.1 span.2 (p .blcp2ndRunaddr) (p .blcp2ndSize)) :
    RestInv p (s.loadLoader2nd retry o).1 (log ++ (s.loadLoader2nd retry o).2) := by
  have hquiet := @forall_mem_load (fun e => ¬ e.IsRelease) o hfits (s.param2 .loader2ndLoadaddr) retry
    (fun _ hb => hb) (fun _ _ _ _ _ => id)
  have hspares (hrun : s.released = true) := @forall_mem_load
    (Spares (p .blcp2ndRunaddr) (p .blcp2ndSize)) o hfits (s.param2 .loader2ndLoadaddr) retry
    (fun _ hb => hb) (fun hh span hspan len hlen => (hc hrun hh span hspan).mono hlen)
  rw [RestState.loadLoader2nd]
  simp only
  split_ifs
  · exact hI.quiet rfl rfl hquiet hspares
  · exact hI.quiet rfl rfl hquiet hspares

/-- **One step** that meets the condition. -/
theorem step {a : RestAction} (hI : RestInv p s log) (hc : RestCond s a)
    (h : restStep s a = some (s', ev)) : RestInv p s' (log ++ ev) := by
  unfold restStep at h
  split at h
  case h_1 retry n hpc =>
    obtain ⟨rfl, rfl⟩ := Prod.mk.inj (Option.some.inj h)
    exact hI.silent rfl rfl
  case h_2 retry o hpc =>
    simp only [RestCond, hpc] at hc
    obtain ⟨-, h⟩ := Option.ite_none_right_eq_some.mp h
    obtain ⟨rfl, rfl⟩ := Prod.mk.inj (Option.some.inj h)
    exact hI.loadBlcp2nd hc
  case h_3 retry o hpc =>
    simp only [RestCond, hpc] at hc
    obtain ⟨hfits, h⟩ := Option.ite_none_right_eq_some.mp h
    obtain ⟨rfl, rfl⟩ := Prod.mk.inj (Option.some.inj h)
    refine hI.loadMonitor hfits ?_
    rw [← hI.param2]
    exact hc
  case h_4 retry o hpc =>
    simp only [RestCond, hpc] at hc
    obtain ⟨hfits, h⟩ := Option.ite_none_right_eq_some.mp h
    obtain ⟨rfl, rfl⟩ := Prod.mk.inj (Option.some.inj h)
    refine hI.loadLoader2nd hfits ?_
    rw [← hI.param2]
    exact hc
  case h_5 retry n bootSrc hpc =>
    split_ifs at h
    · split at h
      all_goals obtain ⟨rfl, rfl⟩ := Prod.mk.inj (Option.some.inj h)
      iterate 3 exact hI.said (by rfl) (by rfl) id
      exact hI.silent rfl rfl
    · obtain ⟨rfl, rfl⟩ := Prod.mk.inj (Option.some.inj h)
      exact hI.silent rfl rfl
  case h_6 hpc =>
    obtain ⟨rfl, rfl⟩ := Prod.mk.inj (Option.some.inj h)
    refine hI.said (by rfl) (by rfl) ?_
    split_ifs <;> exact id
  case h_7 => cases h

end RestInv

/-- **The image of a released core.** Over every sequence of answers, with any number of
retries and fallbacks: if each step meets `RestCond`, then after the core has been released
nothing is stored into its image and it is not released again. -/
theorem released_core_kept {p : Param2Member → Nat} {rtosBase : Nat} {s : RestState}
    {as : List RestAction} {log : List RestEvent}
    (hm : restLoader.Meets RestCond (.start p rtosBase) as)
    (he : restLoader.exec (.start p rtosBase) as = some (s, log)) :
    Judged (CoreKept (p .blcp2ndRunaddr) (p .blcp2ndSize)) [] log := by
  have hstart : RestInv p (.start p rtosBase) [] :=
    ⟨rfl, iff_of_false (by simp [RestState.start]) (by simp), trivial⟩
  exact (Machine.exec_invariant_start (I := RestInv p) hstart RestInv.step hm he).kept

/-- A package with firmware for the C906L at `0x83F40000` and the monitor at the start of
the DRAM. -/
def releasePackage : Param2Member → Nat
  | .blcp2ndRunaddr => 0x83F40000
  | .blcp2ndSize => 0x1000
  | .monitorRunaddr => 0x80000000
  | .monitorSize => 0x20000
  | _ => 0

/-- Everything is read and found in order. -/
def goodImage (size : Nat) : ImageAnswers := ⟨0, size, true, 0, 0⟩

/-- u-boot, compressed to 0x40000 bytes. -/
def goodLoader : LoaderAnswers :=
  ⟨⟨LOADER_2ND_MAGIC_LZMA, 0x40000, 0x801FFFE0⟩, 0, 0, 0x40000, true, 0, 0, 16256, 0x80000, 0⟩

/-- The first try reads bad firmware for the C906L, the second one is good. -/
def releaseRun : List RestAction :=
  [.numberOfRetries 3, .image ⟨0, 0x1000, false, 0, 0⟩, .numberOfRetries 3, .image (goodImage 0x1000),
    .image (goodImage 0x20000), .loader goodLoader, .leave 3 .sd, .jump]

theorem released_core_kept_releaseRun :
    ∃ s log, restLoader.exec (.start releasePackage 0) releaseRun = some (s, log) ∧
      .did (.resetC906l 0x83F40000) ∈ log ∧ .store 0x80200000 0x80000 ∈ log ∧
      Judged (CoreKept 0x83F40000 0x1000) [] log := by
  refine ⟨_, _, rfl, by decide, by decide, ?_⟩
  refine @released_core_kept releasePackage 0 _ releaseRun _ ?_ rfl
  refine ⟨nofun, nofun, nofun, nofun, fun _ _ => ?_, fun _ _ => ?_, fun _ => trivial, fun _ => trivial,
    trivial⟩
  · exact (by decide : Apart 0x80000000 0x20000 0x83F40000 0x1000)
  · exact (by decide : ∀ span ∈ goodLoader.spans, Apart span.1 span.2 0x83F40000 0x1000)

/-- The monitor cannot be read at the first try: the second one loads the firmware over
the running core and resets it. -/
def rewriteRun : List RestAction :=
  [.numberOfRetries 3, .image (goodImage 0x1000), .image ⟨-1, 0, false, 0, 0⟩, .numberOfRetries 3,
    .image (goodImage 0x1000)]

theorem not_released_core_kept :
    ¬ ∀ (p : Param2Member → Nat) (rtosBase : Nat) (s : RestState) (as : List RestAction)
      (log : List RestEvent), restLoader.exec (.start p rtosBase) as = some (s, log) →
      Judged (CoreKept (p .blcp2ndRunaddr) (p .blcp2ndSize)) [] log := by
  intro h
  exact absurd (h releasePackage 0 _ rewriteRun _ rfl) (by decide)

end LicheeRvNano
