import LicheeRvNano.Kernel
import LicheeRvNano.Ledger

/-!
# TPU driver: nodes and command buffers

The data model of `common/cvi_tpu_interface.c` and its dma-buf half as the
forward port rewrote it: `cvi_tpu_prepare_buffer` and its four-label unwind,
`cvi_tpu_cleanup_buffer`, and the two ioctls that attach to a buffer and let go
of it at once, `cvi_tpu_get_paddr` and `cvi_tpu_map_dmabuf`.

The dma-buf core is outside the driver. Its answers to the calls of one
function are one value of `DmaAnswers`, so "any failure pattern" is "any
`DmaAnswers`". What a function does to the buffer is the ledger of `Hold`s it
returns, in call order; the caller's identity is put on the entries by the
machine of `TpuQueue`.

The header checks at the end of `cvi_tpu_prepare_buffer` only print, so they are
not modelled.
-/

namespace LicheeRvNano

/-! ## Nodes -/

/-- `enum tpu_submit_path`. -/
inductive TpuPath where
  /-- `TPU_PATH_DESNORMAL`: a command buffer from user space -/
  | desNormal
  /-- `TPU_PATH_DESSEC`: the secure path -/
  | desSec
  /-- `TPU_PATH_PIOTDMA`: one copy by the TDMA engine -/
  | pioTdma
  deriving DecidableEq, Repr

/-- `struct tpu_tee_submit_info`. -/
structure TeeInfo where
  dmabufPaddr : BitVec 64 := 0
  gaddrBase2 : BitVec 64 := 0
  gaddrBase3 : BitVec 64 := 0
  gaddrBase4 : BitVec 64 := 0
  gaddrBase5 : BitVec 64 := 0
  gaddrBase6 : BitVec 64 := 0
  gaddrBase7 : BitVec 64 := 0
  deriving DecidableEq

/-- `struct tpu_tdma_pio_info`. -/
structure PioInfo where
  paddrSrc : BitVec 64 := 0
  paddrDst : BitVec 64 := 0
  h : BitVec 32 := 0
  wBytes : BitVec 32 := 0
  strideBytesSrc : BitVec 32 := 0
  strideBytesDst : BitVec 32 := 0
  enable2d : BitVec 32 := 0
  lengBytes : BitVec 32 := 0
  deriving DecidableEq

/-- `struct cvi_list_node`, after its `memset` to zero. The list head is the
list that holds the node, and the dma-buf handles are the entries of the ledger
under `addr`.

`addr` stands for the address `vmalloc` returned. The machine never hands one
out twice, so a pointer to a freed node is never mistaken for a new node. -/
structure Node where
  addr : Nat
  pid : Nat
  tpuPath : TpuPath
  seqNo : BitVec 32 := 0
  pioSeqNo : BitVec 32 := 0
  dmabufFd : Int := 0
  /-- `none` is `NULL` -/
  dmabufVaddr : Option Nat := none
  dmabufPaddr : BitVec 64 := 0
  teeInfo : TeeInfo := {}
  ret : Int := 0
  pioInfo : PioInfo := {}
  deriving DecidableEq

/-! ## The dma-buf calls -/

/-- What one holder can hold of a buffer. -/
inductive Hold where
  /-- the file reference of `dma_buf_get` -/
  | ref
  /-- the attachment of `dma_buf_attach` -/
  | attachment
  /-- the mapping of `dma_buf_map_attachment_unlocked` -/
  | mapping
  /-- the kernel mapping of `dma_buf_vmap_unlocked` -/
  | vmap
  /-- the bracket opened by `dma_buf_begin_cpu_access` -/
  | cpuAccess
  deriving DecidableEq, Repr

/-- The answers of the dma-buf core to the calls of one function. -/
structure DmaAnswers where
  /-- `dma_buf_get` returns a buffer -/
  get : Bool
  /-- `dma_buf_attach` returns an attachment -/
  attach : Bool
  /-- `dma_buf_map_attachment_unlocked` returns a table -/
  map : Bool
  /-- the table's `nents` -/
  nents : BitVec 32
  /-- `sg_dma_address` of its first segment -/
  sgDmaAddress : BitVec 64
  /-- what `dma_buf_vmap_unlocked` returns -/
  vmap : Int
  /-- the address it maps the buffer at -/
  vmapVaddr : Nat
  /-- what `dma_buf_begin_cpu_access` returns -/
  beginCpuAccess : Int
  deriving DecidableEq

/-- Every call succeeds and the table has one segment. -/
def DmaAnswers.Succeed (a : DmaAnswers) : Prop :=
  a.get = true ∧ a.attach = true ∧ a.map = true ∧ a.nents = 1 ∧ a.vmap = 0 ∧
    a.beginCpuAccess = 0

instance (a : DmaAnswers) : Decidable a.Succeed :=
  inferInstanceAs (Decidable (_ ∧ _))

/-! The unwind labels of `cvi_tpu_prepare_buffer`, each falling through to the
next one. -/

def errAttach : List (Entry Hold) := [.drop .ref]
def errMap : List (Entry Hold) := .drop .attachment :: errAttach
def errAddr : List (Entry Hold) := .drop .mapping :: errMap
def errAccess : List (Entry Hold) := .drop .vmap :: errAddr

/-- `cvi_tpu_prepare_buffer`: the node it leaves, its return value and what it
did to the buffer. Only the return after a failed `dma_buf_get` leaves
`dmabuf_vaddr` alone; every unwind sets it to `NULL`. -/
def cviTpuPrepareBuffer (a : DmaAnswers) (node : Node) : Node × Int × List (Entry Hold) :=
  if a.get = false then
    (node, -EINVAL, [])
  else if a.attach = false then
    ({ node with dmabufVaddr := none }, -EINVAL, .take .ref :: errAttach)
  else if a.map = false then
    ({ node with dmabufVaddr := none }, -EINVAL, .take .ref :: .take .attachment :: errMap)
  else if a.nents ≠ 1 then
    ({ node with dmabufVaddr := none }, -EINVAL,
      .take .ref :: .take .attachment :: .take .mapping :: errAddr)
  else if a.vmap ≠ 0 then
    ({ node with dmabufPaddr := a.sgDmaAddress, dmabufVaddr := none }, a.vmap,
      .take .ref :: .take .attachment :: .take .mapping :: errAddr)
  else if a.beginCpuAccess ≠ 0 then
    ({ node with dmabufPaddr := a.sgDmaAddress, dmabufVaddr := none }, a.beginCpuAccess,
      .take .ref :: .take .attachment :: .take .mapping :: .take .vmap :: errAccess)
  else
    ({ node with dmabufPaddr := a.sgDmaAddress, dmabufVaddr := some a.vmapVaddr }, 0,
      [.take .ref, .take .attachment, .take .mapping, .take .vmap, .take .cpuAccess])

/-- The releases of `cvi_tpu_cleanup_buffer`, in its order. -/
def cleanupHolds : List Hold := [.cpuAccess, .vmap, .mapping, .attachment, .ref]

/-- `cvi_tpu_cleanup_buffer`: it looks at the path only, not at whether the
prepare succeeded. -/
def cviTpuCleanupBuffer (node : Node) : List (Entry Hold) :=
  if node.tpuPath = .desNormal then cleanupHolds.map .drop else []

/-- `cvi_tpu_get_paddr`: the return value, the physical address written back to
the caller, and what it did to the buffer. `copyIn` and `copyOut` say that
`copy_from_user` and `copy_to_user` copied everything. -/
def cviTpuGetPaddr (copyIn copyOut : Bool) (a : DmaAnswers) :
    Int × Option (BitVec 64) × List (Entry Hold) :=
  if copyIn = false then
    (-EFAULT, none, [])
  else if a.get = false then
    (-EINVAL, none, [])
  else if a.attach = false then
    (-EINVAL, none, .take .ref :: errAttach)
  else if a.map = false then
    (-EINVAL, none, .take .ref :: .take .attachment :: errMap)
  else if a.nents ≠ 1 then
    (-EINVAL, none, .take .ref :: .take .attachment :: .take .mapping :: errAddr)
  else if copyOut = false then
    (-EFAULT, none, .take .ref :: .take .attachment :: .take .mapping :: errAddr)
  else
    (0, some a.sgDmaAddress, .take .ref :: .take .attachment :: .take .mapping :: errAddr)

/-- `cvi_tpu_map_dmabuf`, the body of `CVITPU_DMABUF_FLUSH_FD` and
`CVITPU_DMABUF_INVLD_FD`. `getUser` is what `get_user` returned. -/
def cviTpuMapDmabuf (getUser : Int) (a : DmaAnswers) : Int × List (Entry Hold) :=
  if getUser ≠ 0 then
    (getUser, [])
  else if a.get = false then
    (-EINVAL, [])
  else if a.attach = false then
    (-EINVAL, .take .ref :: errAttach)
  else if a.map = false then
    (-EINVAL, .take .ref :: .take .attachment :: errMap)
  else
    (0, .take .ref :: .take .attachment :: .take .mapping :: errAddr)

/-! ## What they do to the ledger

The unwinds are right: a failed prepare gives everything back, in the order that
mirrors the acquisitions, and leaves `NULL` behind. -/

/-- What is taken before each of the labels, followed by the label. -/
def unwinds : List (List (Entry Hold)) :=
  [[], .take .ref :: errAttach, .take .ref :: .take .attachment :: errMap,
    .take .ref :: .take .attachment :: .take .mapping :: errAddr,
    .take .ref :: .take .attachment :: .take .mapping :: .take .vmap :: errAccess]

/-- Each unwind gives back exactly what was taken before it. -/
theorem unwind_settles {l : List (Entry Hold)} (hl : l ∈ unwinds) :
    Ledger.Sound l ∧ Ledger.Settled l := by
  simp only [unwinds, List.mem_cons, List.not_mem_nil, or_false] at hl
  rcases hl with rfl | rfl | rfl | rfl | rfl <;>
    exact ⟨by simp [Ledger.Sound, Entry.Ok, errAccess, errAddr, errMap, errAttach],
      fun x => by cases x <;> simp [errAccess, errAddr, errMap, errAttach]⟩

/-- A prepare that fails, for whatever reason, runs one of the unwinds and leaves
the node without an address. -/
theorem prepareBuffer_fail {a : DmaAnswers} {node : Node} (h : ¬ a.Succeed)
    (hv : node.dmabufVaddr = none) :
    (cviTpuPrepareBuffer a node).2.2 ∈ unwinds ∧
      (cviTpuPrepareBuffer a node).1.dmabufVaddr = none := by
  unfold cviTpuPrepareBuffer
  split_ifs with h₁ h₂ h₃ h₄ h₅ h₆
  · exact ⟨by simp [unwinds], hv⟩
  · exact ⟨by simp [unwinds], rfl⟩
  · exact ⟨by simp [unwinds], rfl⟩
  · exact ⟨by simp [unwinds], rfl⟩
  · exact ⟨by simp [unwinds], rfl⟩
  · exact ⟨by simp [unwinds], rfl⟩
  · refine absurd ?_ h
    simp only [Bool.not_eq_false] at h₁ h₂ h₃
    exact ⟨h₁, h₂, h₃, not_not.mp h₄, not_not.mp h₅, not_not.mp h₆⟩

/-- A prepare whose calls all succeed takes each of the five holds and leaves the
mapped address in the node. -/
theorem prepareBuffer_succeed {a : DmaAnswers} (h : a.Succeed) (node : Node) :
    cviTpuPrepareBuffer a node =
      ({ node with dmabufPaddr := a.sgDmaAddress, dmabufVaddr := some a.vmapVaddr }, 0,
        [.take .ref, .take .attachment, .take .mapping, .take .vmap, .take .cpuAccess]) := by
  obtain ⟨h₁, h₂, h₃, h₄, h₅, h₆⟩ := h
  simp [cviTpuPrepareBuffer, h₁, h₂, h₃, h₄, h₅, h₆]

/-- `cvi_tpu_get_paddr` lets go of whatever it took, on every path. -/
theorem getPaddr_unwinds (copyIn copyOut : Bool) (a : DmaAnswers) :
    (cviTpuGetPaddr copyIn copyOut a).2.2 ∈ unwinds := by
  unfold cviTpuGetPaddr
  split_ifs <;> simp [unwinds]

/-- So does `cvi_tpu_map_dmabuf`. -/
theorem mapDmabuf_unwinds (getUser : Int) (a : DmaAnswers) :
    (cviTpuMapDmabuf getUser a).2 ∈ unwinds := by
  unfold cviTpuMapDmabuf
  split_ifs <;> simp [unwinds]

end LicheeRvNano
