import LicheeRvNano.FipBoot
import LicheeRvNano.CoreSimulation
import Mathlib.Order.Interval.Set.Basic

/-!
# BL2: where an image is placed

`load_blcp_2nd` and `load_monitor` test two addresses of an image before they load it, the
first and the one behind the last. The second is an addition of 32 bits, so an image of
nearly four gigabytes may start in the DRAM and end, once around, in the DRAM again.

* `ico_subset_iff_of_ends` is what a test of both ends is worth, for any width.
* `Notes` says what a program may note in the log. It composes as the programs do.
* `Issues` is an event of one call, however the call ends.
-/

namespace LicheeRvNano

open Set

/-! ## A test of both ends -/

/-- Both ends of an interval were found in a window, the second one in `w` bits: the
interval is inside of it unless the addition wrapped. -/
theorem ico_subset_iff_of_ends {w base len addr size : Nat} (hwin : base + len < 2 ^ w)
    (hsize : size < 2 ^ w) (haddr : addr ∈ Ico base (base + len))
    (hend : (addr + size) % 2 ^ w ∈ Ico base (base + len)) :
    Ico addr (addr + size) ⊆ Ico base (base + len) ↔ addr + size < 2 ^ w := by
  rw [mem_Ico] at haddr hend
  constructor
  · intro hsub
    by_contra hwrap
    have hlast : addr + size - 1 ∈ Ico base (base + len) :=
      hsub (mem_Ico.mpr (by omega))
    have hmod : (addr + size) % 2 ^ w = addr + size - 2 ^ w := by
      rw [Nat.mod_eq_sub_mod (by omega), Nat.mod_eq_of_lt (by omega)]
    rw [mem_Ico] at hlast
    omega
  · intro hlt
    rw [Nat.mod_eq_of_lt hlt] at hend
    exact Ico_subset_Ico haddr.1 hend.2.le

/-- The addresses of the DRAM. -/
def dram : Set Nat := Ico DRAM_BASE (DRAM_BASE + DRAM_SIZE)

theorem mem_dram {a : Nat} : a ∈ dram ↔ 0x80000000 ≤ a ∧ a < 0x90000000 := Iff.rfl

theorem inRange_iff_mem {addr : Nat} : inRange addr DRAM_BASE DRAM_SIZE = true ↔ addr ∈ dram :=
  decide_eq_true_iff

/-- An image that starts in the DRAM, and reaches around the 32 bits into it again. -/
def WrapsIntoDram (runaddr size : Nat) : Prop :=
  runaddr ∈ dram ∧ 2 ^ 32 + DRAM_BASE ≤ runaddr + size

/-- Of the images that pass both tests, those that wrap are outside of the DRAM. -/
theorem wrapsIntoDram_iff {runaddr size : Nat} (hsize : size < 2 ^ 32) :
    WrapsIntoDram runaddr size ↔ inRange runaddr DRAM_BASE DRAM_SIZE = true ∧
      inRange ((runaddr + size) % 2 ^ 32) DRAM_BASE DRAM_SIZE = true ∧
      ¬ Ico runaddr (runaddr + size) ⊆ dram := by
  rw [inRange_iff_mem, inRange_iff_mem, WrapsIntoDram]
  refine and_congr_right fun haddr => ?_
  have hr := mem_dram.mp haddr
  have hbase : DRAM_BASE = 0x80000000 := rfl
  constructor
  · intro hwrap
    have hend : (runaddr + size) % 2 ^ 32 ∈ dram := mem_dram.mpr (by omega)
    refine ⟨hend, fun hsub => ?_⟩
    have hlt := (ico_subset_iff_of_ends (by decide) hsize haddr hend).mp hsub
    omega
  · rintro ⟨hend, hout⟩
    have hlt := mt (ico_subset_iff_of_ends (by decide) hsize haddr hend).mpr hout
    have := mem_dram.mp hend
    omega

/-! ## What a call notes -/

namespace Bl2

variable {σ α β : Type} {env : Bl2Env σ} {s : Bl2 σ} {P : BootEvent → Prop}

/-- Whatever the state, the program adds only events that satisfy `P`. -/
def Notes (P : BootEvent → Prop) (x : Bl2M σ α) : Prop :=
  ∀ s, ∃ ev, (final (x s)).log = s.log ++ ev ∧ ∀ e ∈ ev, P e

/-- The call notes the event. -/
def Issues (x : Bl2M σ α) (s : Bl2 σ) (e : BootEvent) : Prop :=
  ∃ ev, (final (x s)).log = s.log ++ ev ∧ e ∈ ev

theorem issues_iff {x : Bl2M σ α} {ev : List BootEvent} {e : BootEvent}
    (h : (final (x s)).log = s.log ++ ev) : Issues x s e ↔ e ∈ ev := by
  constructor
  · rintro ⟨ev', hlog, he⟩
    rwa [List.append_cancel_left (h.symm.trans hlog)]
  · exact fun he => ⟨ev, h, he⟩

namespace Notes

theorem silent {x : Bl2M σ α} (h : ∀ s, (final (x s)).log = s.log) : Notes P x :=
  fun s => ⟨[], by rw [h, List.append_nil], nofun⟩

theorem bind {x : Bl2M σ α} {f : α → Bl2M σ β} (hx : Notes P x) (hf : ∀ a, Notes P (f a)) :
    Notes P (x >>= f) := by
  intro s
  obtain ⟨ev, hlog, hev⟩ := hx s
  rcases hrun : x s with ⟨a, t⟩ | ⟨e, t⟩
  · rw [hrun] at hlog
    obtain ⟨ev', hlog', hev'⟩ := hf a t
    refine ⟨ev ++ ev', ?_, List.forall_mem_append.mpr ⟨hev, hev'⟩⟩
    rw [bind_ok _ hrun, hlog', ← List.append_assoc]
    exact congrArg (· ++ ev') hlog
  · rw [hrun] at hlog
    refine ⟨ev, ?_, hev⟩
    rw [bind_error _ hrun]
    exact hlog

theorem ite {c : Prop} [Decidable c] {x y : Bl2M σ α} (hx : Notes P x) (hy : Notes P y) :
    Notes P (if c then x else y) := by
  split
  · exact hx
  · exact hy

theorem pure (a : α) : Notes P (Pure.pure a : Bl2M σ α) := silent fun _ => rfl

theorem get : Notes P (MonadState.get : Bl2M σ (Bl2 σ)) := silent fun _ => rfl

theorem modify {g : Bl2 σ → Bl2 σ} (h : ∀ s, (g s).log = s.log) :
    Notes P (modify g : Bl2M σ PUnit) := silent h

theorem say {e : BootEvent} (h : P e) : Notes P (say e : Bl2M σ Unit) :=
  fun _ => ⟨[e], rfl, List.forall_mem_singleton.mpr h⟩

theorem passes {t : BootTest} {ok : Bool} (h : P (.test t ok)) :
    Notes P (passes t ok : Bl2M σ Bool) :=
  fun _ => ⟨[.test t ok], rfl, List.forall_mem_singleton.mpr h⟩

theorem loadImage {dst : Place} {offset size : Nat} {retry : Int}
    (h : P (.load dst offset size retry)) : Notes P (loadImage env dst offset size retry) := by
  intro s
  refine ⟨[.load dst offset size retry], ?_, List.forall_mem_singleton.mpr h⟩
  cases dst <;> rfl

theorem imageCrc (addr : Nat) (len : Int) : Notes P (imageCrc env addr len) := silent fun _ => rfl

theorem decVerifyImage {image : ImageName} {addr size decSkip : Nat}
    (h : ∀ ok, P (.test (.verify image) ok)) :
    Notes P (decVerifyImage env image addr size decSkip) :=
  fun _ => ⟨[.test (.verify image) _], rfl, List.forall_mem_singleton.mpr (h _)⟩

theorem throw_bind (e : Halt) (f : α → Bl2M σ β) : Notes P (throw e >>= f) := silent fun _ => rfl

end Notes

/-- What follows a program does not note the event. -/
theorem issues_bind_iff {x : Bl2M σ α} {f : α → Bl2M σ β} {e : BootEvent}
    (hx : Notes (fun _ => True) x) (hf : ∀ a, Notes (· ≠ e) (f a)) :
    Issues (x >>= f) s e ↔ Issues x s e := by
  obtain ⟨ev, hlog, -⟩ := hx s
  rw [issues_iff hlog]
  rcases hrun : x s with ⟨a, t⟩ | ⟨h, t⟩
  · rw [hrun] at hlog
    obtain ⟨ev', hlog', hev'⟩ := hf a t
    have hboth : (final ((x >>= f) s)).log = s.log ++ (ev ++ ev') := by
      rw [bind_ok _ hrun, hlog', ← List.append_assoc]
      exact congrArg (· ++ ev') hlog
    rw [issues_iff hboth, List.mem_append, or_iff_left fun he => hev' e he rfl]
  · rw [hrun] at hlog
    have hstop : (final ((x >>= f) s)).log = s.log ++ ev := by
      rw [bind_error _ hrun]
      exact hlog
    rw [issues_iff hstop]

/-! ## The images -/

/-- A test of the loader. -/
def IsTest : BootEvent → Prop
  | .test _ _ => True
  | _ => False

/-- A load, and tests behind it. -/
theorem loadImage_bind_log {dst : Place} {offset size : Nat} {retry : Int} {f : Int → Bl2M σ α}
    (hf : ∀ ret, Notes P (f ret)) (s : Bl2 σ) :
    ∃ ev, (final ((loadImage env dst offset size retry >>= f) s)).log =
      s.log ++ .load dst offset size retry :: ev ∧ ∀ e ∈ ev, P e := by
  obtain ⟨ret, t, hrun⟩ : ∃ ret t, loadImage env dst offset size retry s = .ok ret t :=
    ⟨_, _, rfl⟩
  have hlog : t.log = s.log ++ [.load dst offset size retry] := by
    have ht := congrArg (fun r => (final r).log) hrun
    cases dst <;> exact ht.symm
  obtain ⟨ev, hev, hP⟩ := hf ret t
  refine ⟨ev, ?_, hP⟩
  rw [bind_ok _ hrun, hev, hlog, List.append_assoc]
  rfl

/-- **The loads of an image.** It is loaded when both ends are in range, from where, to
where and with the size that the package says; nothing else is. -/
theorem loadDramImage_issues_iff {img : DramImage} {retry : Int} {dst : Place} {off n : Nat}
    {r : Int} : Issues (loadDramImage env img retry) s (.load dst off n r) ↔
      (inRange (s.param2 img.runaddr) DRAM_BASE DRAM_SIZE = true ∧
        inRange ((s.param2 img.runaddr + s.param2 img.size) % 2 ^ 32) DRAM_BASE DRAM_SIZE = true) ∧
      BootEvent.load dst off n r =
        .load (.dram (s.param2 img.runaddr)) (s.param2 img.loadaddr) (s.param2 img.size) retry := by
  cases h₁ : inRange (s.param2 img.runaddr) DRAM_BASE DRAM_SIZE with
  | false =>
    have hlog : (final (loadDramImage env img retry s)).log =
        s.log ++ [.test (.runaddr img.name) false] := by
      simp only [loadDramImage, get_bind, passes_bind, h₁, Bool.not_false, if_true]
      rfl
    rw [issues_iff hlog]
    simp
  | true =>
    cases h₂ : inRange ((s.param2 img.runaddr + s.param2 img.size) % 2 ^ 32) DRAM_BASE DRAM_SIZE with
    | false =>
      have hlog : (final (loadDramImage env img retry s)).log =
          s.log ++ [.test (.runaddr img.name) true, .test (.size img.name) false] := by
        simp only [loadDramImage, get_bind, passes_bind, h₁, h₂, Bool.not_true, Bool.not_false,
          Bool.false_eq_true, if_false, if_true]
        exact List.append_assoc ..
      rw [issues_iff hlog]
      simp
    | true =>
      obtain ⟨ev, hlog, hev⟩ : ∃ ev, (final (loadDramImage env img retry s)).log = s.log ++
          .test (.runaddr img.name) true :: .test (.size img.name) true ::
          .load (.dram (s.param2 img.runaddr)) (s.param2 img.loadaddr) (s.param2 img.size) retry ::
          ev ∧ ∀ e ∈ ev, IsTest e := by
        simp only [loadDramImage, get_bind, passes_bind, h₁, h₂, Bool.not_true, Bool.false_eq_true,
          if_false]
        refine (loadImage_bind_log (P := IsTest) (fun ret => ?_) _).imp fun ev h =>
          ⟨h.1.trans (by simp), h.2⟩
        refine .ite (.pure _) (.bind (.imageCrc _ _) fun crc => .bind (.passes trivial) fun ok => ?_)
        exact .ite (.pure _) (.bind (.decVerifyImage fun _ => trivial) fun ret =>
          .ite (.pure _) (.pure _))
      rw [issues_iff hlog]
      have hnot : BootEvent.load dst off n r ∉ ev := fun he => hev _ he
      simp [hnot]

theorem notes_loadDramImage (img : DramImage) (retry : Int) :
    Notes (fun _ => True) (loadDramImage env img retry) := by
  refine .bind .get fun s => .bind (.passes trivial) fun ok => .ite (.throw_bind _ _) ?_
  refine .bind (.passes trivial) fun ok => .ite (.throw_bind _ _) ?_
  refine .bind (.loadImage trivial) fun ret => .ite (.pure _) (.bind (.imageCrc _ _) fun crc => ?_)
  refine .bind (.passes trivial) fun ok => .ite (.pure _) ?_
  exact .bind (.decVerifyImage fun _ => trivial) fun ret => .ite (.pure _) (.pure _)

/-- What follows the load of an image loads nothing, and the load of an image that is not
there would not begin. -/
theorem imageThen_issues_iff {img : DramImage} {retry : Int} {k : Nat → Bl2M σ Int} {dst : Place}
    {off n : Nat} {r : Int} (hk : ∀ runaddr, Notes (· ≠ .load dst off n r) (k runaddr)) :
    Issues (imageThen env img retry k) s (.load dst off n r) ↔
      Issues (loadDramImage env img retry) s (.load dst off n r) := by
  have hrun : imageThen env img retry k s = if s.param2 img.runaddr = 0 then .ok 0 s else
      (loadDramImage env img retry >>= fun ret =>
        if ret < 0 then pure ret else k (s.param2 img.runaddr)) s := by
    rw [imageThen, get_bind, ite_apply_state]
    rfl
  by_cases h₀ : s.param2 img.runaddr = 0
  · have hlog : (final (imageThen env img retry k s)).log = s.log ++ [] := by
      rw [hrun, if_pos h₀, List.append_nil]
      rfl
    rw [issues_iff hlog, loadDramImage_issues_iff, h₀]
    exact iff_of_false (by simp) fun h => absurd h.1.1 (by decide)
  · rw [Issues, hrun, if_neg h₀]
    exact issues_bind_iff (notes_loadDramImage img retry) fun ret => .ite (.pure _) (hk _)

/-- All that the call loads into the DRAM lies in the DRAM. -/
def PlacesInDram (x : Bl2M σ α) (s : Bl2 σ) : Prop :=
  ∀ addr offset size retry, Issues x s (.load (.dram addr) offset size retry) →
    Ico addr (addr + size) ⊆ dram

/-- An image is loaded with its own address and size: exactly those that wrap are out of
place. -/
theorem placesInDram_imageThen_iff {img : DramImage} {retry : Int} {k : Nat → Bl2M σ Int}
    (hsize : s.param2 img.size < 2 ^ 32)
    (hk : ∀ dst off n r runaddr, Notes (· ≠ .load dst off n r) (k runaddr)) :
    PlacesInDram (imageThen env img retry k) s ↔
      ¬ WrapsIntoDram (s.param2 img.runaddr) (s.param2 img.size) := by
  rw [wrapsIntoDram_iff hsize]
  constructor
  · rintro hplaced ⟨h₁, h₂, hout⟩
    have hload : Issues (loadDramImage env img retry) s _ :=
      loadDramImage_issues_iff.mpr ⟨⟨h₁, h₂⟩, rfl⟩
    exact hout (hplaced _ _ _ _ ((imageThen_issues_iff (hk _ _ _ _)).mpr hload))
  · intro hwrap addr off n r hload
    obtain ⟨⟨h₁, h₂⟩, he⟩ :=
      loadDramImage_issues_iff.mp ((imageThen_issues_iff (hk _ _ _ _)).mp hload)
    obtain ⟨rfl, -, rfl, -⟩ : addr = s.param2 img.runaddr ∧ off = s.param2 img.loadaddr ∧
        n = s.param2 img.size ∧ r = retry := by simpa using he
    by_contra hout
    exact hwrap ⟨h₁, h₂, hout⟩

/-- **Where the images are placed.** Each call loads within the DRAM unless the image wraps
around into it. -/
theorem images_placed_in_dram_iff (env : Bl2Env σ) (retry : Int) (s : Bl2 σ) :
    (PlacesInDram (loadBlcp2nd env retry) s ↔
      ¬ WrapsIntoDram (s.param2 .blcp2ndRunaddr) (s.param2 .blcp2ndSize)) ∧
    (PlacesInDram (loadMonitor env retry) s ↔
      ¬ WrapsIntoDram (s.param2 .monitorRunaddr) (s.param2 .monitorSize)) := by
  constructor
  · rw [loadBlcp2nd_eq]
    refine @placesInDram_imageThen_iff _ env s blcp2nd retry _ (Layout.get_lt ..) ?_
    exact fun dst off n r runaddr => .bind .get fun s => .ite
      (.bind (.say nofun) fun _ => .bind (.modify fun _ => rfl) fun _ => .pure _)
      (.bind (.say nofun) fun _ => .pure _)
  · rw [loadMonitor_eq]
    refine @placesInDram_imageThen_iff _ env s monitor retry _ (Layout.get_lt ..) ?_
    exact fun dst off n r runaddr => .bind (.modify fun _ => rfl) fun _ => .pure _

/-- A package whose monitor is a byte short of four gigabytes, from the second byte of the
DRAM on. -/
def wrapStart : Bl2 Unit :=
  { jumpStart [] with fipParam2 := List.replicate 56 0 ++
      (toLE 4 0xFFFFFFFF ++ toLE 4 0x80000001) ++ List.replicate 4032 0 }

theorem not_images_placed_in_dram :
    Issues (loadMonitor (jumpEnv []) 0) wrapStart (.load (.dram 0x80000001) 0 0xFFFFFFFF 0) ∧
      ¬ PlacesInDram (loadMonitor (jumpEnv []) 0) wrapStart := by
  have hrun : wrapStart.param2 .monitorRunaddr = 0x80000001 := rfl
  have hsize : wrapStart.param2 .monitorSize = 0xFFFFFFFF := rfl
  have hoff : wrapStart.param2 .monitorLoadaddr = 0 := rfl
  have hload : Issues (loadMonitor (jumpEnv []) 0) wrapStart
      (.load (.dram 0x80000001) 0 0xFFFFFFFF 0) := by
    rw [loadMonitor_eq, imageThen_issues_iff, loadDramImage_issues_iff]
    · simp only [monitor, hrun, hsize, hoff]
      decide
    · exact fun runaddr => .bind (.modify fun _ => rfl) fun _ => .pure _
  refine ⟨hload, fun hplaced => ?_⟩
  -- the first byte behind the DRAM is one of the image
  have hbehind : (0x90000000 : Nat) ∈ dram :=
    hplaced _ _ _ _ hload (mem_Ico.mpr ⟨by decide, by decide⟩)
  exact absurd (mem_dram.mp hbehind).2 (by decide)

end Bl2

end LicheeRvNano
