/-
  Edmm/PageTiling.lean
  ====================
  **The pages of an allocation tile its range.**

  `allocate_vmm_kv_cache` rounds the request up to whole pages and creates them one
  by one; `remap_block` later accepts a block id by comparing it with the number of
  pages.  Here the rounding is the ceiling division of the size by the page size,
  the pages partition the reserved range, and the comparison accepts a block id
  exactly if its page lies in that range (`allocateVmmKvCache_tiles`).
-/
import Edmm.PagedMemory
import Mathlib.Algebra.Order.Floor.Div
import Mathlib.Algebra.Order.Ring.Int

namespace Edmm

open Program

variable {cuda : Cuda} {w w' : AllocatorState}

/-! ## 1. Page arithmetic -/

/-- **Pages tile their range.**  Every address of it lies in exactly one page, and no
    page reaches outside. -/
theorem inRange_iff_existsUnique_page (va : Nat) {pageSize : Nat} (hpage : 0 < pageSize)
    (n a : Nat) :
    inRange va (n * pageSize) a = true ↔
      ∃! i, i < n ∧ inRange (va + i * pageSize) pageSize a = true := by
  simp only [inRange_page_iff va hpage]
  rw [inRange_iff]
  constructor
  · intro hinside
    rcases hinside with ⟨hlow, hhigh⟩
    refine ⟨(a - va) / pageSize, ⟨?_, hlow, rfl⟩, fun i hi => hi.2.2.symm⟩
    rw [Nat.div_lt_iff_lt_mul hpage]
    omega
  · intro hpageOf
    rcases hpageOf with ⟨i, ⟨hi, hlow, hindex⟩, -⟩
    rw [← hindex, Nat.div_lt_iff_lt_mul hpage] at hi
    exact ⟨hlow, by omega⟩

/-- The aligned size, as ceiling division. -/
theorem alignedSizeOf_eq_ceilDiv (sizeBytes pageSize : Nat) :
    alignedSizeOf sizeBytes pageSize = pageSize * (sizeBytes ⌈/⌉ pageSize) := Nat.mul_comm _ _

/-- The aligned size is the least whole number of pages that holds the request. -/
theorem alignedSizeOf_isLeast (sizeBytes : Nat) {pageSize : Nat} (hpage : 0 < pageSize) :
    IsLeast {size | pageSize ∣ size ∧ sizeBytes ≤ size} (alignedSizeOf sizeBytes pageSize) := by
  rw [alignedSizeOf_eq_ceilDiv]
  constructor
  · exact ⟨Nat.dvd_mul_right _ _, le_smul_ceilDiv hpage⟩
  · intro _ hmultiple
    rcases hmultiple with ⟨⟨pages, rfl⟩, hcovers⟩
    exact Nat.mul_le_mul_left _ ((ceilDiv_le_iff_le_mul hpage).mpr hcovers)

/-- Both are powers of two, so the larger is a multiple of the smaller. -/
theorem granularity_dvd_pageSizeOf (k : Nat) : 2 ^ k ∣ pageSizeOf (2 ^ k) := by
  have hmin : 2 * 1024 * 1024 = 2 ^ 21 := rfl
  unfold pageSizeOf
  rw [hmin]
  rcases Nat.le_total k 21 with hsmall | hlarge
  · rw [max_eq_right (Nat.pow_le_pow_right (by omega) hsmall)]
    exact Nat.pow_dvd_pow 2 hsmall
  · rw [max_eq_left (Nat.pow_le_pow_right (by omega) hlarge)]

/-! ## 2. What an allocation registers -/

/-- The page and total sizes that an allocation registers. -/
theorem allocateVmmKvCache_sizes (sizeBytes : Nat) (device : Device) :
    wp (allocateVmmKvCache cuda sizeBytes device)
      (fun tensor w' => ∃ s alloc, SameDriver w.driver s ∧
        w'.allocations.get? tensor.dataPtr = some alloc ∧
        alloc.pageSize = pageSizeOf (cuda.granularity s (device.index.getD 0)) ∧
        alloc.totalBytes = alignedSizeOf sizeBytes alloc.pageSize)
      (fun _ _ => True) w := by
  unfold allocateVmmKvCache
  simp only [wp_bind]
  refine wp_mono_of_returns (ensureDriverContext_spec _) ?_
  intro _ w₁ hensured
  rcases hensured with ⟨-, hsame⟩
  simp only [wp_cuMemGetAllocationGranularity, wp_check, wp_cuMemAddressReserve, implies_true,
    and_true]
  intro _ _
  refine wp_of_run (fun handles w₂ _ => ?_) (fun _ _ _ => trivial)
  simp only [wp_call, wp_modify, wp_pure]
  exact fun _ => ⟨w₁.driver, _, hsame, Dict.get?_set_self _ _ _, rfl, rfl⟩

/-- An allocation that returned, with the granularity it was made for. -/
structure Sized (cuda : Cuda) (sizeBytes : Nat) (deviceId : DeviceId) (granularity : Nat)
    (w w' : AllocatorState) (alloc : VMMAllocation) : Prop
    extends Allocated cuda sizeBytes deviceId w w' alloc where
  pageSize : alloc.pageSize = pageSizeOf granularity
  totalBytes : alloc.totalBytes = alignedSizeOf sizeBytes alloc.pageSize

/-- It raises only if a driver call fails. -/
theorem allocateVmmKvCache_sized (sizeBytes : Nat) (device : Device) :
    wp (allocateVmmKvCache cuda sizeBytes device)
      (fun tensor w' => ∃ s alloc, SameDriver w.driver s ∧
        tensor = ⟨alloc.vaPtr, sizeBytes, device.index.getD 0⟩ ∧
        Sized cuda sizeBytes (device.index.getD 0) (cuda.granularity s (device.index.getD 0))
          w w' alloc)
      (fun _ _ => ¬ cuda.Succeeds) w := by
  have hraises : wp (allocateVmmKvCache cuda sizeBytes device) (fun _ _ => True)
      (fun _ _ => ¬ cuda.Succeeds) w := by
    by_cases hsucceeds : cuda.Succeeds
    · exact wp_mono (allocateVmmKvCache_returns hsucceeds _ _ _) (fun _ _ h => h)
        (fun _ _ h => h.elim)
    · exact wp_of_run (fun _ _ _ => trivial) (fun _ _ _ => hsucceeds)
  refine wp_mono (wp_and (wp_and (allocateVmmKvCache_spec sizeBytes device)
    (allocateVmmKvCache_sizes sizeBytes device)) hraises) ?_ (fun _ _ h => h.2)
  intro tensor w' hallocated
  rcases hallocated with ⟨⟨⟨alloc, hnew, rfl⟩, s, registered, hsame, hget, hpage, htotal⟩, -⟩
  rw [hnew.registered, Dict.get?_set_self, Option.some.injEq] at hget
  subst hget
  exact ⟨s, alloc, hsame, rfl, ⟨hnew, hpage, htotal⟩⟩

/-- One page for each turn of the loop, and one turn for each page size begun. -/
theorem Sized.numPages {sizeBytes : Nat} {deviceId : DeviceId} {granularity : Nat}
    {alloc : VMMAllocation} (h : Sized cuda sizeBytes deviceId granularity w w' alloc) :
    alloc.numPages = sizeBytes ⌈/⌉ alloc.pageSize := by
  have htotal := h.sized.trans (h.totalBytes.trans (alignedSizeOf_eq_ceilDiv _ _))
  rw [Nat.mul_comm] at htotal
  exact Nat.eq_of_mul_eq_mul_left h.pageSize_pos htotal

/-! ## 3. The tiling -/

/-- The pages of an allocation tile its range. -/
structure Tiled (granularity sizeBytes : Nat) (s s' : DriverState) (alloc : VMMAllocation) :
    Prop where
  granularity_dvd : granularity ∣ alloc.pageSize
  /-- The turns of the loop: each creates one physical page and maps it. -/
  turns : alloc.numPages = sizeBytes ⌈/⌉ alloc.pageSize
  chunks : s'.createdSizes = s.createdSizes ++ List.replicate alloc.numPages alloc.pageSize
  mapped : ∀ i handle, alloc.handles[i]? = some handle → ∃ access,
    s'.pages.get? (alloc.pageVa i) = some ⟨alloc.pageSize, handle, access⟩
  partition : ∀ va, inRange alloc.vaPtr alloc.totalBytes va = true ↔
    ∃! i, i < alloc.numPages ∧ inRange (alloc.pageVa i) alloc.pageSize va = true
  aligned : IsLeast {size | alloc.pageSize ∣ size ∧ sizeBytes ≤ size} alloc.totalBytes
  offsets : ∀ offset < sizeBytes, offset / alloc.pageSize < alloc.numPages ∧
    inRange (alloc.pageVa (offset / alloc.pageSize)) alloc.pageSize (alloc.vaPtr + offset) = true

theorem Sized.tiled {sizeBytes : Nat} {deviceId : DeviceId} {granularity : Nat}
    {alloc : VMMAllocation} (h : Sized cuda sizeBytes deviceId granularity w w' alloc)
    (hpower : ∃ k, granularity = 2 ^ k) :
    Tiled granularity sizeBytes w.driver w'.driver alloc where
  granularity_dvd := by
    obtain ⟨k, rfl⟩ := hpower
    rw [h.pageSize]
    exact granularity_dvd_pageSizeOf k
  turns := h.numPages
  chunks := h.createdSizes
  mapped := fun i handle hi => ⟨_, h.mapped i handle hi⟩
  partition := by
    intro va
    rw [← h.sized]
    exact inRange_iff_existsUnique_page _ h.pageSize_pos _ _
  aligned := by
    rw [h.totalBytes]
    exact alignedSizeOf_isLeast _ h.pageSize_pos
  offsets := by
    intro offset ho
    have hin : offset < alloc.numPages * alloc.pageSize :=
      h.sized ▸ Nat.lt_of_lt_of_le ho h.covers
    refine ⟨(Nat.div_lt_iff_lt_mul h.pageSize_pos).mpr hin, ?_⟩
    unfold VMMAllocation.pageVa
    rw [inRange_page_iff _ h.pageSize_pos]
    exact ⟨Nat.le_add_right _ _, by rw [Nat.add_sub_cancel_left]⟩

/-! ## 4. The range check of `remap_block` -/

/-- The call passes the checks of `remap_block`. -/
def RemapAccepts (cuda : Cuda) (w : AllocatorState) (tensor : Tensor) (blockId : Int)
    (handle : Handle) : Prop :=
  ∀ message w', remapBlock cuda tensor blockId handle w ≠ .error (.valueError message) w'

/-- The page of this block id lies inside the range of the allocation. -/
def VMMAllocation.PageInside (alloc : VMMAllocation) (blockId : Int) : Prop :=
  let blockVa : Int := alloc.vaPtr + blockId * alloc.pageSize
  alloc.vaPtr ≤ blockVa ∧ blockVa + alloc.pageSize ≤ alloc.vaPtr + alloc.totalBytes

theorem VMMAllocation.pageInside_iff {alloc : VMMAllocation} (hpage : 0 < alloc.pageSize)
    (hsized : alloc.handles.length * alloc.pageSize = alloc.totalBytes) (blockId : Int) :
    alloc.PageInside blockId ↔ 0 ≤ blockId ∧ blockId < alloc.numPages := by
  have hpos : (0 : Int) < alloc.pageSize := by exact_mod_cast hpage
  have htotal : (alloc.totalBytes : Int) = alloc.numPages * alloc.pageSize := by
    rw [← hsized]
    push_cast
    rfl
  have hlow : 0 ≤ blockId * alloc.pageSize ↔ 0 ≤ blockId := mul_nonneg_iff_of_pos_right hpos
  have hhigh : (blockId + 1) * alloc.pageSize ≤ alloc.numPages * alloc.pageSize ↔
      blockId + 1 ≤ alloc.numPages := mul_le_mul_iff_of_pos_right hpos
  unfold PageInside
  simp only
  rw [htotal, ← hlow, ← Int.add_one_le_iff, ← hhigh, add_mul, one_mul]
  omega

/-- **The range check.**  Comparing the block id with the number of pages accepts
    exactly the blocks whose page lies inside the range. -/
theorem remapAccepts_iff {tensor : Tensor} {alloc : VMMAllocation}
    (hget : w.allocations.get? tensor.dataPtr = some alloc) (hpage : 0 < alloc.pageSize)
    (hsized : alloc.handles.length * alloc.pageSize = alloc.totalBytes) (blockId : Int)
    (handle : Handle) :
    RemapAccepts cuda w tensor blockId handle ↔ alloc.PageInside blockId := by
  rw [VMMAllocation.pageInside_iff hpage hsized]
  constructor
  · intro haccepts
    by_contra hout
    have hrejected : ∀ alloc', getVmmAllocation w tensor = some alloc' →
        blockId < 0 ∨ blockId ≥ alloc'.numPages := by
      intro alloc' hget'
      unfold getVmmAllocation at hget'
      rw [hget, Option.some.injEq] at hget'
      subst hget'
      omega
    have hraises : ∃ message,
        remapBlock cuda tensor blockId handle w = .error (.valueError message) w :=
      remapBlock_rejects hrejected
    obtain ⟨message, hraised⟩ := hraises
    exact haccepts message w hraised
  · intro hinside message w' hraised
    rcases hinside with ⟨hlow, hhigh⟩
    obtain ⟨block, rfl⟩ := Int.eq_ofNat_of_zero_le hlow
    rw [remapBlock_accepts handle hget (by omega)] at hraised
    -- past the checks only driver errors are raised
    obtain ⟨-, -, ⟨_, herror⟩, -⟩ := wp_error (swapBlock_run tensor alloc block handle) hraised
    cases herror

/-! ## 5. Every allocation is tiled -/

/-- **Page tiling.**  For every driver whose granularities are powers of two, every
    prior state and every size: an allocation raises only if a driver call fails, and
    one that returns tiles its range with pages, of which `remap_block` accepts
    exactly those inside the range.  So it does for every tensor registered in any
    reachable state, whatever driver calls failed. -/
theorem allocateVmmKvCache_tiles (cuda : Cuda)
    (hgranularity : ∀ s deviceId, ∃ k, cuda.granularity s deviceId = 2 ^ k) :
    (∀ (w : AllocatorState) (sizeBytes : ℕ+) (device : Device),
      wp (allocateVmmKvCache cuda sizeBytes device)
        (fun tensor w' => ∃ s alloc, SameDriver w.driver s ∧
          w'.allocations.get? tensor.dataPtr = some alloc ∧
          alloc.pageSize = pageSizeOf (cuda.granularity s (device.index.getD 0)) ∧
          (alloc.vaPtr, alloc.totalBytes) ∈ w'.driver.reserved ∧
          Tiled (cuda.granularity s (device.index.getD 0)) sizeBytes w.driver w'.driver alloc ∧
          ∀ blockId handle,
            RemapAccepts cuda w' tensor blockId handle ↔ alloc.PageInside blockId)
        (fun _ _ => ¬ cuda.Succeeds) w) ∧
    ∀ (memory : Handle → Nat → UInt8) (ops : List AllocatorOp) (tensor : Tensor)
      (alloc : VMMAllocation), cuda.Lawful →
      (runAllocator cuda memory ops).allocations.get? tensor.dataPtr = some alloc →
      (alloc.vaPtr, alloc.totalBytes) ∈ (runAllocator cuda memory ops).driver.reserved ∧
      ∀ blockId handle,
        RemapAccepts cuda (runAllocator cuda memory ops) tensor blockId handle ↔
          alloc.PageInside blockId := by
  constructor
  · intro w sizeBytes device
    refine wp_mono_ok (allocateVmmKvCache_sized sizeBytes device) ?_
    intro tensor w' hlaidOut
    rcases hlaidOut with ⟨s, alloc, hsame, rfl, hsized⟩
    have hget : w'.allocations.get? alloc.vaPtr = some alloc := by
      rw [hsized.registered, Dict.get?_set_self]
    refine ⟨s, alloc, hsame, hget, hsized.pageSize, ?_, hsized.tiled (hgranularity _ _), ?_⟩
    · rw [hsized.reserved]
      exact List.mem_cons_self
    · exact remapAccepts_iff hget hsized.pageSize_pos hsized.sized
  · intro memory ops tensor alloc hlawful hget
    have hentry := (registryInv_runAllocator hlawful memory ops).entries _ _ hget
    exact ⟨hentry.reserved, remapAccepts_iff hget hentry.pageSize_pos hentry.sized⟩

/-- One byte more than a page takes two pages: blocks 0 and 1, but not block 2. -/
theorem allocateVmmKvCache_tiles_two_pages :
    ∃ tensor w' alloc,
      allocateVmmKvCache .bump 2097153 ⟨none⟩ (.init fun _ _ => 255) = .ok tensor w' ∧
      w'.allocations.get? tensor.dataPtr = some alloc ∧ alloc.numPages = 2 ∧
      RemapAccepts .bump w' tensor 1 7 ∧ ¬ RemapAccepts .bump w' tensor 2 7 := by
  have hlaid := (allocateVmmKvCache_tiles .bump (fun _ _ => ⟨21, rfl⟩)).1
    (.init fun _ _ => 255) 2097153 ⟨none⟩
  obtain ⟨tensor, w', hrun, s, alloc, -, hget, hpage, -, htiled, haccepts⟩ :=
    returns_of_wp (wp_mono hlaid (fun _ _ h => h) (fun _ _ h => h Cuda.bump_succeeds))
  have hsize : alloc.pageSize = 2097152 := hpage
  have hpages : alloc.numPages = 2 := by
    rw [htiled.turns, hsize]
    rfl
  have htotal : alloc.totalBytes = 4194304 := by
    rw [htiled.aligned.unique (alignedSizeOf_isLeast _ (hsize ▸ Nat.succ_pos _)), hsize]
    rfl
  refine ⟨tensor, w', alloc, hrun, hget, hpages, ?_, ?_⟩ <;>
  · simp only [haccepts, VMMAllocation.PageInside, hsize, htotal]
    omega

end Edmm
