/-
  Edmm/AllocatorEffects.lean
  ==========================
  **What each allocator operation does to the registry and to the driver.**

  One lemma per operation, stated for every driver: when the call returns, all
  its checked driver calls succeeded, so its effect is known exactly; when it
  raises, the lemma says what may have changed.  Later modules use only these
  lemmas and never unfold an operation again.

  * `mapChunks_spec`, `allocateVmmKvCache_spec` — a returning allocation maps one
    fresh handle per page, in page order, and registers them;
  * `swapBlock_run` — the four ways a block swap can end;
  * `freeVmmKvCache_spec`, `createPhysicalHandle_spec`, `releasePhysicalHandle_spec`;
* `…_returns` — with a driver whose calls succeed, nothing raises;
  * `AllocatorOp.exec_effect` — all of it in one statement for such a driver.
-/
import Edmm.Allocator

namespace Edmm

open Program

variable {cuda : Cuda} {w : AllocatorState} {Q : Nat → AllocatorState → Prop}
  {E : PyError → AllocatorState → Prop}

/-! ## 1. Single driver calls -/

theorem Cuda.after_of_result {cuda : Cuda} {s : DriverState} {c : DriverCall}
    (h : cuda.result s c = 0) : cuda.after s c = { cuda.effect s c with calls := s.calls + 1 } := by
  simp [Cuda.after, h]

theorem Cuda.after_of_failure {cuda : Cuda} {s : DriverState} {c : DriverCall}
    (h : cuda.result s c ≠ 0) : cuda.after s c = { s with calls := s.calls + 1 } := by
  simp [Cuda.after, h]

@[simp] theorem wp_call (c : DriverCall) :
    wp (call cuda c) Q E w ↔
      Q (cuda.result w.driver c) { w with driver := cuda.after w.driver c } := Iff.rfl

@[simp] theorem wp_check {Q : PUnit → AllocatorState → Prop} (result : Nat) (msg : String) :
    wp (check result msg) Q E w ↔
      (result = 0 → Q ⟨⟩ w) ∧
        (result ≠ 0 → E (.runtimeError s!"CUDA driver error {result}: {msg}") w) := by
  unfold check
  by_cases h : result = 0 <;> simp [h]

@[simp] theorem wp_cuMemAddressReserve {Q : Nat × Nat → AllocatorState → Prop} (size : Nat) :
    wp (cuMemAddressReserve cuda size) Q E w ↔
      Q (cuda.result w.driver (.cuMemAddressReserve size), cuda.pickVa w.driver size)
        { w with driver := cuda.after w.driver (.cuMemAddressReserve size) } := Iff.rfl

@[simp] theorem wp_cuMemCreate {Q : Nat × Handle → AllocatorState → Prop} (size : Nat)
    (device : DeviceId) :
    wp (cuMemCreate cuda size device) Q E w ↔
      Q (cuda.result w.driver (.cuMemCreate size device), cuda.pickHandle w.driver)
        { w with driver := cuda.after w.driver (.cuMemCreate size device) } := Iff.rfl

@[simp] theorem wp_cuMemGetAllocationGranularity {Q : Nat × Nat → AllocatorState → Prop}
    (device : DeviceId) :
    wp (cuMemGetAllocationGranularity cuda device) Q E w ↔
      Q (cuda.result w.driver (.cuMemGetAllocationGranularity device),
          cuda.granularity w.driver device)
        { w with driver := cuda.after w.driver (.cuMemGetAllocationGranularity device) } := Iff.rfl

/-- Two driver states that differ in the call counter only. -/
def SameDriver (s s' : DriverState) : Prop := { s with calls := s'.calls } = s'

theorem SameDriver.refl (s : DriverState) : SameDriver s s := rfl

theorem SameDriver.trans {s s' s'' : DriverState} (h : SameDriver s s') (h' : SameDriver s' s'') :
    SameDriver s s'' := by
  unfold SameDriver at h h' ⊢
  rw [← h', ← h]

theorem sameDriver_after {s : DriverState} (c : DriverCall) (h : cuda.effect s c = s) :
    SameDriver s (cuda.after s c) := by
  unfold SameDriver Cuda.after
  by_cases hr : cuda.result s c = 0 <;> simp [hr, h]

/-- Retaining and pushing the context changes nothing the allocator can see. -/
theorem ensureDriverContext_spec (deviceId : DeviceId) :
    wp (ensureDriverContext cuda deviceId)
      (fun _ w' => w'.allocations = w.allocations ∧ SameDriver w.driver w'.driver)
      (fun _ _ => False) w := by
  simp only [ensureDriverContext, wp_bind, wp_call, wp_pure, true_and]
  exact ((sameDriver_after _ rfl).trans (sameDriver_after _ rfl)).trans (sameDriver_after _ rfl)

/-! ## 2. The chunk loop of an allocation -/

/-- The handles `new` were created and mapped page by page from `va` on. -/
structure ChunksMapped (cuda : Cuda) (va pageSize : Nat) (new : List Handle)
    (s s' : DriverState) : Prop where
  reserved : s'.reserved = s.reserved
  live : s'.live = new.reverse ++ s.live
  liveNodup : cuda.Lawful → s.live.Nodup → s'.live.Nodup
  created : s'.created = s.created ++ new
  createdSizes : s'.createdSizes = s.createdSizes ++ List.replicate new.length pageSize
  released : s'.released = s.released
  memory : s'.memory = s.memory
  mapped : ∀ i handle, new[i]? = some handle →
    s'.pages.get? (va + i * pageSize) = some ⟨pageSize, handle, []⟩
  others : ∀ p, (∀ i < new.length, p ≠ va + i * pageSize) → s'.pages.get? p = s.pages.get? p

theorem ChunksMapped.nil (va pageSize : Nat) (s : DriverState) :
    ChunksMapped cuda va pageSize [] s s where
  reserved := rfl
  live := rfl
  liveNodup := fun _ h => h
  created := by simp
  createdSizes := by simp
  released := rfl
  memory := rfl
  mapped := by simp
  others := fun _ _ => rfl

/-- One turn of the loop in front of the remaining turns. -/
theorem ChunksMapped.cons {va pageSize : Nat} (hpage : 0 < pageSize) {handle : Handle}
    {new : List Handle} {s s₁ s' : DriverState}
    (h : ChunksMapped cuda (va + pageSize) pageSize new s₁ s')
    (hfresh : cuda.Lawful → handle ∉ s.live) (hreserved : s₁.reserved = s.reserved)
    (hlive : s₁.live = handle :: s.live) (hcreated : s₁.created = s.created ++ [handle])
    (hsizes : s₁.createdSizes = s.createdSizes ++ [pageSize])
    (hreleased : s₁.released = s.released) (hmemory : s₁.memory = s.memory)
    (hpages : s₁.pages = s.pages.set va ⟨pageSize, handle, []⟩) :
    ChunksMapped cuda va pageSize (handle :: new) s s' where
  reserved := h.reserved.trans hreserved
  live := by rw [h.live, hlive, List.reverse_cons, List.append_assoc]; rfl
  liveNodup := fun hlawful hnodup =>
    h.liveNodup hlawful (by rw [hlive]; exact List.nodup_cons.mpr ⟨hfresh hlawful, hnodup⟩)
  created := by rw [h.created, hcreated, List.append_assoc]; rfl
  createdSizes := by rw [h.createdSizes, hsizes, List.append_assoc]; rfl
  released := h.released.trans hreleased
  memory := h.memory.trans hmemory
  mapped := by
    intro i other hi
    cases i with
    | zero =>
      rw [List.getElem?_cons_zero, Option.some.injEq] at hi
      subst hi
      have hother := h.others va fun i _ => by
        have := Nat.zero_le (i * pageSize)
        omega
      rw [Nat.zero_mul, Nat.add_zero, hother, hpages, Dict.get?_set_self]
    | succ i =>
      rw [List.getElem?_cons_succ] at hi
      have hmapped := h.mapped i other hi
      rwa [Nat.add_assoc, Nat.add_comm pageSize, ← Nat.succ_mul] at hmapped
  others := by
    intro p hp
    have hfirst : p ≠ va := by
      have := hp 0 (by simp)
      simpa using this
    rw [h.others p, hpages, Dict.get?_set_of_ne _ _ hfirst]
    intro i hi
    have := hp (i + 1) (by simpa using hi)
    rwa [Nat.succ_mul, Nat.add_comm (i * pageSize), ← Nat.add_assoc] at this

/-- A loop that raised: handles may be lost and pages of the range half mapped,
    but nothing was reserved and no page outside the range was touched. -/
structure ChunksAbandoned (va size : Nat) (s s' : DriverState) : Prop where
  reserved : s'.reserved = s.reserved
  others : ∀ p, inRange va size p = false → s'.pages.get? p = s.pages.get? p

/-- **The chunk loop.**  With `k` pages left to map it returns `k` new handles,
    one for each page; if it raises, it registered nothing. -/
theorem mapChunks_spec {deviceId va pageSize alignedSize : Nat} (hpage : 0 < pageSize) (k : Nat) :
    ∀ (handles : List Handle) (offset : Nat) (w : AllocatorState),
      offset + k * pageSize = alignedSize →
      wp (mapChunks cuda deviceId va pageSize alignedSize hpage handles offset)
        (fun result w' => ∃ new, result = handles ++ new ∧ new.length = k ∧
          w'.allocations = w.allocations ∧
          ChunksMapped cuda (va + offset) pageSize new w.driver w'.driver)
        (fun _ w' => w'.allocations = w.allocations ∧
          ChunksAbandoned (va + offset) (k * pageSize) w.driver w'.driver) w := by
  induction k with
  | zero =>
    intro handles offset w hk
    rw [mapChunks, dif_neg (by omega), wp_pure]
    exact ⟨[], by simp, rfl, rfl, ChunksMapped.nil _ _ _⟩
  | succ k ih =>
    intro handles offset w hk
    rw [Nat.succ_mul] at hk
    -- a full page is left, so the chunk is a full page
    have hchunk : min pageSize (alignedSize - offset) = pageSize := by omega
    rw [mapChunks, dif_pos (by omega), hchunk]
    simp only [wp_bind, wp_cuMemCreate, wp_check, wp_call]
    refine ⟨fun hcreate => ⟨fun hmap => ?_, fun hmap => ?_⟩, fun hcreate => ?_⟩
    · refine wp_mono (ih _ (offset + pageSize) _ (by omega)) ?_ ?_
      · rintro result w' ⟨new, rfl, hlen, halloc, hnew⟩
        refine ⟨cuda.pickHandle w.driver :: new, by simp, by simp [hlen], halloc, ?_⟩
        rw [← Nat.add_assoc] at hnew
        rw [Cuda.after_of_result hmap, Cuda.after_of_result hcreate] at hnew
        exact ChunksMapped.cons hpage hnew (fun hlawful => hlawful.create_fresh _)
          rfl rfl rfl rfl rfl rfl rfl
      · rintro e w' ⟨halloc, hrest⟩
        rw [Cuda.after_of_result hmap, Cuda.after_of_result hcreate] at hrest
        refine ⟨halloc, ⟨hrest.reserved, fun p hp => ?_⟩⟩
        have hout : ¬ (va + offset ≤ p ∧ p < va + offset + (k + 1) * pageSize) := by
          rw [← inRange_iff, hp]
          simp
        rw [Nat.succ_mul] at hout
        rw [hrest.others p (by rw [← Bool.not_eq_true, inRange_iff]; omega)]
        exact Dict.get?_set_of_ne _ _ (by omega)
    · refine ⟨trivial, ?_⟩
      rw [Cuda.after_of_failure hmap, Cuda.after_of_result hcreate]
      exact ⟨rfl, fun _ _ => rfl⟩
    · refine ⟨trivial, ?_⟩
      rw [Cuda.after_of_failure hcreate]
      exact ⟨rfl, fun _ _ => rfl⟩

/-! ## 3. Page and size arithmetic -/

/-- The aligned size is a whole number of pages and covers the request. -/
theorem alignedSizeOf_eq (sizeBytes : Nat) {pageSize : Nat} (hpage : 0 < pageSize) :
    ∃ k, alignedSizeOf sizeBytes pageSize = k * pageSize ∧ sizeBytes ≤ k * pageSize := by
  refine ⟨(sizeBytes + pageSize - 1) / pageSize, rfl, ?_⟩
  have hdiv := Nat.div_add_mod (sizeBytes + pageSize - 1) pageSize
  have hmod := Nat.mod_lt (sizeBytes + pageSize - 1) hpage
  rw [Nat.mul_comm]
  omega

/-- Page `i` of `n` pages lies inside the range they form. -/
theorem page_bounds (va pageSize : Nat) {i n : Nat} (hi : i < n) :
    va ≤ va + i * pageSize ∧ va + i * pageSize + pageSize ≤ va + n * pageSize := by
  have hmul : (i + 1) * pageSize ≤ n * pageSize := Nat.mul_le_mul_right _ hi
  rw [Nat.succ_mul] at hmul
  omega

/-- An address lies in page `i` exactly if `i` is its distance in pages. -/
theorem inRange_page_iff (va : Nat) {pageSize : Nat} (hpage : 0 < pageSize) (i a : Nat) :
    inRange (va + i * pageSize) pageSize a = true ↔ va ≤ a ∧ (a - va) / pageSize = i := by
  rw [inRange_iff, Nat.div_eq_iff hpage]
  omega

/-! ## 4. Allocation -/

/-- What a returning `allocate_vmm_kv_cache` did: `alloc` is the new registration. -/
structure Allocated (cuda : Cuda) (sizeBytes : Nat) (deviceId : DeviceId)
    (w w' : AllocatorState) (alloc : VMMAllocation) : Prop where
  registered : w'.allocations = w.allocations.set alloc.vaPtr alloc
  tensor : alloc.tensor = some ⟨alloc.vaPtr, sizeBytes, deviceId⟩
  pageSize_pos : 0 < alloc.pageSize
  sized : alloc.handles.length * alloc.pageSize = alloc.totalBytes
  covers : sizeBytes ≤ alloc.totalBytes
  reserved : w'.driver.reserved = (alloc.vaPtr, alloc.totalBytes) :: w.driver.reserved
  disjoint : cuda.Lawful → ∀ r ∈ w.driver.reserved,
    RangesDisjoint (alloc.vaPtr, alloc.totalBytes) r
  live : w'.driver.live = alloc.handles.reverse ++ w.driver.live
  liveNodup : cuda.Lawful → w.driver.live.Nodup → w'.driver.live.Nodup
  created : w'.driver.created = w.driver.created ++ alloc.handles
  createdSizes : w'.driver.createdSizes =
    w.driver.createdSizes ++ List.replicate alloc.handles.length alloc.pageSize
  released : w'.driver.released = w.driver.released
  /-- Each page is mapped to its handle and the device was granted access. -/
  mapped : ∀ i handle, alloc.handles[i]? = some handle →
    w'.driver.pages.get? (alloc.pageVa i) = some ⟨alloc.pageSize, handle, [deviceId]⟩
  /-- Pages outside the new range are as before. -/
  others : ∀ p, inRange alloc.vaPtr alloc.totalBytes p = false →
    w'.driver.pages.get? p = w.driver.pages.get? p
  /-- Nothing is newly mapped but the pages themselves. -/
  nothingElse : ∀ p, (∀ i < alloc.handles.length, p ≠ alloc.pageVa i) →
    w.driver.pages.get? p = none → w'.driver.pages.get? p = none
  /-- The zeroing is the one unchecked call: it is known to act only if it succeeds. -/
  zeroed : cuda.Succeeds → ∀ handle offset, w'.driver.memory handle offset =
    if w'.driver.shows alloc.vaPtr alloc.totalBytes handle offset then 0
    else w.driver.memory handle offset

/-- A raising allocation registers nothing; at most its reservation stays behind,
    with pages of that range half mapped. -/
def AllocationLeftovers (cuda : Cuda) (w w' : AllocatorState) : Prop :=
  w'.allocations = w.allocations ∧
    (w'.driver.reserved = w.driver.reserved ∧ w'.driver.pages = w.driver.pages ∨
      ∃ va size, w'.driver.reserved = (va, size) :: w.driver.reserved ∧
        (cuda.Lawful → ∀ r ∈ w.driver.reserved, RangesDisjoint (va, size) r) ∧
        ∀ p, inRange va size p = false → w'.driver.pages.get? p = w.driver.pages.get? p)

/-- The pages of an allocation start inside its range. -/
theorem pageVa_inRange {alloc : VMMAllocation}
    (hsized : alloc.handles.length * alloc.pageSize = alloc.totalBytes) {i : Nat}
    (hi : i < alloc.handles.length) :
    alloc.vaPtr ≤ alloc.pageVa i ∧ alloc.pageVa i + alloc.pageSize ≤
      alloc.vaPtr + alloc.totalBytes := by
  rw [← hsized]
  exact page_bounds _ _ hi

/-- The tail of an allocation: access, zeroing and registration. -/
theorem Allocated.of_chunksMapped {sizeBytes : Nat} {deviceId : DeviceId}
    {w w' : AllocatorState} {s₀ s₁ s₂ : DriverState} {alloc : VMMAllocation}
    (hpage : 0 < alloc.pageSize)
    (hsized : alloc.handles.length * alloc.pageSize = alloc.totalBytes)
    (hcovers : sizeBytes ≤ alloc.totalBytes)
    (htensor : alloc.tensor = some ⟨alloc.vaPtr, sizeBytes, deviceId⟩)
    (hsame : SameDriver w.driver s₀)
    (hva : alloc.vaPtr = cuda.pickVa s₀ alloc.totalBytes)
    (hreserve : s₁ =
      { cuda.effect s₀ (.cuMemAddressReserve alloc.totalBytes) with
        calls := s₀.calls + 1 })
    (hchunks : ChunksMapped cuda alloc.vaPtr alloc.pageSize alloc.handles s₁ s₂)
    (haccess : cuda.result s₂
      (.cuMemSetAccess alloc.vaPtr alloc.totalBytes deviceId) = 0)
    (hdriver : w'.driver = cuda.after (cuda.after s₂
      (.cuMemSetAccess alloc.vaPtr alloc.totalBytes deviceId))
      (.cudaMemset alloc.vaPtr 0 alloc.totalBytes))
    (hallocations : w'.allocations = w.allocations.set alloc.vaPtr alloc) :
    Allocated cuda sizeBytes deviceId w w' alloc := by
  -- the unchecked zeroing touches nothing but the bytes
  have hmemset : ∀ s : DriverState, ∃ memory,
      cuda.after s (.cudaMemset alloc.vaPtr 0 alloc.totalBytes) =
        { s with memory, calls := s.calls + 1 } := by
    intro s
    by_cases h : cuda.result s (.cudaMemset alloc.vaPtr 0 alloc.totalBytes) = 0
    · exact ⟨_, Cuda.after_of_result h⟩
    · exact ⟨s.memory, Cuda.after_of_failure h⟩
  rw [Cuda.after_of_result haccess] at hdriver
  obtain ⟨memory, hmemory⟩ := hmemset
    { cuda.effect s₂ (.cuMemSetAccess alloc.vaPtr alloc.totalBytes deviceId) with
      calls := s₂.calls + 1 }
  have hfields := hdriver.trans hmemory
  have hpages : w'.driver.pages = s₂.pages.mapValues fun start page =>
      if inRange alloc.vaPtr alloc.totalBytes start then
        { page with access := deviceId :: page.access } else page := by
    rw [hfields]; rfl
  have hreserved₁ : s₁.reserved = (alloc.vaPtr, alloc.totalBytes) :: w.driver.reserved := by
    rw [hreserve, hva, ← hsame]; rfl
  have hlive₁ : s₁.live = w.driver.live := by rw [hreserve, ← hsame]; rfl
  refine
    { registered := hallocations
      tensor := htensor
      pageSize_pos := hpage
      sized := hsized
      covers := hcovers
      reserved := by rw [hfields]; exact hchunks.reserved.trans hreserved₁
      disjoint := ?disjoint
      live := by rw [hfields, ← hlive₁]; exact hchunks.live
      liveNodup := ?liveNodup
      created := by
        rw [hfields]; refine hchunks.created.trans ?_; rw [hreserve, ← hsame]; rfl
      createdSizes := by
        rw [hfields]; refine hchunks.createdSizes.trans ?_; rw [hreserve, ← hsame]; rfl
      released := by
        rw [hfields]; refine hchunks.released.trans ?_; rw [hreserve, ← hsame]; rfl
      mapped := ?mapped
      others := ?others
      nothingElse := ?nothingElse
      zeroed := ?zeroed }
  case disjoint =>
    intro hlawful r hr
    have hr₀ : r ∈ s₀.reserved := by rw [← hsame]; exact hr
    rw [hva]
    exact hlawful.reserve_disjoint _ _ r hr₀
  case liveNodup =>
    intro hlawful hnodup
    rw [hfields]
    exact hchunks.liveNodup hlawful (by rw [hlive₁]; exact hnodup)
  case mapped =>
    intro i handle hi
    have hlt : i < alloc.handles.length := (List.getElem?_eq_some_iff.mp hi).1
    have hbounds := pageVa_inRange hsized hlt
    have hin : inRange alloc.vaPtr alloc.totalBytes (alloc.pageVa i) = true := by
      rw [inRange_iff]
      omega
    have hchunk : s₂.pages.get? (alloc.pageVa i) = _ := hchunks.mapped i handle hi
    rw [hpages, Dict.get?_mapValues, hchunk, Option.map_some, if_pos hin]
  case others =>
    intro p hp
    have hold : s₂.pages.get? p = w.driver.pages.get? p := by
      refine (hchunks.others p fun i hi heq => ?_).trans ?_
      · have hbounds := pageVa_inRange hsized hi
        have hin : inRange alloc.vaPtr alloc.totalBytes p = true := by
          rw [inRange_iff, heq]
          unfold VMMAllocation.pageVa at hbounds
          omega
        rw [hp] at hin
        cases hin
      · rw [hreserve, ← hsame]; rfl
    rw [hpages, Dict.get?_mapValues, hold]
    cases w.driver.pages.get? p <;> simp [hp]
  case nothingElse =>
    intro p hp hnone
    have hold : s₂.pages.get? p = w.driver.pages.get? p := by
      refine (hchunks.others p hp).trans ?_
      rw [hreserve, ← hsame]; rfl
    rw [hpages, Dict.get?_mapValues, hold, hnone, Option.map_none]
  case zeroed =>
    intro hsucceeds handle offset
    have hmem₂ : s₂.memory = w.driver.memory := by
      refine hchunks.memory.trans ?_
      rw [hreserve, ← hsame]; rfl
    have hrun := hdriver.trans (Cuda.after_of_result (hsucceeds _ _))
    have hshows : w'.driver.shows alloc.vaPtr alloc.totalBytes handle offset =
        DriverState.shows
          { cuda.effect s₂ (.cuMemSetAccess alloc.vaPtr alloc.totalBytes deviceId) with
            calls := s₂.calls + 1 } alloc.vaPtr alloc.totalBytes handle offset := by
      unfold DriverState.shows
      rw [hpages]; rfl
    rw [hshows, hrun, ← hmem₂]
    rfl

/-- **Allocation.**  It returns the tensor it registered, or raises with nothing
    registered. -/
theorem allocateVmmKvCache_spec (sizeBytes : Nat) (device : Device) :
    wp (allocateVmmKvCache cuda sizeBytes device)
      (fun t w' => ∃ alloc, Allocated cuda sizeBytes (device.index.getD 0) w w' alloc ∧
        t = ⟨alloc.vaPtr, sizeBytes, device.index.getD 0⟩)
      (fun _ w' => AllocationLeftovers cuda w w') w := by
  unfold allocateVmmKvCache
  simp only [wp_bind]
  refine wp_mono_of_returns (ensureDriverContext_spec _) ?_
  rintro - w₁ ⟨halloc₁, hsame₁⟩
  simp only [wp_cuMemGetAllocationGranularity, wp_check]
  have hsame₂ : SameDriver w.driver (cuda.after w₁.driver
      (.cuMemGetAllocationGranularity (device.index.getD 0))) :=
    hsame₁.trans (sameDriver_after _ rfl)
  obtain ⟨k, hk, hcovers⟩ := alignedSizeOf_eq sizeBytes
    (pageSizeOf_pos (cuda.granularity w₁.driver (device.index.getD 0)))
  generalize alignedSizeOf sizeBytes _ = alignedSize at hk ⊢
  have hcovered : sizeBytes ≤ alignedSize := by omega
  generalize cuda.after w₁.driver _ = s₂ at hsame₂ ⊢
  have hreserved₂ : s₂.reserved = w.driver.reserved := by rw [← hsame₂]
  have hpages₂ : s₂.pages = w.driver.pages := by rw [← hsame₂]
  refine ⟨fun _ => ?_, fun _ => ⟨halloc₁, Or.inl ⟨hreserved₂, hpages₂⟩⟩⟩
  simp only [wp_cuMemAddressReserve]
  refine ⟨fun hreserve => ?_, fun hreserve => ⟨halloc₁, Or.inl ?_⟩⟩
  · -- once reserved, every failure leaves the reservation behind
    have hleft₃ : ∀ w' : AllocatorState, w'.allocations = w₁.allocations →
        ChunksAbandoned (cuda.pickVa s₂ alignedSize) alignedSize
          (cuda.after s₂ (.cuMemAddressReserve alignedSize)) w'.driver →
        AllocationLeftovers cuda w w' := by
      intro w' hallocations habandoned
      rw [Cuda.after_of_result hreserve] at habandoned
      refine ⟨hallocations.trans halloc₁, Or.inr ⟨cuda.pickVa s₂ alignedSize, alignedSize,
        habandoned.reserved.trans (congrArg _ hreserved₂), ?_, ?_⟩⟩
      · intro hlawful r hr
        exact hlawful.reserve_disjoint _ _ r (by rw [hreserved₂]; exact hr)
      · intro p hp
        rw [habandoned.others p hp, ← hpages₂]
        rfl
    refine wp_mono (mapChunks_spec (pageSizeOf_pos _) k [] 0 _ (by omega)) ?_ ?_
    · rintro handles w₂ ⟨_, rfl, hlen, halloc₂, hchunks⟩
      simp only [wp_call, wp_modify, wp_pure]
      refine ⟨fun haccess => ⟨
        { vaPtr := cuda.pickVa s₂ alignedSize
          totalBytes := alignedSize
          pageSize := pageSizeOf (cuda.granularity w₁.driver (device.index.getD 0))
          handles
          tensor := some ⟨cuda.pickVa s₂ alignedSize, sizeBytes, device.index.getD 0⟩ },
        ?_, rfl⟩, fun haccess => ?_⟩
      · refine Allocated.of_chunksMapped (pageSizeOf_pos _) (by rw [hlen, hk])
          hcovered rfl hsame₂ rfl (Cuda.after_of_result hreserve) hchunks haccess rfl ?_
        rw [halloc₂, halloc₁]
      · refine hleft₃ _ halloc₂ ?_
        rw [Cuda.after_of_failure haccess]
        refine ⟨hchunks.reserved, fun p hp => hchunks.others p fun i hi heq => ?_⟩
        have hbounds := page_bounds (cuda.pickVa s₂ alignedSize + 0)
          (pageSizeOf (cuda.granularity w₁.driver (device.index.getD 0))) hi
        have hpos := pageSizeOf_pos (cuda.granularity w₁.driver (device.index.getD 0))
        rw [hlen, ← hk] at hbounds
        have hin : inRange (cuda.pickVa s₂ alignedSize) alignedSize p = true := by
          rw [inRange_iff, heq]
          omega
        rw [hp] at hin
        cases hin
    · rintro e w₂ ⟨halloc₂, habandoned⟩
      rw [← hk] at habandoned
      exact hleft₃ _ halloc₂ habandoned
  · rw [Cuda.after_of_failure hreserve]
    exact ⟨hreserved₂, hpages₂⟩

/-- With a driver whose calls succeed, the chunk loop does not raise. -/
theorem mapChunks_returns (hsucceeds : cuda.Succeeds) {deviceId va pageSize alignedSize : Nat}
    (hpage : 0 < pageSize) (handles : List Handle) (offset : Nat) (w : AllocatorState) :
    wp (mapChunks cuda deviceId va pageSize alignedSize hpage handles offset)
      (fun _ _ => True) (fun _ _ => False) w := by
  induction handles, offset using mapChunks.induct pageSize alignedSize hpage
    generalizing w with
  | case1 handles offset h chunk ih =>
    rw [mapChunks, dif_pos h]
    simp only [wp_bind, wp_cuMemCreate, wp_check, wp_call]
    exact ⟨fun _ => ⟨fun _ => ih _ _, fun h => h (hsucceeds _ _)⟩, fun h => h (hsucceeds _ _)⟩
  | case2 handles offset h =>
    rw [mapChunks, dif_neg h, wp_pure]
    trivial

theorem allocateVmmKvCache_returns (hsucceeds : cuda.Succeeds) (sizeBytes : Nat)
    (device : Device) (w : AllocatorState) :
    wp (allocateVmmKvCache cuda sizeBytes device) (fun _ _ => True) (fun _ _ => False) w := by
  unfold allocateVmmKvCache
  simp only [wp_bind]
  refine wp_mono_ok (ensureDriverContext_spec _) (fun _ w₁ _ => ?_)
  simp only [wp_cuMemGetAllocationGranularity, wp_check, wp_cuMemAddressReserve]
  refine ⟨fun _ => ⟨fun _ => ?_, fun h => h (hsucceeds _ _)⟩, fun h => h (hsucceeds _ _)⟩
  refine wp_mono_ok (mapChunks_returns hsucceeds _ _ _ _) (fun _ w₂ _ => ?_)
  simp only [wp_call, wp_modify, wp_pure, implies_true, true_and]
  exact fun h => h (hsucceeds _ _)

/-! ## 5. Remapping -/

/-- Two driver states that differ in the page table and the call counter only. -/
def SameButPages (s s' : DriverState) : Prop :=
  { s with pages := s'.pages, calls := s'.calls } = s'

/-- The block at `blockVa` is unmapped, every page outside it is as before. -/
def BlockUnmapped (blockVa pageSize : Nat) (s s' : DriverState) : Prop :=
  ∀ p, s'.pages.get? p = if inRange blockVa pageSize p then none else s.pages.get? p

/-- The block at `blockVa` is mapped to `handle` for the devices of `access`,
    every page outside it is as before. -/
def BlockMapped (blockVa pageSize : Nat) (handle : Handle) (access : List DeviceId)
    (s s' : DriverState) : Prop :=
  ∀ p, s'.pages.get? p =
    if p = blockVa then some ⟨pageSize, handle, access⟩
    else if inRange blockVa pageSize p then none else s.pages.get? p

theorem blockUnmapped_effect (cuda : Cuda) (blockVa pageSize : Nat) (s : DriverState) :
    BlockUnmapped blockVa pageSize s (cuda.effect s (.cuMemUnmap blockVa pageSize)) := by
  intro p
  simp only [Cuda.effect, Dict.get?_filterKeys]
  by_cases h : inRange blockVa pageSize p <;> simp [h]

theorem BlockUnmapped.map {blockVa pageSize : Nat} {s s₁ : DriverState} (cuda : Cuda)
    (h : BlockUnmapped blockVa pageSize s s₁) (handle : Handle) :
    BlockMapped blockVa pageSize handle [] s
      (cuda.effect s₁ (.cuMemMap blockVa pageSize handle)) := by
  intro p
  simp only [Cuda.effect, Dict.get?_set, h p]

/-- Granting access to the block's range reaches only the block. -/
theorem BlockMapped.setAccess {blockVa pageSize : Nat} {handle : Handle} {s s₂ : DriverState}
    (cuda : Cuda) (hpage : 0 < pageSize) (h : BlockMapped blockVa pageSize handle [] s s₂)
    (device : DeviceId) :
    BlockMapped blockVa pageSize handle [device] s
      (cuda.effect s₂ (.cuMemSetAccess blockVa pageSize device)) := by
  intro p
  simp only [Cuda.effect, Dict.get?_mapValues, h p]
  by_cases hp : p = blockVa
  · subst hp
    have hself : inRange p pageSize p = true := by
      rw [inRange_iff]
      omega
    simp [hself]
  · rw [if_neg hp, if_neg hp]
    by_cases hin : inRange blockVa pageSize p
    · simp [hin]
    · cases s.pages.get? p <;> simp [hin]

/-- The driver calls of a block swap, in order. -/
inductive SwapCall where
  | cuMemUnmap
  | cuMemMap
  | cuMemSetAccess
deriving DecidableEq, Repr

/-- The first driver call of a block swap that fails, if one does. -/
def Cuda.swapFailure (cuda : Cuda) (s : DriverState) (blockVa pageSize : Nat)
    (handle : Handle) : Option SwapCall :=
  let s₁ := cuda.after s (.cuMemUnmap blockVa pageSize)
  let s₂ := cuda.after s₁ (.cuMemMap blockVa pageSize handle)
  if cuda.result s (.cuMemUnmap blockVa pageSize) ≠ 0 then some .cuMemUnmap
  else if cuda.result s₁ (.cuMemMap blockVa pageSize handle) ≠ 0 then some .cuMemMap
  else if cuda.result s₂ (.cuMemSetAccess blockVa pageSize 0) ≠ 0 then some .cuMemSetAccess
  else none

/-- What a failing call of a swap leaves in the page table. -/
def SwapCall.leaves (blockVa pageSize : Nat) (handle : Handle) (s s' : DriverState) :
    SwapCall → Prop
  | .cuMemUnmap => s'.pages = s.pages
  | .cuMemMap => BlockUnmapped blockVa pageSize s s'
  | .cuMemSetAccess => BlockMapped blockVa pageSize handle [] s s'

/-- **The four ways a block swap ends.**  It returns with the block mapped and
    recorded; or it raises at the unmap with nothing changed, at the map with a
    hole, or at the access grant with the new handle mapped for no device — and
    in all three cases with the registry as it was. -/
theorem swapBlock_run (tensor : Tensor) (alloc : VMMAllocation) (block : Nat)
    (handle : Handle) :
    wp (swapBlock cuda tensor alloc block handle)
      (fun old w' =>
        cuda.swapFailure w.driver (alloc.pageVa block) alloc.pageSize handle = none ∧
        old = alloc.handles.getD block 0 ∧
        w'.allocations = w.allocations.set tensor.dataPtr
          { alloc with handles := alloc.handles.set block handle } ∧
        SameButPages w.driver w'.driver ∧
        (0 < alloc.pageSize →
          BlockMapped (alloc.pageVa block) alloc.pageSize handle [0] w.driver w'.driver))
      (fun e w' => ∃ failed,
        cuda.swapFailure w.driver (alloc.pageVa block) alloc.pageSize handle = some failed ∧
        (∃ msg, e = .runtimeError msg) ∧ w'.allocations = w.allocations ∧
        SameButPages w.driver w'.driver ∧
        failed.leaves (alloc.pageVa block) alloc.pageSize handle w.driver w'.driver) w := by
  unfold swapBlock Cuda.swapFailure
  simp only [wp_bind, wp_call, wp_check, wp_modify, wp_pure]
  have hhole := blockUnmapped_effect cuda (alloc.pageVa block) alloc.pageSize w.driver
  refine ⟨fun hunmap => ⟨fun hmap => ⟨fun haccess => ?_, fun haccess => ?_⟩, fun hmap => ?_⟩,
    fun hunmap => ?_⟩
  · refine ⟨by simp [hunmap, hmap, haccess], trivial, trivial, ?_⟩
    rw [Cuda.after_of_result haccess, Cuda.after_of_result hmap, Cuda.after_of_result hunmap]
    exact ⟨rfl, fun hpage => (hhole.map cuda handle).setAccess cuda hpage 0⟩
  · refine ⟨.cuMemSetAccess, by simp [hunmap, hmap, haccess], ⟨_, rfl⟩, trivial, ?_⟩
    rw [Cuda.after_of_failure haccess, Cuda.after_of_result hmap, Cuda.after_of_result hunmap]
    exact ⟨rfl, hhole.map cuda handle⟩
  · refine ⟨.cuMemMap, by simp [hunmap, hmap], ⟨_, rfl⟩, trivial, ?_⟩
    rw [Cuda.after_of_failure hmap, Cuda.after_of_result hunmap]
    exact ⟨rfl, hhole⟩
  · refine ⟨.cuMemUnmap, by simp [hunmap], ⟨_, rfl⟩, trivial, ?_⟩
    rw [Cuda.after_of_failure hunmap]
    exact ⟨rfl, rfl⟩

theorem swapBlock_returns (hsucceeds : cuda.Succeeds) (tensor : Tensor) (alloc : VMMAllocation)
    (block : Nat) (handle : Handle) (w : AllocatorState) :
    wp (swapBlock cuda tensor alloc block handle) (fun _ _ => True) (fun _ _ => False) w := by
  unfold swapBlock
  simp only [wp_bind, wp_call, wp_check, wp_modify, wp_pure, implies_true, true_and]
  exact ⟨fun _ => ⟨fun _ h => h (hsucceeds _ _), fun h => h (hsucceeds _ _)⟩,
    fun h => h (hsucceeds _ _)⟩

/-- A remap of an unknown tensor or of a block out of range raises at once. -/
theorem remapBlock_rejects {tensor : Tensor} {blockId : Int} {handle : Handle}
    (h : ∀ alloc, getVmmAllocation w tensor = some alloc →
      blockId < 0 ∨ blockId ≥ alloc.numPages) :
    ∃ msg, remapBlock cuda tensor blockId handle w = .error (.valueError msg) w := by
  unfold remapBlock
  rw [run_get_bind]
  cases hget : getVmmAllocation w tensor with
  | none => exact ⟨_, run_throw _ _⟩
  | some alloc =>
    simp only [if_pos (h alloc hget)]
    exact ⟨_, run_throw _ _⟩

/-- A remap of a registered block in range is a swap of that block. -/
theorem remapBlock_accepts {tensor : Tensor} {alloc : VMMAllocation} {block : Nat}
    (handle : Handle) (hget : getVmmAllocation w tensor = some alloc)
    (hblock : block < alloc.numPages) :
    remapBlock cuda tensor block handle w = swapBlock cuda tensor alloc block handle w := by
  have hrange : ¬ ((block : Int) < 0 ∨ (block : Int) ≥ alloc.numPages) := by omega
  unfold remapBlock
  rw [run_get_bind, hget]
  simp only [if_neg hrange, Int.toNat_natCast]

theorem remapBlock_cases (cuda : Cuda) (w : AllocatorState) (tensor : Tensor) (blockId : Int)
    (handle : Handle) :
    (∃ msg, remapBlock cuda tensor blockId handle w = .error (.valueError msg) w) ∨
    ∃ alloc, ∃ block : Nat, blockId = block ∧ getVmmAllocation w tensor = some alloc ∧
      block < alloc.numPages ∧
      remapBlock cuda tensor blockId handle w = swapBlock cuda tensor alloc block handle w := by
  by_cases h : ∀ alloc, getVmmAllocation w tensor = some alloc →
      blockId < 0 ∨ blockId ≥ alloc.numPages
  · exact Or.inl (remapBlock_rejects h)
  · push Not at h
    obtain ⟨alloc, hget, hlow, hhigh⟩ := h
    obtain ⟨block, rfl⟩ := Int.eq_ofNat_of_zero_le hlow
    exact Or.inr ⟨alloc, block, rfl, hget, by omega, remapBlock_accepts handle hget (by omega)⟩

/-! ## 6. Handles and freeing -/

theorem createPhysicalHandle_spec (sizeBytes : Nat) (deviceId : DeviceId) :
    wp (createPhysicalHandle cuda sizeBytes deviceId)
      (fun handle w' => w'.allocations = w.allocations ∧
        (cuda.Lawful → handle ∉ w.driver.live) ∧
        { w.driver with
          live := handle :: w.driver.live
          created := w.driver.created ++ [handle]
          createdSizes := w.driver.createdSizes ++ [sizeBytes]
          calls := w'.driver.calls } = w'.driver)
      (fun _ w' => w'.allocations = w.allocations ∧ SameDriver w.driver w'.driver) w := by
  unfold createPhysicalHandle
  simp only [wp_bind]
  refine wp_mono_of_returns (ensureDriverContext_spec _) ?_
  rintro - w₁ ⟨halloc₁, hsame₁⟩
  simp only [wp_cuMemCreate, wp_check, wp_pure]
  refine ⟨fun hcreate => ⟨halloc₁, fun hlawful => ?_, ?_⟩, fun hcreate => ⟨halloc₁, ?_⟩⟩
  · have hfresh := hlawful.create_fresh w₁.driver
    rwa [← hsame₁] at hfresh ⊢
  · rw [Cuda.after_of_result hcreate, ← hsame₁]
    rfl
  · rw [Cuda.after_of_failure hcreate]
    exact hsame₁.trans rfl

theorem createPhysicalHandle_returns (hsucceeds : cuda.Succeeds) (sizeBytes : Nat)
    (deviceId : DeviceId) (w : AllocatorState) :
    wp (createPhysicalHandle cuda sizeBytes deviceId) (fun _ _ => True) (fun _ _ => False) w := by
  unfold createPhysicalHandle
  simp only [wp_bind]
  refine wp_mono_ok (ensureDriverContext_spec _) (fun _ w₁ _ => ?_)
  simp only [wp_cuMemCreate, wp_check, wp_pure, implies_true, true_and]
  exact fun h => h (hsucceeds _ _)

/-- Two driver states that differ in the handles released and the call counter only. -/
def SameButReleases (s s' : DriverState) : Prop :=
  { s with live := s'.live, released := s'.released, calls := s'.calls } = s'

theorem releasePhysicalHandle_spec (handle : Handle) :
    wp (releasePhysicalHandle cuda handle)
      (fun _ w' => w'.allocations = w.allocations ∧ SameButReleases w.driver w'.driver ∧
        w'.driver.live = w.driver.live.erase handle ∧
        w'.driver.released = w.driver.released ++ [handle])
      (fun _ w' => w'.allocations = w.allocations ∧ SameDriver w.driver w'.driver) w := by
  unfold releasePhysicalHandle
  simp only [wp_bind, wp_call, wp_check]
  refine ⟨fun h => ?_, fun h => ?_⟩
  · rw [Cuda.after_of_result h]
    exact ⟨trivial, rfl, rfl, rfl⟩
  · rw [Cuda.after_of_failure h]
    exact ⟨trivial, rfl⟩

theorem releasePhysicalHandle_returns (hsucceeds : cuda.Succeeds) (handle : Handle)
    (w : AllocatorState) :
    wp (releasePhysicalHandle cuda handle) (fun _ _ => True) (fun _ _ => False) w := by
  unfold releasePhysicalHandle
  simp only [wp_bind, wp_call, wp_check, implies_true, true_and]
  exact fun h => h (hsucceeds _ _)

/-- The release loop of `free_vmm_kv_cache`, which drops the result codes. -/
theorem releaseHandles_spec (handles : List Handle) :
    ∀ w : AllocatorState, wp (releaseHandles cuda handles)
      (fun _ w' => w'.allocations = w.allocations ∧ SameButReleases w.driver w'.driver ∧
        (cuda.Succeeds → w'.driver.live = w.driver.live.diff handles ∧
          w'.driver.released = w.driver.released ++ handles))
      (fun _ _ => False) w := by
  induction handles with
  | nil =>
    intro w
    simp only [releaseHandles, wp_pure]
    exact ⟨trivial, rfl, fun _ => ⟨rfl, by simp⟩⟩
  | cons handle rest ih =>
    intro w
    simp only [releaseHandles, wp_bind, wp_call]
    refine wp_mono_ok (ih _) ?_
    rintro - w' ⟨halloc, hsame, hexact⟩
    refine ⟨halloc, ?_, fun hsucceeds => ?_⟩
    · by_cases h : cuda.result w.driver (.cuMemRelease handle) = 0
      · rw [Cuda.after_of_result h] at hsame
        exact hsame
      · rw [Cuda.after_of_failure h] at hsame
        exact hsame
    · obtain ⟨hlive, hreleased⟩ := hexact hsucceeds
      rw [hsucceeds.after_eq] at hlive hreleased
      rw [hlive, hreleased, List.diff_cons]
      exact ⟨rfl, by simp [Cuda.effect]⟩

/-- Freeing a tensor that is not registered does nothing. -/
theorem freeVmmKvCache_unregistered {tensor : Tensor} (h : getVmmAllocation w tensor = none) :
    freeVmmKvCache cuda tensor w = .ok ⟨⟩ w := by
  unfold freeVmmKvCache
  rw [run_get_bind, h]
  exact run_pure _ _

/-- **Freeing.**  The registration always goes; whether the range was unmapped,
    the handles released and the reservation returned depends on driver calls
    whose results are dropped. -/
theorem freeVmmKvCache_spec {tensor : Tensor} {alloc : VMMAllocation}
    (hget : getVmmAllocation w tensor = some alloc) :
    wp (freeVmmKvCache cuda tensor)
      (fun _ w' => w'.allocations = w.allocations.erase tensor.dataPtr ∧
        (w'.driver.reserved = w.driver.reserved ∨
          w'.driver.reserved = w.driver.reserved.erase (alloc.vaPtr, alloc.totalBytes)) ∧
        (∀ p, inRange alloc.vaPtr alloc.totalBytes p = false →
          w'.driver.pages.get? p = w.driver.pages.get? p) ∧
        (cuda.Succeeds →
          { w.driver with
            live := w.driver.live.diff alloc.handles
            released := w.driver.released ++ alloc.handles
            pages := w.driver.pages.filterKeys fun start =>
              !inRange alloc.vaPtr alloc.totalBytes start
            reserved := w.driver.reserved.erase (alloc.vaPtr, alloc.totalBytes)
            calls := w'.driver.calls } = w'.driver))
      (fun _ _ => False) w := by
  unfold freeVmmKvCache
  simp only [wp_bind, wp_get, hget, wp_modify, wp_call]
  refine wp_mono_ok (releaseHandles_spec alloc.handles _) ?_
  rintro - w₁ ⟨halloc, hsame, hexact⟩
  simp only [wp_pure]
  refine ⟨halloc, ?_, fun p hp => ?_, fun hsucceeds => ?_⟩
  · have hreserved : w₁.driver.reserved = w.driver.reserved := by
      rw [← hsame]
      by_cases h : cuda.result w.driver (.cuMemUnmap alloc.vaPtr alloc.totalBytes) = 0
      · rw [Cuda.after_of_result h]; rfl
      · rw [Cuda.after_of_failure h]
    by_cases h : cuda.result w₁.driver (.cuMemAddressFree alloc.vaPtr alloc.totalBytes) = 0
    · rw [Cuda.after_of_result h, ← hreserved]
      exact Or.inr rfl
    · rw [Cuda.after_of_failure h]
      exact Or.inl hreserved
  · have hpages : (cuda.after w₁.driver
        (.cuMemAddressFree alloc.vaPtr alloc.totalBytes)).pages = w₁.driver.pages := by
      by_cases h : cuda.result w₁.driver (.cuMemAddressFree alloc.vaPtr alloc.totalBytes) = 0
      · rw [Cuda.after_of_result h]; rfl
      · rw [Cuda.after_of_failure h]
    rw [hpages, ← hsame]
    by_cases h : cuda.result w.driver (.cuMemUnmap alloc.vaPtr alloc.totalBytes) = 0
    · rw [Cuda.after_of_result h]
      simp only [Cuda.effect, Dict.get?_filterKeys, hp, Bool.not_false, if_true]
    · rw [Cuda.after_of_failure h]
  · obtain ⟨hlive, hreleased⟩ := hexact hsucceeds
    rw [hsucceeds.after_eq] at hsame hlive hreleased ⊢
    rw [← hsame, hlive, hreleased]
    rfl

/-! ## 7. One call, driver calls succeeding -/

/-- What a call did, and the handle it handed to its caller. -/
inductive Effect (cuda : Cuda) (w w' : AllocatorState) : AllocatorOp → Option Handle → Prop
  | allocated {sizeBytes : ℕ+} {device : Device} {alloc : VMMAllocation}
      (h : Allocated cuda sizeBytes (device.index.getD 0) w w' alloc) :
      Effect cuda w w' (.allocateVmmKvCache sizeBytes device) none
  | created {sizeBytes : Nat} {deviceId : DeviceId} {handle : Handle}
      (allocations : w'.allocations = w.allocations)
      (fresh : cuda.Lawful → handle ∉ w.driver.live)
      (driver : { w.driver with
        live := handle :: w.driver.live
        created := w.driver.created ++ [handle]
        createdSizes := w.driver.createdSizes ++ [sizeBytes]
        calls := w'.driver.calls } = w'.driver) :
      Effect cuda w w' (.createPhysicalHandle sizeBytes deviceId) (some handle)
  | remapped {tensor : Tensor} {alloc : VMMAllocation} {block : Nat} {old handle : Handle}
      (registered : w.allocations.get? tensor.dataPtr = some alloc)
      (installed : alloc.handles[block]? = some old)
      (allocations : w'.allocations = w.allocations.set tensor.dataPtr
        { alloc with handles := alloc.handles.set block handle })
      (driver : SameButPages w.driver w'.driver)
      (pages : 0 < alloc.pageSize →
        BlockMapped (alloc.pageVa block) alloc.pageSize handle [0] w.driver w'.driver) :
      Effect cuda w w' (.remapBlock tensor block handle) (some old)
  | released {handle : Handle} (allocations : w'.allocations = w.allocations)
      (driver : SameButReleases w.driver w'.driver)
      (live : w'.driver.live = w.driver.live.erase handle)
      (released : w'.driver.released = w.driver.released ++ [handle]) :
      Effect cuda w w' (.releasePhysicalHandle handle) none
  | unregistered {tensor : Tensor} (same : w' = w) : Effect cuda w w' (.freeVmmKvCache tensor) none
  | freed {tensor : Tensor} {alloc : VMMAllocation}
      (registered : w.allocations.get? tensor.dataPtr = some alloc)
      (allocations : w'.allocations = w.allocations.erase tensor.dataPtr)
      (driver : { w.driver with
        live := w.driver.live.diff alloc.handles
        released := w.driver.released ++ alloc.handles
        pages := w.driver.pages.filterKeys fun start =>
          !inRange alloc.vaPtr alloc.totalBytes start
        reserved := w.driver.reserved.erase (alloc.vaPtr, alloc.totalBytes)
        calls := w'.driver.calls } = w'.driver) :
      Effect cuda w w' (.freeVmmKvCache tensor) none

/-- **One call, driver calls succeeding.**  It has its effect, or it is a remap
    that was rejected and changed nothing. -/
theorem AllocatorOp.exec_effect (hsucceeds : cuda.Succeeds) (op : AllocatorOp) :
    wp (op.exec cuda) (fun given w' => Effect cuda w w' op given)
      (fun _ w' => w' = w ∧ ∃ tensor blockId handle, op = .remapBlock tensor blockId handle) w := by
  cases op with
  | allocateVmmKvCache sizeBytes device =>
    simp only [AllocatorOp.exec, wp_bind, wp_pure]
    refine wp_mono (wp_and_returns (allocateVmmKvCache_spec _ _)
      (allocateVmmKvCache_returns hsucceeds _ _ _)) ?_ (fun _ _ h => h.elim)
    rintro t w' ⟨alloc, halloc, -⟩
    exact .allocated halloc
  | createPhysicalHandle sizeBytes deviceId =>
    simp only [AllocatorOp.exec, wp_bind, wp_pure]
    refine wp_mono (wp_and_returns (createPhysicalHandle_spec _ _)
      (createPhysicalHandle_returns hsucceeds _ _ _)) ?_ (fun _ _ h => h.elim)
    rintro handle w' ⟨hallocations, hfresh, hdriver⟩
    exact .created hallocations hfresh hdriver
  | remapBlock tensor blockId handle =>
    simp only [AllocatorOp.exec, wp_bind, wp_pure]
    rcases remapBlock_cases cuda w tensor blockId handle with
      ⟨msg, hrun⟩ | ⟨alloc, block, rfl, hget, hblock, hrun⟩
    · unfold wp
      rw [hrun]
      exact ⟨rfl, tensor, blockId, handle, rfl⟩
    · rw [wp_congr hrun]
      refine wp_mono (wp_and_returns (swapBlock_run tensor alloc block handle)
        (swapBlock_returns hsucceeds _ _ _ _ _)) ?_ (fun _ _ h => h.elim)
      rintro old w' ⟨-, rfl, hallocations, hdriver, hpages⟩
      have hold : alloc.handles[block]? = some (alloc.handles.getD block 0) := by
        rw [List.getD_eq_getElem?_getD, List.getElem?_eq_getElem hblock, Option.getD_some]
      exact .remapped hget hold hallocations hdriver hpages
  | releasePhysicalHandle handle =>
    simp only [AllocatorOp.exec, wp_bind, wp_pure]
    refine wp_mono (wp_and_returns (releasePhysicalHandle_spec _)
      (releasePhysicalHandle_returns hsucceeds _ _)) ?_ (fun _ _ h => h.elim)
    rintro - w' ⟨hallocations, hdriver, hlive, hreleased⟩
    exact .released hallocations hdriver hlive hreleased
  | freeVmmKvCache tensor =>
    simp only [AllocatorOp.exec, wp_bind, wp_pure]
    cases hget : getVmmAllocation w tensor with
    | none =>
      unfold wp
      rw [freeVmmKvCache_unregistered hget]
      exact .unregistered rfl
    | some alloc =>
      refine wp_mono_of_returns (freeVmmKvCache_spec hget) ?_
      rintro - w' ⟨hallocations, -, -, hdriver⟩
      exact .freed hget hallocations (hdriver hsucceeds)

end Edmm
