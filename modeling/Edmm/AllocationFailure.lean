/-
  Edmm/AllocationFailure.lean
  ===========================
  **Allocating a KV cache while driver calls fail.**

  `allocate_vmm_kv_cache` reserves a range, creates and maps one handle after another,
  grants access and zeroes, and undoes nothing when one of these calls fails.  So
  an allocation that raises registers nothing, but it can leave its reservation and
  any number of handles behind (`allocateVmmKvCache_not_atomic`).
  `allocateVmmKvCache_outcome` says what stays, by the call that failed, which is
  the one the message names.

  The result of the zeroing is dropped: an allocation that returns is zeroed if
  that call succeeded, and otherwise holds what the memory held before.
-/
import Edmm.RemapFailure

namespace Edmm

open Program

variable {cuda : Cuda} {w w' : AllocatorState}

/-! ## 1. The calls before the zeroing -/

/-- `allocate_vmm_kv_cache` up to its zeroing: the range, mapped and accessible. -/
def allocateRegion (cuda : Cuda) (sizeBytes : Nat) (device : Device) : AllocM VMMAllocation := do
  let deviceId := device.index.getD 0
  ensureDriverContext cuda deviceId
  let (result, granularity) ← cuMemGetAllocationGranularity cuda deviceId
  check result "cuMemGetAllocationGranularity"
  let pageSize := pageSizeOf granularity
  let alignedSize := alignedSizeOf sizeBytes pageSize
  let (result, va) ← cuMemAddressReserve cuda alignedSize
  check result "cuMemAddressReserve"
  let handles ← mapChunks cuda deviceId va pageSize alignedSize (pageSizeOf_pos _) [] 0
  let result ← call cuda (.cuMemSetAccess va alignedSize deviceId)
  check result "cuMemSetAccess"
  return {
    vaPtr := va
    totalBytes := alignedSize
    pageSize
    handles
    tensor := some { dataPtr := va, nbytes := sizeBytes, device := deviceId } }

/-- The zeroing, whose result is dropped, and the registration. -/
def zeroAndRegister (cuda : Cuda) (sizeBytes : Nat) (device : Device) (alloc : VMMAllocation) :
    AllocM Tensor := do
  let _ ← call cuda (.cudaMemset alloc.vaPtr 0 alloc.totalBytes)
  modify fun w => { w with allocations := w.allocations.set alloc.vaPtr alloc }
  return { dataPtr := alloc.vaPtr, nbytes := sizeBytes, device := device.index.getD 0 }

theorem allocateVmmKvCache_eq (cuda : Cuda) (sizeBytes : Nat) (device : Device) :
    allocateVmmKvCache cuda sizeBytes device =
      allocateRegion cuda sizeBytes device >>= zeroAndRegister cuda sizeBytes device := by
  unfold allocateVmmKvCache allocateRegion
  simp only [bind_assoc, pure_bind]
  rfl

/-- An allocation that returned: its region, and the state that the zeroing met. -/
theorem allocateVmmKvCache_ok {sizeBytes : Nat} {device : Device} {t : Tensor}
    (h : allocateVmmKvCache cuda sizeBytes device w = .ok t w') :
    ∃ alloc w₁, allocateRegion cuda sizeBytes device w = .ok alloc w₁ ∧
      t = ⟨alloc.vaPtr, sizeBytes, device.index.getD 0⟩ ∧
      w'.driver = cuda.after w₁.driver (.cudaMemset alloc.vaPtr 0 alloc.totalBytes) ∧
      w'.allocations = w₁.allocations.set alloc.vaPtr alloc := by
  rw [allocateVmmKvCache_eq] at h
  cases hrun : allocateRegion cuda sizeBytes device w with
  | error e w₁ =>
    rw [run_bind_error hrun] at h
    cases h
  | ok alloc w₁ =>
    rw [run_bind_ok hrun] at h
    cases h
    exact ⟨alloc, w₁, rfl, rfl, rfl, rfl⟩

section Keeps

variable {I : AllocatorState → Prop}
  (hcall : ∀ c, (∀ va value size, c ≠ .cudaMemset va value size) → Keeps I (call cuda c))

theorem keeps_check (result : Nat) (msg : String) : Keeps I (check result msg) :=
  Keeps.ite (Keeps.throw _) (Keeps.pure _)

include hcall

theorem keeps_ensureDriverContext (deviceId : DeviceId) :
    Keeps I (ensureDriverContext cuda deviceId) :=
  (hcall _ (by simp)).bind fun _ => (hcall _ (by simp)).bind fun _ =>
    (hcall _ (by simp)).bind fun _ => Keeps.pure _

theorem keeps_cuMemCreate (size : Nat) (device : DeviceId) :
    Keeps I (cuMemCreate cuda size device) :=
  Keeps.get.bind fun _ => (hcall _ (by simp)).bind fun _ => Keeps.pure _

theorem keeps_mapChunks {deviceId va pageSize alignedSize : Nat} (hpage : 0 < pageSize)
    (handles : List Handle) (offset : Nat) :
    Keeps I (mapChunks cuda deviceId va pageSize alignedSize hpage handles offset) := by
  induction handles, offset using mapChunks.induct pageSize alignedSize hpage with
  | case1 handles offset h chunk ih =>
    rw [mapChunks, dif_pos h]
    refine (keeps_cuMemCreate hcall _ _).bind ?_
    rintro ⟨result, handle⟩
    exact (keeps_check _ _).bind fun _ => (hcall _ (by simp)).bind fun _ =>
      (keeps_check _ _).bind fun _ => ih handle
  | case2 handles offset h =>
    rw [mapChunks, dif_neg h]
    exact Keeps.pure _

/-- What every driver call but the zeroing keeps is kept up to the zeroing. -/
theorem keeps_allocateRegion (sizeBytes : Nat) (device : Device) :
    Keeps I (allocateRegion cuda sizeBytes device) := by
  refine (keeps_ensureDriverContext hcall _).bind fun _ => ?_
  refine (Keeps.get.bind fun _ => (hcall _ (by simp)).bind fun _ => Keeps.pure _).bind ?_
  rintro ⟨result, granularity⟩
  refine (keeps_check _ _).bind fun _ => ?_
  refine (Keeps.get.bind fun _ => (hcall _ (by simp)).bind fun _ => Keeps.pure _).bind ?_
  rintro ⟨result, va⟩
  refine (keeps_check _ _).bind fun _ => (keeps_mapChunks hcall _ _ _).bind fun handles => ?_
  exact (hcall _ (by simp)).bind fun _ => (keeps_check _ _).bind fun _ => Keeps.pure _

end Keeps

/-! ## 2. What a failed loop leaves -/

/-- The checked driver call that failed, with the offset at which it did. -/
inductive AllocationCall where
  | cuMemGetAllocationGranularity
  | cuMemAddressReserve
  | cuMemCreate (offset : Nat)
  | cuMemMap (offset : Nat)
  | cuMemSetAccess
deriving DecidableEq, Repr

def AllocationCall.msg : AllocationCall → String
  | .cuMemGetAllocationGranularity => "cuMemGetAllocationGranularity"
  | .cuMemAddressReserve => "cuMemAddressReserve"
  | .cuMemCreate offset => s!"cuMemCreate at offset {offset}"
  | .cuMemMap offset => s!"cuMemMap at offset {offset}"
  | .cuMemSetAccess => "cuMemSetAccess"

/-- What `_check` raises. -/
def AllocationCall.error (failed : AllocationCall) (code : Nat) : PyError :=
  .runtimeError s!"CUDA driver error {code}: {failed.msg}"

/-- The state `s` with one more live handle of that size. -/
def DriverState.withHandle (s : DriverState) (handle : Handle) (size : Nat) : DriverState :=
  { s with
    live := handle :: s.live
    created := s.created ++ [handle]
    createdSizes := s.createdSizes ++ [size] }

theorem SameDriver.pages {s s' : DriverState} (h : SameDriver s s') : s'.pages = s.pages := by
  rw [← h]

theorem sameDriver_after_failure {s : DriverState} {c : DriverCall} (h : cuda.result s c ≠ 0) :
    SameDriver s (cuda.after s c) := by
  rw [Cuda.after_of_failure h]
  rfl

/-- **The chunk loop, when it raises.**  Some of the `k` pages were mapped, and the
    next one has no handle or a handle that is not mapped. -/
theorem mapChunks_raises {deviceId va pageSize alignedSize : Nat} (hpage : 0 < pageSize) (k : Nat) :
    ∀ (handles : List Handle) (offset : Nat) (w : AllocatorState),
      offset + k * pageSize = alignedSize →
      wp (mapChunks cuda deviceId va pageSize alignedSize hpage handles offset)
        (fun _ _ => True)
        (fun e w' => w'.allocations = w.allocations ∧ ∃ mapped s code,
          mapped.length < k ∧ code ≠ 0 ∧
          ChunksMapped cuda (va + offset) pageSize mapped w.driver s ∧
          ((e = AllocationCall.error (.cuMemCreate (offset + mapped.length * pageSize)) code ∧
              SameDriver s w'.driver) ∨
            ∃ handle,
              e = AllocationCall.error (.cuMemMap (offset + mapped.length * pageSize)) code ∧
              SameDriver (s.withHandle handle pageSize) w'.driver)) w := by
  induction k with
  | zero =>
    intro handles offset w hk
    rw [mapChunks, dif_neg (by omega), wp_pure]
    trivial
  | succ k ih =>
    intro handles offset w hk
    rw [Nat.succ_mul] at hk
    have hchunk : min pageSize (alignedSize - offset) = pageSize := by omega
    rw [mapChunks, dif_pos (by omega), hchunk]
    simp only [wp_bind, wp_cuMemCreate, wp_check, wp_call]
    refine ⟨fun hcreate => ⟨fun hmap => ?_, fun hmap => ?_⟩, fun hcreate => ?_⟩
    · refine wp_mono (ih _ (offset + pageSize) _ (by omega)) (fun _ _ _ => trivial) ?_
      rintro e w' ⟨halloc, mapped, s, code, hlen, hcode, hmapped, hfailed⟩
      -- the first page, which was mapped, in front of the later ones
      refine ⟨halloc, cuda.pickHandle w.driver :: mapped, s, code, ?_, hcode, ?_, ?_⟩
      · exact Nat.succ_lt_succ hlen
      · rw [← Nat.add_assoc, Cuda.after_of_result hmap, Cuda.after_of_result hcreate] at hmapped
        exact ChunksMapped.cons hpage hmapped (fun hlawful => hlawful.create_fresh _)
          rfl rfl rfl rfl rfl rfl rfl
      · have hoffset : offset + (cuda.pickHandle w.driver :: mapped).length * pageSize =
            offset + pageSize + mapped.length * pageSize := by
          rw [List.length_cons, Nat.succ_mul]
          omega
        rw [hoffset]
        exact hfailed
    · refine ⟨trivial, [], w.driver, _, Nat.succ_pos k, hmap, ChunksMapped.nil _ _ _, Or.inr ?_⟩
      refine ⟨cuda.pickHandle w.driver, ?_, ?_⟩
      · rw [List.length_nil, Nat.zero_mul, Nat.add_zero]
        rfl
      · rw [Cuda.after_of_failure hmap, Cuda.after_of_result hcreate]
        rfl
    · refine ⟨trivial, [], w.driver, _, Nat.succ_pos k, hcreate, ChunksMapped.nil _ _ _, Or.inl ?_⟩
      refine ⟨?_, sameDriver_after_failure hcreate⟩
      rw [List.length_nil, Nat.zero_mul, Nat.add_zero]
      rfl

/-! ## 3. What a failed allocation leaves -/

/-- What stays of an allocation that raised after its reservation: the range, the
    pages that were mapped, without access, and the handles. -/
structure LeftBehind (s s' : DriverState) (va size pageSize : Nat)
    (mapped unmapped : List Handle) : Prop where
  reserved : s'.reserved = (va, size) :: s.reserved
  live : s'.live = unmapped ++ (mapped.reverse ++ s.live)
  created : s'.created = s.created ++ mapped ++ unmapped
  createdSizes : s'.createdSizes =
    s.createdSizes ++ List.replicate mapped.length pageSize ++ List.replicate unmapped.length pageSize
  released : s'.released = s.released
  memory : s'.memory = s.memory
  pages : ∀ i handle, mapped[i]? = some handle →
    s'.pages.get? (va + i * pageSize) = some ⟨pageSize, handle, []⟩
  others : ∀ p, (∀ i < mapped.length, p ≠ va + i * pageSize) → s'.pages.get? p = s.pages.get? p

/-- What the failure of this call leaves. -/
def AllocationCall.Leaves (failed : AllocationCall) (s s' : DriverState) : Prop :=
  match failed with
  | .cuMemGetAllocationGranularity | .cuMemAddressReserve => SameDriver s s'
  | .cuMemCreate offset => ∃ va size pageSize mapped,
      0 < pageSize ∧ offset = mapped.length * pageSize ∧ offset < size ∧
      LeftBehind s s' va size pageSize mapped []
  | .cuMemMap offset => ∃ va size pageSize mapped handle,
      0 < pageSize ∧ offset = mapped.length * pageSize ∧ offset < size ∧
      LeftBehind s s' va size pageSize mapped [handle]
  | .cuMemSetAccess => ∃ va size pageSize mapped,
      0 < pageSize ∧ mapped.length * pageSize = size ∧
      LeftBehind s s' va size pageSize mapped []

/-- The bytes of a new allocation: zero if the driver accepted the zeroing, whose
    result the source drops. -/
def ZeroedIfAccepted (cuda : Cuda) (alloc : VMMAllocation) (w w' : AllocatorState) : Prop :=
  ∃ s, w'.driver = cuda.after s (.cudaMemset alloc.vaPtr 0 alloc.totalBytes) ∧
    ∀ handle offset, w'.driver.memory handle offset =
      if cuda.result s (.cudaMemset alloc.vaPtr 0 alloc.totalBytes) = 0 ∧
          w'.driver.shows alloc.vaPtr alloc.totalBytes handle offset = true then 0
      else w.driver.memory handle offset

/-- A loop that stopped, behind the reservation it worked in. -/
theorem ChunksMapped.leftBehind {va size pageSize : Nat} {mapped : List Handle}
    {s s₁ s₂ s' : DriverState} (h : ChunksMapped cuda va pageSize mapped s₁ s₂)
    (unmapped : List Handle)
    (hreserved : s₁ = { s with reserved := (va, size) :: s.reserved, calls := s₁.calls })
    (hlast : SameDriver
      { s₂ with
        live := unmapped ++ s₂.live
        created := s₂.created ++ unmapped
        createdSizes := s₂.createdSizes ++ List.replicate unmapped.length pageSize } s') :
    LeftBehind s s' va size pageSize mapped unmapped := by
  rw [hreserved] at h
  rw [← hlast]
  exact
    { reserved := h.reserved
      live := congrArg (unmapped ++ ·) h.live
      created := congrArg (· ++ unmapped) h.created
      createdSizes := congrArg (· ++ _) h.createdSizes
      released := h.released
      memory := h.memory
      pages := h.mapped
      others := h.others }

/-- The zeroing of a range writes the bytes that show in it, if the driver accepts it. -/
theorem memory_after_cudaMemset (s : DriverState) (va size : Nat) (handle : Handle)
    (offset : Nat) :
    (cuda.after s (.cudaMemset va 0 size)).memory handle offset =
      if cuda.result s (.cudaMemset va 0 size) = 0 ∧
          (cuda.after s (.cudaMemset va 0 size)).shows va size handle offset = true then 0
      else s.memory handle offset := by
  by_cases hresult : cuda.result s (.cudaMemset va 0 size) = 0
  · rw [Cuda.after_of_result hresult]
    simp only [hresult, true_and]
    rfl
  · rw [Cuda.after_of_failure hresult, if_neg fun h => hresult h.1]

/-- Zeroing touches nothing but bytes. -/
theorem zeroedIfAccepted_of_memset {alloc : VMMAllocation} {s : DriverState}
    (hdriver : w'.driver = cuda.after s (.cudaMemset alloc.vaPtr 0 alloc.totalBytes))
    (hmemory : s.memory = w.driver.memory) : ZeroedIfAccepted cuda alloc w w' := by
  refine ⟨s, hdriver, fun handle offset => ?_⟩
  rw [hdriver, memory_after_cudaMemset, hmemory]

/-- The parts of an allocation that `allocateVmmKvCache_spec` leaves open. -/
theorem allocateVmmKvCache_failures (sizeBytes : Nat) (device : Device) :
    wp (allocateVmmKvCache cuda sizeBytes device)
      (fun t w' => ∃ alloc, w'.allocations.get? t.dataPtr = some alloc ∧
        ZeroedIfAccepted cuda alloc w w')
      (fun e w' => w'.allocations = w.allocations ∧ ∃ failed code, code ≠ 0 ∧
        e = AllocationCall.error failed code ∧ failed.Leaves w.driver w'.driver) w := by
  unfold allocateVmmKvCache
  simp only [wp_bind]
  refine wp_mono_of_returns (ensureDriverContext_spec _) ?_
  rintro - w₁ ⟨halloc₁, hsame₁⟩
  simp only [wp_cuMemGetAllocationGranularity, wp_check]
  have hsame₂ : SameDriver w.driver (cuda.after w₁.driver
      (.cuMemGetAllocationGranularity (device.index.getD 0))) :=
    hsame₁.trans (sameDriver_after _ rfl)
  have hpage := pageSizeOf_pos (cuda.granularity w₁.driver (device.index.getD 0))
  obtain ⟨k, hk, -⟩ := alignedSizeOf_eq sizeBytes hpage
  generalize alignedSizeOf sizeBytes _ = alignedSize at hk ⊢
  generalize cuda.after w₁.driver _ = s₂ at hsame₂ ⊢
  refine ⟨fun _ => ?_, fun hfailed => ?_⟩
  · simp only [wp_cuMemAddressReserve]
    refine ⟨fun hreserve => ?_, fun hfailed => ?_⟩
    · -- the state the loop starts in
      have hreserved : cuda.after s₂ (.cuMemAddressReserve alignedSize) =
          { w.driver with
            reserved := (cuda.pickVa s₂ alignedSize, alignedSize) :: w.driver.reserved
            calls := s₂.calls + 1 } := by
        rw [Cuda.after_of_result hreserve, ← hsame₂]
        rfl
      refine wp_mono (wp_and (mapChunks_spec hpage k [] 0 _ (by omega))
        (mapChunks_raises hpage k [] 0 _ (by omega))) ?_ ?_
      · rintro handles w₂ ⟨⟨_, rfl, hlen, halloc₂, hchunks⟩, -⟩
        simp only [wp_call, wp_modify, wp_pure]
        refine ⟨fun haccess => ⟨_, Dict.get?_set_self _ _ _, ?_⟩, fun haccess => ⟨?_, ?_⟩⟩
        · refine zeroedIfAccepted_of_memset rfl ?_
          rw [Cuda.after_of_result haccess]
          refine hchunks.memory.trans ?_
          rw [hreserved]
        · rw [halloc₂, halloc₁]
        · refine ⟨.cuMemSetAccess, _, haccess, rfl, cuda.pickVa s₂ alignedSize, alignedSize, _,
            _, hpage, ?_, hchunks.leftBehind [] ?_ ?_⟩
          · rw [hlen, hk]
          · rw [hreserved]
            rfl
          · rw [List.nil_append, List.append_nil, List.length_nil, List.replicate_zero,
              List.append_nil]
            exact sameDriver_after_failure haccess
      · rintro e w₂ ⟨⟨halloc₂, -⟩, -, mapped, s, code, hlen, hcode, hmapped, hfailed⟩
        have hoffset : 0 + mapped.length * pageSizeOf
              (cuda.granularity w₁.driver (device.index.getD 0)) < alignedSize := by
          rw [hk, Nat.zero_add]
          exact Nat.mul_lt_mul_of_pos_right hlen hpage
        refine ⟨halloc₂.trans halloc₁, ?_⟩
        rcases hfailed with ⟨rfl, hsame⟩ | ⟨handle, rfl, hsame⟩
        · refine ⟨_, code, hcode, rfl, _, alignedSize, _, mapped, hpage, Nat.zero_add _, hoffset,
            hmapped.leftBehind [] ?_ ?_⟩
          · rw [hreserved]
            rfl
          · rw [List.nil_append, List.append_nil, List.length_nil, List.replicate_zero,
              List.append_nil]
            exact hsame
        · refine ⟨_, code, hcode, rfl, _, alignedSize, _, mapped, handle, hpage, Nat.zero_add _,
            hoffset, hmapped.leftBehind [handle] ?_ hsame⟩
          rw [hreserved]
          rfl
    · exact ⟨halloc₁, .cuMemAddressReserve, _, hfailed, rfl,
        hsame₂.trans (sameDriver_after_failure hfailed)⟩
  · exact ⟨halloc₁, .cuMemGetAllocationGranularity, _, hfailed, rfl, hsame₂⟩

/-! ## 4. All the ways an allocation can end -/

/-- **Every outcome of an allocation under driver failure.**  For every driver, size
    and prior state: an allocation that returns has mapped and registered its whole
    range, zeroed if the driver accepted that; one that raises has registered
    nothing, and what it leaves in the driver is given by the call it failed at. -/
theorem allocateVmmKvCache_outcome (cuda : Cuda) (sizeBytes : Nat) (device : Device)
    (w : AllocatorState) :
    wp (allocateVmmKvCache cuda sizeBytes device)
      (fun t w' => ∃ alloc, Allocated cuda sizeBytes (device.index.getD 0) w w' alloc ∧
        t = ⟨alloc.vaPtr, sizeBytes, device.index.getD 0⟩ ∧ ZeroedIfAccepted cuda alloc w w')
      (fun e w' => w'.allocations = w.allocations ∧ ∃ failed code, code ≠ 0 ∧
        e = AllocationCall.error failed code ∧ failed.Leaves w.driver w'.driver) w := by
  refine wp_mono (wp_and (allocateVmmKvCache_spec sizeBytes device)
    (allocateVmmKvCache_failures sizeBytes device)) ?_ (fun _ _ h => h.2)
  rintro t w' ⟨⟨alloc, hallocated, rfl⟩, ⟨registered, hregistered, hzeroed⟩⟩
  rw [hallocated.registered, Dict.get?_set_self, Option.some.injEq] at hregistered
  subst hregistered
  exact ⟨alloc, hallocated, rfl, hzeroed⟩

/-- All or nothing: what an atomic allocation would guarantee. -/
def AllocationAtomic (cuda : Cuda) (sizeBytes : Nat) (device : Device) (w : AllocatorState) : Prop :=
  wp (allocateVmmKvCache cuda sizeBytes device)
    (fun t w' => ∃ alloc, Allocated cuda sizeBytes (device.index.getD 0) w w' alloc ∧
      t = ⟨alloc.vaPtr, sizeBytes, device.index.getD 0⟩ ∧
      ∀ handle offset, w'.driver.shows alloc.vaPtr alloc.totalBytes handle offset = true →
        w'.driver.memory handle offset = 0)
    (fun _ w' => w'.allocations = w.allocations ∧ SameDriver w.driver w'.driver) w

/-- **Not atomic.**  Two pages; `cuMemCreate` of the second is driver call number 7.
    When it fails, the reservation and the first handle stay. -/
theorem allocateVmmKvCache_not_atomic :
    ¬ ∀ (cuda : Cuda), cuda.Lawful → ∀ (sizeBytes : Nat) (device : Device) (w : AllocatorState),
      AllocationAtomic cuda sizeBytes device w := by
  intro hatomic
  have h := hatomic (.failingAt 7) (Cuda.failingAt_lawful 7) 4000000 ⟨none⟩ (.init fun _ _ => 0)
  have hraised : returned (allocateVmmKvCache (.failingAt 7) 4000000 ⟨none⟩ (.init fun _ _ => 0)) =
      none ∧ (finalState (allocateVmmKvCache (.failingAt 7) 4000000 ⟨none⟩
        (.init fun _ _ => 0))).driver.live = [1] := by
    decide +kernel
  unfold AllocationAtomic wp at h
  cases hrun : allocateVmmKvCache (.failingAt 7) 4000000 ⟨none⟩ (.init fun _ _ => 0) with
  | ok t w' =>
    rw [hrun] at hraised
    cases hraised.1
  | error e w' =>
    rw [hrun] at h hraised
    obtain ⟨-, hsame⟩ := h
    have hlive : w'.driver.live = [1] := hraised.2
    rw [← hsame] at hlive
    cases hlive

end Edmm
