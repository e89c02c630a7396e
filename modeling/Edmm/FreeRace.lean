/-
  Edmm/FreeRace.lean
  ==================
  **Remaps racing with the free of their tensor.**

  One thread frees a tensor, any number of threads remap its pages, and other
  threads allocate.  `free_vmm_kv_cache` takes no lock: it removes the entry of the
  registry, the mappings, the handles and the reservation one after another, and a
  remap that looked the entry up before goes on with the object it found.

  This file says what a safe race is (`RaceSafe`) and when the code is safe
  (`InOrder`): the free takes the entry away while no remap is between its range
  check and the end of its swap, afterwards no remap passes the range check, and
  the driver does unmap and give back the range.  The rest is the invariant of the
  shared state in such a race.
-/
import Edmm.AllocatorThreads
import Edmm.HandleConservation

namespace Edmm

open Program

variable {cuda : Cuda}

/-! ## 1. The threads -/

inductive RaceThread where
  | free (p : FreeThread)
  | remap (p : RemapThread)
  | allocate (p : AllocateThread)

def RaceThread.step (cuda : Cuda) (me : Nat) (s : SharedAllocator) :
    RaceThread → Option (SharedAllocator × RaceThread)
  | .free p => (p.step cuda s).map fun moved => (moved.1, .free moved.2)
  | .remap p => (p.step cuda me s).map fun moved => (moved.1, .remap moved.2)
  | .allocate p => (p.step cuda s).map fun moved => (moved.1, .allocate moved.2)

/-- The thread's call has returned or raised. -/
def RaceThread.isDone : RaceThread → Bool
  | .free p => p.pc = .done
  | .remap p => p.result.isSome
  | .allocate p =>
      match p.pc with
      | .done _ => true
      | _ => false

/-- The range that the thread reserved. -/
def RaceThread.reservation : RaceThread → Option (Nat × Nat)
  | .allocate p => p.va.map fun va => (va, p.alignedSize)
  | _ => none

/-- What the threads besides the free call. -/
inductive RaceCall where
  | remap (blockId : Int) (newPhysicalHandle : Handle)
  | allocate (sizeBytes : ℕ+) (device : Device)

def RaceCall.thread (tensor : Tensor) : RaceCall → RaceThread
  | .remap blockId newPhysicalHandle =>
      .remap (RemapThread.start { tensor, blockId, newPhysicalHandle })
  | .allocate sizeBytes device => .allocate (AllocateThread.start sizeBytes device)

def RaceCall.newHandle : RaceCall → Option Handle
  | .remap _ newPhysicalHandle => some newPhysicalHandle
  | .allocate _ _ => none

/-- Thread 0 frees the tensor. -/
def raceStart (w : AllocatorState) (tensor : Tensor) (calls : List RaceCall) :
    Threads SharedAllocator RaceThread :=
  ⟨w.share, .free (FreeThread.start tensor) :: calls.map (RaceCall.thread tensor)⟩

/-- The free has taken the entry out of the registry. -/
def Popped (σ : Threads SharedAllocator RaceThread) : Prop :=
  ∃ p, σ.locals[0]? = some (.free p) ∧ p.pc ≠ .pop

/-! ## 2. Safe races -/

namespace RemapThread

/-- The object and the range that the thread's next driver call acts on. -/
def target (s : SharedAllocator) (p : RemapThread) : Option (Nat × Nat × Nat) :=
  match p.pc with
  | .unmap obj => some (obj, (s.objects obj).pageVa p.block, (s.objects obj).pageSize)
  | .map obj => some (obj, (s.objects obj).pageVa p.block, (s.objects obj).pageSize)
  | .setAccess obj => some (obj, (s.objects obj).pageVa p.block, (s.objects obj).pageSize)
  | _ => none

/-- The swap is complete: the new handle is mapped and listed. -/
def TookEffect (p : RemapThread) : Prop :=
  match p.pc with
  | .release (.ok _) => True
  | .done (.ok _) => True
  | _ => False

/-- The thread has not passed its range check. -/
def Unchecked (p : RemapThread) : Prop :=
  match p.pc with
  | .lookup => True
  | .checkRange _ => True
  | _ => False

/-- The thread has ended its swap. -/
def Swapped (p : RemapThread) : Prop :=
  match p.pc with
  | .release _ => True
  | .done _ => True
  | _ => False

end RemapThread

/-- The bytes from `start` on lie in the range. -/
def Inside (range : Nat × Nat) (start size : Nat) : Prop :=
  0 < size ∧ range.1 ≤ start ∧ start + size ≤ range.1 + range.2

/-- Some page of `size` bytes at `start` is mapped to the handle. -/
def DriverState.Maps (s : DriverState) (start size : Nat) (handle : Handle) : Prop :=
  ∃ access, s.pages.get? start = some ⟨size, handle, access⟩

/-- What the race of a free with remaps and allocations promises, over the runs that
    the guard admits.  `alloc` is the allocation of the tensor. -/
structure RaceSafe (guard : Threads SharedAllocator RaceThread → Nat → Prop) (cuda : Cuda)
    (w : AllocatorState) (tensor : Tensor) (alloc : VMMAllocation) (calls : List RaceCall) :
    Prop where
  /-- A driver call of a remap acts on a page of the tensor, which is registered and
      reserved. -/
  acts : ∀ σ, Threads.GuardedMoves (RaceThread.step cuda) guard (raceStart w tensor calls) σ →
    ∀ q, .remap q ∈ σ.locals → ∀ obj start size, q.target σ.shared = some (obj, start, size) →
      obj = tensor.dataPtr ∧ σ.shared.allocations.get? tensor.dataPtr = some obj ∧
        (alloc.vaPtr, alloc.totalBytes) ∈ σ.shared.driver.reserved ∧
        Inside (alloc.vaPtr, alloc.totalBytes) start size
  /-- A remap that did not take effect before the free can only raise, and its new
      handle is mapped nowhere. -/
  raises : ∀ σ₀ σ₁ σ,
    Threads.GuardedMoves (RaceThread.step cuda) guard (raceStart w tensor calls) σ₀ →
    Threads.GuardedMove (RaceThread.step cuda) guard σ₀ σ₁ → ¬ Popped σ₀ → Popped σ₁ →
    Threads.GuardedMoves (RaceThread.step cuda) guard σ₁ σ →
    ∀ (k : Nat) (q q' : RemapThread), σ₀.locals[k]? = some (.remap q) → ¬ q.TookEffect →
      σ.locals[k]? = some (.remap q') →
        (∀ r, q'.result = some r → ∃ e, r = .error e) ∧
          (q.Unchecked ∨ (∀ p ∈ σ.locals, p.isDone = true) →
            ∀ start size, ¬ σ.shared.driver.Maps start size q'.call.newPhysicalHandle)
  /-- When all calls have ended, nothing of the tensor is left. -/
  clean : ∀ σ, Threads.GuardedMoves (RaceThread.step cuda) guard (raceStart w tensor calls) σ →
    (∀ p ∈ σ.locals, p.isDone = true) →
      (∀ va, σ.shared.allocations.get? va ≠ some tensor.dataPtr) ∧
      σ.shared.driver.reserved.Perm
        (w.driver.reserved.erase (alloc.vaPtr, alloc.totalBytes) ++
          σ.locals.filterMap RaceThread.reservation) ∧
      (∀ start size handle, σ.shared.driver.Maps start size handle →
        handle ∈ σ.shared.driver.live ∧
          (RangesDisjoint (alloc.vaPtr, alloc.totalBytes) (start, size) ∨
            ∃ range ∈ σ.locals.filterMap RaceThread.reservation, Inside range start size)) ∧
      ∀ handle ∈ σ.shared.sequential.allocations.installed, handle ∈ σ.shared.driver.live

/-- When the code is safe.  The free takes the entry away while no remap is between its
    range check and the end of its swap; from then on a remap that finds an entry at the
    data pointer, which an allocation put there, is out of its range; and the driver
    unmaps and gives back the tensor's range. -/
def InOrder (cuda : Cuda) (σ : Threads SharedAllocator RaceThread) (k : Nat) : Prop :=
  match σ.locals[k]? with
  | some (.free p) =>
      match p.pc with
      | .pop => ∀ q, .remap q ∈ σ.locals → q.Unchecked ∨ q.Swapped
      | .unmap obj => cuda.result σ.shared.driver
          (.cuMemUnmap (σ.shared.objects obj).vaPtr (σ.shared.objects obj).totalBytes) = 0
      | .addressFree obj => cuda.result σ.shared.driver
          (.cuMemAddressFree (σ.shared.objects obj).vaPtr (σ.shared.objects obj).totalBytes) = 0
      | _ => True
  | some (.remap q) =>
      match q.pc with
      | .checkRange obj => Popped σ →
          q.call.blockId < 0 ∨ q.call.blockId ≥ (σ.shared.objects obj).numPages
      | _ => True
  | _ => True

/-! ## 3. The page table -/

theorem Inside.disjoint {r q : Nat × Nat} {start size : Nat} (h : Inside r start size)
    (hapart : RangesDisjoint q r) : RangesDisjoint q (start, size) := by
  obtain ⟨_, hlow, hhigh⟩ := h
  simp only [RangesDisjoint] at hapart ⊢
  omega

theorem Inside.not_of_disjoint {r q : Nat × Nat} {start size : Nat} (h : Inside r start size)
    (hapart : RangesDisjoint q r) : ¬ Inside q start size := by
  rintro ⟨_, hlow', hhigh'⟩
  obtain ⟨hpos, hlow, hhigh⟩ := h
  simp only [RangesDisjoint] at hapart
  omega

theorem DriverState.Maps.ext {s : DriverState} {start size size' : Nat} {handle handle' : Handle}
    (h : s.Maps start size handle) (h' : s.Maps start size' handle') :
    size = size' ∧ handle = handle' := by
  obtain ⟨access, hget⟩ := h
  obtain ⟨access', hget'⟩ := h'
  rw [hget, Option.some.injEq, PageMapping.mk.injEq] at hget'
  exact ⟨hget'.1, hget'.2.1⟩

/-- The driver states differ in nothing that the race looks at, except that pages may
    have been unmapped. -/
structure FewerMaps (s s' : DriverState) : Prop where
  reserved : s'.reserved = s.reserved
  live : s'.live = s.live
  maps : ∀ start size handle, s'.Maps start size handle → s.Maps start size handle

theorem FewerMaps.of_failure {s : DriverState} {c : DriverCall} (h : cuda.result s c ≠ 0) :
    FewerMaps s (cuda.after s c) := by
  rw [Cuda.after_of_failure h]
  exact ⟨rfl, rfl, fun _ _ _ hmaps => hmaps⟩

/-- A call that can only unmap pages. -/
def DriverCall.OnlyUnmaps : DriverCall → Prop
  | .cuMemAddressReserve _ => False
  | .cuMemCreate _ _ => False
  | .cuMemMap _ _ _ => False
  | .cuMemRelease _ => False
  | .cuMemAddressFree _ _ => False
  | _ => True

theorem FewerMaps.after (cuda : Cuda) (s : DriverState) {c : DriverCall} (h : c.OnlyUnmaps) :
    FewerMaps s (cuda.after s c) := by
  by_cases hresult : cuda.result s c = 0
  · rw [Cuda.after_of_result hresult]
    cases c with
    | cuMemAddressReserve => exact h.elim
    | cuMemCreate => exact h.elim
    | cuMemMap => exact h.elim
    | cuMemRelease => exact h.elim
    | cuMemAddressFree => exact h.elim
    | cuMemSetAccess va size device =>
      refine ⟨rfl, rfl, ?_⟩
      rintro start size' handle ⟨access, hget⟩
      simp only [Cuda.effect, Dict.get?_mapValues, Option.map_eq_some_iff] at hget
      obtain ⟨page, hpage, hsame⟩ := hget
      refine ⟨page.access, ?_⟩
      rw [hpage]
      split at hsame
      · cases hsame
        rfl
      · cases hsame
        rfl
    | cuMemUnmap va size =>
      refine ⟨rfl, rfl, ?_⟩
      rintro start size' handle ⟨access, hget⟩
      simp only [Cuda.effect, Dict.get?_filterKeys] at hget
      split at hget
      · exact ⟨access, hget⟩
      · cases hget
    | _ => exact ⟨rfl, rfl, fun _ _ _ hmaps => hmaps⟩
  · exact FewerMaps.of_failure hresult

theorem FewerMaps.of_unmaps_or_failure {s : DriverState} {c : DriverCall}
    (h : c.OnlyUnmaps ∨ cuda.result s c ≠ 0) : FewerMaps s (cuda.after s c) := by
  rcases h with hcall | hfailed
  · exact FewerMaps.after cuda s hcall
  · exact FewerMaps.of_failure hfailed

/-- After a successful unmap no page inside the range is mapped. -/
theorem not_maps_unmapped {s : DriverState} {va size : Nat}
    (hresult : cuda.result s (.cuMemUnmap va size) = 0) {start size' : Nat} {handle : Handle}
    (h : (cuda.after s (.cuMemUnmap va size)).Maps start size' handle) :
    ¬ Inside (va, size) start size' := by
  rw [Cuda.after_of_result hresult] at h
  obtain ⟨access, hget⟩ := h
  simp only [Cuda.effect, Dict.get?_filterKeys] at hget
  rintro ⟨hpos, hlow, hhigh⟩
  have hin : inRange va size start = true := inRange_iff.mpr ⟨hlow, by omega⟩
  rw [hin] at hget
  cases hget

/-- What is mapped after a map: the page, and what was mapped elsewhere. -/
theorem maps_mapped {s : DriverState} {va size : Nat} {handle : Handle} {start size' : Nat}
    {handle' : Handle} (h : (cuda.after s (.cuMemMap va size handle)).Maps start size' handle') :
    (start = va ∧ size' = size ∧ handle' = handle) ∨ s.Maps start size' handle' := by
  by_cases hresult : cuda.result s (.cuMemMap va size handle) = 0
  · rw [Cuda.after_of_result hresult] at h
    obtain ⟨access, hget⟩ := h
    simp only [Cuda.effect, Dict.get?_set] at hget
    split at hget
    · rename_i heq
      cases hget
      exact Or.inl ⟨heq, rfl, rfl⟩
    · exact Or.inr ⟨access, hget⟩
  · exact Or.inr ((FewerMaps.of_failure hresult).maps _ _ _ h)

/-- A map reserves nothing and takes no handle away. -/
theorem sameHandles_mapped (cuda : Cuda) (s : DriverState) (va size : Nat) (handle : Handle) :
    (cuda.after s (.cuMemMap va size handle)).reserved = s.reserved ∧
      (cuda.after s (.cuMemMap va size handle)).live = s.live := by
  unfold Cuda.after
  split
  · exact ⟨rfl, rfl⟩
  · exact ⟨rfl, rfl⟩

/-! ## 4. The invariant of the shared state -/

/-- What does not change in a race: the tensor with its allocation as the race found
    it, the reservations at the start, and every handle that the allocation listed or a
    remap was given. -/
structure RaceSetting where
  tensor : Tensor
  alloc : VMMAllocation
  reserved : List (Nat × Nat)
  pool : List Handle
  keyed : alloc.vaPtr = tensor.dataPtr
  pageSize_pos : 0 < alloc.pageSize
  sized : alloc.handles.length * alloc.pageSize = alloc.totalBytes
  nonempty : 0 < alloc.totalBytes
  mem_reserved : (alloc.vaPtr, alloc.totalBytes) ∈ reserved

namespace FreePc

/-- The handles of the list that the free has released. -/
def released (handles : List Handle) : FreePc → List Handle
  | .pop => []
  | .unmap _ => []
  | .next _ i => handles.take i
  | .release _ i _ => handles.take i
  | .addressFree _ => handles
  | .done => handles

/-- The free has unmapped the tensor. -/
def Unmapped : FreePc → Prop
  | .pop => False
  | .unmap _ => False
  | _ => True

/-- The free has not given the range back. -/
def Reserving : FreePc → Prop
  | .done => False
  | _ => True

end FreePc

theorem FreePc.released_subset {handles : List Handle} {pc : FreePc} {h : Handle}
    (hmem : h ∈ pc.released handles) : h ∈ handles := by
  cases pc with
  | pop => cases hmem
  | unmap obj => cases hmem
  | next obj i => exact List.mem_of_mem_take hmem
  | release obj i handle => exact List.mem_of_mem_take hmem
  | addressFree obj => exact hmem
  | done => exact hmem

namespace RaceSetting

variable (R : RaceSetting)

def va : Nat := R.tensor.dataPtr

def region : Nat × Nat := (R.alloc.vaPtr, R.alloc.totalBytes)

/-- The reservations of the start that are left. -/
def base : FreePc → List (Nat × Nat)
  | .done => R.reserved.erase R.region
  | _ => R.reserved

/-- The handles of the tensor that the free has released. -/
def released (pc : FreePc) (s : SharedAllocator) : List Handle :=
  pc.released (s.objects R.va).handles

/-- The handle belongs to the race and is not released. -/
def Tracked (pc : FreePc) (s : SharedAllocator) (h : Handle) : Prop :=
  h ∈ R.pool ∧ h ∉ R.released pc s

/-- The object of the tensor is the allocation with other handles, and is registered
    for the tensor until the free takes the entry away. -/
structure ObjectsOk (pc : FreePc) (s : SharedAllocator) : Prop where
  vaPtr : (s.objects R.va).vaPtr = R.alloc.vaPtr
  totalBytes : (s.objects R.va).totalBytes = R.alloc.totalBytes
  pageSize : (s.objects R.va).pageSize = R.alloc.pageSize
  length : (s.objects R.va).handles.length = R.alloc.handles.length
  nodup : (s.objects R.va).handles.Nodup
  pooled : ∀ h ∈ (s.objects R.va).handles, h ∈ R.pool
  registered : pc = .pop → s.allocations.get? R.va = some R.va
  onlyHere : ∀ va, s.allocations.get? va = some R.va → pc = .pop ∧ va = R.va
  numbered : R.va < s.nextObject
  fresh : ∀ va obj, s.allocations.get? va = some obj → obj < s.nextObject

/-- Pages are mapped inside disjoint reservations; no page is left of a tensor that
    was unmapped and whose range is not given back yet. -/
structure RangesOk (pc : FreePc) (s : DriverState) : Prop where
  disjoint : s.reserved.Pairwise RangesDisjoint
  housed : ∀ start size h, s.Maps start size h → ∃ range ∈ s.reserved, Inside range start size
  vacated : pc.Unmapped → pc.Reserving → ∀ start size h, s.Maps start size h →
    ¬ Inside R.region start size

/-- Handles of the race are alive until the free releases them, and mapped in the
    tensor only. -/
structure HandlesOk (pc : FreePc) (s : SharedAllocator) : Prop where
  trackedLive : ∀ h, R.Tracked pc s h → h ∈ s.driver.live
  trackedHome : ∀ start size h, s.driver.Maps start size h → R.Tracked pc s h →
    Inside R.region start size ∧ ¬ pc.Unmapped
  mappedLive : ∀ start size h, s.driver.Maps start size h → h ∈ s.driver.live
  others : ∀ va obj, s.allocations.get? va = some obj → obj ≠ R.va →
    ∀ h ∈ (s.objects obj).handles, h ∈ s.driver.live ∧ ¬ R.Tracked pc s h

structure SharedOk (pc : FreePc) (s : SharedAllocator) : Prop where
  objects : R.ObjectsOk pc s
  ranges : R.RangesOk pc s.driver
  handles : R.HandlesOk pc s

variable {R} {pc pc' : FreePc} {s s' : SharedAllocator}

theorem ObjectsOk.page_inside (h : R.ObjectsOk pc s) {block : Nat}
    (hblock : block < R.alloc.handles.length) :
    Inside R.region ((s.objects R.va).pageVa block) (s.objects R.va).pageSize := by
  have hbounds := pageVa_inRange R.sized hblock
  rw [VMMAllocation.pageVa, h.vaPtr, h.pageSize]
  exact ⟨R.pageSize_pos, hbounds.1, hbounds.2⟩

/-! ### Driver calls -/

/-- The registry and the objects are the same. -/
structure SameObjects (s s' : SharedAllocator) : Prop where
  objects : s'.objects = s.objects
  nextObject : s'.nextObject = s.nextObject
  allocations : s'.allocations = s.allocations

theorem SameObjects.afterCall (cuda : Cuda) (s : SharedAllocator) (c : DriverCall) :
    SameObjects s (s.afterCall cuda c) := ⟨rfl, rfl, rfl⟩

theorem SameObjects.tracked_iff (h : SameObjects s s') (handle : Handle) :
    R.Tracked pc s' handle ↔ R.Tracked pc s handle := by
  simp only [Tracked, released, h.objects]

theorem ObjectsOk.of_same (h : R.ObjectsOk pc s) (hsame : SameObjects s s') :
    R.ObjectsOk pc s' := by
  obtain ⟨driver, objects, nextObject, allocations, remapLock⟩ := s
  obtain ⟨driver', objects', nextObject', allocations', remapLock'⟩ := s'
  obtain ⟨rfl, rfl, rfl⟩ := hsame
  exact { h with }

/-- A page that may be mapped. -/
structure Mappable (R : RaceSetting) (pc : FreePc) (s : SharedAllocator) (start size : Nat)
    (handle : Handle) : Prop where
  housed : ∃ range ∈ s.driver.reserved, Inside range start size
  live : handle ∈ s.driver.live
  home : R.Tracked pc s handle → Inside R.region start size ∧ ¬ pc.Unmapped
  vacated : pc.Unmapped → pc.Reserving → ¬ Inside R.region start size

/-- A driver call that takes no reservation and no handle away and maps mappable pages
    only. -/
theorem SharedOk.grows (h : R.SharedOk pc s) (hsame : SameObjects s s')
    (hdisjoint : s'.driver.reserved.Pairwise RangesDisjoint)
    (hreserved : ∀ range ∈ s.driver.reserved, range ∈ s'.driver.reserved)
    (hlive : ∀ handle ∈ s.driver.live, handle ∈ s'.driver.live)
    (hmaps : ∀ start size handle, s'.driver.Maps start size handle →
      s.driver.Maps start size handle ∨ Mappable R pc s start size handle) :
    R.SharedOk pc s' where
  objects := h.objects.of_same hsame
  ranges :=
    { disjoint := hdisjoint
      housed := by
        intro start size handle hnow
        have hhoused : ∃ range ∈ s.driver.reserved, Inside range start size := by
          rcases hmaps _ _ _ hnow with hold | hnew
          · exact h.ranges.housed _ _ _ hold
          · exact hnew.housed
        obtain ⟨range, hrange, hinside⟩ := hhoused
        exact ⟨range, hreserved range hrange, hinside⟩
      vacated := by
        intro hunmapped hreserving start size handle hnow
        rcases hmaps _ _ _ hnow with hold | hnew
        · exact h.ranges.vacated hunmapped hreserving _ _ _ hold
        · exact hnew.vacated hunmapped hreserving }
  handles :=
    { trackedLive := fun handle htracked =>
        hlive handle (h.handles.trackedLive handle ((hsame.tracked_iff handle).mp htracked))
      trackedHome := by
        intro start size handle hnow htracked
        have htracked := (hsame.tracked_iff handle).mp htracked
        rcases hmaps _ _ _ hnow with hold | hnew
        · exact h.handles.trackedHome _ _ _ hold htracked
        · exact hnew.home htracked
      mappedLive := by
        intro start size handle hnow
        rcases hmaps _ _ _ hnow with hold | hnew
        · exact hlive handle (h.handles.mappedLive _ _ _ hold)
        · exact hlive handle hnew.live
      others := by
        intro va obj hget hne handle hmem
        rw [hsame.objects] at hmem
        rw [hsame.allocations] at hget
        obtain ⟨halive, htracked⟩ := h.handles.others va obj hget hne handle hmem
        exact ⟨hlive handle halive, fun hnow => htracked ((hsame.tracked_iff handle).mp hnow)⟩ }

/-- Nothing but the page table changes, and it only loses pages. -/
theorem SharedOk.fewerMaps (h : R.SharedOk pc s) (hsame : SameObjects s s')
    (hdriver : FewerMaps s.driver s'.driver) : R.SharedOk pc s' := by
  apply h.grows hsame
  · rw [hdriver.reserved]
    exact h.ranges.disjoint
  · rw [hdriver.reserved]
    exact fun _ hmem => hmem
  · rw [hdriver.live]
    exact fun _ hmem => hmem
  · exact fun _ _ _ hmaps => Or.inl (hdriver.maps _ _ _ hmaps)

theorem SharedOk.afterCall (h : R.SharedOk pc s) (cuda : Cuda) {c : DriverCall}
    (hcall : c.OnlyUnmaps ∨ cuda.result s.driver c ≠ 0) : R.SharedOk pc (s.afterCall cuda c) :=
  h.fewerMaps (SameObjects.afterCall cuda s c) (FewerMaps.of_unmaps_or_failure hcall)

/-- A mappable page is mapped. -/
theorem SharedOk.map (h : R.SharedOk pc s) (cuda : Cuda) {va size : Nat} {handle : Handle}
    (hpage : Mappable R pc s va size handle) :
    R.SharedOk pc (s.afterCall cuda (.cuMemMap va size handle)) := by
  by_cases hresult : cuda.result s.driver (.cuMemMap va size handle) = 0
  · have hdriver := Cuda.after_of_result hresult
    apply h.grows (SameObjects.afterCall cuda s _)
    · simp only [SharedAllocator.afterCall, hdriver]
      exact h.ranges.disjoint
    · simp only [SharedAllocator.afterCall, hdriver]
      exact fun _ hmem => hmem
    · simp only [SharedAllocator.afterCall, hdriver]
      exact fun _ hmem => hmem
    · intro start size' handle' hmaps
      rcases maps_mapped hmaps with ⟨rfl, rfl, rfl⟩ | hold
      · exact Or.inr hpage
      · exact Or.inl hold
  · exact h.afterCall cuda (Or.inr hresult)

/-- A range is reserved. -/
theorem SharedOk.reserve (h : R.SharedOk pc s) (hlawful : cuda.Lawful) (size : Nat) :
    R.SharedOk pc (s.afterCall cuda (.cuMemAddressReserve size)) := by
  by_cases hresult : cuda.result s.driver (.cuMemAddressReserve size) = 0
  · have hdriver := Cuda.after_of_result hresult
    apply h.grows (SameObjects.afterCall cuda s _)
    · simp only [SharedAllocator.afterCall, hdriver]
      exact List.pairwise_cons.mpr ⟨hlawful.reserve_disjoint s.driver size, h.ranges.disjoint⟩
    · simp only [SharedAllocator.afterCall, hdriver]
      exact fun _ hmem => List.mem_cons_of_mem _ hmem
    · simp only [SharedAllocator.afterCall, hdriver]
      exact fun _ hmem => hmem
    · simp only [SharedAllocator.afterCall, hdriver]
      exact fun _ _ _ hmaps => Or.inl hmaps
  · exact h.afterCall cuda (Or.inr hresult)

/-- A handle is created. -/
theorem SharedOk.create (h : R.SharedOk pc s) (cuda : Cuda) (size : Nat) (device : DeviceId) :
    R.SharedOk pc (s.afterCall cuda (.cuMemCreate size device)) := by
  by_cases hresult : cuda.result s.driver (.cuMemCreate size device) = 0
  · have hdriver := Cuda.after_of_result hresult
    apply h.grows (SameObjects.afterCall cuda s _)
    · simp only [SharedAllocator.afterCall, hdriver]
      exact h.ranges.disjoint
    · simp only [SharedAllocator.afterCall, hdriver]
      exact fun _ hmem => hmem
    · simp only [SharedAllocator.afterCall, hdriver]
      exact fun _ hmem => List.mem_cons_of_mem _ hmem
    · simp only [SharedAllocator.afterCall, hdriver]
      exact fun _ _ _ hmaps => Or.inl hmaps
  · exact h.afterCall cuda (Or.inr hresult)

/-! ### The registry and the objects -/

/-- A remap that the free has not overtaken lists its handle. -/
theorem SharedOk.writeHandle (h : R.SharedOk .pop s) {block : Nat} {handle : Handle}
    (hpool : handle ∈ R.pool) (hnew : handle ∉ (s.objects R.va).handles) :
    R.SharedOk .pop (s.writeHandle R.va block handle) := by
  have hself : (s.writeHandle R.va block handle).objects R.va =
      { s.objects R.va with handles := (s.objects R.va).handles.set block handle } := by
    simp [SharedAllocator.writeHandle]
  have hother : ∀ obj, obj ≠ R.va →
      (s.writeHandle R.va block handle).objects obj = s.objects obj := by
    intro obj hne
    simp [SharedAllocator.writeHandle, hne]
  have htracked : ∀ x, R.Tracked .pop (s.writeHandle R.va block handle) x ↔ R.Tracked .pop s x :=
    fun _ => Iff.rfl
  refine ⟨?_, ⟨h.ranges.disjoint, h.ranges.housed, h.ranges.vacated⟩, ?_⟩
  · exact
      { vaPtr := by rw [hself]; exact h.objects.vaPtr
        totalBytes := by rw [hself]; exact h.objects.totalBytes
        pageSize := by rw [hself]; exact h.objects.pageSize
        length := by rw [hself, List.length_set]; exact h.objects.length
        nodup := by rw [hself]; exact h.objects.nodup.set hnew
        pooled := by
          intro x hx
          rw [hself] at hx
          rcases List.mem_or_eq_of_mem_set hx with hx | rfl
          · exact h.objects.pooled x hx
          · exact hpool
        registered := h.objects.registered
        onlyHere := h.objects.onlyHere
        numbered := h.objects.numbered
        fresh := h.objects.fresh }
  · exact
      { trackedLive := h.handles.trackedLive
        trackedHome := h.handles.trackedHome
        mappedLive := h.handles.mappedLive
        others := by
          intro va obj hget hne x hx
          rw [hother obj hne] at hx
          exact h.handles.others va obj hget hne x hx }

/-- An allocation enters the registry. -/
theorem SharedOk.register (h : R.SharedOk pc s) {va : Nat} {alloc : VMMAllocation}
    (hva : pc = .pop → va ≠ R.va)
    (hhandles : ∀ x ∈ alloc.handles, x ∈ s.driver.live ∧ ¬ R.Tracked pc s x) :
    R.SharedOk pc { s with
      objects := Function.update s.objects s.nextObject alloc
      nextObject := s.nextObject + 1
      allocations := s.allocations.set va s.nextObject } := by
  have hne := Nat.ne_of_lt h.objects.numbered
  have hself : Function.update s.objects s.nextObject alloc R.va = s.objects R.va :=
    Function.update_of_ne hne _ _
  refine ⟨?_, ⟨h.ranges.disjoint, h.ranges.housed, h.ranges.vacated⟩, ?_⟩
  · exact
      { vaPtr := by simp only [hself]; exact h.objects.vaPtr
        totalBytes := by simp only [hself]; exact h.objects.totalBytes
        pageSize := by simp only [hself]; exact h.objects.pageSize
        length := by simp only [hself]; exact h.objects.length
        nodup := by simp only [hself]; exact h.objects.nodup
        pooled := by simp only [hself]; exact h.objects.pooled
        registered := by
          intro hpc
          rw [Dict.get?_set_of_ne _ _ (Ne.symm (hva hpc))]
          exact h.objects.registered hpc
        onlyHere := by
          intro va' hget
          rw [Dict.get?_set] at hget
          split at hget
          · exact absurd (Option.some.inj hget).symm hne
          · exact h.objects.onlyHere va' hget
        numbered := Nat.lt_succ_of_lt h.objects.numbered
        fresh := by
          intro va' obj hget
          rw [Dict.get?_set] at hget
          split at hget
          · rw [← Option.some.inj hget]
            exact Nat.lt_succ_self _
          · exact Nat.lt_succ_of_lt (h.objects.fresh va' obj hget) }
  · have htracked : ∀ x, R.Tracked pc { s with
        objects := Function.update s.objects s.nextObject alloc
        nextObject := s.nextObject + 1
        allocations := s.allocations.set va s.nextObject } x ↔ R.Tracked pc s x := by
      intro x
      simp only [Tracked, released, hself]
    exact
      { trackedLive := fun x hx => h.handles.trackedLive x ((htracked x).mp hx)
        trackedHome := fun start size x hmaps hx =>
          h.handles.trackedHome start size x hmaps ((htracked x).mp hx)
        mappedLive := h.handles.mappedLive
        others := by
          intro va' obj hget hobj x hx
          rw [htracked]
          rw [Dict.get?_set] at hget
          split at hget
          · obtain rfl := Option.some.inj hget
            simp only [Function.update_self] at hx
            exact hhandles x hx
          · have hfresh := Nat.ne_of_lt (h.objects.fresh va' obj hget)
            simp only [Function.update_of_ne hfresh] at hx
            exact h.handles.others va' obj hget hobj x hx }

/-! ### The steps of the free -/

/-- The entry is taken out of the registry. -/
theorem SharedOk.pop (h : R.SharedOk .pop s) :
    R.SharedOk (.unmap R.va) { s with allocations := s.allocations.erase R.va } := by
  refine ⟨?_, ⟨h.ranges.disjoint, h.ranges.housed, fun hunmapped => hunmapped.elim⟩, ?_⟩
  · exact
      { vaPtr := h.objects.vaPtr
        totalBytes := h.objects.totalBytes
        pageSize := h.objects.pageSize
        length := h.objects.length
        nodup := h.objects.nodup
        pooled := h.objects.pooled
        registered := fun hpc => by cases hpc
        onlyHere := by
          intro va hget
          rw [Dict.get?_erase] at hget
          split at hget
          · cases hget
          · rename_i hne
            exact absurd (h.objects.onlyHere va hget).2 hne
        numbered := h.objects.numbered
        fresh := by
          intro va obj hget
          rw [Dict.get?_erase] at hget
          split at hget
          · cases hget
          · exact h.objects.fresh va obj hget }
  · exact
      { trackedLive := h.handles.trackedLive
        trackedHome := h.handles.trackedHome
        mappedLive := h.handles.mappedLive
        others := by
          intro va obj hget hne
          rw [Dict.get?_erase] at hget
          split at hget
          · cases hget
          · exact h.handles.others va obj hget hne }

theorem ObjectsOk.advance (h : R.ObjectsOk pc s) (hsame : SameObjects s s') (hpc : pc ≠ .pop)
    (hpc' : pc' ≠ .pop) : R.ObjectsOk pc' s' := by
  have hnow := h.of_same hsame
  exact
    { hnow with
      registered := fun hpop => absurd hpop hpc'
      onlyHere := fun va hget => absurd (hnow.onlyHere va hget).1 hpc }

/-- Steps of the free that read the list only. -/
theorem SharedOk.advance (h : R.SharedOk pc s) (hpc : pc ≠ .pop) (hpc' : pc' ≠ .pop)
    (hreleased : R.released pc' s = R.released pc s) (hunmapped : pc'.Unmapped ↔ pc.Unmapped)
    (hreserving : pc'.Reserving → pc.Reserving) : R.SharedOk pc' s := by
  have htracked : ∀ x, R.Tracked pc' s x ↔ R.Tracked pc s x := by
    intro x
    simp only [Tracked, hreleased]
  exact
    { objects := h.objects.advance ⟨rfl, rfl, rfl⟩ hpc hpc'
      ranges :=
        { h.ranges with
          vacated := fun hnow hstill => h.ranges.vacated (hunmapped.mp hnow) (hreserving hstill) }
      handles :=
        { trackedLive := fun x hx => h.handles.trackedLive x ((htracked x).mp hx)
          trackedHome := by
            intro start size x hmaps hx
            obtain ⟨hinside, hnot⟩ := h.handles.trackedHome start size x hmaps ((htracked x).mp hx)
            exact ⟨hinside, fun hnow => hnot (hunmapped.mp hnow)⟩
          mappedLive := h.handles.mappedLive
          others := by
            intro va obj hget hne x hx
            rw [htracked]
            exact h.handles.others va obj hget hne x hx } }

/-- The whole range is unmapped. -/
theorem SharedOk.unmapAll (h : R.SharedOk (.unmap R.va) s)
    (hresult : cuda.result s.driver
      (.cuMemUnmap (s.objects R.va).vaPtr (s.objects R.va).totalBytes) = 0) :
    R.SharedOk (.next R.va 0)
      (s.afterCall cuda (.cuMemUnmap (s.objects R.va).vaPtr (s.objects R.va).totalBytes)) := by
  have hfewer := h.afterCall cuda (Or.inl
    (show (DriverCall.cuMemUnmap (s.objects R.va).vaPtr (s.objects R.va).totalBytes).OnlyUnmaps
      from trivial))
  have hgone : ∀ start size handle,
      (s.afterCall cuda (.cuMemUnmap (s.objects R.va).vaPtr (s.objects R.va).totalBytes)).driver.Maps
        start size handle → ¬ Inside R.region start size := by
    intro start size handle hmaps
    have hnot := not_maps_unmapped hresult hmaps
    rwa [h.objects.vaPtr, h.objects.totalBytes] at hnot
  exact
    { objects := hfewer.objects.advance ⟨rfl, rfl, rfl⟩ (by simp) (by simp)
      ranges := { hfewer.ranges with vacated := fun _ _ => hgone }
      handles :=
        { trackedLive := fun x hx => hfewer.handles.trackedLive x hx
          trackedHome := by
            intro start size x hmaps hx
            have hinside := (hfewer.handles.trackedHome start size x hmaps hx).1
            exact absurd hinside (hgone start size x hmaps)
          mappedLive := hfewer.handles.mappedLive
          others := hfewer.handles.others } }

/-- The handle that the free releases next is still tracked. -/
theorem ObjectsOk.tracked_release {i : Nat} {handle : Handle}
    (h : R.ObjectsOk (.release R.va i handle) s)
    (hget : (s.objects R.va).handles[i]? = some handle) :
    R.Tracked (.release R.va i handle) s handle := by
  refine ⟨h.pooled handle (List.mem_of_getElem? hget), fun hbefore => ?_⟩
  obtain ⟨j, hj, hbefore⟩ := List.mem_take_iff_getElem.mp hbefore
  have hlt : j < (s.objects R.va).handles.length := by omega
  have hsame := (List.getElem?_inj hlt h.nodup).mp
    ((List.getElem?_eq_getElem hlt).trans (congrArg some hbefore) |>.trans hget.symm)
  omega

/-- After its release it is not. -/
theorem tracked_next {i : Nat} {handle x : Handle}
    (hget : (s.objects R.va).handles[i]? = some handle)
    (h : R.Tracked (.next R.va (i + 1)) s x) :
    x ≠ handle ∧ R.Tracked (.release R.va i handle) s x := by
  obtain ⟨hpool, hnot⟩ := h
  have hreleased : R.released (.next R.va (i + 1)) s =
      R.released (.release R.va i handle) s ++ [handle] := by
    show (s.objects R.va).handles.take (i + 1) = (s.objects R.va).handles.take i ++ [handle]
    rw [List.take_add_one, hget]
    rfl
  rw [hreleased, List.mem_append, List.mem_singleton] at hnot
  exact ⟨fun heq => hnot (Or.inr heq), hpool, fun hx => hnot (Or.inl hx)⟩

/-- What a release leaves as it is. -/
theorem after_release (cuda : Cuda) (d : DriverState) (handle : Handle) :
    (cuda.after d (.cuMemRelease handle)).reserved = d.reserved ∧
    (cuda.after d (.cuMemRelease handle)).pages = d.pages ∧
    ∀ x ∈ d.live, x ≠ handle → x ∈ (cuda.after d (.cuMemRelease handle)).live := by
  unfold Cuda.after
  split
  · exact ⟨rfl, rfl, fun x hx hne => (List.mem_erase_of_ne hne).mpr hx⟩
  · exact ⟨rfl, rfl, fun x hx _ => hx⟩

/-- A handle of the list is released. -/
theorem SharedOk.release {i : Nat} {handle : Handle} (h : R.SharedOk (.release R.va i handle) s)
    (cuda : Cuda) (hget : (s.objects R.va).handles[i]? = some handle) :
    R.SharedOk (.next R.va (i + 1)) (s.afterCall cuda (.cuMemRelease handle)) := by
  obtain ⟨hreserved, hpages, hlive⟩ := after_release cuda s.driver handle
  have hnow := h.objects.tracked_release hget
  have hmaps : ∀ start size x, (cuda.after s.driver (.cuMemRelease handle)).Maps start size x →
      s.driver.Maps start size x := by
    rintro start size x ⟨access, hpage⟩
    rw [hpages] at hpage
    exact ⟨access, hpage⟩
  -- the tensor is unmapped, so no page shows the handle
  have hunmapped : ∀ start size x, s.driver.Maps start size x → x ≠ handle := by
    rintro start size x hold rfl
    exact (h.handles.trackedHome start size x hold hnow).2 trivial
  exact
    { objects := h.objects.advance ⟨rfl, rfl, rfl⟩ (by simp) (by simp)
      ranges :=
        { disjoint := by
            show (cuda.after s.driver _).reserved.Pairwise _
            rw [hreserved]
            exact h.ranges.disjoint
          housed := by
            show ∀ start size x, _ → ∃ range ∈ (cuda.after s.driver _).reserved, _
            rw [hreserved]
            exact fun start size x hold => h.ranges.housed start size x (hmaps _ _ _ hold)
          vacated := fun _ _ start size x hold =>
            h.ranges.vacated trivial trivial start size x (hmaps _ _ _ hold) }
      handles :=
        { trackedLive := by
            intro x hx
            obtain ⟨hne, hx⟩ := tracked_next hget hx
            exact hlive x (h.handles.trackedLive x hx) hne
          trackedHome := by
            intro start size x hold hx
            exact h.handles.trackedHome start size x (hmaps _ _ _ hold) (tracked_next hget hx).2
          mappedLive := by
            intro start size x hold
            have hold := hmaps _ _ _ hold
            exact hlive x (h.handles.mappedLive start size x hold) (hunmapped start size x hold)
          others := by
            intro va obj hobj hne x hx
            obtain ⟨halive, hnot⟩ := h.handles.others va obj hobj hne x hx
            refine ⟨hlive x halive ?_, fun hx => hnot (tracked_next hget hx).2⟩
            rintro rfl
            exact hnot hnow } }

/-- What giving the range back leaves. -/
theorem ObjectsOk.after_addressFree (h : R.ObjectsOk pc s)
    (hresult : cuda.result s.driver
      (.cuMemAddressFree (s.objects R.va).vaPtr (s.objects R.va).totalBytes) = 0) :
    (cuda.after s.driver
      (.cuMemAddressFree (s.objects R.va).vaPtr (s.objects R.va).totalBytes)).reserved =
        s.driver.reserved.erase R.region ∧
    (cuda.after s.driver
      (.cuMemAddressFree (s.objects R.va).vaPtr (s.objects R.va).totalBytes)).pages =
        s.driver.pages ∧
    (cuda.after s.driver
      (.cuMemAddressFree (s.objects R.va).vaPtr (s.objects R.va).totalBytes)).live =
        s.driver.live := by
  rw [h.vaPtr, h.totalBytes] at hresult ⊢
  rw [Cuda.after_of_result hresult]
  exact ⟨rfl, rfl, rfl⟩

/-- The range is given back. -/
theorem SharedOk.addressFree (h : R.SharedOk (.addressFree R.va) s)
    (hresult : cuda.result s.driver
      (.cuMemAddressFree (s.objects R.va).vaPtr (s.objects R.va).totalBytes) = 0) :
    R.SharedOk .done
      (s.afterCall cuda (.cuMemAddressFree (s.objects R.va).vaPtr (s.objects R.va).totalBytes)) := by
  obtain ⟨hreserved, hpages, hlive⟩ := h.objects.after_addressFree hresult
  have hmaps : ∀ start size x, (s.afterCall cuda
      (.cuMemAddressFree (s.objects R.va).vaPtr (s.objects R.va).totalBytes)).driver.Maps start size x →
        s.driver.Maps start size x := by
    rintro start size x ⟨access, hpage⟩
    simp only [SharedAllocator.afterCall, hpages] at hpage
    exact ⟨access, hpage⟩
  exact
    { objects := h.objects.advance ⟨rfl, rfl, rfl⟩ (by simp) (by simp)
      ranges :=
        { disjoint := by
            simp only [SharedAllocator.afterCall, hreserved]
            exact h.ranges.disjoint.sublist List.erase_sublist
          housed := by
            intro start size x hold
            have hold := hmaps _ _ _ hold
            obtain ⟨range, hrange, hinside⟩ := h.ranges.housed start size x hold
            have hne : range ≠ R.region := by
              rintro rfl
              exact h.ranges.vacated trivial trivial start size x hold hinside
            simp only [SharedAllocator.afterCall, hreserved]
            exact ⟨range, (List.mem_erase_of_ne hne).mpr hrange, hinside⟩
          vacated := fun _ hreserving => hreserving.elim }
      handles :=
        { trackedLive := by
            simp only [SharedAllocator.afterCall, hlive]
            exact h.handles.trackedLive
          trackedHome := fun start size x hold hx =>
            h.handles.trackedHome start size x (hmaps _ _ _ hold) hx
          mappedLive := by
            intro start size x hold
            simp only [SharedAllocator.afterCall, hlive]
            exact h.handles.mappedLive start size x (hmaps _ _ _ hold)
          others := by
            simp only [SharedAllocator.afterCall, hlive]
            exact h.handles.others } }

end RaceSetting

end Edmm
