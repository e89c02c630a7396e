/-
  Edmm/MappingInvariant.lean
  ==========================
  **The registry mirrors the page table.**

  Two layers.  `RegistryInv` speaks of the registry and the reservations only and
  survives every driver failure: each entry is keyed by its own address, its pages
  fill its range, its range is reserved, and reservations are disjoint.
  `MappingInv` adds the page table and needs a driver whose calls succeed: each
  page is mapped to the listed handle, and nothing else is mapped or reserved.

  Both are step invariants, so they hold after every run of allocations, remaps,
  releases and frees over any number of tensors (`registryInv_runAllocator`,
  `mappingInvariant_runAllocator`).
-/
import Edmm.AllocatorEffects
import Mathlib.Data.List.Pairwise

namespace Edmm

open Program

variable {cuda : Cuda} {w w' : AllocatorState}

/-! ## 1. The registry -/

/-- What the registry promises of one of its entries. -/
structure Registered (s : DriverState) (va : Nat) (alloc : VMMAllocation) : Prop where
  keyed : alloc.vaPtr = va
  pageSize_pos : 0 < alloc.pageSize
  sized : alloc.handles.length * alloc.pageSize = alloc.totalBytes
  nonempty : 0 < alloc.totalBytes
  reserved : (alloc.vaPtr, alloc.totalBytes) ∈ s.reserved

structure RegistryInv (w : AllocatorState) : Prop where
  entries : ∀ va alloc, w.allocations.get? va = some alloc → Registered w.driver va alloc
  disjoint : w.driver.reserved.Pairwise RangesDisjoint

theorem registryInv_init (memory : Handle → Nat → UInt8) :
    RegistryInv (AllocatorState.init memory) where
  entries := by
    intro va alloc hget
    cases hget
  disjoint := List.Pairwise.nil

theorem RegistryInv.of_same (h : RegistryInv w) (hallocations : w'.allocations = w.allocations)
    (hreserved : w'.driver.reserved = w.driver.reserved) : RegistryInv w' where
  entries := by
    intro va alloc hget
    rw [hallocations] at hget
    have hold := h.entries va alloc hget
    exact { hold with reserved := by rw [hreserved]; exact hold.reserved }
  disjoint := by rw [hreserved]; exact h.disjoint

/-- Different allocations occupy disjoint ranges. -/
theorem RegistryInv.ranges_disjoint (h : RegistryInv w) {va va' : Nat} {alloc alloc' : VMMAllocation}
    (hget : w.allocations.get? va = some alloc) (hget' : w.allocations.get? va' = some alloc')
    (hne : va ≠ va') :
    RangesDisjoint (alloc.vaPtr, alloc.totalBytes) (alloc'.vaPtr, alloc'.totalBytes) := by
  have hold := h.entries va alloc hget
  have hold' := h.entries va' alloc' hget'
  refine h.disjoint.forall hold.reserved hold'.reserved ?_
  intro heq
  rw [Prod.mk.injEq, hold.keyed, hold'.keyed] at heq
  exact hne heq.1

/-- A range disjoint from every reservation starts at an unregistered address. -/
theorem RegistryInv.fresh_va (h : RegistryInv w) {va size : Nat} (hsize : 0 < size)
    (hdisjoint : ∀ r ∈ w.driver.reserved, RangesDisjoint (va, size) r) :
    w.allocations.get? va = none := by
  cases hget : w.allocations.get? va with
  | none => rfl
  | some alloc =>
    have hold := h.entries va alloc hget
    have hapart := hdisjoint _ hold.reserved
    have hpos := hold.nonempty
    rw [hold.keyed] at hapart
    simp only [RangesDisjoint] at hapart
    omega

/-- A new allocation starts at an unregistered address. -/
theorem RegistryInv.fresh (hlawful : cuda.Lawful) (h : RegistryInv w) {sizeBytes : Nat}
    (hsize : 0 < sizeBytes) {deviceId : DeviceId} {alloc : VMMAllocation}
    (hnew : Allocated cuda sizeBytes deviceId w w' alloc) :
    w.allocations.get? alloc.vaPtr = none :=
  h.fresh_va (Nat.lt_of_lt_of_le hsize hnew.covers) (hnew.disjoint hlawful)

/-- A new allocation leaves the others registered. -/
theorem RegistryInv.kept (hlawful : cuda.Lawful) (h : RegistryInv w) {sizeBytes : Nat}
    (hsize : 0 < sizeBytes) {deviceId : DeviceId} {alloc : VMMAllocation}
    (hnew : Allocated cuda sizeBytes deviceId w w' alloc) {va : Nat} {other : VMMAllocation}
    (hget : w.allocations.get? va = some other) : w'.allocations.get? va = some other := by
  have hne : va ≠ alloc.vaPtr := by
    rintro rfl
    rw [h.fresh hlawful hsize hnew] at hget
    cases hget
  rwa [hnew.registered, Dict.get?_set_of_ne _ _ hne]

theorem RegistryInv.allocated (hlawful : cuda.Lawful) (h : RegistryInv w) {sizeBytes : Nat}
    (hsize : 0 < sizeBytes) {deviceId : DeviceId} {alloc : VMMAllocation}
    (hnew : Allocated cuda sizeBytes deviceId w w' alloc) : RegistryInv w' where
  entries := by
    intro va other hget
    rw [hnew.registered, Dict.get?_set] at hget
    by_cases hva : va = alloc.vaPtr
    · rw [if_pos hva, Option.some.injEq] at hget
      subst hget
      exact
        { keyed := hva.symm
          pageSize_pos := hnew.pageSize_pos
          sized := hnew.sized
          nonempty := Nat.lt_of_lt_of_le hsize hnew.covers
          reserved := by rw [hnew.reserved]; exact List.mem_cons_self }
    · rw [if_neg hva] at hget
      have hold := h.entries va other hget
      exact { hold with reserved := by rw [hnew.reserved]; exact List.mem_cons_of_mem _ hold.reserved }
  disjoint := by
    rw [hnew.reserved]
    exact List.pairwise_cons.mpr ⟨hnew.disjoint hlawful, h.disjoint⟩

/-- An allocation that raised leaves at most a reservation that nobody lists. -/
theorem RegistryInv.leftovers (hlawful : cuda.Lawful) (h : RegistryInv w)
    (hleft : AllocationLeftovers cuda w w') : RegistryInv w' := by
  obtain ⟨hallocations, ⟨hreserved, -⟩ | ⟨va, size, hreserved, hdisjoint, -⟩⟩ := hleft
  · exact h.of_same hallocations hreserved
  · refine ⟨fun va' alloc hget => ?_, ?_⟩
    · rw [hallocations] at hget
      have hold := h.entries va' alloc hget
      exact { hold with reserved := by rw [hreserved]; exact List.mem_cons_of_mem _ hold.reserved }
    · rw [hreserved]
      exact List.pairwise_cons.mpr ⟨hdisjoint hlawful, h.disjoint⟩

/-- Writing another handle into an entry keeps the registry in order. -/
theorem RegistryInv.swapped (h : RegistryInv w) {va : Nat} {alloc : VMMAllocation}
    (hget : w.allocations.get? va = some alloc) (block : Nat) (handle : Handle)
    (hallocations : w'.allocations =
      w.allocations.set va { alloc with handles := alloc.handles.set block handle })
    (hreserved : w'.driver.reserved = w.driver.reserved) : RegistryInv w' where
  entries := by
    intro va' other hget'
    rw [hallocations, Dict.get?_set] at hget'
    by_cases hva : va' = va
    · rw [if_pos hva, Option.some.injEq] at hget'
      subst hget' hva
      have hold := h.entries va' alloc hget
      exact
        { keyed := hold.keyed
          pageSize_pos := hold.pageSize_pos
          sized := by rw [List.length_set]; exact hold.sized
          nonempty := hold.nonempty
          reserved := by rw [hreserved]; exact hold.reserved }
    · rw [if_neg hva] at hget'
      have hold := h.entries va' other hget'
      exact { hold with reserved := by rw [hreserved]; exact hold.reserved }
  disjoint := by rw [hreserved]; exact h.disjoint

theorem RegistryInv.freed (h : RegistryInv w) {va : Nat} {alloc : VMMAllocation}
    (hget : w.allocations.get? va = some alloc)
    (hallocations : w'.allocations = w.allocations.erase va)
    (hreserved : w'.driver.reserved = w.driver.reserved ∨
      w'.driver.reserved = w.driver.reserved.erase (alloc.vaPtr, alloc.totalBytes)) :
    RegistryInv w' := by
  have hkept : ∀ va' other, w'.allocations.get? va' = some other →
      w.allocations.get? va' = some other ∧ va' ≠ va := by
    intro va' other hget'
    rw [hallocations, Dict.get?_erase] at hget'
    by_cases hva : va' = va
    · rw [if_pos hva] at hget'
      cases hget'
    · rw [if_neg hva] at hget'
      exact ⟨hget', hva⟩
  rcases hreserved with hreserved | hreserved
  · refine ⟨fun va' other hget' => ?_, by rw [hreserved]; exact h.disjoint⟩
    have hold := h.entries va' other (hkept va' other hget').1
    exact { hold with reserved := by rw [hreserved]; exact hold.reserved }
  · refine ⟨fun va' other hget' => ?_, ?_⟩
    · obtain ⟨hget₀, hva⟩ := hkept va' other hget'
      have hold := h.entries va' other hget₀
      -- the range given back is another one
      have hne : (other.vaPtr, other.totalBytes) ≠ (alloc.vaPtr, alloc.totalBytes) := by
        intro heq
        rw [Prod.mk.injEq, hold.keyed, (h.entries va alloc hget).keyed] at heq
        exact hva heq.1
      exact
        { hold with
          reserved := by rw [hreserved]; exact (List.mem_erase_of_ne hne).mpr hold.reserved }
    · rw [hreserved]
      exact h.disjoint.sublist List.erase_sublist

/-- A reservation of positive size occurs once. -/
theorem not_mem_erase_of_disjoint {l : List (Nat × Nat)} (h : l.Pairwise RangesDisjoint)
    {r : Nat × Nat} (hr : r ∈ l) (hpos : 0 < r.2) : r ∉ l.erase r := by
  intro hagain
  have hpairwise := ((List.perm_cons_erase hr).pairwise_iff RangesDisjoint.symm).mp h
  have hself := (List.pairwise_cons.mp hpairwise).1 r hagain
  unfold RangesDisjoint at hself
  omega

/-- **One call keeps the registry in order**, whichever driver calls fail. -/
theorem RegistryInv.step (hlawful : cuda.Lawful) (h : RegistryInv w) (op : AllocatorOp) :
    RegistryInv (op.step cuda w) := by
  refine finalState_of_wp ?_
  cases op with
  | allocateVmmKvCache sizeBytes device =>
    simp only [AllocatorOp.exec, wp_bind, wp_pure]
    refine wp_mono (allocateVmmKvCache_spec _ _) ?_ (fun _ _ hleft => h.leftovers hlawful hleft)
    rintro t w' ⟨alloc, hnew, -⟩
    exact h.allocated hlawful sizeBytes.2 hnew
  | createPhysicalHandle sizeBytes deviceId =>
    simp only [AllocatorOp.exec, wp_bind, wp_pure]
    refine wp_mono (createPhysicalHandle_spec _ _) ?_ ?_
    · rintro handle w' ⟨hallocations, -, hdriver⟩
      exact h.of_same hallocations (by rw [← hdriver])
    · rintro e w' ⟨hallocations, hdriver⟩
      exact h.of_same hallocations (by rw [← hdriver])
  | remapBlock tensor blockId handle =>
    simp only [AllocatorOp.exec, wp_bind, wp_pure]
    rcases remapBlock_cases cuda w tensor blockId handle with
      ⟨msg, hrun⟩ | ⟨alloc, block, rfl, hget, -, hrun⟩
    · unfold wp
      rw [hrun]
      exact h
    · rw [wp_congr hrun]
      refine wp_mono (swapBlock_run tensor alloc block handle) ?_ ?_
      · rintro old w' ⟨-, -, hallocations, hdriver, -⟩
        exact h.swapped hget block handle hallocations (by rw [← hdriver])
      · rintro e w' ⟨-, -, -, hallocations, hdriver, -⟩
        exact h.of_same hallocations (by rw [← hdriver])
  | releasePhysicalHandle handle =>
    simp only [AllocatorOp.exec, wp_bind, wp_pure]
    refine wp_mono (releasePhysicalHandle_spec _) ?_ ?_
    · rintro - w' ⟨hallocations, hdriver, -, -⟩
      exact h.of_same hallocations (by rw [← hdriver])
    · rintro e w' ⟨hallocations, hdriver⟩
      exact h.of_same hallocations (by rw [← hdriver])
  | freeVmmKvCache tensor =>
    simp only [AllocatorOp.exec, wp_bind, wp_pure]
    cases hget : getVmmAllocation w tensor with
    | none =>
      unfold wp
      rw [freeVmmKvCache_unregistered hget]
      exact h
    | some alloc =>
      refine wp_mono_of_returns (freeVmmKvCache_spec hget) ?_
      rintro - w' ⟨hallocations, hreserved, -⟩
      exact h.freed hget hallocations hreserved

/-- **The registry over whole runs.** -/
theorem registryInv_runAllocator (hlawful : cuda.Lawful) (memory : Handle → Nat → UInt8)
    (ops : List AllocatorOp) : RegistryInv (runAllocator cuda memory ops) :=
  runAllocator_induction (registryInv_init memory) (fun _ op h => h.step hlawful op) ops

/-! ## 2. The page table -/

/-- Page `i` of the allocation is mapped, at full page size, to the handle listed
    for it. -/
def PageMirrored (s : DriverState) (alloc : VMMAllocation) (i : Nat) : Prop :=
  ∀ handle, alloc.handles[i]? = some handle →
    ∃ access, s.pages.get? (alloc.pageVa i) = some ⟨alloc.pageSize, handle, access⟩

def Mirrors (s : DriverState) (alloc : VMMAllocation) : Prop := ∀ i, PageMirrored s alloc i

/-- A listed page starts inside the range of its allocation. -/
theorem Registered.page_inRange {s : DriverState} {va : Nat} {alloc : VMMAllocation}
    (h : Registered s va alloc) {i : Nat} (hi : i < alloc.handles.length) :
    inRange alloc.vaPtr alloc.totalBytes (alloc.pageVa i) = true := by
  have hbounds := pageVa_inRange h.sized hi
  have hpos := h.pageSize_pos
  rw [inRange_iff]
  omega

/-- Disjoint ranges have no address in common. -/
theorem RangesDisjoint.not_inRange {r q : Nat × Nat} (h : RangesDisjoint r q) {p : Nat}
    (hp : inRange q.1 q.2 p = true) : inRange r.1 r.2 p = false := by
  rw [inRange_iff] at hp
  rw [← Bool.not_eq_true, inRange_iff]
  unfold RangesDisjoint at h
  omega

/-- A page stays as listed while only pages outside the range of its allocation
    change. -/
theorem PageMirrored.frame {s s' s₀ : DriverState} {va : Nat} {alloc : VMMAllocation} {i : Nat}
    (h : PageMirrored s alloc i) (hreg : Registered s₀ va alloc) {r : Nat × Nat}
    (hdisjoint : RangesDisjoint r (alloc.vaPtr, alloc.totalBytes))
    (hothers : ∀ p, inRange r.1 r.2 p = false → s'.pages.get? p = s.pages.get? p) :
    PageMirrored s' alloc i := by
  intro handle hi
  have hin := hreg.page_inRange (List.getElem?_eq_some_iff.mp hi).1
  rw [hothers _ (hdisjoint.not_inRange hin)]
  exact h handle hi

/-- A block of an allocation lies inside its range. -/
theorem block_outside {alloc : VMMAllocation}
    (hsized : alloc.handles.length * alloc.pageSize = alloc.totalBytes) {block : Nat}
    (hblock : block < alloc.handles.length) {p : Nat}
    (hp : inRange alloc.vaPtr alloc.totalBytes p = false) :
    inRange (alloc.pageVa block) alloc.pageSize p = false := by
  have hbounds := pageVa_inRange hsized hblock
  rw [← Bool.not_eq_true, inRange_iff] at hp ⊢
  omega

/-- Two pages of one allocation do not overlap. -/
theorem pageVa_apart (alloc : VMMAllocation) {i j : Nat} (hne : i ≠ j) :
    inRange (alloc.pageVa i) alloc.pageSize (alloc.pageVa j) = false := by
  rw [← Bool.not_eq_true, inRange_iff]
  unfold VMMAllocation.pageVa
  rcases Nat.lt_or_gt_of_ne hne with hlt | hgt
  · have hmul : (i + 1) * alloc.pageSize ≤ j * alloc.pageSize := Nat.mul_le_mul_right _ hlt
    rw [Nat.succ_mul] at hmul
    omega
  · have hmul : (j + 1) * alloc.pageSize ≤ i * alloc.pageSize := Nat.mul_le_mul_right _ hgt
    rw [Nat.succ_mul] at hmul
    by_cases hpos : 0 < alloc.pageSize <;> omega

/-- Pages outside a remapped block are as before. -/
theorem BlockMapped.others {blockVa pageSize : Nat} {handle : Handle} {access : List DeviceId}
    {s s' : DriverState} (h : BlockMapped blockVa pageSize handle access s s')
    (hpage : 0 < pageSize) {p : Nat} (hp : inRange blockVa pageSize p = false) :
    s'.pages.get? p = s.pages.get? p := by
  have hne : p ≠ blockVa := by
    intro heq
    rw [heq, ← Bool.not_eq_true, inRange_iff] at hp
    omega
  rw [h p, if_neg hne, if_neg (by simp [hp])]

/-- Swapping a block keeps the pages of its allocation as listed. -/
theorem PageMirrored.swapped {s s' : DriverState} {alloc : VMMAllocation} {i : Nat}
    (h : PageMirrored s alloc i) (hpage : 0 < alloc.pageSize) {block : Nat} {handle : Handle}
    {access : List DeviceId}
    (hmapped : BlockMapped (alloc.pageVa block) alloc.pageSize handle access s s') :
    PageMirrored s' { alloc with handles := alloc.handles.set block handle } i := by
  intro other hi
  by_cases hblock : block = i
  · subst hblock
    have hlt : block < alloc.handles.length := by
      have := (List.getElem?_eq_some_iff.mp hi).1
      rwa [List.length_set] at this
    rw [List.getElem?_set_self hlt, Option.some.injEq] at hi
    subst hi
    exact ⟨access, by rw [hmapped]; exact if_pos rfl⟩
  · rw [List.getElem?_set_ne hblock] at hi
    have hsame := hmapped.others hpage (pageVa_apart alloc hblock)
    obtain ⟨access', hget⟩ := h other hi
    exact ⟨access', hsame.trans hget⟩

/-- The registry, the reservations and the page table say the same. -/
structure MappingInv (w : AllocatorState) : Prop extends RegistryInv w where
  mirrors : ∀ va alloc, w.allocations.get? va = some alloc → Mirrors w.driver alloc
  mappedOnly : ∀ p page, w.driver.pages.get? p = some page →
    ∃ va alloc i, w.allocations.get? va = some alloc ∧ i < alloc.handles.length ∧
      p = alloc.pageVa i
  reservedOnly : ∀ r ∈ w.driver.reserved,
    ∃ va alloc, w.allocations.get? va = some alloc ∧ r = (alloc.vaPtr, alloc.totalBytes)

theorem mappingInv_init (memory : Handle → Nat → UInt8) :
    MappingInv (AllocatorState.init memory) where
  toRegistryInv := registryInv_init memory
  mirrors := by
    intro va alloc hget
    cases hget
  mappedOnly := by
    intro p page hget
    cases hget
  reservedOnly := by
    intro r hr
    cases hr

/-! ## 3. One call and whole runs -/

theorem MappingInv.of_same (h : MappingInv w) (hallocations : w'.allocations = w.allocations)
    (hreserved : w'.driver.reserved = w.driver.reserved)
    (hpages : w'.driver.pages = w.driver.pages) : MappingInv w' where
  toRegistryInv := h.toRegistryInv.of_same hallocations hreserved
  mirrors := by
    intro va alloc hget
    unfold Mirrors PageMirrored
    rw [hpages]
    exact h.mirrors va alloc (by rw [← hallocations]; exact hget)
  mappedOnly := by
    rw [hpages, hallocations]
    exact h.mappedOnly
  reservedOnly := by
    rw [hreserved, hallocations]
    exact h.reservedOnly

theorem MappingInv.allocated (hlawful : cuda.Lawful) (h : MappingInv w) {sizeBytes : Nat}
    (hsize : 0 < sizeBytes) {deviceId : DeviceId} {alloc : VMMAllocation}
    (hnew : Allocated cuda sizeBytes deviceId w w' alloc) : MappingInv w' := by
  have hapart := hnew.disjoint hlawful
  have hself : w'.allocations.get? alloc.vaPtr = some alloc := by
    rw [hnew.registered, Dict.get?_set_self]
  have hkept : ∀ va other, w.allocations.get? va = some other →
      w'.allocations.get? va = some other := fun _ _ => h.kept hlawful hsize hnew
  refine
    { toRegistryInv := h.toRegistryInv.allocated hlawful hsize hnew
      mirrors := ?_
      mappedOnly := ?_
      reservedOnly := ?_ }
  · intro va other hget
    rw [hnew.registered, Dict.get?_set] at hget
    by_cases hva : va = alloc.vaPtr
    · rw [if_pos hva, Option.some.injEq] at hget
      subst hget
      exact fun i handle hi => ⟨_, hnew.mapped i handle hi⟩
    · rw [if_neg hva] at hget
      have hreg := h.entries va other hget
      exact fun i => (h.mirrors va other hget i).frame hreg (hapart _ hreg.reserved) hnew.others
  · intro p page hpage
    by_cases hnewPage : ∃ i < alloc.handles.length, p = alloc.pageVa i
    · obtain ⟨i, hi, rfl⟩ := hnewPage
      exact ⟨alloc.vaPtr, alloc, i, hself, hi, rfl⟩
    · -- an old page: it was mapped before, hence by an old allocation
      push Not at hnewPage
      cases hold : w.driver.pages.get? p with
      | none =>
        rw [hnew.nothingElse p hnewPage hold] at hpage
        cases hpage
      | some oldPage =>
        obtain ⟨va, other, i, hget, hi, rfl⟩ := h.mappedOnly p oldPage hold
        exact ⟨va, other, i, hkept va other hget, hi, rfl⟩
  · intro r hr
    rw [hnew.reserved] at hr
    rcases List.mem_cons.mp hr with rfl | hr
    · exact ⟨alloc.vaPtr, alloc, hself, rfl⟩
    · obtain ⟨va, other, hget, rfl⟩ := h.reservedOnly r hr
      exact ⟨va, other, hkept va other hget, rfl⟩

theorem MappingInv.swapped (h : MappingInv w) {va : Nat} {alloc : VMMAllocation}
    (hget : w.allocations.get? va = some alloc) {block : Nat} (hblock : block < alloc.handles.length)
    {handle : Handle}
    (hallocations : w'.allocations =
      w.allocations.set va { alloc with handles := alloc.handles.set block handle })
    (hdriver : SameButPages w.driver w'.driver) {access : List DeviceId}
    (hmapped : BlockMapped (alloc.pageVa block) alloc.pageSize handle access w.driver w'.driver) :
    MappingInv w' := by
  have hreserved : w'.driver.reserved = w.driver.reserved := by rw [← hdriver]
  have hreg := h.entries va alloc hget
  -- an entry is still there, with handles of the same number
  have hkept : ∀ va' other, w.allocations.get? va' = some other →
      ∃ other', w'.allocations.get? va' = some other' ∧ other'.vaPtr = other.vaPtr ∧
        other'.pageSize = other.pageSize ∧ other'.totalBytes = other.totalBytes ∧
        other'.handles.length = other.handles.length := by
    intro va' other hget'
    by_cases hva : va' = va
    · subst hva
      rw [hget, Option.some.injEq] at hget'
      subst hget'
      exact ⟨{ alloc with handles := alloc.handles.set block handle },
        by rw [hallocations, Dict.get?_set_self], rfl, rfl, rfl, List.length_set⟩
    · exact ⟨other, by rw [hallocations, Dict.get?_set_of_ne _ _ hva, hget'], rfl, rfl, rfl, rfl⟩
  refine
    { toRegistryInv := h.toRegistryInv.swapped hget block handle hallocations hreserved
      mirrors := ?_
      mappedOnly := ?_
      reservedOnly := ?_ }
  · intro va' other hget'
    rw [hallocations, Dict.get?_set] at hget'
    by_cases hva : va' = va
    · rw [if_pos hva, Option.some.injEq] at hget'
      subst hget'
      exact fun i => (h.mirrors va alloc hget i).swapped hreg.pageSize_pos hmapped
    · rw [if_neg hva] at hget'
      refine fun i => (h.mirrors va' other hget' i).frame (h.entries va' other hget')
        (h.ranges_disjoint hget hget' (Ne.symm hva)) ?_
      exact fun p hp => hmapped.others hreg.pageSize_pos (block_outside hreg.sized hblock hp)
  · intro p page hpage
    have hold : ∃ va' other i, w.allocations.get? va' = some other ∧ i < other.handles.length ∧
        p = other.pageVa i := by
      by_cases hp : p = alloc.pageVa block
      · exact ⟨va, alloc, block, hget, hblock, hp⟩
      · rw [hmapped p, if_neg hp] at hpage
        split at hpage
        · cases hpage
        · exact h.mappedOnly p page hpage
    obtain ⟨va', other, i, hget', hi, rfl⟩ := hold
    obtain ⟨other', hget'', hva, hsize, -, hlen⟩ := hkept va' other hget'
    exact ⟨va', other', i, hget'', hlen ▸ hi, by simp only [VMMAllocation.pageVa, hva, hsize]⟩
  · intro r hr
    rw [hreserved] at hr
    obtain ⟨va', other, hget', rfl⟩ := h.reservedOnly r hr
    obtain ⟨other', hget'', hva, -, htotal, -⟩ := hkept va' other hget'
    exact ⟨va', other', hget'', by rw [hva, htotal]⟩

theorem MappingInv.freed (h : MappingInv w) {va : Nat} {alloc : VMMAllocation}
    (hget : w.allocations.get? va = some alloc)
    (hallocations : w'.allocations = w.allocations.erase va)
    (hreserved : w'.driver.reserved = w.driver.reserved.erase (alloc.vaPtr, alloc.totalBytes))
    (hpages : w'.driver.pages = w.driver.pages.filterKeys fun start =>
      !inRange alloc.vaPtr alloc.totalBytes start) : MappingInv w' := by
  have hothers : ∀ p, inRange alloc.vaPtr alloc.totalBytes p = false →
      w'.driver.pages.get? p = w.driver.pages.get? p := by
    intro p hp
    simp only [hpages, Dict.get?_filterKeys, hp, Bool.not_false, if_true]
  refine
    { toRegistryInv := h.toRegistryInv.freed hget hallocations (Or.inr hreserved)
      mirrors := ?_
      mappedOnly := ?_
      reservedOnly := ?_ }
  · intro va' other hget'
    rw [hallocations, Dict.get?_erase] at hget'
    by_cases hva : va' = va
    · rw [if_pos hva] at hget'
      cases hget'
    · rw [if_neg hva] at hget'
      exact fun i => (h.mirrors va' other hget' i).frame (h.entries va' other hget')
        (h.ranges_disjoint hget hget' (Ne.symm hva)) hothers
  · intro p page hpage
    simp only [hpages, Dict.get?_filterKeys] at hpage
    by_cases hp : inRange alloc.vaPtr alloc.totalBytes p
    · rw [hp] at hpage
      cases hpage
    · rw [if_pos (by simp [hp])] at hpage
      obtain ⟨va', other, i, hget', hi, rfl⟩ := h.mappedOnly p page hpage
      have hva : va' ≠ va := by
        rintro rfl
        rw [hget, Option.some.injEq] at hget'
        subst hget'
        exact hp ((h.entries va' alloc hget).page_inRange hi)
      exact ⟨va', other, i, by rw [hallocations, Dict.get?_erase_of_ne _ hva, hget'], hi, rfl⟩
  · intro r hr
    rw [hreserved] at hr
    obtain ⟨va', other, hget', rfl⟩ := h.reservedOnly r (List.mem_of_mem_erase hr)
    have hva : va' ≠ va := by
      rintro rfl
      rw [hget, Option.some.injEq] at hget'
      subst hget'
      -- no reservation occurs twice, so the erased one is gone
      have hreg := h.entries va' alloc hget
      exact not_mem_erase_of_disjoint h.disjoint hreg.reserved hreg.nonempty hr
    exact ⟨va', other, by rw [hallocations, Dict.get?_erase_of_ne _ hva, hget'], rfl⟩

/-- **One call keeps the invariant.** -/
theorem MappingInv.step (hlawful : cuda.Lawful) (hsucceeds : cuda.Succeeds) (h : MappingInv w)
    (op : AllocatorOp) : MappingInv (op.step cuda w) := by
  refine finalState_of_wp (wp_mono (op.exec_effect hsucceeds) ?_ ?_)
  · intro given w' heffect
    cases heffect with
    | @allocated sizeBytes device alloc hnew => exact h.allocated hlawful sizeBytes.2 hnew
    | created hallocations _ hdriver =>
      exact h.of_same hallocations (by rw [← hdriver]) (by rw [← hdriver])
    | remapped hget hold hallocations hdriver hpages =>
      exact h.swapped hget (List.getElem?_eq_some_iff.mp hold).1 hallocations hdriver
        (hpages (h.entries _ _ hget).pageSize_pos)
    | released hallocations hdriver _ _ =>
      exact h.of_same hallocations (by rw [← hdriver]) (by rw [← hdriver])
    | unregistered hsame =>
      rw [hsame]
      exact h
    | freed hget hallocations hdriver =>
      exact h.freed hget hallocations (by rw [← hdriver]) (by rw [← hdriver])
  · rintro e w' ⟨rfl, -⟩
    exact h

theorem mappingInv_runAllocator (hlawful : cuda.Lawful) (hsucceeds : cuda.Succeeds)
    (memory : Handle → Nat → UInt8) (ops : List AllocatorOp) :
    MappingInv (runAllocator cuda memory ops) :=
  runAllocator_induction (mappingInv_init memory) (fun _ op h => h.step hlawful hsucceeds op) ops

/-! ## 4. The invariant in the allocator's own terms -/

/-- The address lies in a reserved range. -/
def DriverState.reservedAt (s : DriverState) (a : Nat) : Prop :=
  ∃ r ∈ s.reserved, inRange r.1 r.2 a = true

/-- The address lies in a mapped page. -/
def DriverState.mappedAt (s : DriverState) (a : Nat) : Prop :=
  ∃ p page, s.pages.get? p = some page ∧ inRange p page.size a = true

structure MappingInvariant (w : AllocatorState) : Prop where
  /-- Every entry is keyed by its own `va_ptr`. -/
  keyed : ∀ va alloc, w.allocations.get? va = some alloc → va = alloc.vaPtr
  /-- `len(handles) * page_size = total_bytes`, with pages of positive size. -/
  sized : ∀ va alloc, w.allocations.get? va = some alloc →
    0 < alloc.pageSize ∧ alloc.handles.length * alloc.pageSize = alloc.totalBytes
  /-- The page at `va_ptr + i * page_size` is mapped at full size to `handles[i]`. -/
  mapped : ∀ va alloc, w.allocations.get? va = some alloc → ∀ i, ∀ hi : i < alloc.numPages,
    ∃ page, w.driver.pages.get? (alloc.vaPtr + i * alloc.pageSize) = some page ∧
      page.size = alloc.pageSize ∧ page.handle = alloc.handles.get ⟨i, hi⟩
  /-- Pages of different allocations are disjoint. -/
  pagesDisjoint : ∀ va alloc va' alloc', w.allocations.get? va = some alloc →
    w.allocations.get? va' = some alloc' → va ≠ va' →
    ∀ i < alloc.numPages, ∀ j < alloc'.numPages,
      RangesDisjoint (alloc.pageVa i, alloc.pageSize) (alloc'.pageVa j, alloc'.pageSize)
  /-- No address outside the registered allocations is reserved or mapped. -/
  nothingLeft : ∀ a, w.driver.reservedAt a ∨ w.driver.mappedAt a →
    ∃ va alloc, w.allocations.get? va = some alloc ∧
      inRange alloc.vaPtr alloc.totalBytes a = true

/-- An address in a page of an allocation is in the range of the allocation. -/
theorem Registered.inRange_of_page {s : DriverState} {va : Nat} {alloc : VMMAllocation}
    (h : Registered s va alloc) {i a : Nat} (hi : i < alloc.handles.length)
    (ha : inRange (alloc.pageVa i) alloc.pageSize a = true) :
    inRange alloc.vaPtr alloc.totalBytes a = true := by
  have hbounds := pageVa_inRange h.sized hi
  rw [inRange_iff] at ha ⊢
  omega

theorem MappingInv.mappingInvariant (h : MappingInv w) : MappingInvariant w where
  keyed := fun va alloc hget => (h.entries va alloc hget).keyed.symm
  sized := fun va alloc hget =>
    ⟨(h.entries va alloc hget).pageSize_pos, (h.entries va alloc hget).sized⟩
  mapped := by
    intro va alloc hget i hi
    obtain ⟨access, hpage⟩ := h.mirrors va alloc hget i _ (List.getElem?_eq_getElem hi)
    exact ⟨_, hpage, rfl, rfl⟩
  pagesDisjoint := by
    intro va alloc va' alloc' hget hget' hne i hi j hj
    have hbounds := pageVa_inRange (h.entries va alloc hget).sized hi
    have hbounds' := pageVa_inRange (h.entries va' alloc' hget').sized hj
    have hapart := h.ranges_disjoint hget hget' hne
    simp only [RangesDisjoint] at hapart ⊢
    omega
  nothingLeft := by
    rintro a (⟨r, hr, ha⟩ | ⟨p, page, hpage, ha⟩)
    · obtain ⟨va, alloc, hget, rfl⟩ := h.reservedOnly r hr
      exact ⟨va, alloc, hget, ha⟩
    · obtain ⟨va, alloc, i, hget, hi, rfl⟩ := h.mappedOnly p page hpage
      obtain ⟨access, hlisted⟩ := h.mirrors va alloc hget i _ (List.getElem?_eq_getElem hi)
      rw [hpage, Option.some.injEq] at hlisted
      subst hlisted
      exact ⟨va, alloc, hget, (h.entries va alloc hget).inRange_of_page hi ha⟩

/-- **The mapping invariant.**  With a driver that keeps reservations disjoint,
    creates fresh handles and does not fail, the registry mirrors the page table
    after every run of allocations, handle creations, remaps, releases and frees,
    whatever handles are remapped or released. -/
theorem mappingInvariant_runAllocator (cuda : Cuda) (hlawful : cuda.Lawful)
    (hsucceeds : cuda.Succeeds) (memory : Handle → Nat → UInt8) (ops : List AllocatorOp) :
    MappingInvariant (runAllocator cuda memory ops) :=
  (mappingInv_runAllocator hlawful hsucceeds memory ops).mappingInvariant

/-- Two tensors, a block swapped, the old handle released, one tensor freed. -/
theorem mappingInvariant_swap_and_free :
    MappingInvariant (runAllocator .bump (fun _ _ => 0)
      [.allocateVmmKvCache 5000000 ⟨none⟩, .allocateVmmKvCache 1 ⟨some 1⟩,
        .createPhysicalHandle 2097152 0, .remapBlock ⟨0, 5000000, 0⟩ 1 5,
        .releasePhysicalHandle 2, .freeVmmKvCache ⟨0, 5000000, 0⟩]) :=
  mappingInvariant_runAllocator .bump Cuda.bump_lawful Cuda.bump_succeeds _ _

end Edmm
