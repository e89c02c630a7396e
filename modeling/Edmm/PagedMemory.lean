/-
  Edmm/PagedMemory.lean
  =====================
  **VMM-backed tensors against `torch.zeros`.**

  Two machines answer the same operations: allocate a tensor, read one byte, write
  one byte.  `PagedMemory` runs `allocate_vmm_kv_cache` and goes through the page
  table for every access; `FlatMemory` keeps one zero-initialised byte array per
  tensor.  Tensors are named by the order in which they were returned, and an
  offset outside a tensor is rejected by both.  Driver calls may fail: an allocation
  that raises returns no tensor and disturbs none.

  The proof is a simulation.  The page table sends byte `o` of an allocation to
  byte `o % page_size` of its handle number `o / page_size`
  (`PagedInv.translate_eq`), and since no handle is installed twice this map is
  injective over all allocations (`cell_injective`); so a write is seen by exactly
  one byte of one tensor.

  The result of `cudaMemset` is dropped, so the arrays are zero only if the driver
  accepted it, or the bytes were zero before (`allocatesZeros_iff`).
-/
import Edmm.HandleConservation
import Edmm.FreeFailure

namespace Edmm

open Program

variable {cuda : Cuda} {w w' : AllocatorState}

/-! ## 1. From offsets to physical bytes -/

/-- What stays of the mirror when driver calls fail: the pages of each registered
    allocation are mapped as listed and there are no others in its range.  Whatever else is
    mapped lies in a reservation too. -/
structure PagedInv (w : AllocatorState) : Prop extends RegistryInv w where
  mirrors : ∀ va alloc, w.allocations.get? va = some alloc → Mirrors w.driver alloc
  pagesReserved : ∀ p page, w.driver.pages.get? p = some page →
    0 < page.size ∧ ∃ r ∈ w.driver.reserved, r.1 ≤ p ∧ p + page.size ≤ r.1 + r.2
  listed : ∀ va alloc, w.allocations.get? va = some alloc → ∀ p page,
    w.driver.pages.get? p = some page → inRange alloc.vaPtr alloc.totalBytes p = true →
      ∃ i < alloc.handles.length, p = alloc.pageVa i

theorem MappingInv.paged (h : MappingInv w) : PagedInv w where
  toRegistryInv := h.toRegistryInv
  mirrors := h.mirrors
  pagesReserved := by
    intro p page hpage
    obtain ⟨va, alloc, i, hget, hi, rfl⟩ := h.mappedOnly p page hpage
    have hentry := h.entries va alloc hget
    have hbounds := pageVa_inRange hentry.sized hi
    obtain ⟨access, hlisted⟩ := h.mirrors va alloc hget i _ (List.getElem?_eq_getElem hi)
    rw [hpage, Option.some.injEq] at hlisted
    subst hlisted
    exact ⟨hentry.pageSize_pos, _, hentry.reserved, hbounds⟩
  listed := by
    intro va alloc hget p page hpage hin
    obtain ⟨va', alloc', i, hget', hi, rfl⟩ := h.mappedOnly p page hpage
    have hin' := (h.entries va' alloc' hget').page_inRange hi
    by_cases hva : va' = va
    · subst hva
      rw [hget, Option.some.injEq] at hget'
      subst hget'
      exact ⟨i, hi, rfl⟩
    · have hout := (h.ranges_disjoint hget' hget hva).not_inRange hin
      rw [hin'] at hout
      cases hout

/-- A page that covers an address of a registered allocation is one of its pages. -/
theorem PagedInv.page_of_cover (h : PagedInv w) {va : Nat} {alloc : VMMAllocation} {a p : Nat}
    {page : PageMapping} (hget : w.allocations.get? va = some alloc)
    (ha : inRange alloc.vaPtr alloc.totalBytes a = true)
    (hpage : w.driver.pages.get? p = some page) (hcover : inRange p page.size a = true) :
    ∃ i < alloc.handles.length, p = alloc.pageVa i ∧ page.size = alloc.pageSize := by
  have hentry := h.entries va alloc hget
  obtain ⟨hpos, r, hr, hstart, hend⟩ := h.pagesReserved p page hpage
  -- the two reservations share the address, so they are the same
  have hsame : r = (alloc.vaPtr, alloc.totalBytes) := by
    by_contra hne
    have hapart := h.disjoint.forall hr hentry.reserved hne
    rw [inRange_iff] at ha hcover
    simp only [RangesDisjoint] at hapart
    omega
  subst hsame
  have hin : inRange alloc.vaPtr alloc.totalBytes p = true := by
    rw [inRange_iff]
    simp only at hstart hend
    omega
  obtain ⟨i, hi, rfl⟩ := h.listed va alloc hget p page hpage hin
  obtain ⟨access, hlisted⟩ := h.mirrors va alloc hget i _ (List.getElem?_eq_getElem hi)
  rw [hpage, Option.some.injEq] at hlisted
  exact ⟨i, hi, rfl, by rw [hlisted]⟩

/-- The page table finds the listed page of an address. -/
theorem PagedInv.pageAt_eq (h : PagedInv w) {va : Nat} {alloc : VMMAllocation} {i a : Nat}
    {page : PageMapping} (hget : w.allocations.get? va = some alloc)
    (hi : i < alloc.handles.length) (hpage : w.driver.pages.get? (alloc.pageVa i) = some page)
    (ha : inRange (alloc.pageVa i) alloc.pageSize a = true) :
    w.driver.pageAt a = some (alloc.pageVa i, page) := by
  have hentry := h.entries va alloc hget
  have hin := hentry.inRange_of_page hi ha
  have hsize : page.size = alloc.pageSize := by
    obtain ⟨access, hlisted⟩ := h.mirrors va alloc hget i _ (List.getElem?_eq_getElem hi)
    rw [hpage, Option.some.injEq] at hlisted
    rw [hlisted]
  unfold DriverState.pageAt
  cases hfind : w.driver.pages.items.find? fun item => inRange item.1 item.2.size a with
  | none =>
    have hnone := List.find?_eq_none.mp hfind _ (Dict.mem_items_iff.mpr hpage)
    simp only [hsize, ha, not_true_eq_false] at hnone
  | some item =>
    obtain ⟨p, page'⟩ := item
    have hcover := List.find?_some hfind
    have hpage' := Dict.mem_items_iff.mp (List.mem_of_find?_eq_some hfind)
    obtain ⟨j, hj, rfl, hsize'⟩ := h.page_of_cover hget hin hpage' hcover
    simp only [hsize'] at hcover
    have hfirst := (inRange_page_iff alloc.vaPtr hentry.pageSize_pos i a).mp ha
    have hsecond := (inRange_page_iff alloc.vaPtr hentry.pageSize_pos j a).mp hcover
    obtain rfl : i = j := hfirst.2.symm.trans hsecond.2
    rw [hpage, Option.some.injEq] at hpage'
    rw [hpage']

theorem MappingInv.pageAt_eq (h : MappingInv w) {va : Nat} {alloc : VMMAllocation} {i a : Nat}
    {page : PageMapping} (hget : w.allocations.get? va = some alloc)
    (hi : i < alloc.handles.length) (hpage : w.driver.pages.get? (alloc.pageVa i) = some page)
    (ha : inRange (alloc.pageVa i) alloc.pageSize a = true) :
    w.driver.pageAt a = some (alloc.pageVa i, page) :=
  h.paged.pageAt_eq hget hi hpage ha

/-- The physical byte behind an offset of an allocation. -/
def VMMAllocation.cell (alloc : VMMAllocation) (offset : Nat) : Handle × Nat :=
  (alloc.handles.getD (offset / alloc.pageSize) 0, offset % alloc.pageSize)

/-- Every page of the allocation is mapped and accessible to the device. -/
def Accessible (s : DriverState) (alloc : VMMAllocation) (device : DeviceId) : Prop :=
  ∀ i handle, alloc.handles[i]? = some handle → ∃ access,
    s.pages.get? (alloc.pageVa i) = some ⟨alloc.pageSize, handle, access⟩ ∧ device ∈ access

/-- An offset of an allocation lies in its page number `offset / page_size`. -/
theorem Registered.page_of_offset {s : DriverState} {va : Nat} {alloc : VMMAllocation}
    (h : Registered s va alloc) {offset : Nat} (ho : offset < alloc.totalBytes) :
    offset / alloc.pageSize < alloc.handles.length ∧
      alloc.vaPtr + offset = alloc.pageVa (offset / alloc.pageSize) + offset % alloc.pageSize := by
  have hdiv := Nat.div_add_mod offset alloc.pageSize
  rw [Nat.mul_comm] at hdiv
  refine ⟨?_, by unfold VMMAllocation.pageVa; omega⟩
  rw [Nat.div_lt_iff_lt_mul h.pageSize_pos, h.sized]
  exact ho

/-- **Translation.**  Byte `offset` of an allocation is its cell. -/
theorem PagedInv.translate_eq (h : PagedInv w) {va : Nat} {alloc : VMMAllocation}
    (hget : w.allocations.get? va = some alloc) {device : DeviceId}
    (haccess : Accessible w.driver alloc device) {offset : Nat} (ho : offset < alloc.totalBytes) :
    w.driver.translate device (va + offset) = some (alloc.cell offset) := by
  have hentry := h.entries va alloc hget
  obtain ⟨hi, hsplit⟩ := hentry.page_of_offset ho
  have hmod := Nat.mod_lt offset hentry.pageSize_pos
  obtain ⟨access, hpage, hdevice⟩ := haccess _ _ (List.getElem?_eq_getElem hi)
  have hin : inRange (alloc.pageVa (offset / alloc.pageSize)) alloc.pageSize (va + offset) =
      true := by
    rw [inRange_iff, ← hentry.keyed, hsplit]
    omega
  unfold DriverState.translate
  rw [h.pageAt_eq hget hi hpage hin]
  simp only [if_pos hdevice, VMMAllocation.cell, List.getD_eq_getElem?_getD,
    List.getElem?_eq_getElem hi, Option.getD_some, Option.some.injEq, Prod.mk.injEq, true_and]
  rw [← hentry.keyed, hsplit]
  omega

theorem MappingInv.translate_eq (h : MappingInv w) {va : Nat} {alloc : VMMAllocation}
    (hget : w.allocations.get? va = some alloc) {device : DeviceId}
    (haccess : Accessible w.driver alloc device) {offset : Nat} (ho : offset < alloc.totalBytes) :
    w.driver.translate device (va + offset) = some (alloc.cell offset) :=
  h.paged.translate_eq hget haccess ho

/-- **No aliasing.**  With no handle installed twice, different offsets of the
    allocations are different physical bytes. -/
theorem cell_injective (hreg : RegistryInv w)
    (hcount : ∀ x, w.allocations.installed.count x ≤ 1) {va va' : Nat}
    {alloc alloc' : VMMAllocation} {offset offset' : Nat}
    (hget : w.allocations.get? va = some alloc) (ho : offset < alloc.totalBytes)
    (hget' : w.allocations.get? va' = some alloc') (ho' : offset' < alloc'.totalBytes)
    (hcell : alloc.cell offset = alloc'.cell offset') : va = va' ∧ offset = offset' := by
  obtain ⟨hi, -⟩ := (hreg.entries va alloc hget).page_of_offset ho
  obtain ⟨hi', -⟩ := (hreg.entries va' alloc' hget').page_of_offset ho'
  simp only [VMMAllocation.cell, List.getD_eq_getElem?_getD, List.getElem?_eq_getElem hi,
    List.getElem?_eq_getElem hi', Option.getD_some, Prod.mk.injEq] at hcell
  obtain ⟨hhandle, hmod⟩ := hcell
  obtain ⟨rfl, hdiv⟩ := installed_unique hcount hget (List.getElem?_eq_getElem hi) hget'
    (by rw [hhandle]; exact List.getElem?_eq_getElem hi')
  rw [hget, Option.some.injEq] at hget'
  subst hget'
  refine ⟨rfl, ?_⟩
  rw [← Nat.div_add_mod offset alloc.pageSize, ← Nat.div_add_mod offset' alloc.pageSize, hdiv, hmod]

/-- The bytes that the zeroing of a range reaches are the bytes of its pages. -/
theorem PagedInv.shows_iff (h : PagedInv w) (hcount : ∀ x, w.allocations.installed.count x ≤ 1)
    {va va' : Nat} {alloc alloc' : VMMAllocation} {offset : Nat}
    (hget : w.allocations.get? va = some alloc) (ho : offset < alloc.totalBytes)
    (hget' : w.allocations.get? va' = some alloc') :
    w.driver.shows alloc'.vaPtr alloc'.totalBytes (alloc.cell offset).1 (alloc.cell offset).2 =
      true ↔ va = va' := by
  have hentry := h.entries va alloc hget
  obtain ⟨hi, hsplit⟩ := hentry.page_of_offset ho
  have hmod := Nat.mod_lt offset hentry.pageSize_pos
  have hhandle : (alloc.cell offset).1 = alloc.handles[offset / alloc.pageSize] := by
    simp only [VMMAllocation.cell, List.getD_eq_getElem?_getD, List.getElem?_eq_getElem hi,
      Option.getD_some]
  simp only [DriverState.shows, List.any_eq_true, Bool.and_eq_true, decide_eq_true_eq, Prod.exists,
    Dict.mem_items_iff]
  constructor
  · rintro ⟨p, page, hpage, ⟨hpage_handle, hlt⟩, hin⟩
    have hcover : inRange p page.size (p + (alloc.cell offset).2) = true := by
      rw [inRange_iff]
      omega
    -- the page that shows the byte is one of `alloc'`, and its handle is installed once
    obtain ⟨j, hj, rfl, -⟩ := h.page_of_cover hget' hin hpage hcover
    obtain ⟨access, hlisted⟩ := h.mirrors va' alloc' hget' j _ (List.getElem?_eq_getElem hj)
    rw [hpage, Option.some.injEq] at hlisted
    subst hlisted
    exact (installed_unique hcount hget (List.getElem?_eq_getElem hi) hget'
      (by rw [List.getElem?_eq_getElem hj, ← hhandle]; exact congrArg some hpage_handle)).1
  · rintro rfl
    rw [hget, Option.some.injEq] at hget'
    subst hget'
    obtain ⟨access, hpage⟩ := h.mirrors va alloc hget _ _ (List.getElem?_eq_getElem hi)
    refine ⟨_, _, hpage, ⟨hhandle.symm, hmod⟩, ?_⟩
    rw [inRange_iff]
    simp only [VMMAllocation.cell]
    omega

/-! ## 2. Allocations, some of which fail -/

/-- No live handle occurs twice, and the installed ones are alive. -/
structure InstalledLive (w : AllocatorState) : Prop where
  nodup : w.driver.live.Nodup
  installed : ∀ h, w.allocations.installed.count h ≤ w.driver.live.count h

/-- No handle is installed twice. -/
theorem InstalledLive.once (h : InstalledLive w) (x : Handle) :
    w.allocations.installed.count x ≤ 1 :=
  Nat.le_trans (h.installed x) (List.nodup_iff_count_le_one.mp h.nodup x)

theorem InstalledLive.allocated (hlawful : cuda.Lawful) (h : InstalledLive w) {sizeBytes : Nat}
    {deviceId : DeviceId} {alloc : VMMAllocation}
    (hnew : Allocated cuda sizeBytes deviceId w w' alloc)
    (hfresh : w.allocations.get? alloc.vaPtr = none) : InstalledLive w' where
  nodup := hnew.liveNodup hlawful h.nodup
  installed := by
    intro x
    have hold := h.installed x
    rw [hnew.registered, hnew.live, count_installed_set_of_absent _ hfresh, List.count_append,
      List.count_reverse]
    omega

/-- Nothing is mapped in a range that overlaps no reservation. -/
theorem PagedInv.not_mapped (h : PagedInv w) {r : Nat × Nat}
    (hdisjoint : ∀ q ∈ w.driver.reserved, RangesDisjoint r q) {p : Nat}
    (hp : inRange r.1 r.2 p = true) : w.driver.pages.get? p = none := by
  cases hpage : w.driver.pages.get? p with
  | none => rfl
  | some page =>
    obtain ⟨hpos, q, hq, hstart, hend⟩ := h.pagesReserved p page hpage
    have hapart := hdisjoint q hq
    rw [inRange_iff] at hp
    simp only [RangesDisjoint] at hapart
    omega

/-- The registered allocations do not notice what happens in a range of its own. -/
theorem PagedInv.frame (h : PagedInv w) {r : Nat × Nat} {s' : DriverState}
    (hdisjoint : ∀ q ∈ w.driver.reserved, RangesDisjoint r q)
    (hothers : ∀ p, inRange r.1 r.2 p = false → s'.pages.get? p = w.driver.pages.get? p)
    {va : Nat} {alloc : VMMAllocation} (hget : w.allocations.get? va = some alloc) :
    Mirrors s' alloc ∧ ∀ p page, s'.pages.get? p = some page →
      inRange alloc.vaPtr alloc.totalBytes p = true →
        ∃ i < alloc.handles.length, p = alloc.pageVa i := by
  have hentry := h.entries va alloc hget
  have hapart := hdisjoint _ hentry.reserved
  refine ⟨fun i => (h.mirrors va alloc hget i).frame hentry hapart hothers, ?_⟩
  intro p page hpage hin
  rw [hothers p (hapart.not_inRange hin)] at hpage
  exact h.listed va alloc hget p page hpage hin

theorem PagedInv.allocated (hlawful : cuda.Lawful) (h : PagedInv w) {sizeBytes : Nat}
    (hsize : 0 < sizeBytes) {deviceId : DeviceId} {alloc : VMMAllocation}
    (hnew : Allocated cuda sizeBytes deviceId w w' alloc) : PagedInv w' := by
  have hdisjoint := hnew.disjoint hlawful
  -- what is mapped in the new range are the pages of the new allocation
  have hpages : ∀ p page, w'.driver.pages.get? p = some page →
      inRange alloc.vaPtr alloc.totalBytes p = true →
        ∃ i < alloc.handles.length, p = alloc.pageVa i := by
    intro p page hpage hin
    by_contra hnone
    push Not at hnone
    rw [hnew.nothingElse p hnone (h.not_mapped hdisjoint hin)] at hpage
    cases hpage
  have hregistered : ∀ va other, w'.allocations.get? va = some other →
      other = alloc ∨ w.allocations.get? va = some other := by
    intro va other hget
    rw [hnew.registered, Dict.get?_set] at hget
    split at hget
    · exact Or.inl (Option.some.inj hget).symm
    · exact Or.inr hget
  refine
    { toRegistryInv := h.toRegistryInv.allocated hlawful hsize hnew
      mirrors := fun va other hget => ?_
      pagesReserved := fun p page hpage => ?_
      listed := fun va other hget => ?_ }
  · rcases hregistered va other hget with rfl | hold
    · exact fun i handle hi => ⟨_, hnew.mapped i handle hi⟩
    · exact (h.frame hdisjoint hnew.others hold).1
  · rw [hnew.reserved]
    cases hin : inRange alloc.vaPtr alloc.totalBytes p with
    | true =>
      obtain ⟨i, hi, rfl⟩ := hpages p page hpage hin
      rw [hnew.mapped i _ (List.getElem?_eq_getElem hi), Option.some.injEq] at hpage
      subst hpage
      exact ⟨hnew.pageSize_pos, _, List.mem_cons_self, pageVa_inRange hnew.sized hi⟩
    | false =>
      rw [hnew.others p hin] at hpage
      obtain ⟨hpos, q, hq, hbounds⟩ := h.pagesReserved p page hpage
      exact ⟨hpos, q, List.mem_cons_of_mem _ hq, hbounds⟩
  · rcases hregistered va other hget with rfl | hold
    · exact hpages
    · exact (h.frame hdisjoint hnew.others hold).2

/-- An allocation that raised changed pages of a range of its own, if any. -/
theorem AllocationLeftovers.range (hlawful : cuda.Lawful) (h : AllocationLeftovers cuda w w') :
    ∃ r : Nat × Nat, (∀ q ∈ w.driver.reserved, RangesDisjoint r q) ∧
      ∀ p, inRange r.1 r.2 p = false → w'.driver.pages.get? p = w.driver.pages.get? p := by
  obtain ⟨-, ⟨-, hpages⟩ | ⟨va, size, -, hdisjoint, hothers⟩⟩ := h
  · exact ⟨(0, 0), fun q _ => Or.inl (Nat.zero_le _), fun p _ => by rw [hpages]⟩
  · exact ⟨(va, size), hdisjoint hlawful, hothers⟩

/-- What an allocation that raised left: nothing, or a range with some pages mapped. -/
theorem AllocationCall.Leaves.cases {failed : AllocationCall} {s s' : DriverState}
    (h : failed.Leaves s s') : SameDriver s s' ∨ ∃ va size pageSize mapped unmapped,
      0 < pageSize ∧ mapped.length * pageSize ≤ size ∧
        LeftBehind s s' va size pageSize mapped unmapped := by
  cases failed with
  | cuMemGetAllocationGranularity => exact Or.inl h
  | cuMemAddressReserve => exact Or.inl h
  | cuMemCreate offset =>
    obtain ⟨va, size, pageSize, mapped, hpos, rfl, hlt, hleft⟩ := h
    exact Or.inr ⟨va, size, pageSize, mapped, _, hpos, Nat.le_of_lt hlt, hleft⟩
  | cuMemMap offset =>
    obtain ⟨va, size, pageSize, mapped, handle, hpos, rfl, hlt, hleft⟩ := h
    exact Or.inr ⟨va, size, pageSize, mapped, _, hpos, Nat.le_of_lt hlt, hleft⟩
  | cuMemSetAccess =>
    obtain ⟨va, size, pageSize, mapped, hpos, hsize, hleft⟩ := h
    exact Or.inr ⟨va, size, pageSize, mapped, _, hpos, Nat.le_of_eq hsize, hleft⟩

/-- **A failed allocation** disturbs no registered one. -/
theorem PagedInv.failed (hlawful : cuda.Lawful) (h : PagedInv w)
    (hleft : AllocationLeftovers cuda w w') {failed : AllocationCall}
    (hleaves : failed.Leaves w.driver w'.driver) : PagedInv w' := by
  obtain ⟨r, hdisjoint, hothers⟩ := hleft.range hlawful
  refine
    { toRegistryInv := h.toRegistryInv.leftovers hlawful hleft
      mirrors := fun va alloc hget => ?_
      pagesReserved := fun p page hpage => ?_
      listed := fun va alloc hget => ?_ }
  · rw [hleft.1] at hget
    exact (h.frame hdisjoint hothers hget).1
  · rcases hleaves.cases with hsame | ⟨va, size, pageSize, mapped, unmapped, hpos, hfit, hbehind⟩
    · rw [← hsame] at hpage ⊢
      exact h.pagesReserved p page hpage
    · rw [hbehind.reserved]
      by_cases hlisted : ∃ i < mapped.length, p = va + i * pageSize
      · obtain ⟨i, hi, rfl⟩ := hlisted
        rw [hbehind.pages i _ (List.getElem?_eq_getElem hi), Option.some.injEq] at hpage
        subst hpage
        have hbounds := page_bounds va pageSize hi
        refine ⟨hpos, _, List.mem_cons_self, hbounds.1, ?_⟩
        simp only
        omega
      · push Not at hlisted
        rw [hbehind.others p hlisted] at hpage
        obtain ⟨hpage_pos, q, hq, hbounds⟩ := h.pagesReserved p page hpage
        exact ⟨hpage_pos, q, List.mem_cons_of_mem _ hq, hbounds⟩
  · rw [hleft.1] at hget
    exact (h.frame hdisjoint hothers hget).2

theorem InstalledLive.failed (h : InstalledLive w) (hallocations : w'.allocations = w.allocations)
    (hnodup : w'.driver.live.Nodup) {failed : AllocationCall}
    (hleaves : failed.Leaves w.driver w'.driver) : InstalledLive w' where
  nodup := hnodup
  installed := by
    intro x
    have hold := h.installed x
    rw [hallocations]
    rcases hleaves.cases with hsame | ⟨va, size, pageSize, mapped, unmapped, -, -, hbehind⟩
    · rw [← hsame]
      exact hold
    · rw [hbehind.live, List.count_append, List.count_append]
      omega

/-- A failed allocation writes no byte. -/
theorem AllocationCall.Leaves.memory {failed : AllocationCall} {s s' : DriverState}
    (h : failed.Leaves s s') : s'.memory = s.memory := by
  rcases h.cases with hsame | ⟨va, size, pageSize, mapped, unmapped, -, -, hbehind⟩
  · rw [← hsame]
  · exact hbehind.memory

/-- No driver call but the zeroing writes bytes. -/
theorem memory_after {m : Handle → Nat → UInt8} {c : DriverCall}
    (hc : ∀ va value size, c ≠ .cudaMemset va value size) :
    Keeps (fun w : AllocatorState => w.driver.memory = m) (call cuda c) := by
  intro w hw
  rw [wp_call]
  by_cases hresult : cuda.result w.driver c = 0
  · rw [Cuda.after_of_result hresult]
    cases c with
    | cudaMemset va value size => exact absurd rfl (hc va value size)
    | _ => exact hw
  · rw [Cuda.after_of_failure hresult]
    exact hw

theorem allocateRegion_memory {sizeBytes : Nat} {device : Device} {alloc : VMMAllocation}
    (h : allocateRegion cuda sizeBytes device w = .ok alloc w') :
    w'.driver.memory = w.driver.memory := by
  have hkeeps : Keeps (fun w₁ : AllocatorState => w₁.driver.memory = w.driver.memory)
      (allocateRegion cuda sizeBytes device) :=
    keeps_allocateRegion (fun c hc => memory_after hc) sizeBytes device
  have hkept := hkeeps w rfl
  unfold wp at hkept
  rwa [h] at hkept

/-- A returned allocation, with the state that its zeroing met. -/
theorem allocateVmmKvCache_returned {sizeBytes : Nat} {device : Device} {t : Tensor}
    (h : allocateVmmKvCache cuda sizeBytes device w = .ok t w') :
    ∃ alloc w₁, allocateRegion cuda sizeBytes device w = .ok alloc w₁ ∧
      Allocated cuda sizeBytes (device.index.getD 0) w w' alloc ∧
      t = ⟨alloc.vaPtr, sizeBytes, device.index.getD 0⟩ ∧
      w'.driver = cuda.after w₁.driver (.cudaMemset alloc.vaPtr 0 alloc.totalBytes) := by
  obtain ⟨alloc, w₁, hregion, rfl, hdriver, hregistered⟩ := allocateVmmKvCache_ok h
  have hspec : wp (allocateVmmKvCache cuda sizeBytes device) _ _ w :=
    allocateVmmKvCache_spec sizeBytes device
  unfold wp at hspec
  rw [h] at hspec
  obtain ⟨alloc', hnew, htensor⟩ := hspec
  rw [Tensor.mk.injEq] at htensor
  have hget := congrArg (fun allocations => allocations.get? alloc.vaPtr) hnew.registered
  simp only [hregistered, ← htensor.1, Dict.get?_set_self, Option.some.injEq] at hget
  subst hget
  exact ⟨alloc, w₁, hregion, hnew, rfl, hdriver⟩

/-! ## 3. The two machines -/

inductive MemoryOp where
  | allocate (sizeBytes : ℕ+) (device : Device)
  | read (tensor offset : Nat)
  | write (tensor offset : Nat) (byte : UInt8)

inductive MemoryReply where
  | done
  | byte (value : UInt8)
  /-- No such tensor, or no such offset in it. -/
  | rejected
  /-- The allocation raised. -/
  | raised
  /-- The device took an illegal access. -/
  | fault
deriving DecidableEq, Repr

/-- Tensors returned by `allocate_vmm_kv_cache`, oldest first, over the driver. -/
structure PagedMemory where
  world : AllocatorState
  tensors : List Tensor

def PagedMemory.init (memory : Handle → Nat → UInt8) : PagedMemory :=
  { world := AllocatorState.init memory, tensors := [] }

def PagedMemory.step (cuda : Cuda) (m : PagedMemory) : MemoryOp → PagedMemory × MemoryReply
  | .allocate sizeBytes device =>
      match allocateVmmKvCache cuda sizeBytes device m.world with
      | .ok t w' => ({ world := w', tensors := m.tensors ++ [t] }, .done)
      | .error _ w' => ({ m with world := w' }, .raised)
  | .read tensor offset =>
      match m.tensors[tensor]? with
      | none => (m, .rejected)
      | some t =>
          if offset < t.nbytes then
            match m.world.driver.load t.device (t.dataPtr + offset) with
            | some value => (m, .byte value)
            | none => (m, .fault)
          else (m, .rejected)
  | .write tensor offset byte =>
      match m.tensors[tensor]? with
      | none => (m, .rejected)
      | some t =>
          if offset < t.nbytes then
            match m.world.driver.store t.device (t.dataPtr + offset) byte with
            | some driver => ({ m with world := { m.world with driver } }, .done)
            | none => (m, .fault)
          else (m, .rejected)

/-- One zero-initialised byte array per `torch.zeros`, oldest first. -/
structure FlatMemory where
  arrays : List (List UInt8)

def FlatMemory.init : FlatMemory := { arrays := [] }

def FlatMemory.step (m : FlatMemory) : MemoryOp → FlatMemory × MemoryReply
  | .allocate sizeBytes _ => ({ arrays := m.arrays ++ [List.replicate sizeBytes 0] }, .done)
  | .read tensor offset =>
      match m.arrays[tensor]? with
      | none => (m, .rejected)
      | some bytes =>
          match bytes[offset]? with
          | some value => (m, .byte value)
          | none => (m, .rejected)
  | .write tensor offset byte =>
      match m.arrays[tensor]? with
      | none => (m, .rejected)
      | some bytes =>
          if offset < bytes.length then
            ({ arrays := m.arrays.set tensor (bytes.set offset byte) }, .done)
          else (m, .rejected)

/-- The arrays that stand for the tensors returned: an allocation that raises returns
    none. -/
def FlatMemory.answer (m : FlatMemory) (op : MemoryOp) (reply : MemoryReply) :
    FlatMemory × MemoryReply :=
  if reply = .raised then (m, .raised) else m.step op

/-- The paged memory replies as the byte arrays do. -/
def RepliesAgree (cuda : Cuda) (m : PagedMemory) (flat : FlatMemory) (run : List MemoryOp) : Prop :=
  let replies := Machine.outputs (PagedMemory.step cuda) m run
  Machine.outputs (fun arrays (op, reply) => arrays.answer op reply) flat (run.zip replies) =
    replies

/-- At every point of the run, the replies so far and any read then are those of
    independent zero-initialised arrays. -/
def RefinesZeros (cuda : Cuda) (memory : Handle → Nat → UInt8) (run : List MemoryOp) : Prop :=
  ∀ earlier, earlier <+: run → ∀ tensor offset,
    RepliesAgree cuda (PagedMemory.init memory) FlatMemory.init (earlier ++ [.read tensor offset])

/-- If the allocation returns, the driver accepted its zeroing or its bytes read zero
    before. -/
def AllocatesZeros (cuda : Cuda) (sizeBytes : Nat) (device : Device) (w : AllocatorState) : Prop :=
  match allocateRegion cuda sizeBytes device w with
  | .ok alloc w₁ =>
      cuda.result w₁.driver (.cudaMemset alloc.vaPtr 0 alloc.totalBytes) = 0 ∨
        ∀ offset < sizeBytes,
          w₁.driver.load (device.index.getD 0) (alloc.vaPtr + offset) = some 0
  | .error _ _ => True

def EachZeroed (cuda : Cuda) : PagedMemory → List MemoryOp → Prop
  | _, [] => True
  | m, op :: rest =>
      (∀ sizeBytes device, op = .allocate sizeBytes device →
        AllocatesZeros cuda sizeBytes device m.world) ∧
        EachZeroed cuda (m.step cuda op).1 rest

/-! ## 4. The simulation -/

/-- The tensor reads as the byte array. -/
def ReadsAs (s : DriverState) (t : Tensor) (bytes : List UInt8) : Prop :=
  bytes.length = t.nbytes ∧
    ∀ offset < t.nbytes, s.load t.device (t.dataPtr + offset) = bytes[offset]?

/-- The registered allocation behind a tensor, accessible from its device. -/
def Backed (w : AllocatorState) (t : Tensor) (alloc : VMMAllocation) : Prop :=
  w.allocations.get? t.dataPtr = some alloc ∧ t.nbytes ≤ alloc.totalBytes ∧
    Accessible w.driver alloc t.device

structure Refines (m : PagedMemory) (flat : FlatMemory) : Prop where
  paged : PagedInv m.world
  handles : InstalledLive m.world
  length : m.tensors.length = flat.arrays.length
  apart : (m.tensors.map Tensor.dataPtr).Nodup
  backed : ∀ t ∈ m.tensors, ∃ alloc, Backed m.world t alloc
  reads : ∀ (k : Nat) t bytes, m.tensors[k]? = some t → flat.arrays[k]? = some bytes →
    ReadsAs m.world.driver t bytes

theorem refines_init (memory : Handle → Nat → UInt8) :
    Refines (PagedMemory.init memory) FlatMemory.init where
  paged := (mappingInv_init memory).paged
  handles := ⟨List.nodup_nil, fun _ => Nat.le_refl 0⟩
  length := rfl
  apart := List.nodup_nil
  backed := by
    intro t ht
    cases ht
  reads := by
    intro k t bytes ht
    cases ht

/-- A tensor of the paged memory has its array, of the same size. -/
theorem Refines.array_of_tensor {m : PagedMemory} {flat : FlatMemory} (h : Refines m flat)
    {k : Nat} {t : Tensor} (ht : m.tensors[k]? = some t) :
    ∃ bytes, flat.arrays[k]? = some bytes ∧ ReadsAs m.world.driver t bytes := by
  have hk : k < flat.arrays.length := by
    rw [← h.length]
    exact (List.getElem?_eq_some_iff.mp ht).1
  have hbytes := List.getElem?_eq_getElem hk
  exact ⟨_, hbytes, h.reads k t _ ht hbytes⟩

theorem Refines.array_none {m : PagedMemory} {flat : FlatMemory} (h : Refines m flat) {k : Nat}
    (ht : m.tensors[k]? = none) : flat.arrays[k]? = none := by
  rw [List.getElem?_eq_none_iff] at ht ⊢
  rwa [← h.length]

/-- A tensor's offset translates to the cell of its allocation. -/
theorem Refines.translate {m : PagedMemory} {flat : FlatMemory} (h : Refines m flat) {t : Tensor}
    {alloc : VMMAllocation} (hbacked : Backed m.world t alloc) {offset : Nat}
    (ho : offset < t.nbytes) :
    m.world.driver.translate t.device (t.dataPtr + offset) = some (alloc.cell offset) :=
  h.paged.translate_eq hbacked.1 hbacked.2.2 (Nat.lt_of_lt_of_le ho hbacked.2.1)

theorem Refines.read {m : PagedMemory} {flat : FlatMemory} (h : Refines m flat)
    (tensor offset : Nat) :
    (m.step cuda (.read tensor offset)).2 = (flat.step (.read tensor offset)).2 ∧
      Refines (m.step cuda (.read tensor offset)).1 (flat.step (.read tensor offset)).1 := by
  simp only [PagedMemory.step, FlatMemory.step]
  cases ht : m.tensors[tensor]? with
  | none =>
    rw [h.array_none ht]
    exact ⟨rfl, h⟩
  | some t =>
    obtain ⟨bytes, hbytes, hlength, hreads⟩ := h.array_of_tensor ht
    rw [hbytes]
    by_cases ho : offset < t.nbytes
    · simp only [if_pos ho, hreads offset ho]
      cases hvalue : bytes[offset]? with
      | none =>
        rw [List.getElem?_eq_none_iff] at hvalue
        omega
      | some value => exact ⟨rfl, h⟩
    · have hnone : bytes[offset]? = none := by
        rw [List.getElem?_eq_none_iff]
        omega
      simp only [if_neg ho, hnone]
      exact ⟨trivial, h⟩

/-- A write changes one byte of one array. -/
theorem ReadsAs.write {m : PagedMemory} {flat : FlatMemory} (h : Refines m flat) {t t' : Tensor}
    {alloc alloc' : VMMAllocation} (hbacked : Backed m.world t alloc)
    (hbacked' : Backed m.world t' alloc') {offset : Nat} (ho : offset < t.nbytes) {byte : UInt8}
    {driver : DriverState}
    (hstore : m.world.driver.store t.device (t.dataPtr + offset) byte = some driver)
    {bytes : List UInt8} (hreads : ReadsAs m.world.driver t' bytes) :
    ReadsAs driver t' (if t'.dataPtr = t.dataPtr then bytes.set offset byte else bytes) := by
  refine ⟨by split <;> simp [hreads.1], fun offset' ho' => ?_⟩
  rw [DriverState.load_store hstore, h.translate hbacked ho, h.translate hbacked' ho',
    hreads.2 offset' ho']
  by_cases hcell : some (alloc'.cell offset') = some (alloc.cell offset)
  · obtain ⟨hptr, rfl⟩ := cell_injective h.paged.toRegistryInv h.handles.once hbacked'.1
      (Nat.lt_of_lt_of_le ho' hbacked'.2.1) hbacked.1 (Nat.lt_of_lt_of_le ho hbacked.2.1)
      (Option.some.inj hcell)
    rw [if_pos hcell, if_pos hptr, List.getElem?_set_self (by rw [hreads.1]; exact ho')]
  · rw [if_neg hcell]
    by_cases hptr : t'.dataPtr = t.dataPtr
    · have hne : offset ≠ offset' := by
        rintro rfl
        have halloc := hbacked'.1
        rw [hptr, hbacked.1, Option.some.injEq] at halloc
        exact hcell (by rw [halloc])
      rw [if_pos hptr, List.getElem?_set_ne hne]
    · rw [if_neg hptr]

/-- The tensors have different addresses. -/
theorem Refines.dataPtr_inj {m : PagedMemory} {flat : FlatMemory} (h : Refines m flat) {k k' : Nat}
    {t t' : Tensor} (ht : m.tensors[k]? = some t) (ht' : m.tensors[k']? = some t')
    (hptr : t'.dataPtr = t.dataPtr) : k = k' := by
  have hk : k < (m.tensors.map Tensor.dataPtr).length := by
    rw [List.length_map]
    exact (List.getElem?_eq_some_iff.mp ht).1
  refine (List.getElem?_inj hk h.apart).mp ?_
  rw [List.getElem?_map, List.getElem?_map, ht, ht', Option.map_some, Option.map_some, hptr]

theorem Refines.write {m : PagedMemory} {flat : FlatMemory} (h : Refines m flat)
    (tensor offset : Nat) (byte : UInt8) :
    (m.step cuda (.write tensor offset byte)).2 = (flat.step (.write tensor offset byte)).2 ∧
      Refines (m.step cuda (.write tensor offset byte)).1
        (flat.step (.write tensor offset byte)).1 := by
  simp only [PagedMemory.step, FlatMemory.step]
  cases ht : m.tensors[tensor]? with
  | none =>
    rw [h.array_none ht]
    exact ⟨rfl, h⟩
  | some t =>
    obtain ⟨bytes, hbytes, hreads⟩ := h.array_of_tensor ht
    rw [hbytes]
    by_cases ho : offset < t.nbytes
    · obtain ⟨alloc, hbacked⟩ := h.backed t (List.mem_of_getElem? ht)
      obtain ⟨driver, hstored⟩ :
          ∃ driver, m.world.driver.store t.device (t.dataPtr + offset) byte = some driver := by
        unfold DriverState.store
        rw [h.translate hbacked ho]
        exact ⟨_, rfl⟩
      obtain ⟨memory, rfl⟩ := DriverState.store_memory hstored
      have hlength : offset < bytes.length := by rw [hreads.1]; exact ho
      simp only [if_pos ho, if_pos hlength, hstored]
      refine ⟨trivial,
        { paged := ⟨h.paged.toRegistryInv.of_same rfl rfl, h.paged.mirrors, h.paged.pagesReserved,
            h.paged.listed⟩
          handles := ⟨h.handles.nodup, h.handles.installed⟩
          length := by rw [List.length_set]; exact h.length
          apart := h.apart
          backed := h.backed
          reads := fun k t' bytes' ht' hbytes' => ?_ }⟩
      obtain ⟨alloc', hbacked'⟩ := h.backed t' (List.mem_of_getElem? ht')
      by_cases hk : tensor = k
      · subst hk
        rw [ht, Option.some.injEq] at ht'
        subst ht'
        rw [List.getElem?_set_self (List.getElem?_eq_some_iff.mp hbytes).1,
          Option.some.injEq] at hbytes'
        subst hbytes'
        have hwritten := hreads.write h hbacked hbacked ho hstored
        rwa [if_pos rfl] at hwritten
      · rw [List.getElem?_set_ne hk] at hbytes'
        have hptr : t'.dataPtr ≠ t.dataPtr := fun heq => hk (h.dataPtr_inj ht ht' heq)
        have hwritten := (h.reads k t' bytes' ht' hbytes').write h hbacked hbacked' ho hstored
        rwa [if_neg hptr] at hwritten
    · have hlength : ¬ offset < bytes.length := by rw [hreads.1]; exact ho
      simp only [if_neg ho, if_neg hlength]
      exact ⟨trivial, h⟩

/-- A tensor stays backed while only pages of a range of its own change. -/
theorem Backed.frame (hreg : RegistryInv w) {r : Nat × Nat}
    (hdisjoint : ∀ q ∈ w.driver.reserved, RangesDisjoint r q)
    (hothers : ∀ p, inRange r.1 r.2 p = false →
      w'.driver.pages.get? p = w.driver.pages.get? p) {t : Tensor} {old : VMMAllocation}
    (hbacked : Backed w t old) (hget' : w'.allocations.get? t.dataPtr = some old) :
    Backed w' t old := by
  obtain ⟨hget, hle, haccess⟩ := hbacked
  have hentry := hreg.entries _ old hget
  refine ⟨hget', hle, fun i handle hi => ?_⟩
  have hin := hentry.page_inRange (List.getElem?_eq_some_iff.mp hi).1
  rw [hothers _ ((hdisjoint _ hentry.reserved).not_inRange hin)]
  exact haccess i handle hi

/-- A tensor stays backed when another one is allocated. -/
theorem Backed.allocated (hlawful : cuda.Lawful) (hreg : RegistryInv w) {sizeBytes : Nat}
    (hsize : 0 < sizeBytes) {deviceId : DeviceId} {alloc : VMMAllocation}
    (hnew : Allocated cuda sizeBytes deviceId w w' alloc) {t : Tensor} {old : VMMAllocation}
    (hbacked : Backed w t old) : Backed w' t old :=
  hbacked.frame hreg (hnew.disjoint hlawful) hnew.others
    (hreg.kept hlawful hsize hnew hbacked.1)

/-- A backed tensor reads the bytes of its cells. -/
theorem Backed.load_eq {t : Tensor} {alloc : VMMAllocation} (hbacked : Backed w t alloc)
    (h : PagedInv w) {offset : Nat} (ho : offset < t.nbytes) :
    w.driver.load t.device (t.dataPtr + offset) =
      some (w.driver.memory (alloc.cell offset).1 (alloc.cell offset).2) := by
  unfold DriverState.load
  rw [h.translate_eq hbacked.1 hbacked.2.2 (Nat.lt_of_lt_of_le ho hbacked.2.1), Option.map_some]

/-- **An allocation that returned leaves the bytes of the other tensors alone**, and its
    own read zero if the driver accepted the zeroing. -/
theorem load_allocated {sizeBytes : Nat} {device : Device} {alloc : VMMAllocation}
    {w₁ : AllocatorState} (hrun : allocateRegion cuda sizeBytes device w = .ok alloc w₁)
    (hdriver : w'.driver = cuda.after w₁.driver (.cudaMemset alloc.vaPtr 0 alloc.totalBytes))
    (h : PagedInv w') (hcount : ∀ x, w'.allocations.installed.count x ≤ 1)
    (hself : w'.allocations.get? alloc.vaPtr = some alloc) {t : Tensor} {old : VMMAllocation}
    (hbacked : Backed w' t old) {offset : Nat} (ho : offset < t.nbytes) :
    w'.driver.load t.device (t.dataPtr + offset) =
      if cuda.result w₁.driver (.cudaMemset alloc.vaPtr 0 alloc.totalBytes) = 0 ∧
          t.dataPtr = alloc.vaPtr then some 0
      else some (w.driver.memory (old.cell offset).1 (old.cell offset).2) := by
  have hshows := h.shows_iff hcount hbacked.1 (Nat.lt_of_lt_of_le ho hbacked.2.1) hself
  rw [hbacked.load_eq h ho, ← allocateRegion_memory hrun]
  rw [hdriver] at hshows ⊢
  simp only [memory_after_cudaMemset, hshows, apply_ite some]

/-- The new tensor is backed by its registration. -/
theorem Allocated.backed {sizeBytes : Nat} {deviceId : DeviceId} {alloc : VMMAllocation}
    (hnew : Allocated cuda sizeBytes deviceId w w' alloc) :
    Backed w' ⟨alloc.vaPtr, sizeBytes, deviceId⟩ alloc := by
  refine ⟨by rw [hnew.registered, Dict.get?_set_self], hnew.covers, fun i handle hi => ?_⟩
  exact ⟨_, hnew.mapped i handle hi, List.mem_singleton.mpr rfl⟩

/-- **The dropped result.**  A tensor returned reads zero exactly if its zeroing was
    accepted or its bytes were zero before. -/
theorem allocatesZeros_iff (hlawful : cuda.Lawful) (h : PagedInv w) (hhandles : InstalledLive w)
    {sizeBytes : Nat} (hsize : 0 < sizeBytes) {device : Device} {t : Tensor}
    (hrun : allocateVmmKvCache cuda sizeBytes device w = .ok t w') :
    AllocatesZeros cuda sizeBytes device w ↔
      ∀ offset < sizeBytes, w'.driver.load t.device (t.dataPtr + offset) = some 0 := by
  obtain ⟨alloc, w₁, hregion, hnew, rfl, hdriver⟩ := allocateVmmKvCache_returned hrun
  unfold AllocatesZeros
  rw [hregion]
  by_cases hresult : cuda.result w₁.driver (.cudaMemset alloc.vaPtr 0 alloc.totalBytes) = 0
  · have hlive := hhandles.allocated hlawful hnew (h.fresh hlawful hsize hnew)
    refine iff_of_true (Or.inl hresult) fun offset ho => ?_
    rw [load_allocated hregion hdriver (h.allocated hlawful hsize hnew) hlive.once hnew.backed.1
      hnew.backed ho, if_pos ⟨hresult, rfl⟩]
  · -- the failed call changed nothing
    have hload : ∀ a, w'.driver.load (device.index.getD 0) a =
        w₁.driver.load (device.index.getD 0) a := by
      intro a
      rw [hdriver, Cuda.after_of_failure hresult]
      rfl
    simp only [hresult, false_or, hload]

theorem Refines.allocated (hlawful : cuda.Lawful) {m : PagedMemory} {flat : FlatMemory}
    (h : Refines m flat) {sizeBytes : ℕ+} {device : Device} {t : Tensor}
    (hrun : allocateVmmKvCache cuda sizeBytes device m.world = .ok t w')
    (hzeroed : AllocatesZeros cuda sizeBytes device m.world) :
    Refines ⟨w', m.tensors ++ [t]⟩ ⟨flat.arrays ++ [List.replicate sizeBytes 0]⟩ := by
  have hzero := (allocatesZeros_iff hlawful h.paged h.handles sizeBytes.2 hrun).mp hzeroed
  obtain ⟨alloc, w₁, hregion, hnew, rfl, hdriver⟩ := allocateVmmKvCache_returned hrun
  have hfresh := h.paged.fresh hlawful sizeBytes.2 hnew
  have hpaged := h.paged.allocated hlawful sizeBytes.2 hnew
  have hhandles := h.handles.allocated hlawful hnew hfresh
  have hold : ∀ t ∈ m.tensors, t.dataPtr ≠ alloc.vaPtr ∧ ∃ old, Backed m.world t old ∧
      Backed w' t old := by
    intro t ht
    obtain ⟨old, hbacked⟩ := h.backed t ht
    refine ⟨fun hptr => ?_, old, hbacked,
      hbacked.allocated hlawful h.paged.toRegistryInv sizeBytes.2 hnew⟩
    rw [← hptr, hbacked.1] at hfresh
    cases hfresh
  refine
    { paged := hpaged
      handles := hhandles
      length := by simp [h.length]
      apart := ?_
      backed := fun t ht => ?_
      reads := fun k t bytes ht hbytes => ?_ }
  · rw [List.map_append, List.nodup_append]
    refine ⟨h.apart, by simp, fun ptr hptr ptr' hptr' heq => ?_⟩
    obtain ⟨t, ht, rfl⟩ := List.mem_map.mp hptr
    rw [List.map_singleton, List.mem_singleton] at hptr'
    exact (hold t ht).1 (heq.trans hptr')
  · rcases List.mem_append.mp ht with ht | ht
    · obtain ⟨-, old, -, hbacked⟩ := hold t ht
      exact ⟨old, hbacked⟩
    · rw [List.mem_singleton] at ht
      subst ht
      exact ⟨alloc, hnew.backed⟩
  · rcases Nat.lt_or_ge k m.tensors.length with hk | hk
    · -- an old tensor reads the cells that it read before
      rw [List.getElem?_append_left hk] at ht
      rw [List.getElem?_append_left (by rw [← h.length]; exact hk)] at hbytes
      obtain ⟨hptr, old, hbacked, hbacked'⟩ := hold t (List.mem_of_getElem? ht)
      obtain ⟨hlength, hreads⟩ := h.reads k t bytes ht hbytes
      refine ⟨hlength, fun offset ho => ?_⟩
      rw [load_allocated hregion hdriver hpaged hhandles.once hnew.backed.1 hbacked' ho,
        if_neg fun hself => hptr hself.2, ← hreads offset ho, hbacked.load_eq h.paged ho]
    · rw [List.getElem?_append_right hk, List.getElem?_singleton] at ht
      rw [List.getElem?_append_right (by rw [← h.length]; exact hk), List.getElem?_singleton,
        ← h.length] at hbytes
      by_cases hlast : k - m.tensors.length = 0
      · rw [if_pos hlast, Option.some.injEq] at ht hbytes
        subst ht hbytes
        refine ⟨List.length_replicate, fun offset ho => ?_⟩
        rw [hzero offset ho, List.getElem?_replicate, if_pos ho]
      · rw [if_neg hlast] at ht
        cases ht

/-- An allocation that raised leaves the tensors as they were. -/
theorem Refines.failed (hlawful : cuda.Lawful) {m : PagedMemory} {flat : FlatMemory}
    (h : Refines m flat) {sizeBytes : ℕ+} {device : Device} {e : PyError}
    (hrun : allocateVmmKvCache cuda sizeBytes device m.world = .error e w') :
    Refines ⟨w', m.tensors⟩ flat := by
  have houtcome : wp (allocateVmmKvCache cuda sizeBytes device) _ _ m.world :=
    wp_and (allocateVmmKvCache_spec sizeBytes device) (allocateVmmKvCache_failures sizeBytes device)
  have hnodup : Keeps (fun w : AllocatorState => w.driver.live.Nodup)
      (allocateVmmKvCache cuda sizeBytes device) :=
    keeps_allocateVmmKvCache (live_nodup_after hlawful) sizeBytes device
  have hkept := hnodup m.world h.handles.nodup
  unfold wp at houtcome hkept
  rw [hrun] at houtcome hkept
  obtain ⟨hleft, hallocations, failed, code, -, -, hleaves⟩ := houtcome
  have hpaged := h.paged.failed hlawful hleft hleaves
  obtain ⟨r, hdisjoint, hothers⟩ := hleft.range hlawful
  have hbacked : ∀ t old, Backed m.world t old → Backed w' t old := by
    intro t old hold
    exact hold.frame h.paged.toRegistryInv hdisjoint hothers (by rw [hallocations]; exact hold.1)
  exact
    { paged := hpaged
      handles := h.handles.failed hallocations hkept hleaves
      length := h.length
      apart := h.apart
      backed := fun t ht => (h.backed t ht).imp fun old => hbacked t old
      reads := fun k t bytes ht hbytes => by
        obtain ⟨old, hold⟩ := h.backed t (List.mem_of_getElem? ht)
        obtain ⟨hlength, hreads⟩ := h.reads k t bytes ht hbytes
        refine ⟨hlength, fun offset ho => ?_⟩
        rw [(hbacked t old hold).load_eq hpaged ho, hleaves.memory, ← hold.load_eq h.paged ho]
        exact hreads offset ho }

/-- A byte array is there or not, and no allocation of one raises. -/
theorem FlatMemory.step_ne_raised (m : FlatMemory) (op : MemoryOp) : (m.step op).2 ≠ .raised := by
  cases op with
  | allocate sizeBytes device => simp [FlatMemory.step]
  | read tensor offset =>
    simp only [FlatMemory.step]
    cases m.arrays[tensor]? with
    | none => simp
    | some bytes => cases hvalue : bytes[offset]? <;> simp [hvalue]
  | write tensor offset byte =>
    simp only [FlatMemory.step]
    cases m.arrays[tensor]? with
    | none => simp
    | some bytes => by_cases ho : offset < bytes.length <;> simp [ho]

theorem FlatMemory.answer_of_step {m : FlatMemory} {op : MemoryOp} {reply : MemoryReply}
    (h : reply = (m.step op).2) : m.answer op reply = m.step op := by
  unfold FlatMemory.answer
  rw [if_neg]
  rw [h]
  exact m.step_ne_raised op

/-- **One operation.**  Both machines reply alike and stay related, given that an
    allocation that returns has its bytes zeroed. -/
theorem Refines.step (hlawful : cuda.Lawful) {m : PagedMemory} {flat : FlatMemory}
    (h : Refines m flat) (op : MemoryOp)
    (hzeroed : ∀ sizeBytes device, op = .allocate sizeBytes device →
      AllocatesZeros cuda sizeBytes device m.world) :
    (m.step cuda op).2 = (flat.answer op (m.step cuda op).2).2 ∧
      Refines (m.step cuda op).1 (flat.answer op (m.step cuda op).2).1 := by
  cases op with
  | allocate sizeBytes device =>
    simp only [PagedMemory.step]
    cases hrun : allocateVmmKvCache cuda sizeBytes device m.world with
    | ok t w' => exact ⟨rfl, h.allocated hlawful hrun (hzeroed sizeBytes device rfl)⟩
    | error e w' => exact ⟨rfl, h.failed hlawful hrun⟩
  | read tensor offset =>
    have hread : (m.step cuda (.read tensor offset)).2 = _ ∧ _ := h.read tensor offset
    rw [FlatMemory.answer_of_step hread.1]
    exact hread
  | write tensor offset byte =>
    have hwrite : (m.step cuda (.write tensor offset byte)).2 = _ ∧ _ := h.write tensor offset byte
    rw [FlatMemory.answer_of_step hwrite.1]
    exact hwrite

theorem repliesAgree_nil (m : PagedMemory) (flat : FlatMemory) : RepliesAgree cuda m flat [] := rfl

/-- The replies agree if the first ones do and then the others. -/
theorem repliesAgree_cons {m : PagedMemory} {flat : FlatMemory} {op : MemoryOp}
    {rest : List MemoryOp} :
    RepliesAgree cuda m flat (op :: rest) ↔
      (m.step cuda op).2 = (flat.answer op (m.step cuda op).2).2 ∧
        RepliesAgree cuda (m.step cuda op).1 (flat.answer op (m.step cuda op).2).1 rest := by
  simp only [RepliesAgree, Machine.outputs, List.zip_cons_cons, List.cons.injEq]
  exact and_congr_left' eq_comm

/-- A read of the tensor that an allocation just returned shows whether it is zero. -/
theorem Refines.allocatesZeros_of_read (hlawful : cuda.Lawful) {m : PagedMemory} {flat : FlatMemory}
    (h : Refines m flat) (sizeBytes : ℕ+) (device : Device)
    (hread : ∀ tensor offset,
      RepliesAgree cuda m flat [.allocate sizeBytes device, .read tensor offset]) :
    AllocatesZeros cuda sizeBytes device m.world := by
  cases hrun : allocateVmmKvCache cuda sizeBytes device m.world with
  | error e w' =>
    cases hregion : allocateRegion cuda sizeBytes device m.world with
    | error e' w₁ =>
      unfold AllocatesZeros
      rw [hregion]
      trivial
    | ok alloc w₁ =>
      rw [allocateVmmKvCache_eq, run_bind_ok hregion] at hrun
      cases hrun
  | ok t w' =>
    refine (allocatesZeros_iff hlawful h.paged h.handles sizeBytes.2 hrun).mpr fun offset
      (ho : offset < (sizeBytes : Nat)) => ?_
    have hnbytes : t.nbytes = sizeBytes := by
      obtain ⟨alloc, w₁, -, -, rfl, -⟩ := allocateVmmKvCache_returned hrun
      rfl
    have ht : (m.tensors ++ [t])[flat.arrays.length]? = some t := by
      rw [← h.length]
      exact List.getElem?_concat_length
    have hbytes : (flat.arrays ++ [List.replicate (sizeBytes : Nat) (0 : UInt8)])[
        flat.arrays.length]? = some (List.replicate sizeBytes 0) := List.getElem?_concat_length
    have hlater := (repliesAgree_cons.mp (hread flat.arrays.length offset)).2
    have hagrees := (repliesAgree_cons.mp hlater).1
    simp only [PagedMemory.step, hrun, FlatMemory.answer, FlatMemory.step, reduceCtorEq, if_false,
      ht, hbytes, hnbytes, if_pos ho, List.getElem?_replicate] at hagrees
    cases hload : w'.driver.load t.device (t.dataPtr + offset) with
    | none => simp [hload] at hagrees
    | some value =>
      simp only [hload, reduceCtorEq, if_false, MemoryReply.byte.injEq] at hagrees
      rw [hagrees]

/-- **From related memories on.** -/
theorem Refines.agrees_iff (hlawful : cuda.Lawful) {m : PagedMemory} {flat : FlatMemory}
    (h : Refines m flat) (run : List MemoryOp) :
    (∀ earlier, earlier <+: run → ∀ tensor offset,
        RepliesAgree cuda m flat (earlier ++ [.read tensor offset])) ↔ EachZeroed cuda m run := by
  have hread : ∀ {m : PagedMemory} {flat : FlatMemory}, Refines m flat → ∀ tensor offset,
      RepliesAgree cuda m flat [.read tensor offset] := by
    intro m flat h tensor offset
    refine repliesAgree_cons.mpr ⟨(h.step hlawful _ ?_).1, repliesAgree_nil _ _⟩
    intro sizeBytes device hop
    cases hop
  induction run generalizing m flat with
  | nil =>
    refine iff_of_true (fun earlier hprefix => ?_) trivial
    rw [List.prefix_nil] at hprefix
    subst hprefix
    exact hread h
  | cons op rest ih =>
    constructor
    · intro hagrees
      have hzeroed : ∀ sizeBytes device, op = .allocate sizeBytes device →
          AllocatesZeros cuda sizeBytes device m.world := by
        rintro sizeBytes device rfl
        exact h.allocatesZeros_of_read hlawful sizeBytes device
          (hagrees [.allocate sizeBytes device] (List.prefix_append [_] rest))
      obtain ⟨-, hnext⟩ := h.step hlawful op hzeroed
      refine ⟨hzeroed, (ih hnext).mp fun earlier hprefix tensor offset => ?_⟩
      have hwhole : op :: earlier <+: op :: rest := List.cons_prefix_cons.mpr ⟨rfl, hprefix⟩
      have hlater := hagrees (op :: earlier) hwhole tensor offset
      exact (repliesAgree_cons.mp hlater).2
    · rintro ⟨hzeroed, hrest⟩ earlier hprefix tensor offset
      obtain ⟨hreply, hnext⟩ := h.step hlawful op hzeroed
      cases earlier with
      | nil => exact hread h tensor offset
      | cons first others =>
        obtain ⟨rfl, hothers⟩ := List.cons_prefix_cons.mp hprefix
        exact repliesAgree_cons.mpr ⟨hreply, (ih hnext).mpr hrest others hothers tensor offset⟩

/-- A driver that accepts every zeroing meets the condition. -/
theorem eachZeroed_of_accepts (haccepts : ∀ s va size, cuda.result s (.cudaMemset va 0 size) = 0)
    (m : PagedMemory) (run : List MemoryOp) : EachZeroed cuda m run := by
  induction run generalizing m with
  | nil => trivial
  | cons op rest ih =>
    refine ⟨fun sizeBytes device _ => ?_, ih _⟩
    unfold AllocatesZeros
    cases allocateRegion cuda sizeBytes device m.world with
    | ok alloc w₁ => exact Or.inl (haccepts _ _ _)
    | error e w₁ => trivial

/-- **When VMM-backed memory refines `torch.zeros`.**  With disjoint reservations and
    fresh handles, whichever other driver calls fail and whatever the physical memory
    held: at every point of a run of allocations, byte reads and byte writes the replies
    are those of independent zero-initialised byte arrays of the same sizes if and only
    if each allocation that returned had its zeroing accepted, or its bytes were zero. -/
theorem pagedMemory_refines_zeros_iff (cuda : Cuda) (hlawful : cuda.Lawful)
    (memory : Handle → Nat → UInt8) (run : List MemoryOp) :
    RefinesZeros cuda memory run ↔ EachZeroed cuda (PagedMemory.init memory) run :=
  (refines_init memory).agrees_iff hlawful run

/-- Two tensors, a write at a page boundary, a read on either side of it. -/
theorem pagedMemory_refines_zeros_boundary :
    RefinesZeros .bump (fun _ _ => 255) [.allocate 5000000 ⟨none⟩, .allocate 1 ⟨some 1⟩,
      .write 0 2097152 7, .read 0 2097151, .read 0 2097152] :=
  (pagedMemory_refines_zeros_iff .bump Cuda.bump_lawful _ _).mpr
    (eachZeroed_of_accepts (fun s _ _ => Cuda.bump_succeeds s _) _ _)

/-- **The tensor need not be zero.**  The driver accepts every call but the zeroing of the
    first allocation, its call number 8, and the memory held 255: so does the tensor. -/
theorem pagedMemory_not_refines_zeros :
    ¬ ∀ cuda : Cuda, cuda.Lawful → ∀ (memory : Handle → Nat → UInt8) (run : List MemoryOp),
      RefinesZeros cuda memory run := by
  intro hrefines
  have hread := hrefines (.failingAt 8) (Cuda.failingAt_lawful 8) (fun _ _ => 255)
    [.allocate 1 ⟨none⟩] [.allocate 1 ⟨none⟩] (List.prefix_refl _) 0 0
  have hreplies : Machine.outputs (PagedMemory.step (.failingAt 8))
      (PagedMemory.init fun _ _ => 255) [.allocate 1 ⟨none⟩, .read 0 0] = [.done, .byte 255] := by
    decide +kernel
  unfold RepliesAgree at hread
  rw [List.singleton_append, hreplies] at hread
  exact absurd hread (by decide)

end Edmm
