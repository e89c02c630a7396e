/-
  Edmm/OwnerAccess.lean
  =====================
  **Which device may use a page after it was remapped.**

  A mapping is born without access.  `allocate_vmm_kv_cache` grants access to the
  device that the tensor is made for, `remap_block` to device 0 (`access.location_id
  = 0`), whatever device owns the tensor; the allocation itself does not record its
  device.  So every page stays accessible from the owner of its tensor exactly as
  long as only tensors of device 0 are remapped (`ownerAccess_iff`).

  The invariant behind it: the registry mirrors the page table, every allocation
  knows its tensor, and the pages of device 0 are always accessible from it.
-/
import Edmm.PagedMemory

namespace Edmm

open Program

variable {cuda : Cuda} {w w' : AllocatorState}

/-! ## 1. Owners -/

/-- Every page of an allocation is accessible from the device it was made on. -/
def OwnerAccess (w : AllocatorState) : Prop :=
  ∀ va alloc t, w.allocations.get? va = some alloc → alloc.tensor = some t →
    Accessible w.driver alloc t.device

/-- A successful call into the module. -/
abbrev AllocatorStep := Machine.Performed AllocatorState AllocatorOp (Option Handle)

abbrev AllocatorRun (cuda : Cuda) (memory : Handle → Nat → UInt8) (history : List AllocatorStep)
    (w : AllocatorState) : Prop :=
  Machine.Run (AllocatorOp.exec cuda) (AllocatorState.init memory) history w

/-- The device on which the tensor of a remap was made. -/
def remapOwner (step : AllocatorStep) : Option DeviceId :=
  match step.op with
  | .remapBlock tensor _ _ =>
      (getVmmAllocation step.before tensor).bind fun alloc => alloc.tensor.map Tensor.device
  | _ => none

/-- A remap works on a tensor that was made on device 0. -/
def RemapsDeviceZero (step : AllocatorStep) : Prop := ∀ device ∈ remapOwner step, device = 0

def AllocatorOp.frees : AllocatorOp → Bool
  | .freeVmmKvCache _ => true
  | _ => false

/-! ## 2. The invariant -/

structure OwnerInv (w : AllocatorState) : Prop where
  mapping : MappingInv w
  made : ∀ va alloc, w.allocations.get? va = some alloc → ∃ t, alloc.tensor = some t
  deviceZero : ∀ va alloc t, w.allocations.get? va = some alloc → alloc.tensor = some t →
    t.device = 0 → Accessible w.driver alloc 0

theorem ownerInv_init (memory : Handle → Nat → UInt8) : OwnerInv (AllocatorState.init memory) where
  mapping := mappingInv_init memory
  made := by
    intro va alloc hget
    cases hget
  deviceZero := by
    intro va alloc t hget
    cases hget

theorem ownerAccess_init (memory : Handle → Nat → UInt8) :
    OwnerAccess (AllocatorState.init memory) := by
  intro va alloc t hget
  cases hget

/-- Whoever may access an allocation may access it while its pages stay as they are. -/
theorem Accessible.congr {s s' : DriverState} {alloc : VMMAllocation}
    (hpages : ∀ i < alloc.handles.length,
      s'.pages.get? (alloc.pageVa i) = s.pages.get? (alloc.pageVa i)) (device : DeviceId) :
    Accessible s' alloc device ↔ Accessible s alloc device := by
  apply forall_congr'
  intro i
  apply forall_congr'
  intro handle
  constructor
  · intro h hi
    rw [← hpages i (List.getElem?_eq_some_iff.mp hi).1]
    exact h hi
  · intro h hi
    rw [hpages i (List.getElem?_eq_some_iff.mp hi).1]
    exact h hi

/-- The pages of an allocation stay as they are when only another range changes. -/
theorem Registered.pages_eq {s₀ s s' : DriverState} {va : Nat} {alloc : VMMAllocation}
    (h : Registered s₀ va alloc) {r : Nat × Nat}
    (hdisjoint : RangesDisjoint r (alloc.vaPtr, alloc.totalBytes))
    (hothers : ∀ p, inRange r.1 r.2 p = false → s'.pages.get? p = s.pages.get? p) :
    ∀ i < alloc.handles.length,
      s'.pages.get? (alloc.pageVa i) = s.pages.get? (alloc.pageVa i) :=
  fun _ hi => hothers _ (hdisjoint.not_inRange (h.page_inRange hi))

/-! ## 3. One call -/

/-- What is registered and mapped as before is owned as before. -/
theorem OwnerInv.of_same (h : OwnerInv w) (hallocations : w'.allocations = w.allocations)
    (hreserved : w'.driver.reserved = w.driver.reserved)
    (hpages : w'.driver.pages = w.driver.pages) :
    OwnerInv w' ∧ (OwnerAccess w' ↔ OwnerAccess w) := by
  have haccess : ∀ (alloc : VMMAllocation) (device : DeviceId),
      Accessible w'.driver alloc device ↔ Accessible w.driver alloc device :=
    fun alloc device => Accessible.congr (fun i _ => by rw [hpages]) device
  constructor
  · exact
      { mapping := h.mapping.of_same hallocations hreserved hpages
        made := by
          rw [hallocations]
          exact h.made
        deviceZero := by
          intro va alloc t hget ht hzero
          rw [hallocations] at hget
          exact (haccess alloc 0).mpr (h.deviceZero va alloc t hget ht hzero) }
  · unfold OwnerAccess
    simp only [hallocations, haccess]

theorem OwnerInv.allocated (hlawful : cuda.Lawful) (h : OwnerInv w) {sizeBytes : Nat}
    (hsize : 0 < sizeBytes) {deviceId : DeviceId} {alloc : VMMAllocation}
    (hnew : Allocated cuda sizeBytes deviceId w w' alloc) :
    OwnerInv w' ∧ (OwnerAccess w' ↔ OwnerAccess w) := by
  have hself : ∀ t, alloc.tensor = some t → Accessible w'.driver alloc t.device := by
    intro t ht i handle hi
    rw [hnew.tensor, Option.some.injEq] at ht
    subst ht
    exact ⟨_, hnew.mapped i handle hi, List.mem_singleton.mpr rfl⟩
  have hold : ∀ va other, w.allocations.get? va = some other → ∀ device,
      Accessible w'.driver other device ↔ Accessible w.driver other device := by
    intro va other hget device
    have hentry := h.mapping.entries va other hget
    exact Accessible.congr
      (hentry.pages_eq (hnew.disjoint hlawful _ hentry.reserved) hnew.others) device
  have hcases : ∀ va other, w'.allocations.get? va = some other →
      other = alloc ∨ w.allocations.get? va = some other := by
    intro va other hget
    rw [hnew.registered, Dict.get?_set] at hget
    split at hget
    · exact Or.inl (Option.some.inj hget).symm
    · exact Or.inr hget
  refine ⟨⟨h.mapping.allocated hlawful hsize hnew, ?_, ?_⟩, ?_⟩
  · intro va other hget
    rcases hcases va other hget with rfl | hget
    · exact ⟨_, hnew.tensor⟩
    · exact h.made va other hget
  · intro va other t hget ht hzero
    rcases hcases va other hget with rfl | hget
    · rw [← hzero]
      exact hself t ht
    · exact (hold va other hget 0).mpr (h.deviceZero va other t hget ht hzero)
  · constructor
    · intro haccess va other t hget ht
      have hkept := h.mapping.kept hlawful hsize hnew hget
      exact (hold va other hget t.device).mp (haccess va other t hkept ht)
    · intro haccess va other t hget ht
      rcases hcases va other hget with rfl | hget
      · exact hself t ht
      · exact (hold va other hget t.device).mpr (haccess va other t hget ht)

/-- After a swap, device 0 may access the block and what it could access before. -/
theorem accessible_swapped {s s' : DriverState} {alloc : VMMAllocation} {block : Nat}
    {handle : Handle} (hpage : 0 < alloc.pageSize)
    (hmapped : BlockMapped (alloc.pageVa block) alloc.pageSize handle [0] s s')
    (h : Accessible s alloc 0) :
    Accessible s' { alloc with handles := alloc.handles.set block handle } 0 := by
  intro i other hi
  by_cases hblock : block = i
  · subst hblock
    have hlt := (List.getElem?_eq_some_iff.mp hi).1
    rw [List.length_set] at hlt
    rw [List.getElem?_set_self hlt, Option.some.injEq] at hi
    subst hi
    refine ⟨[0], ?_, List.mem_singleton.mpr rfl⟩
    rw [hmapped]
    exact if_pos rfl
  · rw [List.getElem?_set_ne hblock] at hi
    obtain ⟨access, hget, hdevice⟩ := h i other hi
    exact ⟨access, (hmapped.others hpage (pageVa_apart alloc hblock)).trans hget, hdevice⟩

/-- After a swap, no device but 0 may access the block. -/
theorem device_of_accessible_swapped {s s' : DriverState} {alloc : VMMAllocation} {block : Nat}
    {handle : Handle} {device : DeviceId} (hblock : block < alloc.handles.length)
    (hmapped : BlockMapped (alloc.pageVa block) alloc.pageSize handle [0] s s')
    (h : Accessible s' { alloc with handles := alloc.handles.set block handle } device) :
    device = 0 := by
  obtain ⟨access, hget, hdevice⟩ := h block handle (List.getElem?_set_self hblock)
  have hself : s'.pages.get? (alloc.pageVa block) = some ⟨alloc.pageSize, handle, [0]⟩ := by
    rw [hmapped]
    exact if_pos rfl
  rw [show VMMAllocation.pageVa { alloc with handles := alloc.handles.set block handle } block =
    alloc.pageVa block from rfl, hself, Option.some.injEq] at hget
  cases hget
  exact List.mem_singleton.mp hdevice

theorem OwnerInv.remapped (h : OwnerInv w) {tensor : Tensor} {alloc : VMMAllocation} {block : Nat}
    {handle : Handle} (hget : w.allocations.get? tensor.dataPtr = some alloc)
    (hblock : block < alloc.handles.length)
    (hallocations : w'.allocations = w.allocations.set tensor.dataPtr
      { alloc with handles := alloc.handles.set block handle })
    (hdriver : SameButPages w.driver w'.driver)
    (hmapped : BlockMapped (alloc.pageVa block) alloc.pageSize handle [0] w.driver w'.driver) :
    OwnerInv w' ∧
      (OwnerAccess w' ↔ OwnerAccess w ∧ ∀ t, alloc.tensor = some t → t.device = 0) := by
  have hentry := h.mapping.entries _ alloc hget
  have hself : w'.allocations.get? tensor.dataPtr =
      some { alloc with handles := alloc.handles.set block handle } := by
    rw [hallocations, Dict.get?_set_self]
  have hother : ∀ va other, va ≠ tensor.dataPtr →
      w'.allocations.get? va = w.allocations.get? va ∧ (w.allocations.get? va = some other →
        ∀ device, Accessible w'.driver other device ↔ Accessible w.driver other device) := by
    intro va other hva
    refine ⟨by rw [hallocations, Dict.get?_set_of_ne _ _ hva], fun hget' device => ?_⟩
    apply Accessible.congr
    apply (h.mapping.entries va other hget').pages_eq
      (h.mapping.ranges_disjoint hget hget' (Ne.symm hva))
    intro p hp
    exact hmapped.others hentry.pageSize_pos (block_outside hentry.sized hblock hp)
  have hinv : OwnerInv w' := by
    refine ⟨h.mapping.swapped hget hblock hallocations hdriver hmapped, ?_, ?_⟩
    · intro va other hget'
      by_cases hva : va = tensor.dataPtr
      · rw [hva, hself, Option.some.injEq] at hget'
        subst hget'
        exact h.made _ alloc hget
      · rw [(hother va other hva).1] at hget'
        exact h.made va other hget'
    · intro va other t hget' ht hzero
      by_cases hva : va = tensor.dataPtr
      · rw [hva, hself, Option.some.injEq] at hget'
        subst hget'
        exact accessible_swapped hentry.pageSize_pos hmapped (h.deviceZero _ alloc t hget ht hzero)
      · rw [(hother va other hva).1] at hget'
        exact ((hother va other hva).2 hget' 0).mpr (h.deviceZero va other t hget' ht hzero)
  refine ⟨hinv, ?_, ?_⟩
  · intro haccess
    have hzero : ∀ t, alloc.tensor = some t → t.device = 0 := fun t ht =>
      device_of_accessible_swapped hblock hmapped (haccess _ _ t hself ht)
    refine ⟨?_, hzero⟩
    intro va other t hget' ht
    by_cases hva : va = tensor.dataPtr
    · rw [hva, hget, Option.some.injEq] at hget'
      subst hget'
      rw [hzero t ht]
      exact h.deviceZero _ alloc t hget ht (hzero t ht)
    · apply ((hother va other hva).2 hget' t.device).mp
      apply haccess va other t _ ht
      rw [(hother va other hva).1]
      exact hget'
  · rintro ⟨haccess, hzero⟩ va other t hget' ht
    by_cases hva : va = tensor.dataPtr
    · subst hva
      rw [hself, Option.some.injEq] at hget'
      subst hget'
      rw [hzero t ht]
      exact hinv.deviceZero _ _ t hself ht (hzero t ht)
    · rw [(hother va other hva).1] at hget'
      exact ((hother va other hva).2 hget' t.device).mpr (haccess va other t hget' ht)

/-- A call that returned, other than a free, has its effect. -/
theorem AllocatorOp.exec_returned {op : AllocatorOp} (hfree : op.frees = false) :
    wp (op.exec cuda) (fun given w' => Effect cuda w w' op given) (fun _ _ => True) w := by
  cases op with
  | allocateVmmKvCache sizeBytes device =>
    simp only [AllocatorOp.exec, wp_bind, wp_pure]
    apply wp_mono (allocateVmmKvCache_spec _ _) _ (fun _ _ _ => trivial)
    rintro t w' ⟨alloc, halloc, -⟩
    exact .allocated halloc
  | createPhysicalHandle sizeBytes deviceId =>
    simp only [AllocatorOp.exec, wp_bind, wp_pure]
    apply wp_mono (createPhysicalHandle_spec _ _) _ (fun _ _ _ => trivial)
    rintro handle w' ⟨hallocations, hfresh, hdriver⟩
    exact .created hallocations hfresh hdriver
  | remapBlock tensor blockId handle =>
    simp only [AllocatorOp.exec, wp_bind, wp_pure]
    rcases remapBlock_cases cuda w tensor blockId handle with
      ⟨msg, hrun⟩ | ⟨alloc, block, rfl, hget, hblock, hrun⟩
    · unfold wp
      rw [hrun]
      trivial
    · rw [wp_congr hrun]
      apply wp_mono (swapBlock_run tensor alloc block handle) _ (fun _ _ _ => trivial)
      rintro old w' ⟨-, rfl, hallocations, hdriver, hpages⟩
      have hold : alloc.handles[block]? = some (alloc.handles.getD block 0) := by
        rw [List.getD_eq_getElem?_getD, List.getElem?_eq_getElem hblock, Option.getD_some]
      exact .remapped hget hold hallocations hdriver hpages
  | releasePhysicalHandle handle =>
    simp only [AllocatorOp.exec, wp_bind, wp_pure]
    apply wp_mono (releasePhysicalHandle_spec _) _ (fun _ _ _ => trivial)
    rintro - w' ⟨hallocations, hdriver, hlive, hreleased⟩
    exact .released hallocations hdriver hlive hreleased
  | freeVmmKvCache tensor => cases hfree

/-- **One call.**  It keeps the invariant; afterwards every owner has access exactly
    if it had access before and the call remapped a tensor of device 0, if any. -/
theorem OwnerInv.effect (hlawful : cuda.Lawful) (h : OwnerInv w) {op : AllocatorOp}
    {given : Option Handle} (hfree : op.frees = false) (heffect : Effect cuda w w' op given) :
    OwnerInv w' ∧ (OwnerAccess w' ↔ OwnerAccess w ∧ RemapsDeviceZero ⟨w, op, given, w'⟩) := by
  cases heffect with
  | @allocated sizeBytes device alloc hnew =>
    obtain ⟨hinv, hiff⟩ := h.allocated hlawful sizeBytes.2 hnew
    exact ⟨hinv, by simp [hiff, RemapsDeviceZero, remapOwner]⟩
  | created hallocations _ hdriver =>
    obtain ⟨hinv, hiff⟩ := h.of_same hallocations (by rw [← hdriver]) (by rw [← hdriver])
    exact ⟨hinv, by simp [hiff, RemapsDeviceZero, remapOwner]⟩
  | @remapped tensor alloc block old handle hget hold hallocations hdriver hpages =>
    obtain ⟨hinv, hiff⟩ := h.remapped hget (List.getElem?_eq_some_iff.mp hold).1 hallocations hdriver
      (hpages (h.mapping.entries _ _ hget).pageSize_pos)
    exact ⟨hinv, by simp [hiff, RemapsDeviceZero, remapOwner, getVmmAllocation, hget]⟩
  | released hallocations hdriver _ _ =>
    obtain ⟨hinv, hiff⟩ := h.of_same hallocations (by rw [← hdriver]) (by rw [← hdriver])
    exact ⟨hinv, by simp [hiff, RemapsDeviceZero, remapOwner]⟩
  | unregistered _ => cases hfree
  | freed _ _ _ => cases hfree

/-! ## 4. Whole runs -/

/-- **Which runs keep the owners' access.**  After a run of successful allocations
    on any devices and successful remaps of any blocks, every page is accessible
    from the device that owns its tensor if and only if every remap worked on a
    tensor of device 0. -/
theorem ownerAccess_iff (hlawful : cuda.Lawful) (memory : Handle → Nat → UInt8)
    {history : List AllocatorStep} (run : AllocatorRun cuda memory history w)
    (hkept : ∀ step ∈ history, step.op.frees = false) :
    OwnerAccess w ↔ ∀ step ∈ history, RemapsDeviceZero step := by
  suffices h : OwnerInv w ∧ (OwnerAccess w ↔ ∀ step ∈ history, RemapsDeviceZero step) from h.2
  induction run with
  | nil => exact ⟨ownerInv_init memory, by simp [ownerAccess_init]⟩
  | snoc run step ih =>
    rename_i history w w' op given
    simp only [List.mem_append, List.mem_singleton, or_imp, forall_and, forall_eq] at hkept ⊢
    obtain ⟨hinv, hiff⟩ := ih hkept.1
    obtain ⟨hinv', hiff'⟩ :=
      hinv.effect hlawful hkept.2 (wp_ok (AllocatorOp.exec_returned hkept.2) step)
    exact ⟨hinv', hiff'.trans (and_congr_left' hiff)⟩

/-- The calls of a run, all of which return. -/
def playAllocator (cuda : Cuda) (ops : List AllocatorOp) :
    Option (List AllocatorStep × AllocatorState) :=
  Machine.perform (AllocatorOp.exec cuda) [] (AllocatorState.init fun _ _ => 0)
    (ops.map fun op _ => op)

/-- Tensors on devices 1 and 0, a remap of the second. -/
theorem ownerAccess_second_device :
    ∃ p ∈ playAllocator .bump [.allocateVmmKvCache 5000000 ⟨some 1⟩, .allocateVmmKvCache 1 ⟨none⟩,
        .createPhysicalHandle 2097152 0, .remapBlock ⟨6291456, 1, 0⟩ 0 5], OwnerAccess p.2 := by
  have hplayed : ∃ p ∈ playAllocator .bump [.allocateVmmKvCache 5000000 ⟨some 1⟩,
        .allocateVmmKvCache 1 ⟨none⟩, .createPhysicalHandle 2097152 0,
        .remapBlock ⟨6291456, 1, 0⟩ 0 5],
      (∀ step ∈ p.1, step.op.frees = false) ∧
        ∀ step ∈ p.1, ∀ device ∈ remapOwner step, device = 0 := by
    decide +kernel
  obtain ⟨p, hp, hkept, hzero⟩ := hplayed
  have run := Machine.run_of_perform .nil (Option.mem_def.mp hp)
  exact ⟨p, hp, (ownerAccess_iff Cuda.bump_lawful (fun _ _ => 0) run hkept).mpr hzero⟩

/-- A remapped page of a tensor on device 1 is accessible from device 0 only. -/
theorem remap_takes_access :
    ∃ p ∈ playAllocator .bump [.allocateVmmKvCache 1 ⟨some 1⟩, .createPhysicalHandle 2097152 1,
        .remapBlock ⟨0, 1, 1⟩ 0 2],
      p.2.allocations.get? 0 = some ⟨0, 2097152, 2097152, [2], some ⟨0, 1, 1⟩⟩ ∧
        p.2.driver.pages.get? 0 = some ⟨2097152, 2, [0]⟩ ∧ ¬ OwnerAccess p.2 := by
  have hplayed : ∃ p ∈ playAllocator .bump [.allocateVmmKvCache 1 ⟨some 1⟩,
        .createPhysicalHandle 2097152 1, .remapBlock ⟨0, 1, 1⟩ 0 2],
      p.2.allocations.get? 0 = some ⟨0, 2097152, 2097152, [2], some ⟨0, 1, 1⟩⟩ ∧
        p.2.driver.pages.get? 0 = some ⟨2097152, 2, [0]⟩ := by
    decide +kernel
  obtain ⟨p, hp, hget, hpage⟩ := hplayed
  refine ⟨p, hp, hget, hpage, ?_⟩
  intro haccess
  obtain ⟨access, hmapped, hdevice⟩ := haccess 0 _ _ hget rfl 0 2 rfl
  rw [show VMMAllocation.pageVa _ 0 = 0 from rfl, hpage, Option.some.injEq] at hmapped
  cases hmapped
  exact absurd hdevice (by decide)

end Edmm
