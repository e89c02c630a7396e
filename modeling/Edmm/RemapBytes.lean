/-
  Edmm/RemapBytes.lean
  ====================
  **Remapping a block swaps its bytes and no others.**

  `peek` is the byte that the page table shows at an address and `poke` writes it,
  whichever device asks; a device with access reads and writes the same bytes
  (`load_eq_peek`, `store_eq_poke`).  In a state where the registry mirrors the
  page table, byte `o` of an allocation is its cell, that is byte `o % page_size` of
  its handle number `o / page_size` (`MappingInv.peek_eq`).  Remapping changes the
  cells of one block to those of the new handle; since no handle is installed
  twice, writes through the tensor then miss the old handle, whose bytes are back
  as they were when it is remapped again.
-/
import Edmm.PagedMemory
import Mathlib.Data.List.Induction

namespace Edmm

open Program

variable {cuda : Cuda} {w w' : AllocatorState}

/-! ## 1. Bytes behind addresses -/

/-- The byte that the page table shows at an address. -/
def DriverState.peek (s : DriverState) (va : Nat) : Option UInt8 :=
  (s.pageAt va).map fun (start, page) => s.memory page.handle (va - start)

/-- Write the byte that the page table shows at an address. -/
def DriverState.poke (s : DriverState) (va : Nat) (byte : UInt8) : DriverState :=
  match s.pageAt va with
  | none => s
  | some (start, page) =>
      { s with
        memory := fun handle offset =>
          if handle = page.handle ∧ offset = va - start then byte else s.memory handle offset }

theorem DriverState.load_eq_peek {s : DriverState} {device : DeviceId} {va : Nat} {byte : UInt8}
    (h : s.load device va = some byte) : s.peek va = some byte := by
  unfold DriverState.load DriverState.translate at h
  unfold DriverState.peek
  cases hpage : s.pageAt va with
  | none => simp [hpage] at h
  | some item =>
    simp only [hpage] at h
    split at h
    · simpa using h
    · cases h

theorem DriverState.store_eq_poke {s s' : DriverState} {device : DeviceId} {va : Nat}
    {byte : UInt8} (h : s.store device va byte = some s') : s' = s.poke va byte := by
  unfold DriverState.store DriverState.translate at h
  unfold DriverState.poke
  cases hpage : s.pageAt va with
  | none => simp [hpage] at h
  | some item =>
    simp only [hpage] at h
    split at h
    · simpa using h.symm
    · cases h

/-- Writes at offsets from `base`, one after the other. -/
def DriverState.pokes (s : DriverState) (base : Nat) (writes : List (Nat × UInt8)) : DriverState :=
  writes.foldl (fun s (offset, byte) => s.poke (base + offset) byte) s

/-- The last byte written at the offset. -/
def lastWrite (writes : List (Nat × UInt8)) (offset : Nat) : Option UInt8 :=
  (writes.reverse.find? fun write => write.1 = offset).map Prod.snd

theorem DriverState.poke_memory (s : DriverState) (va : Nat) (byte : UInt8) :
    ∃ memory, s.poke va byte = { s with memory } := by
  unfold DriverState.poke
  split
  · exact ⟨s.memory, rfl⟩
  · exact ⟨_, rfl⟩

theorem DriverState.pokes_memory (writes : List (Nat × UInt8)) (base : Nat) :
    ∀ s : DriverState, ∃ memory, s.pokes base writes = { s with memory } := by
  induction writes with
  | nil => exact fun s => ⟨s.memory, rfl⟩
  | cons write rest ih =>
    intro s
    obtain ⟨memory, hpoke⟩ := s.poke_memory (base + write.1) write.2
    obtain ⟨memory', hrest⟩ := ih (s.poke (base + write.1) write.2)
    exact ⟨memory', hrest.trans (by rw [hpoke])⟩

/-! ## 2. The bytes of an allocation -/

theorem Registered.inRange_pageVa {s : DriverState} {va : Nat} {alloc : VMMAllocation}
    (h : Registered s va alloc) {offset : Nat} (ho : offset < alloc.totalBytes) :
    inRange (alloc.pageVa (offset / alloc.pageSize)) alloc.pageSize (va + offset) = true := by
  have hsplit := (h.page_of_offset ho).2
  have hmod := Nat.mod_lt offset h.pageSize_pos
  rw [h.keyed] at hsplit
  rw [inRange_iff, hsplit]
  omega

/-- The page table finds the page of an offset. -/
theorem MappingInv.pageAt_offset (h : MappingInv w) {va : Nat} {alloc : VMMAllocation}
    (hget : w.allocations.get? va = some alloc) {offset : Nat} (ho : offset < alloc.totalBytes) :
    ∃ access,
      w.driver.pages.get? (alloc.pageVa (offset / alloc.pageSize)) =
        some ⟨alloc.pageSize, (alloc.cell offset).1, access⟩ ∧
      w.driver.pageAt (va + offset) =
        some (alloc.pageVa (offset / alloc.pageSize),
          ⟨alloc.pageSize, (alloc.cell offset).1, access⟩) ∧
      va + offset - alloc.pageVa (offset / alloc.pageSize) = (alloc.cell offset).2 := by
  have hentry := h.entries va alloc hget
  obtain ⟨hi, hsplit⟩ := hentry.page_of_offset ho
  rw [hentry.keyed] at hsplit
  have hhandle : (alloc.cell offset).1 = alloc.handles[offset / alloc.pageSize] := by
    simp [VMMAllocation.cell, List.getD_eq_getElem?_getD, List.getElem?_eq_getElem hi]
  obtain ⟨access, hpage⟩ := h.mirrors va alloc hget _ _ (List.getElem?_eq_getElem hi)
  rw [← hhandle] at hpage
  refine ⟨access, hpage, ?_, ?_⟩
  · exact h.pageAt_eq hget hi hpage (hentry.inRange_pageVa ho)
  · rw [hsplit]
    simp [VMMAllocation.cell]

/-- **Reading.**  Byte `offset` of an allocation is the byte of its cell. -/
theorem MappingInv.peek_eq (h : MappingInv w) {va : Nat} {alloc : VMMAllocation}
    (hget : w.allocations.get? va = some alloc) {offset : Nat} (ho : offset < alloc.totalBytes) :
    w.driver.peek (va + offset) =
      some (w.driver.memory (alloc.cell offset).1 (alloc.cell offset).2) := by
  obtain ⟨access, -, hfound, hoffset⟩ := h.pageAt_offset hget ho
  simp only [DriverState.peek, hfound, Option.map_some, hoffset]

/-- **Writing.**  A write at an offset of an allocation changes its cell only. -/
theorem MappingInv.poke_eq (h : MappingInv w) {va : Nat} {alloc : VMMAllocation}
    (hget : w.allocations.get? va = some alloc) {offset : Nat} (ho : offset < alloc.totalBytes)
    (byte : UInt8) (x : Handle) (y : Nat) :
    (w.driver.poke (va + offset) byte).memory x y =
      if (x, y) = alloc.cell offset then byte else w.driver.memory x y := by
  obtain ⟨access, -, hfound, hoffset⟩ := h.pageAt_offset hget ho
  simp only [DriverState.poke, hfound, hoffset, Prod.ext_iff]

/-- Writes keep the registry and the page table. -/
theorem MappingInv.withMemory (h : MappingInv w) (memory : Handle → Nat → UInt8) :
    MappingInv { w with driver := { w.driver with memory } } :=
  h.of_same rfl rfl rfl

/-- **Writes to one allocation.**  Afterwards the cell of an offset of `alloc` holds the
    last byte written there, and every byte that is no such cell is as before. -/
theorem MappingInv.pokes_eq (hcount : ∀ x, w.allocations.installed.count x ≤ 1) {va : Nat}
    {alloc : VMMAllocation} (hget : w.allocations.get? va = some alloc)
    {writes : List (Nat × UInt8)} (hwrites : ∀ write ∈ writes, write.1 < alloc.totalBytes)
    (h : MappingInv w) :
    (∀ offset < alloc.totalBytes,
      (w.driver.pokes va writes).memory (alloc.cell offset).1 (alloc.cell offset).2 =
        (lastWrite writes offset).getD
          (w.driver.memory (alloc.cell offset).1 (alloc.cell offset).2)) ∧
    ∀ x y, (∀ offset < alloc.totalBytes, (x, y) ≠ alloc.cell offset) →
      (w.driver.pokes va writes).memory x y = w.driver.memory x y := by
  induction writes using List.reverseRecOn with
  | nil => exact ⟨fun _ _ => rfl, fun _ _ _ => rfl⟩
  | append_singleton writes write ih =>
    obtain ⟨hcells, hothers⟩ := ih fun write hmem => hwrites write (List.mem_append_left _ hmem)
    have hin : write.1 < alloc.totalBytes :=
      hwrites write (List.mem_append_right _ (List.mem_singleton.mpr rfl))
    obtain ⟨memory, hmemory⟩ := w.driver.pokes_memory writes va
    -- the last write goes to the state that the earlier ones left
    have hlast : ∀ x y, (w.driver.pokes va (writes ++ [write])).memory x y =
        if (x, y) = alloc.cell write.1 then write.2
        else (w.driver.pokes va writes).memory x y := by
      intro x y
      have hpoke := (h.withMemory memory).poke_eq hget hin write.2 x y
      simp only [DriverState.pokes, List.foldl_append, List.foldl_cons, List.foldl_nil] at hmemory ⊢
      rw [hmemory]
      exact hpoke
    constructor
    · intro offset ho
      rw [hlast, lastWrite, List.reverse_append, List.reverse_singleton, List.singleton_append,
        List.find?_cons]
      by_cases heq : write.1 = offset
      · subst heq
        simp
      · have hne : alloc.cell offset ≠ alloc.cell write.1 := fun hcell =>
          heq (cell_injective h.toRegistryInv hcount hget ho hget hin hcell).2.symm
        rw [if_neg hne, hcells offset ho]
        simp [lastWrite, heq]
    · intro x y hxy
      rw [hlast, if_neg (hxy write.1 hin), hothers x y hxy]

/-! ## 3. Remapping -/

/-- What a remap of a block did to the bytes of all tensors. -/
structure Remapped (w w' : AllocatorState) (va : Nat) (alloc : VMMAllocation) (block : Nat)
    (handle : Handle) : Prop where
  /-- The tensor stays registered at its address, with the new handle for the block. -/
  registered : w'.allocations.get? va =
    some { alloc with handles := alloc.handles.set block handle }
  /-- The block shows the new handle, and device 0 may read it. -/
  remappedBlock : ∀ offset < alloc.totalBytes, offset / alloc.pageSize = block →
    w'.driver.peek (va + offset) = some (w.driver.memory handle (offset % alloc.pageSize)) ∧
    w'.driver.load 0 (va + offset) = some (w.driver.memory handle (offset % alloc.pageSize))
  /-- Every other byte of every tensor reads as before, from every device. -/
  elsewhere : ∀ va' alloc', w.allocations.get? va' = some alloc' →
    ∀ offset < alloc'.totalBytes, (va' = va → offset / alloc'.pageSize ≠ block) →
      w'.driver.peek (va' + offset) = w.driver.peek (va' + offset) ∧
      ∀ device, w'.driver.load device (va' + offset) = w.driver.load device (va' + offset)

/-- The handles installed once stay so when one is exchanged for a new one. -/
theorem installed_once_set {allocations : Dict Nat VMMAllocation}
    (hcount : ∀ x, allocations.installed.count x ≤ 1) {va : Nat} {alloc : VMMAllocation}
    (hget : allocations.get? va = some alloc) {block : Nat} (hblock : block < alloc.handles.length)
    {handle : Handle} (hnew : handle ∉ allocations.installed) (x : Handle) :
    (allocations.set va
      { alloc with handles := alloc.handles.set block handle }).installed.count x ≤ 1 := by
  have hone := hcount x
  have hzero := List.count_eq_zero.mpr hnew
  rw [count_installed hget] at hone hzero
  rw [count_installed_set]
  simp only [List.count_set hblock, beq_iff_eq]
  by_cases hx : handle = x
  · subst hx
    simp only [if_true]
    omega
  · simp only [hx, if_false]
    omega

/-- Addresses with the same page show the same bytes. -/
theorem load_eq_of_pageAt {s s' : DriverState} {va : Nat} {item : Nat × PageMapping}
    (hpage : s.pageAt va = some item) (hpage' : s'.pageAt va = some item)
    (hmemory : s'.memory = s.memory) :
    s'.peek va = s.peek va ∧ ∀ device, s'.load device va = s.load device va := by
  constructor
  · simp only [DriverState.peek, hpage, hpage', hmemory]
  · intro device
    simp only [DriverState.load, DriverState.translate, hpage, hpage', hmemory]

theorem MappingInv.remapped (h : MappingInv w) {va : Nat} {alloc : VMMAllocation} {block : Nat}
    {handle : Handle} (hget : w.allocations.get? va = some alloc)
    (hblock : block < alloc.handles.length)
    (hallocations : w'.allocations =
      w.allocations.set va { alloc with handles := alloc.handles.set block handle })
    (hdriver : SameButPages w.driver w'.driver)
    (hmapped : BlockMapped (alloc.pageVa block) alloc.pageSize handle [0] w.driver w'.driver) :
    Remapped w w' va alloc block handle := by
  have hinv := h.swapped hget hblock hallocations hdriver hmapped
  have hentry := h.entries va alloc hget
  have hmemory : w'.driver.memory = w.driver.memory := by rw [← hdriver]
  have hself : w'.allocations.get? va =
      some { alloc with handles := alloc.handles.set block handle } := by
    rw [hallocations, Dict.get?_set_self]
  refine ⟨hself, ?_, ?_⟩
  · rintro offset ho rfl
    have ho' : offset < alloc.totalBytes := ho
    obtain ⟨access, hpage, hfound, hoffset⟩ := hinv.pageAt_offset hself ho'
    -- the page of the block is the one just mapped, for device 0
    have hnew : w'.driver.pages.get? (alloc.pageVa (offset / alloc.pageSize)) =
        some ⟨alloc.pageSize, handle, [0]⟩ := by
      rw [hmapped]
      exact if_pos rfl
    have hpage' : w'.driver.pages.get? (alloc.pageVa (offset / alloc.pageSize)) = some _ := hpage
    rw [hnew, Option.some.injEq] at hpage'
    rw [← hpage'] at hfound
    have hfound' : w'.driver.pageAt (va + offset) =
        some (alloc.pageVa (offset / alloc.pageSize), ⟨alloc.pageSize, handle, [0]⟩) := hfound
    have hoffset' : va + offset - alloc.pageVa (offset / alloc.pageSize) =
        offset % alloc.pageSize := hoffset
    simp [DriverState.peek, DriverState.load, DriverState.translate, hfound', hoffset', hmemory]
  · intro va' alloc' hget' offset ho hother
    obtain ⟨access, hpage, hfound, -⟩ := h.pageAt_offset hget' ho
    obtain ⟨hi, -⟩ := (h.entries va' alloc' hget').page_of_offset ho
    have hsame : w'.driver.pages.get? (alloc'.pageVa (offset / alloc'.pageSize)) =
        w.driver.pages.get? (alloc'.pageVa (offset / alloc'.pageSize)) := by
      apply hmapped.others hentry.pageSize_pos
      by_cases hva : va' = va
      · subst hva
        cases hget.symm.trans hget'
        exact pageVa_apart alloc (Ne.symm (hother rfl))
      · exact block_outside hentry.sized hblock
          ((h.ranges_disjoint hget hget' (Ne.symm hva)).not_inRange
            ((h.entries va' alloc' hget').page_inRange hi))
    have hfound' : w'.driver.pageAt (va' + offset) = some (alloc'.pageVa (offset / alloc'.pageSize),
        ⟨alloc'.pageSize, (alloc'.cell offset).1, access⟩) := by
      have hin := (h.entries va' alloc' hget').inRange_pageVa ho
      by_cases hva : va' = va
      · subst hva
        cases hget.symm.trans hget'
        have hi' : offset / alloc.pageSize < (alloc.handles.set block handle).length := by
          rw [List.length_set]
          exact hi
        have hnew := hinv.pageAt_eq hself hi' (hsame.trans hpage) hin
        exact hnew
      · have hkept : w'.allocations.get? va' = some alloc' := by
          rw [hallocations, Dict.get?_set_of_ne _ _ hva]
          exact hget'
        exact hinv.pageAt_eq hkept hi (hsame.trans hpage) hin
    exact load_eq_of_pageAt hfound hfound' hmemory

/-- A remap of a registered block returns the listed handle and exchanges it. -/
theorem remapBlock_swaps (hsucceeds : cuda.Succeeds) {t : Tensor} {alloc : VMMAllocation}
    {block : Nat} (handle : Handle) (hget : w.allocations.get? t.dataPtr = some alloc)
    (hblock : block < alloc.handles.length) (hpage : 0 < alloc.pageSize) :
    ∃ w', remapBlock cuda t block handle w = .ok alloc.handles[block] w' ∧
      w'.allocations =
        w.allocations.set t.dataPtr { alloc with handles := alloc.handles.set block handle } ∧
      SameButPages w.driver w'.driver ∧
      BlockMapped (alloc.pageVa block) alloc.pageSize handle [0] w.driver w'.driver := by
  have hrun := wp_and_returns (swapBlock_run t alloc block handle)
    (swapBlock_returns hsucceeds t alloc block handle w)
  rw [remapBlock_accepts handle hget hblock]
  unfold wp at hrun
  cases hresult : swapBlock cuda t alloc block handle w with
  | ok old w' =>
    rw [hresult] at hrun
    obtain ⟨-, rfl, hallocations, hdriver, hpages⟩ := hrun
    refine ⟨w', ?_, hallocations, hdriver, hpages hpage⟩
    rw [List.getD_eq_getElem?_getD, List.getElem?_eq_getElem hblock, Option.getD_some]
  | error e w' =>
    rw [hresult] at hrun
    exact hrun.elim

/-- Writes through a tensor, in order. -/
def AllocatorState.written (w : AllocatorState) (t : Tensor) (writes : List (Nat × UInt8)) :
    AllocatorState :=
  { w with driver := w.driver.pokes t.dataPtr writes }

/-- After the remap of a block that returned `old`, remapping the block to `old` again
    returns the new handle, brings the bytes of the block back and keeps exactly the
    writes to the other blocks. -/
def Restorable (cuda : Cuda) (w w₁ : AllocatorState) (t : Tensor) (alloc : VMMAllocation)
    (block : Nat) (old handle : Handle) : Prop :=
  ∀ writes : List (Nat × UInt8), (∀ write ∈ writes, write.1 < alloc.totalBytes) →
    ∃ w₂, remapBlock cuda t block old (w₁.written t writes) = .ok handle w₂ ∧
      w₂.allocations.get? t.dataPtr = some alloc ∧
      ∀ offset < alloc.totalBytes, w₂.driver.peek (t.dataPtr + offset) =
        if offset / alloc.pageSize = block then w.driver.peek (t.dataPtr + offset)
        else (lastWrite writes offset).or (w.driver.peek (t.dataPtr + offset))

/-- **Remap, write, remap back**, where no handle is installed twice. -/
theorem MappingInv.restorable (hsucceeds : cuda.Succeeds) (h : MappingInv w)
    (hcount : ∀ x, w.allocations.installed.count x ≤ 1) {t : Tensor} {alloc : VMMAllocation}
    {block : Nat} {handle : Handle} (hget : w.allocations.get? t.dataPtr = some alloc)
    (hblock : block < alloc.handles.length) (hnew : handle ∉ w.allocations.installed)
    {w₁ : AllocatorState}
    (hallocations₁ : w₁.allocations =
      w.allocations.set t.dataPtr { alloc with handles := alloc.handles.set block handle })
    (hdriver₁ : SameButPages w.driver w₁.driver)
    (hmapped₁ : BlockMapped (alloc.pageVa block) alloc.pageSize handle [0] w.driver w₁.driver) :
    Restorable cuda w w₁ t alloc block alloc.handles[block] handle := by
  have hentry := h.entries _ alloc hget
  have hremapped₁ := h.remapped hget hblock hallocations₁ hdriver₁ hmapped₁
  have hinv₁ := h.swapped hget hblock hallocations₁ hdriver₁ hmapped₁
  have hcount₁ : ∀ x, w₁.allocations.installed.count x ≤ 1 := by
    rw [hallocations₁]
    exact installed_once_set hcount hget hblock hnew
  have hmemory₁ : w₁.driver.memory = w.driver.memory := by rw [← hdriver₁]
  intro writes hwrites
  have hget₁ := hremapped₁.registered
  have hblock₁ : block < (alloc.handles.set block handle).length := by
    rw [List.length_set]
    exact hblock
  obtain ⟨hcells, hothers⟩ := hinv₁.pokes_eq hcount₁ hget₁ hwrites
  obtain ⟨memory, hpokes⟩ := w₁.driver.pokes_memory writes t.dataPtr
  have hinv' : MappingInv (w₁.written t writes) := by
    unfold AllocatorState.written
    rw [hpokes]
    exact hinv₁.withMemory memory
  obtain ⟨w₂, hrun₂, hallocations₂, hdriver₂, hmapped₂⟩ :=
    remapBlock_swaps hsucceeds (w := w₁.written t writes) alloc.handles[block] hget₁ hblock₁
      hentry.pageSize_pos
  have hremapped₂ := hinv'.remapped hget₁ hblock₁ hallocations₂ hdriver₂ hmapped₂
  rw [List.getElem_set_self] at hrun₂
  refine ⟨w₂, hrun₂, ?_, ?_⟩
  · rw [hremapped₂.registered]
    simp only [List.set_set, List.set_getElem_self]
  intro offset ho
  by_cases hin : offset / alloc.pageSize = block
  · -- the old handle was nowhere installed, so no write reached its bytes
    have hcell : alloc.cell offset = (alloc.handles[block], offset % alloc.pageSize) := by
      simp [VMMAllocation.cell, hin, List.getD_eq_getElem?_getD, List.getElem?_eq_getElem hblock]
    have hmissed : ∀ offset' < alloc.totalBytes,
        (alloc.handles[block], offset % alloc.pageSize) ≠
          VMMAllocation.cell { alloc with handles := alloc.handles.set block handle } offset' := by
      intro offset' ho' heq
      have hi := (hentry.page_of_offset ho').1
      have hhandle := congrArg Prod.fst heq
      simp only [VMMAllocation.cell, List.getD_eq_getElem?_getD] at hhandle
      by_cases hsame : block = offset' / alloc.pageSize
      · rw [← hsame, List.getElem?_set_self hblock, Option.getD_some] at hhandle
        exact hnew (mem_installed_iff.mpr ⟨_, alloc, block, hget, by
          rw [List.getElem?_eq_getElem hblock, hhandle]⟩)
      · rw [List.getElem?_set_ne hsame, List.getElem?_eq_getElem hi, Option.getD_some] at hhandle
        exact hsame (installed_unique hcount hget (List.getElem?_eq_getElem hblock) hget
          (by rw [List.getElem?_eq_getElem hi, hhandle])).2
    rw [if_pos hin, (hremapped₂.remappedBlock offset ho hin).1, h.peek_eq hget ho, hcell]
    exact congrArg some ((hothers _ _ hmissed).trans (by rw [hmemory₁]))
  · have hkept := (hremapped₁.elsewhere _ alloc hget offset ho fun _ => hin).1
    have hkept₂ := (hremapped₂.elsewhere _ _ hget₁ offset ho fun _ => hin).1
    rw [if_neg hin, hkept₂, hinv'.peek_eq hget₁ ho, ← hkept, hinv₁.peek_eq hget₁ ho]
    have hwritten : (w₁.written t writes).driver.memory _ _ = _ := hcells offset ho
    cases hlast : lastWrite writes offset with
    | none => simpa [hlast] using hwritten
    | some byte => simpa [hlast] using hwritten

/-- The caller's books leave the allocator alone. -/
theorem world_runCaller (memory : Handle → Nat → UInt8) (ops : List AllocatorOp) :
    (runCaller cuda memory ops).world = runAllocator cuda memory ops := by
  have hstep : ∀ (c : CallerState) (op : AllocatorOp),
      (c.step cuda op).world = op.step cuda c.world := by
    intro c op
    unfold CallerState.step AllocatorOp.step
    cases op.exec cuda c.world <;> rfl
  unfold runCaller runAllocator
  rw [show AllocatorState.init memory = (CallerState.init memory).world from rfl]
  generalize CallerState.init memory = c
  induction ops generalizing c with
  | nil => rfl
  | cons op rest ih => rw [List.foldl_cons, List.foldl_cons, ih, hstep]

/-- The state with other bytes in the physical memory. -/
def AllocatorState.holding (w : AllocatorState) (contents : Handle → Nat → UInt8) :
    AllocatorState :=
  { w with driver := { w.driver with memory := contents } }

/-- **Remapping is byte-exact, local and reversible.**  Take any state reached by calls,
    with any bytes in the pages.  A remap of a block of a registered tensor shows the new
    handle's bytes in the block and changes no other byte.  If the calls remapped with
    handles installed nowhere, and so does this one, then after any writes to the tensor,
    remapping the block to the old handle returns the new one, brings the block's bytes
    back, and keeps exactly the writes to the other blocks. -/
theorem remap_exact_local_reversible (hlawful : cuda.Lawful) (hsucceeds : cuda.Succeeds)
    (memory contents : Handle → Nat → UInt8) (ops : List AllocatorOp)
    (hw : w = (runAllocator cuda memory ops).holding contents) {t : Tensor}
    {alloc : VMMAllocation} {block : Nat} (handle : Handle)
    (hget : getVmmAllocation w t = some alloc) (hblock : block < alloc.numPages) :
    ∃ old w₁, remapBlock cuda t block handle w = .ok old w₁ ∧
      Remapped w w₁ t.dataPtr alloc block handle ∧
      (PermittedRun cuda (CallerState.init memory) ops → handle ∉ w.allocations.installed →
        Restorable cuda w w₁ t alloc block old handle) := by
  have hmapping : MappingInv w := by
    rw [hw]
    exact (mappingInv_runAllocator hlawful hsucceeds memory ops).withMemory contents
  have hentry := hmapping.entries _ alloc hget
  obtain ⟨w₁, hrun, hallocations, hdriver, hmapped⟩ :=
    remapBlock_swaps hsucceeds handle hget hblock hentry.pageSize_pos
  refine ⟨_, w₁, hrun, hmapping.remapped hget hblock hallocations hdriver hmapped, ?_⟩
  intro hpermitted hnew
  have hbalanced := balanced_foldl hlawful hsucceeds (balanced_init memory) hpermitted
  have hcount : ∀ x, w.allocations.installed.count x ≤ 1 := by
    have honce : ∀ x, (runCaller cuda memory ops).world.allocations.installed.count x ≤ 1 :=
      hbalanced.installed_once
    rw [world_runCaller] at honce
    rw [hw]
    exact honce
  exact hmapping.restorable hsucceeds hcount hget hblock hnew hallocations hdriver hmapped

/-- The second of three blocks is remapped, bytes on both sides of its border are
    written, and the old page is put back. -/
theorem remap_exact_local_reversible_border :
    ∃ w old w₁ w₂, w = (runAllocator .bump (fun _ _ => 0) [.allocateVmmKvCache 5000000 ⟨none⟩,
        .allocateVmmKvCache 1 ⟨none⟩, .createPhysicalHandle 2097152 0]).holding
          (fun handle _ => handle.toUInt8) ∧
      remapBlock .bump ⟨0, 5000000, 0⟩ 1 5 w = .ok old w₁ ∧
      remapBlock .bump ⟨0, 5000000, 0⟩ 1 old
        (w₁.written ⟨0, 5000000, 0⟩ [(2097151, 70), (2097152, 80)]) = .ok 5 w₂ ∧
      w₂.driver.peek 2097151 = some 70 ∧ w₂.driver.peek 2097152 = w.driver.peek 2097152 := by
  obtain ⟨w, hw⟩ : ∃ w, w = (runAllocator .bump (fun _ _ => 0) [.allocateVmmKvCache 5000000 ⟨none⟩,
      .allocateVmmKvCache 1 ⟨none⟩, .createPhysicalHandle 2097152 0]).holding
        (fun handle _ => handle.toUInt8) := ⟨_, rfl⟩
  have hget : getVmmAllocation w ⟨0, 5000000, 0⟩ =
      some ⟨0, 6291456, 2097152, [1, 2, 3], some ⟨0, 5000000, 0⟩⟩ := by
    rw [hw]
    decide +kernel
  have hnew : 5 ∉ w.allocations.installed := by
    rw [hw]
    decide +kernel
  have hpermitted : PermittedRun .bump (.init fun _ _ => 0) [.allocateVmmKvCache 5000000 ⟨none⟩,
      .allocateVmmKvCache 1 ⟨none⟩, .createPhysicalHandle 2097152 0] :=
    ⟨trivial, trivial, trivial, trivial⟩
  have hblock : 1 < VMMAllocation.numPages
      ⟨0, 6291456, 2097152, [1, 2, 3], some ⟨0, 5000000, 0⟩⟩ := by decide
  obtain ⟨old, w₁, hrun₁, -, hback⟩ := remap_exact_local_reversible Cuda.bump_lawful
    Cuda.bump_succeeds _ _ _ hw 5 hget hblock
  obtain ⟨w₂, hrun₂, -, hbytes⟩ :=
    hback hpermitted hnew [(2097151, 70), (2097152, 80)] (by decide)
  have hleft := hbytes 2097151 (by decide)
  have hright := hbytes 2097152 (by decide)
  rw [if_neg (by decide)] at hleft
  rw [if_pos (by decide)] at hright
  exact ⟨w, old, w₁, w₂, hw, hrun₁, hrun₂, hleft.trans rfl, hright⟩

end Edmm
