/-
  Edmm/HandleConservation.lean
  ============================
  **Physical handles are conserved.**

  The allocator does not own the handles that its caller creates or gets back
  from a remap; it is the caller who must release them.  `CallerState` puts the
  caller's handles next to the allocator: a created handle and the old handle a
  remap returns go to the caller, the handle given to a remap and a released
  handle leave it.

  A caller that remaps only with handles that are alive and installed nowhere and
  releases only what it holds (`Permitted`) keeps the books balanced: as
  multisets, `live = installed + held` and `created = released + live`, and no
  live handle occurs twice.  Everything else follows by counting.
-/
import Edmm.MappingInvariant
import Mathlib.Data.List.Count

namespace Edmm

open Program

variable {cuda : Cuda} {w w' : AllocatorState}

/-! ## 1. Installed handles -/

/-- The handles installed in the registered allocations. -/
def Dict.installed (allocations : Dict Nat VMMAllocation) : List Handle :=
  allocations.values.flatMap VMMAllocation.handles

/-- The handles of one allocation next to those of the others. -/
theorem count_installed {allocations : Dict Nat VMMAllocation} {va : Nat} {alloc : VMMAllocation}
    (hget : allocations.get? va = some alloc) (h : Handle) :
    allocations.installed.count h =
      alloc.handles.count h + (allocations.erase va).installed.count h := by
  have hperm := (Dict.values_perm_cons_erase hget).flatMap_right VMMAllocation.handles
  rw [Dict.installed, hperm.count_eq, List.flatMap_cons, List.count_append]
  rfl

theorem count_installed_set (allocations : Dict Nat VMMAllocation) (va : Nat)
    (alloc : VMMAllocation) (h : Handle) :
    (allocations.set va alloc).installed.count h =
      alloc.handles.count h + (allocations.erase va).installed.count h := by
  have hperm := (Dict.values_set_perm_cons_erase allocations va alloc).flatMap_right
    VMMAllocation.handles
  rw [Dict.installed, hperm.count_eq, List.flatMap_cons, List.count_append]
  rfl

theorem count_installed_set_of_absent {allocations : Dict Nat VMMAllocation} {va : Nat}
    (alloc : VMMAllocation) (hget : allocations.get? va = none) (h : Handle) :
    (allocations.set va alloc).installed.count h =
      allocations.installed.count h + alloc.handles.count h := by
  rw [Dict.installed, Dict.values_set_of_absent alloc hget, List.flatMap_append, List.count_append,
    List.flatMap_singleton]
  rfl

/-- A handle is installed iff some allocation lists it. -/
theorem mem_installed_iff {allocations : Dict Nat VMMAllocation} {h : Handle} :
    h ∈ allocations.installed ↔
      ∃ va, ∃ alloc : VMMAllocation, ∃ i : Nat,
        allocations.get? va = some alloc ∧ alloc.handles[i]? = some h := by
  simp only [Dict.installed, List.mem_flatMap, Dict.mem_values_iff]
  constructor
  · rintro ⟨alloc, ⟨va, hget⟩, hmem⟩
    obtain ⟨i, hi⟩ := List.mem_iff_getElem?.mp hmem
    exact ⟨va, alloc, i, hget, hi⟩
  · rintro ⟨va, alloc, i, hget, hi⟩
    exact ⟨alloc, ⟨va, hget⟩, List.mem_of_getElem? hi⟩

/-! ## 2. The caller -/

structure CallerState where
  world : AllocatorState
  /-- Handles the caller created or got back and neither installed nor released. -/
  held : List Handle

def CallerState.init (memory : Handle → Nat → UInt8) : CallerState :=
  { world := AllocatorState.init memory, held := [] }

/-- What the caller still holds of its handles after a call that returned. -/
def AllocatorOp.keeps (held : List Handle) : AllocatorOp → List Handle
  | .remapBlock _ _ handle => held.erase handle
  | .releasePhysicalHandle handle => held.erase handle
  | _ => held

def CallerState.step (cuda : Cuda) (c : CallerState) (op : AllocatorOp) : CallerState :=
  match op.exec cuda c.world with
  | .ok given w' => { world := w', held := given.toList ++ op.keeps c.held }
  | .error _ w' => { world := w', held := c.held }

def runCaller (cuda : Cuda) (memory : Handle → Nat → UInt8) (ops : List AllocatorOp) :
    CallerState :=
  ops.foldl (CallerState.step cuda) (CallerState.init memory)

/-- A remap is given a live handle that is installed in no page; a release a
    handle that the caller holds. -/
def Permitted (c : CallerState) : AllocatorOp → Prop
  | .remapBlock _ _ handle =>
      handle ∈ c.world.driver.live ∧ handle ∉ c.world.allocations.installed
  | .releasePhysicalHandle handle => handle ∈ c.held
  | _ => True

def PermittedRun (cuda : Cuda) : CallerState → List AllocatorOp → Prop
  | _, [] => True
  | c, op :: rest => Permitted c op ∧ PermittedRun cuda (c.step cuda op) rest

/-! ## 3. The books -/

/-- The balance, counted per handle. -/
structure Balanced (c : CallerState) : Prop where
  registry : RegistryInv c.world
  liveNodup : c.world.driver.live.Nodup
  live : ∀ h, c.world.driver.live.count h =
    c.world.allocations.installed.count h + c.held.count h
  created : ∀ h, c.world.driver.created.count h =
    c.world.driver.released.count h + c.world.driver.live.count h

theorem balanced_init (memory : Handle → Nat → UInt8) : Balanced (CallerState.init memory) where
  registry := registryInv_init memory
  liveNodup := List.nodup_nil
  live := fun _ => rfl
  created := fun _ => rfl

/-- A permitted remap is given a handle that the caller holds. -/
theorem Balanced.mem_held {c : CallerState} (h : Balanced c) {handle : Handle}
    (hlive : handle ∈ c.world.driver.live) (hinstalled : handle ∉ c.world.allocations.installed) :
    handle ∈ c.held := by
  have hcount := h.live handle
  rw [List.count_eq_zero.mpr hinstalled] at hcount
  have hpos := List.count_pos_iff.mpr hlive
  exact List.count_pos_iff.mp (by omega)

/-- No handle is installed twice. -/
theorem Balanced.installed_once {c : CallerState} (h : Balanced c) (x : Handle) :
    c.world.allocations.installed.count x ≤ 1 := by
  have hlive := h.live x
  have hone := List.nodup_iff_count_le_one.mp h.liveNodup x
  omega

/-- **One permitted call keeps the books balanced.** -/
theorem Balanced.effect (hlawful : cuda.Lawful) {c : CallerState} (h : Balanced c)
    {op : AllocatorOp} (hpermitted : Permitted c op) {given : Option Handle}
    (hregistry : RegistryInv w') (heffect : Effect cuda c.world w' op given) :
    Balanced ⟨w', given.toList ++ op.keeps c.held⟩ := by
  cases heffect with
  | @allocated sizeBytes device alloc hnew =>
    have hfresh := h.registry.fresh hlawful sizeBytes.2 hnew
    refine ⟨hregistry, hnew.liveNodup hlawful h.liveNodup, fun x => ?_, fun x => ?_⟩
    · have hlive := h.live x
      simp only [hnew.live, hnew.registered, count_installed_set_of_absent _ hfresh,
        List.count_append, List.count_reverse, Option.toList_none, List.nil_append,
        AllocatorOp.keeps]
      omega
    · have hcreated := h.created x
      simp only [hnew.live, hnew.created, hnew.released, List.count_append, List.count_reverse]
      omega
  | @created sizeBytes deviceId handle hallocations hfresh hdriver =>
    have hlive' : w'.driver.live = handle :: c.world.driver.live := by rw [← hdriver]
    have hcreated' : w'.driver.created = c.world.driver.created ++ [handle] := by rw [← hdriver]
    have hreleased' : w'.driver.released = c.world.driver.released := by rw [← hdriver]
    refine ⟨hregistry, ?_, fun x => ?_, fun x => ?_⟩
    · rw [hlive']
      exact List.nodup_cons.mpr ⟨hfresh hlawful, h.liveNodup⟩
    · have hlive := h.live x
      simp only [hlive', hallocations, List.count_cons, Option.toList_some, List.singleton_append,
        AllocatorOp.keeps]
      omega
    · have hcreated := h.created x
      simp only [hlive', hcreated', hreleased', List.count_cons, List.count_append, List.count_nil]
      omega
  | @remapped tensor alloc block old handle hget hold hallocations hdriver hpages =>
    have hlive' : w'.driver.live = c.world.driver.live := by rw [← hdriver]
    have hcreated' : w'.driver.created = c.world.driver.created := by rw [← hdriver]
    have hreleased' : w'.driver.released = c.world.driver.released := by rw [← hdriver]
    refine ⟨hregistry, by rw [hlive']; exact h.liveNodup, fun x => ?_, fun x => ?_⟩
    · have hlive := h.live x
      have hheld := List.count_pos_iff.mpr (h.mem_held hpermitted.1 hpermitted.2)
      have hin : 0 < alloc.handles.count old := List.count_pos_iff.mpr (List.mem_of_getElem? hold)
      obtain ⟨hlt, hget_old⟩ := List.getElem?_eq_some_iff.mp hold
      rw [count_installed hget] at hlive
      simp only [hlive', hallocations, count_installed_set, List.count_set hlt, hget_old,
        List.count_cons, Option.toList_some, List.singleton_append, AllocatorOp.keeps,
        List.count_erase, beq_iff_eq]
      -- `old` moves to the caller, `handle` to the allocation
      by_cases hold_x : old = x <;> by_cases hnew_x : handle = x <;>
        simp only [hold_x, hnew_x, if_true, if_false] at hin hheld ⊢ <;> omega
    · rw [hlive', hcreated', hreleased']
      exact h.created x
  | @released handle hallocations hdriver hlive' hreleased' =>
    have hcreated' : w'.driver.created = c.world.driver.created := by rw [← hdriver]
    have hheld : 0 < c.held.count handle := List.count_pos_iff.mpr hpermitted
    refine ⟨hregistry, by rw [hlive']; exact h.liveNodup.erase _, fun x => ?_, fun x => ?_⟩
    · have hlive := h.live x
      have hlive_handle := h.live handle
      simp only [hlive', hallocations, Option.toList_none, List.nil_append, AllocatorOp.keeps,
        List.count_erase, beq_iff_eq]
      by_cases hx : handle = x <;>
        simp only [hx, if_true, if_false] at hheld hlive_handle ⊢ <;> omega
    · have hlive := h.live handle
      have hcreated := h.created x
      simp only [hlive', hcreated', hreleased', List.count_erase, List.count_append,
        List.count_singleton, beq_iff_eq]
      by_cases hx : handle = x <;>
        simp only [hx, if_true, if_false] at hheld hlive ⊢ <;> omega
  | unregistered hsame =>
    subst hsame
    exact ⟨hregistry, h.liveNodup, h.live, h.created⟩
  | @freed tensor alloc hget hallocations hdriver =>
    have hlive' : w'.driver.live = c.world.driver.live.diff alloc.handles := by rw [← hdriver]
    have hcreated' : w'.driver.created = c.world.driver.created := by rw [← hdriver]
    have hreleased' : w'.driver.released = c.world.driver.released ++ alloc.handles := by
      rw [← hdriver]
    refine ⟨hregistry, by rw [hlive']; exact h.liveNodup.diff, fun x => ?_, fun x => ?_⟩
    · have hlive := h.live x
      rw [count_installed hget] at hlive
      simp only [hlive', hallocations, List.count_diff, Option.toList_none, List.nil_append,
        AllocatorOp.keeps]
      omega
    · have hlive := h.live x
      have hcreated := h.created x
      rw [count_installed hget] at hlive
      simp only [hlive', hcreated', hreleased', List.count_diff, List.count_append]
      omega

/-- A call either has its effect or was a rejected remap. -/
theorem CallerState.step_cases (hsucceeds : cuda.Succeeds) (c : CallerState) (op : AllocatorOp) :
    (∃ given w', op.exec cuda c.world = .ok given w' ∧ Effect cuda c.world w' op given ∧
      c.step cuda op = ⟨w', given.toList ++ op.keeps c.held⟩) ∨ c.step cuda op = c := by
  have hexec : wp (op.exec cuda) _ _ c.world := op.exec_effect hsucceeds
  unfold wp at hexec
  cases hrun : op.exec cuda c.world with
  | ok given w' =>
    rw [hrun] at hexec
    exact Or.inl ⟨given, w', rfl, hexec, by simp only [CallerState.step, hrun]⟩
  | error e w' =>
    rw [hrun] at hexec
    obtain ⟨rfl, -⟩ := hexec
    exact Or.inr (by simp only [CallerState.step, hrun])

theorem Balanced.step (hlawful : cuda.Lawful) (hsucceeds : cuda.Succeeds) {c : CallerState}
    (h : Balanced c) {op : AllocatorOp} (hpermitted : Permitted c op) :
    Balanced (c.step cuda op) := by
  rcases c.step_cases hsucceeds op with ⟨given, w', hrun, heffect, hstep⟩ | hstep
  · rw [hstep]
    refine h.effect hlawful hpermitted ?_ heffect
    have hregistry := h.registry.step hlawful op
    rwa [AllocatorOp.step, hrun] at hregistry
  · rw [hstep]
    exact h

/-- **The books over a whole permitted run.** -/
theorem balanced_foldl (hlawful : cuda.Lawful) (hsucceeds : cuda.Succeeds) {c : CallerState}
    (h : Balanced c) {ops : List AllocatorOp} (hpermitted : PermittedRun cuda c ops) :
    Balanced (ops.foldl (CallerState.step cuda) c) := by
  induction ops generalizing c with
  | nil => exact h
  | cons op rest ih => exact ih (h.step hlawful hsucceeds hpermitted.1) hpermitted.2

/-! ## 4. What the books say about each handle -/

/-- When no handle is installed twice, each is installed in one place. -/
theorem installed_unique {allocations : Dict Nat VMMAllocation} {h : Handle}
    (hcount : ∀ x, allocations.installed.count x ≤ 1) {va va' : Nat}
    {alloc alloc' : VMMAllocation} {i i' : Nat} (hget : allocations.get? va = some alloc)
    (hi : alloc.handles[i]? = some h)
    (hget' : allocations.get? va' = some alloc') (hi' : alloc'.handles[i']? = some h) :
    va = va' ∧ i = i' := by
  simp only [count_installed hget] at hcount
  by_cases hva : va = va'
  · subst hva
    rw [hget, Option.some.injEq] at hget'
    subst hget'
    refine ⟨rfl, ?_⟩
    have hnodup : alloc.handles.Nodup := List.nodup_iff_count_le_one.mpr fun x =>
      Nat.le_trans (Nat.le_add_right _ _) (hcount x)
    exact (List.getElem?_inj (List.getElem?_eq_some_iff.mp hi).1 hnodup).mp (hi.trans hi'.symm)
  · have hother : (allocations.erase va).get? va' = some alloc' := by
      rw [Dict.get?_erase_of_ne _ (Ne.symm hva), hget']
    have hin' : 0 < (allocations.erase va).installed.count h :=
      List.count_pos_iff.mpr (mem_installed_iff.mpr ⟨va', alloc', i', hother, hi'⟩)
    have hin : 0 < alloc.handles.count h := List.count_pos_iff.mpr (List.mem_of_getElem? hi)
    have hle := hcount h
    omega

/-- The tensor a call works on. -/
def AllocatorOp.target : AllocatorOp → Option Nat
  | .remapBlock tensor _ _ => some tensor.dataPtr
  | .freeVmmKvCache tensor => some tensor.dataPtr
  | _ => none

/-- What conservation says of one moment of a run. -/
structure HandlesConserved (c : CallerState) : Prop where
  /-- Each created and unreleased handle is held by the caller or installed in
      exactly one page of exactly one registered allocation. -/
  accounted : ∀ h ∈ c.world.driver.live,
    (h ∈ c.held ∧ h ∉ c.world.allocations.installed) ∨
    (h ∉ c.held ∧ ∃! page : Nat × Nat, ∃ alloc, c.world.allocations.get? page.1 = some alloc ∧
      alloc.handles[page.2]? = some h)
  /-- Conversely only such handles are installed or held, the latter once. -/
  nothingElse : ∀ h, h ∈ c.world.allocations.installed ∨ h ∈ c.held → h ∈ c.world.driver.live
  heldNodup : c.held.Nodup
  /-- Releases and live handles make up the creations, so none is released twice. -/
  created : c.world.driver.created.Perm (c.world.driver.released ++ c.world.driver.live)
  /-- With everything freed and released, exactly the created handles are released. -/
  settled : c.world.allocations.items = [] → c.held = [] →
    c.world.driver.created.Perm c.world.driver.released

theorem Balanced.handlesConserved {c : CallerState} (h : Balanced c) : HandlesConserved c := by
  have hone := List.nodup_iff_count_le_one.mp h.liveNodup
  have hcreated : c.world.driver.created.Perm
      (c.world.driver.released ++ c.world.driver.live) := by
    rw [List.perm_iff_count]
    intro x
    rw [List.count_append, h.created x]
  refine
    { accounted := fun x hx => ?_
      nothingElse := fun x hx => ?_
      heldNodup := List.nodup_iff_count_le_one.mpr fun x => ?_
      created := hcreated
      settled := fun hallocations hheld => ?_ }
  · have hlive := h.live x
    have hle := hone x
    have hpos := List.count_pos_iff.mpr hx
    by_cases hin : x ∈ c.world.allocations.installed
    · have hin' := List.count_pos_iff.mpr hin
      refine Or.inr ⟨List.count_eq_zero.mp (by omega), ?_⟩
      obtain ⟨va, alloc, i, hget, hi⟩ := mem_installed_iff.mp hin
      refine ⟨(va, i), ⟨alloc, hget, hi⟩, ?_⟩
      rintro ⟨va', i'⟩ ⟨alloc', hget', hi'⟩
      obtain ⟨rfl, rfl⟩ := installed_unique h.installed_once hget hi hget' hi'
      rfl
    · refine Or.inl ⟨List.count_pos_iff.mp ?_, hin⟩
      rw [List.count_eq_zero.mpr hin] at hlive
      omega
  · have hlive := h.live x
    refine List.count_pos_iff.mp ?_
    rcases hx with hx | hx
    · have := List.count_pos_iff.mpr hx
      omega
    · have := List.count_pos_iff.mpr hx
      omega
  · have hlive := h.live x
    have hle := hone x
    omega
  · have hlive : c.world.driver.live = [] := by
      refine List.eq_nil_iff_forall_not_mem.mpr fun x hx => ?_
      have hcount := h.live x
      have hpos := List.count_pos_iff.mpr hx
      simp only [Dict.installed, Dict.values, hallocations, hheld, List.map_nil, List.flatMap_nil,
        List.count_nil] at hcount
      omega
    rw [hlive, List.append_nil] at hcreated
    exact hcreated

/-- The allocation at `va` and its handles survive a call. -/
def Untouched (va : Nat) (w w' : AllocatorState) : Prop :=
  ∀ alloc, w.allocations.get? va = some alloc →
    w'.allocations.get? va = some alloc ∧
    ∀ h ∈ alloc.handles, h ∈ w'.driver.live ∧
      w'.driver.released.count h = w.driver.released.count h

/-- **Isolation.**  A permitted call on another tensor, or on none, leaves an
    allocation registered and releases none of its handles. -/
theorem Balanced.isolated (hlawful : cuda.Lawful) (hsucceeds : cuda.Succeeds) {c : CallerState}
    (h : Balanced c) {op : AllocatorOp} (hpermitted : Permitted c op) {va : Nat}
    (htarget : op.target ≠ some va) : Untouched va c.world (c.step cuda op).world := by
  have hnext := h.step hlawful hsucceeds hpermitted
  rcases c.step_cases hsucceeds op with ⟨given, w', -, heffect, hstep⟩ | hstep
  · rw [hstep] at hnext ⊢
    intro alloc hget
    -- registration first; then its handles are installed, hence alive
    have hkept : w'.allocations.get? va = some alloc := by
      cases heffect with
      | @allocated sizeBytes device new hnew =>
        exact h.registry.kept hlawful sizeBytes.2 hnew hget
      | created hallocations _ _ => rwa [hallocations]
      | @remapped tensor _ _ _ _ _ _ hallocations _ _ =>
        have hne : va ≠ tensor.dataPtr := fun heq => htarget (congrArg some heq.symm)
        rwa [hallocations, Dict.get?_set_of_ne _ _ hne]
      | released hallocations _ _ _ => rwa [hallocations]
      | unregistered hsame => rwa [hsame]
      | @freed tensor _ _ hallocations _ =>
        have hne : va ≠ tensor.dataPtr := fun heq => htarget (congrArg some heq.symm)
        rwa [hallocations, Dict.get?_erase_of_ne _ hne]
    refine ⟨hkept, fun x hx => ?_⟩
    obtain ⟨i, hi⟩ := List.mem_iff_getElem?.mp hx
    have hinstalled := List.count_pos_iff.mpr (mem_installed_iff.mpr ⟨va, alloc, i, hget, hi⟩)
    have hinstalled' := List.count_pos_iff.mpr (mem_installed_iff.mpr ⟨va, alloc, i, hkept, hi⟩)
    have hlive := h.live x
    have hlive' : w'.driver.live.count x = w'.allocations.installed.count x + _ := hnext.live x
    have hone₀ := List.nodup_iff_count_le_one.mp h.liveNodup x
    have hpos : 0 < w'.driver.live.count x := by omega
    refine ⟨List.count_pos_iff.mp hpos, ?_⟩
    cases heffect with
    | allocated hnew => rw [hnew.released]
    | created _ _ hdriver => rw [← hdriver]
    | remapped _ _ _ hdriver _ => rw [← hdriver]
    | @released handle _ _ _ hreleased =>
      -- the caller holds the released handle, so it is not an installed one
      have hheld : 0 < c.held.count handle := List.count_pos_iff.mpr hpermitted
      have hne : handle ≠ x := by
        rintro rfl
        omega
      rw [hreleased, List.count_append, List.count_singleton, if_neg (by simpa using hne)]
      rfl
    | unregistered hsame => rw [hsame]
    | @freed tensor freed hget' _ hdriver =>
      have hne : va ≠ tensor.dataPtr := fun heq => htarget (congrArg some heq.symm)
      have hnot : x ∉ freed.handles := by
        intro hmem
        obtain ⟨j, hj⟩ := List.mem_iff_getElem?.mp hmem
        exact hne (installed_unique h.installed_once hget hi hget' hj).1
      rw [← hdriver]
      simp only [List.count_append, List.count_eq_zero.mpr hnot, Nat.add_zero]
  · rw [hstep]
    intro alloc hget
    refine ⟨hget, fun x hx => ⟨?_, rfl⟩⟩
    obtain ⟨i, hi⟩ := List.mem_iff_getElem?.mp hx
    have hinstalled := List.count_pos_iff.mpr (mem_installed_iff.mpr ⟨va, alloc, i, hget, hi⟩)
    have hlive := h.live x
    exact List.count_pos_iff.mp (by omega)

theorem PermittedRun.append {c : CallerState} {ops rest : List AllocatorOp}
    (h : PermittedRun cuda c (ops ++ rest)) :
    PermittedRun cuda c ops ∧ PermittedRun cuda (ops.foldl (CallerState.step cuda) c) rest := by
  induction ops generalizing c with
  | nil => exact ⟨trivial, h⟩
  | cons op ops ih =>
    obtain ⟨hop, hrest⟩ := h
    exact ⟨⟨hop, (ih hrest).1⟩, (ih hrest).2⟩

/-- **Handles are conserved.**  In every run with permitted remaps and releases
    and succeeding driver calls: at every moment the books balance, no handle is
    released more often than it was created (hence never twice while handle names
    are not reused), and no call releases a handle installed in an allocation it
    does not work on. -/
theorem handlesConserved_runCaller (cuda : Cuda) (hlawful : cuda.Lawful)
    (hsucceeds : cuda.Succeeds) (memory : Handle → Nat → UInt8) (ops : List AllocatorOp)
    (hpermitted : PermittedRun cuda (CallerState.init memory) ops) :
    HandlesConserved (runCaller cuda memory ops) ∧
    ((runCaller cuda memory ops).world.driver.created.Nodup →
      (runCaller cuda memory ops).world.driver.released.Nodup) ∧
    ∀ before op after, ops = before ++ op :: after → ∀ va, op.target ≠ some va →
      Untouched va (runCaller cuda memory before).world
        (runCaller cuda memory (before ++ [op])).world := by
  have hbalanced := balanced_foldl hlawful hsucceeds (balanced_init memory) hpermitted
  have hconserved : HandlesConserved (runCaller cuda memory ops) := hbalanced.handlesConserved
  refine ⟨hconserved, fun hnodup => ?_, ?_⟩
  · exact (List.nodup_append.mp (hconserved.created.nodup_iff.mp hnodup)).1
  · rintro before op after rfl va htarget
    obtain ⟨hbefore, hop, -⟩ := hpermitted.append
    have hstep := (balanced_foldl hlawful hsucceeds (balanced_init memory) hbefore).isolated
      hlawful hsucceeds hop htarget
    unfold runCaller
    rwa [List.foldl_append]

/-- Swap a page, put the old handle back, release the new one, free the tensor. -/
theorem handlesConserved_swap_and_restore :
    HandlesConserved (runCaller .bump (fun _ _ => 0)
      [.allocateVmmKvCache 5000000 ⟨none⟩, .allocateVmmKvCache 1 ⟨none⟩,
        .createPhysicalHandle 2097152 0, .remapBlock ⟨0, 5000000, 0⟩ 1 5,
        .remapBlock ⟨0, 5000000, 0⟩ 1 2, .releasePhysicalHandle 5,
        .freeVmmKvCache ⟨0, 5000000, 0⟩]) :=
  (handlesConserved_runCaller .bump Cuda.bump_lawful Cuda.bump_succeeds (fun _ _ => 0) _ (by
    refine ⟨trivial, trivial, trivial, ?_, ?_, ?_, trivial, trivial⟩
    · exact ⟨by decide +kernel, by decide +kernel⟩
    · exact ⟨by decide +kernel, by decide +kernel⟩
    · show _ ∈ _
      decide +kernel)).1

end Edmm
