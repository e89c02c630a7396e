/-
  Edmm/RemapFailure.lean
  ======================
  **Remapping a block while driver calls fail.**

  `remap_block` makes three fallible driver calls before it touches its list of
  handles, and undoes nothing.  So the call is not atomic
  (`remapBlock_not_atomic`): what a failure leaves depends on which of the three
  calls failed first.  `remapBlock_outcome` says what, for every driver, every
  reachable allocator state and every choice of failing calls: the registry and
  every page outside the block survive each failure; the block itself is as
  before, unmapped, or mapped to the new handle without access.

  A failure of an earlier remap is also why the returned handle need not be the
  one that was mapped: it is, as long as no earlier remap of this very block
  raised a driver error (`NeverTorn`), whatever else failed.
-/
import Edmm.MappingInvariant

namespace Edmm

open Program

variable {cuda : Cuda} {w w' : AllocatorState}

/-! ## 1. Torn blocks -/

/-- The call is a remap of the block that raised a driver error. -/
def TornBy (cuda : Cuda) (w : AllocatorState) (va block : Nat) (op : AllocatorOp) : Prop :=
  ∃ tensor handle msg w', op = .remapBlock tensor block handle ∧ tensor.dataPtr = va ∧
    op.exec cuda w = .error (.runtimeError msg) w'

/-- No call of the run is a remap of the block that raised a driver error. -/
def NeverTorn (cuda : Cuda) (va block : Nat) : AllocatorState → List AllocatorOp → Prop
  | _, [] => True
  | w, op :: rest =>
      ¬ TornBy cuda w va block op ∧ NeverTorn cuda va block (op.step cuda w) rest

/-- The block of the allocation registered at `va`, if there is one, is mapped as
    its list says. -/
def BlockMirrored (va block : Nat) (w : AllocatorState) : Prop :=
  ∀ alloc, w.allocations.get? va = some alloc → PageMirrored w.driver alloc block

theorem BlockMirrored.of_same {va block : Nat} (h : BlockMirrored va block w)
    (hallocations : w'.allocations = w.allocations)
    (hpages : w'.driver.pages = w.driver.pages) : BlockMirrored va block w' := by
  intro alloc hget
  unfold PageMirrored
  rw [hpages]
  exact h alloc (by rw [← hallocations]; exact hget)

/-- A change outside the ranges of the allocations that stay keeps their blocks. -/
theorem BlockMirrored.frame {va block : Nat} (h : BlockMirrored va block w) (hreg : RegistryInv w)
    (r : Nat × Nat)
    (hkept : ∀ alloc, w'.allocations.get? va = some alloc → w.allocations.get? va = some alloc ∧
      RangesDisjoint r (alloc.vaPtr, alloc.totalBytes))
    (hothers : ∀ p, inRange r.1 r.2 p = false →
      w'.driver.pages.get? p = w.driver.pages.get? p) : BlockMirrored va block w' := by
  intro alloc hget
  obtain ⟨hget₀, hdisjoint⟩ := hkept alloc hget
  exact (h alloc hget₀).frame (hreg.entries va alloc hget₀) hdisjoint hothers

/-- What a failed swap leaves outside its block. -/
theorem SwapCall.leaves_others {blockVa pageSize : Nat} {handle : Handle} {s s' : DriverState}
    {failed : SwapCall} (h : failed.leaves blockVa pageSize handle s s') (hpage : 0 < pageSize)
    {p : Nat} (hp : inRange blockVa pageSize p = false) :
    s'.pages.get? p = s.pages.get? p := by
  cases failed with
  | cuMemUnmap => exact congrArg (fun pages => pages.get? p) h
  | cuMemMap => rw [h p, if_neg (by simp [hp])]
  | cuMemSetAccess => exact BlockMapped.others h hpage hp

theorem exec_remapBlock_error {tensor : Tensor} {blockId : Int} {handle : Handle} {e : PyError}
    (h : remapBlock cuda tensor blockId handle w = .error e w') :
    (AllocatorOp.remapBlock tensor blockId handle).exec cuda w = .error e w' :=
  run_bind_error h _

theorem step_remapBlock (tensor : Tensor) (blockId : Int) (handle : Handle) :
    (AllocatorOp.remapBlock tensor blockId handle).step cuda w =
      finalState (remapBlock cuda tensor blockId handle w) := by
  simp only [AllocatorOp.step, AllocatorOp.exec]
  cases h : remapBlock cuda tensor blockId handle w with
  | ok old w' => rw [run_bind_ok h, run_pure]; rfl
  | error e w' => rw [run_bind_error h]; rfl

/-- **One call keeps a block as listed** unless it tears the block. -/
theorem BlockMirrored.step (hlawful : cuda.Lawful) {va block : Nat} (hreg : RegistryInv w)
    (h : BlockMirrored va block w) {op : AllocatorOp} (hwhole : ¬ TornBy cuda w va block op) :
    BlockMirrored va block (op.step cuda w) := by
  cases op with
  | allocateVmmKvCache sizeBytes device =>
    refine finalState_of_wp ?_
    simp only [AllocatorOp.exec, wp_bind, wp_pure]
    refine wp_mono (allocateVmmKvCache_spec _ _) ?_ ?_
    · rintro t w' ⟨new, hnew, -⟩ alloc hget
      rw [hnew.registered, Dict.get?_set] at hget
      by_cases hva : va = new.vaPtr
      · rw [if_pos hva, Option.some.injEq] at hget
        subst hget
        exact fun handle hi => ⟨_, hnew.mapped block handle hi⟩
      · rw [if_neg hva] at hget
        have hentry := hreg.entries va alloc hget
        exact (h alloc hget).frame hentry (hnew.disjoint hlawful _ hentry.reserved) hnew.others
    · rintro e w' ⟨hallocations, ⟨-, hpages⟩ | ⟨va', size, -, hdisjoint, hothers⟩⟩
      · exact h.of_same hallocations hpages
      · refine h.frame hreg (va', size) ?_ hothers
        intro alloc hget
        rw [hallocations] at hget
        exact ⟨hget, hdisjoint hlawful _ (hreg.entries va alloc hget).reserved⟩
  | createPhysicalHandle sizeBytes deviceId =>
    refine finalState_of_wp ?_
    simp only [AllocatorOp.exec, wp_bind, wp_pure]
    refine wp_mono (createPhysicalHandle_spec _ _) ?_ ?_
    · rintro handle w' ⟨hallocations, -, hdriver⟩
      exact h.of_same hallocations (by rw [← hdriver])
    · rintro e w' ⟨hallocations, hdriver⟩
      exact h.of_same hallocations (by rw [← hdriver])
  | remapBlock tensor blockId handle =>
    rw [step_remapBlock]
    rcases remapBlock_cases cuda w tensor blockId handle with
      ⟨msg, hrun⟩ | ⟨alloc, swapped, rfl, hget, hswapped, hrun⟩
    · rw [hrun]
      exact h
    · have hentry := hreg.entries _ alloc hget
      refine finalState_of_wp (wp_of_run ?_ ?_)
      · intro old w' hok
        obtain ⟨-, -, hallocations, -, hpages⟩ :=
          wp_ok (swapBlock_run tensor alloc swapped handle) (hrun.symm.trans hok)
        have hmapped := hpages hentry.pageSize_pos
        intro other hget'
        rw [hallocations, Dict.get?_set] at hget'
        by_cases hva : va = tensor.dataPtr
        · rw [if_pos hva, Option.some.injEq] at hget'
          subst hget' hva
          exact (h alloc hget).swapped hentry.pageSize_pos hmapped
        · rw [if_neg hva] at hget'
          refine (h other hget').frame (hreg.entries va other hget')
            (hreg.ranges_disjoint hget hget' (Ne.symm hva)) ?_
          exact fun p hp =>
            hmapped.others hentry.pageSize_pos (block_outside hentry.sized hswapped hp)
      · intro e w' herror
        obtain ⟨failed, -, ⟨msg, rfl⟩, hallocations, -, hleaves⟩ :=
          wp_error (swapBlock_run tensor alloc swapped handle) (hrun.symm.trans herror)
        have hothers : ∀ p, inRange (alloc.pageVa swapped) alloc.pageSize p = false →
            w'.driver.pages.get? p = w.driver.pages.get? p :=
          fun p => SwapCall.leaves_others hleaves hentry.pageSize_pos
        intro other hget'
        rw [hallocations] at hget'
        by_cases hva : va = tensor.dataPtr
        · -- the same tensor, so by assumption another block
          subst hva
          rw [show w.allocations.get? tensor.dataPtr = some alloc from hget,
            Option.some.injEq] at hget'
          subst hget'
          have hne : swapped ≠ block := by
            rintro rfl
            exact hwhole ⟨tensor, handle, msg, w', rfl, rfl, exec_remapBlock_error herror⟩
          intro other hi
          rw [hothers _ (pageVa_apart alloc hne)]
          exact h alloc hget other hi
        · refine (h other hget').frame (hreg.entries va other hget')
            (hreg.ranges_disjoint hget hget' (Ne.symm hva)) ?_
          exact fun p hp => hothers p (block_outside hentry.sized hswapped hp)
  | releasePhysicalHandle handle =>
    refine finalState_of_wp ?_
    simp only [AllocatorOp.exec, wp_bind, wp_pure]
    refine wp_mono (releasePhysicalHandle_spec _) ?_ ?_
    · rintro - w' ⟨hallocations, hdriver, -, -⟩
      exact h.of_same hallocations (by rw [← hdriver])
    · rintro e w' ⟨hallocations, hdriver⟩
      exact h.of_same hallocations (by rw [← hdriver])
  | freeVmmKvCache tensor =>
    refine finalState_of_wp ?_
    simp only [AllocatorOp.exec, wp_bind, wp_pure]
    cases hget : getVmmAllocation w tensor with
    | none =>
      unfold wp
      rw [freeVmmKvCache_unregistered hget]
      exact h
    | some freed =>
      refine wp_mono_of_returns (freeVmmKvCache_spec hget) ?_
      rintro - w' ⟨hallocations, -, hothers, -⟩
      refine h.frame hreg (freed.vaPtr, freed.totalBytes) ?_ hothers
      intro alloc hget'
      rw [hallocations, Dict.get?_erase] at hget'
      by_cases hva : va = tensor.dataPtr
      · rw [if_pos hva] at hget'
        cases hget'
      · rw [if_neg hva] at hget'
        exact ⟨hget', hreg.ranges_disjoint hget hget' (Ne.symm hva)⟩

/-- **A block stays as listed over a run** in which no remap of it raised. -/
theorem blockMirrored_runAllocator (hlawful : cuda.Lawful) (memory : Handle → Nat → UInt8)
    {va block : Nat} {ops : List AllocatorOp}
    (hwhole : NeverTorn cuda va block (AllocatorState.init memory) ops) :
    BlockMirrored va block (runAllocator cuda memory ops) := by
  have hinit : BlockMirrored va block (AllocatorState.init memory) := by
    intro alloc hget
    cases hget
  have hreg := registryInv_init memory
  unfold runAllocator
  generalize AllocatorState.init memory = w at hwhole hinit hreg
  induction ops generalizing w with
  | nil => exact hinit
  | cons op rest ih => exact ih _ hwhole.2 (hinit.step hlawful hreg hwhole.1) (hreg.step hlawful op)

/-! ## 2. All the ways a remap can end -/

/-- What one remap of an accepted block did: `result` is how the call ended and
    `failed` the first of its driver calls that failed, if one did. -/
def RemapOutcome (w : AllocatorState) (tensor : Tensor) (alloc : VMMAllocation) (block : Nat)
    (handle : Handle) (wholeSoFar : Prop) (failed : Option SwapCall) :
    EStateM.Result PyError AllocatorState Handle → Prop
  | .ok old w' =>
      failed = none ∧
      -- the new handle is mapped, accessible to device 0 and recorded
      w'.driver.pages.get? (alloc.pageVa block) = some ⟨alloc.pageSize, handle, [0]⟩ ∧
      getVmmAllocation w' tensor =
        some { alloc with handles := alloc.handles.set block handle } ∧
      -- the handle returned is the recorded one, hence the one that was mapped
      alloc.handles[block]? = some old ∧
      (wholeSoFar → ∃ access,
        w.driver.pages.get? (alloc.pageVa block) = some ⟨alloc.pageSize, old, access⟩) ∧
      (∀ p, inRange (alloc.pageVa block) alloc.pageSize p = false →
        w'.driver.pages.get? p = w.driver.pages.get? p)
  | .error e w' =>
      (∃ msg, e = .runtimeError msg) ∧ w'.allocations = w.allocations ∧
      (∀ p, inRange (alloc.pageVa block) alloc.pageSize p = false →
        w'.driver.pages.get? p = w.driver.pages.get? p) ∧
      match failed with
      | some .cuMemUnmap => w'.driver.pages = w.driver.pages
      | some .cuMemMap => w'.driver.pages.get? (alloc.pageVa block) = none
      | some .cuMemSetAccess =>
          w'.driver.pages.get? (alloc.pageVa block) = some ⟨alloc.pageSize, handle, []⟩
      | none => False

/-- **Every outcome of a remap under driver failure.**  In every state reached by
    a run of any driver, with any of its calls failing, a remap of a block in
    range returns exactly if its three driver calls succeed.  If one fails, the
    registry and every page outside the block are as before and nothing is undone:
    the block is as before (unmap failed), unmapped (map failed), or mapped to the
    new handle without access (access grant failed). -/
theorem remapBlock_outcome (cuda : Cuda) (hlawful : cuda.Lawful) (memory : Handle → Nat → UInt8)
    (ops : List AllocatorOp) (tensor : Tensor) (alloc : VMMAllocation) (block : Nat)
    (handle : Handle)
    (hget : getVmmAllocation (runAllocator cuda memory ops) tensor = some alloc)
    (hblock : block < alloc.numPages) :
    RemapOutcome (runAllocator cuda memory ops) tensor alloc block handle
      (NeverTorn cuda tensor.dataPtr block (AllocatorState.init memory) ops)
      (cuda.swapFailure (runAllocator cuda memory ops).driver (alloc.pageVa block) alloc.pageSize
        handle)
      (remapBlock cuda tensor block handle (runAllocator cuda memory ops)) := by
  have hreg := registryInv_runAllocator hlawful memory ops
  have hmirrored : NeverTorn cuda tensor.dataPtr block (AllocatorState.init memory) ops →
      BlockMirrored tensor.dataPtr block (runAllocator cuda memory ops) :=
    blockMirrored_runAllocator hlawful memory
  generalize runAllocator cuda memory ops = w at hget hreg hmirrored ⊢
  have hentry := hreg.entries _ alloc hget
  have hself : inRange (alloc.pageVa block) alloc.pageSize (alloc.pageVa block) = true := by
    have := hentry.pageSize_pos
    rw [inRange_iff]
    omega
  rw [remapBlock_accepts handle hget hblock]
  have hrun : wp (swapBlock cuda tensor alloc block handle) _ _ w :=
    swapBlock_run tensor alloc block handle
  unfold wp at hrun
  cases hresult : swapBlock cuda tensor alloc block handle w with
  | ok old w' =>
    rw [hresult] at hrun
    obtain ⟨hnone, rfl, hallocations, -, hpages⟩ := hrun
    have hmapped := hpages hentry.pageSize_pos
    have hold : alloc.handles[block]? = some (alloc.handles.getD block 0) := by
      rw [List.getD_eq_getElem?_getD, List.getElem?_eq_getElem hblock, Option.getD_some]
    refine ⟨hnone, ?_, ?_, hold, fun hwhole => hmirrored hwhole alloc hget _ hold, ?_⟩
    · rw [hmapped, if_pos rfl]
    · unfold getVmmAllocation
      rw [hallocations, Dict.get?_set_self]
    · exact fun p => hmapped.others hentry.pageSize_pos
  | error e w' =>
    rw [hresult] at hrun
    obtain ⟨failed, hfailed, hmsg, hallocations, -, hleaves⟩ := hrun
    refine ⟨hmsg, hallocations,
      fun p => SwapCall.leaves_others hleaves hentry.pageSize_pos, ?_⟩
    rw [hfailed]
    cases failed with
    | cuMemUnmap => exact hleaves
    | cuMemMap =>
      show w'.driver.pages.get? _ = none
      rw [hleaves, if_pos hself]
    | cuMemSetAccess =>
      show w'.driver.pages.get? _ = _
      rw [hleaves, if_pos rfl]

/-- A remap that returns, and the outcome it has. -/
theorem remapBlock_outcome_swap :
    RemapOutcome (runAllocator .bump (fun _ _ => 0)
        [.allocateVmmKvCache 5000000 ⟨none⟩, .createPhysicalHandle 2097152 0])
      ⟨0, 5000000, 0⟩ ⟨0, 6291456, 2097152, [1, 2, 3], some ⟨0, 5000000, 0⟩⟩ 1 4
      (NeverTorn .bump 0 1 (AllocatorState.init fun _ _ => 0)
        [.allocateVmmKvCache 5000000 ⟨none⟩, .createPhysicalHandle 2097152 0])
      none
      (remapBlock .bump ⟨0, 5000000, 0⟩ 1 4 (runAllocator .bump (fun _ _ => 0)
        [.allocateVmmKvCache 5000000 ⟨none⟩, .createPhysicalHandle 2097152 0])) :=
  remapBlock_outcome .bump Cuda.bump_lawful (fun _ _ => 0)
    [.allocateVmmKvCache 5000000 ⟨none⟩, .createPhysicalHandle 2097152 0] ⟨0, 5000000, 0⟩
    ⟨0, 6291456, 2097152, [1, 2, 3], some ⟨0, 5000000, 0⟩⟩ 1 4 (by decide +kernel) (by decide)

/-! ## 3. A remap is not atomic -/

/-- All or nothing: what an atomic remap would guarantee. -/
def RemapAtomic (w : AllocatorState) (tensor : Tensor) (alloc : VMMAllocation) (block : Nat)
    (handle : Handle) : EStateM.Result PyError AllocatorState Handle → Prop
  | .ok old w' =>
      (∃ access, access ≠ [] ∧
        w'.driver.pages.get? (alloc.pageVa block) = some ⟨alloc.pageSize, handle, access⟩) ∧
      (∃ alloc', getVmmAllocation w' tensor = some alloc' ∧
        alloc'.handles[block]? = some handle) ∧
      ∃ access, w.driver.pages.get? (alloc.pageVa block) = some ⟨alloc.pageSize, old, access⟩
  | .error _ w' =>
      (∃ old access, alloc.handles[block]? = some old ∧ access ≠ [] ∧
        w'.driver.pages.get? (alloc.pageVa block) = some ⟨alloc.pageSize, old, access⟩ ∧
        ∃ alloc', getVmmAllocation w' tensor = some alloc' ∧ alloc'.handles[block]? = some old) ∧
      ∀ p, p ≠ alloc.pageVa block → w'.driver.pages.get? p = w.driver.pages.get? p

/-- After an atomic remap the block is mapped, however the call ended. -/
theorem RemapAtomic.mapped {tensor : Tensor} {alloc : VMMAllocation} {block : Nat}
    {handle : Handle} {result : EStateM.Result PyError AllocatorState Handle}
    (h : RemapAtomic w tensor alloc block handle result) :
    (finalState result).driver.pages.get? (alloc.pageVa block) ≠ none := by
  cases result with
  | ok old w' =>
    obtain ⟨⟨access, -, hpage⟩, -⟩ := h
    exact fun hnone => by simp [finalState, hpage] at hnone
  | error e w' =>
    obtain ⟨⟨old, access, -, -, hpage, -⟩, -⟩ := h
    exact fun hnone => by simp [finalState, hpage] at hnone

/-- The driver whose call number `n` fails. -/
def Cuda.failingAt (n : Nat) : Cuda :=
  { Cuda.bump with result := fun s _ => if s.calls = n then 1 else 0 }

theorem Cuda.failingAt_lawful (n : Nat) : (Cuda.failingAt n).Lawful where
  reserve_disjoint := Cuda.bump_lawful.reserve_disjoint
  create_fresh := Cuda.bump_lawful.create_fresh

/-- **Not atomic.**  One page, one new handle; `cuMemMap` of the remap is driver
    call number 14.  When it fails, the page is left unmapped. -/
theorem remapBlock_not_atomic :
    ¬ ∀ (cuda : Cuda), cuda.Lawful → ∀ (memory : Handle → Nat → UInt8) (ops : List AllocatorOp)
      (tensor : Tensor) (alloc : VMMAllocation) (block : Nat) (handle : Handle),
      getVmmAllocation (runAllocator cuda memory ops) tensor = some alloc →
      block < alloc.numPages →
      RemapAtomic (runAllocator cuda memory ops) tensor alloc block handle
        (remapBlock cuda tensor block handle (runAllocator cuda memory ops)) := by
  intro hatomic
  have hmapped := (hatomic (.failingAt 14) (Cuda.failingAt_lawful 14) (fun _ _ => 0)
    [.allocateVmmKvCache 1 ⟨none⟩, .createPhysicalHandle 2097152 0] ⟨0, 1, 0⟩
    ⟨0, 2097152, 2097152, [1], some ⟨0, 1, 0⟩⟩ 0 2 (by decide +kernel) (by decide)).mapped
  exact hmapped (by decide +kernel)

end Edmm
