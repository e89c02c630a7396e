/-
  Edmm/StaleTensor.lean
  =====================
  **A tensor that outlived its allocation.**

  The registry is keyed by the raw data pointer, so a tensor counts as VMM-backed
  as long as some allocation starts at its address.  Once it is freed the driver
  may hand the address out again, and the old tensor then stands for the new
  allocation.  `staleTensor_iff` says exactly when that does not happen.

  Nothing is assumed of the driver here: the equivalence holds whatever its calls
  return and whatever addresses it picks.
-/
import Edmm.AllocatorEffects
import Mathlib.Data.List.Induction

namespace Edmm

open Program

variable {cuda : Cuda} {w w' : AllocatorState}

/-! ## 1. Stale tensors -/

/-- No call can reach an allocation through the tensor: it is not registered, every
    remap raises `ValueError` and freeing does nothing, with no driver call made. -/
structure Unreachable (cuda : Cuda) (w : AllocatorState) (t : Tensor) : Prop where
  unregistered : getVmmAllocation w t = none
  remap : ∀ blockId handle, ∃ msg, remapBlock cuda t blockId handle w = .error (.valueError msg) w
  free : freeVmmKvCache cuda t w = .ok ⟨⟩ w

theorem unreachable_iff {t : Tensor} : Unreachable cuda w t ↔ getVmmAllocation w t = none := by
  constructor
  · exact Unreachable.unregistered
  · intro hget
    refine ⟨hget, ?_, freeVmmKvCache_unregistered hget⟩
    intro blockId handle
    apply remapBlock_rejects
    intro alloc hsome
    rw [hget] at hsome
    cases hsome

/-- The call is an allocation that returns a tensor at the address. -/
def AllocatesAt (cuda : Cuda) (w : AllocatorState) (op : AllocatorOp) (va : Nat) : Prop :=
  ∃ sizeBytes : ℕ+, ∃ device t w', op = .allocateVmmKvCache sizeBytes device ∧
    allocateVmmKvCache cuda sizeBytes device w = .ok t w' ∧ t.dataPtr = va

/-! ## 2. One call -/

theorem allocations_allocate (cuda : Cuda) (sizeBytes : Nat) (device : Device) (w : AllocatorState) :
    (∃ t w', allocateVmmKvCache cuda sizeBytes device w = .ok t w' ∧
      ∃ alloc, w'.allocations = w.allocations.set t.dataPtr alloc) ∨
    (∃ e w', allocateVmmKvCache cuda sizeBytes device w = .error e w' ∧
      w'.allocations = w.allocations) := by
  have hrun : wp (allocateVmmKvCache cuda sizeBytes device) _ _ w :=
    allocateVmmKvCache_spec sizeBytes device
  unfold wp at hrun
  cases hresult : allocateVmmKvCache cuda sizeBytes device w with
  | ok t w' =>
    rw [hresult] at hrun
    obtain ⟨alloc, hnew, rfl⟩ := hrun
    exact Or.inl ⟨_, w', rfl, alloc, hnew.registered⟩
  | error e w' =>
    rw [hresult] at hrun
    exact Or.inr ⟨e, w', rfl, hrun.1⟩

/-- Every other call registers nothing new. -/
theorem allocations_step {op : AllocatorOp} (hop : ∀ sizeBytes device,
      op ≠ .allocateVmmKvCache sizeBytes device) {va : Nat} (hget : w.allocations.get? va = none) :
    (op.step cuda w).allocations.get? va = none := by
  refine finalState_of_wp (I := fun w' : AllocatorState => w'.allocations.get? va = none) ?_
  cases op with
  | allocateVmmKvCache sizeBytes device => exact absurd rfl (hop sizeBytes device)
  | createPhysicalHandle sizeBytes deviceId =>
    simp only [AllocatorOp.exec, wp_bind, wp_pure]
    apply wp_mono (createPhysicalHandle_spec _ _)
    · intro handle w' h
      rw [h.1, hget]
    · intro e w' h
      rw [h.1, hget]
  | remapBlock tensor blockId handle =>
    simp only [AllocatorOp.exec, wp_bind, wp_pure]
    rcases remapBlock_cases cuda w tensor blockId handle with
      ⟨msg, hrun⟩ | ⟨alloc, block, rfl, hregistered, -, hrun⟩
    · unfold wp
      rw [hrun]
      exact hget
    · rw [wp_congr hrun]
      have hne : va ≠ tensor.dataPtr := by
        intro heq
        rw [getVmmAllocation, ← heq, hget] at hregistered
        cases hregistered
      apply wp_mono (swapBlock_run tensor alloc block handle)
      · rintro old w' ⟨-, -, hallocations, -⟩
        rw [hallocations, Dict.get?_set_of_ne _ _ hne, hget]
      · rintro e w' ⟨-, -, -, hallocations, -⟩
        rw [hallocations, hget]
  | releasePhysicalHandle handle =>
    simp only [AllocatorOp.exec, wp_bind, wp_pure]
    apply wp_mono (releasePhysicalHandle_spec _)
    · intro u w' h
      rw [h.1, hget]
    · intro e w' h
      rw [h.1, hget]
  | freeVmmKvCache tensor =>
    simp only [AllocatorOp.exec, wp_bind, wp_pure]
    cases hregistered : getVmmAllocation w tensor with
    | none =>
      unfold wp
      rw [freeVmmKvCache_unregistered hregistered]
      exact hget
    | some alloc =>
      apply wp_mono (freeVmmKvCache_spec hregistered) _ (fun _ _ h => h.elim)
      rintro u w' ⟨hallocations, -⟩
      rw [hallocations, Dict.get?_erase]
      split
      · rfl
      · exact hget

/-- **One call.**  An address without allocation gets one exactly from an allocation
    that returns a tensor there. -/
theorem unregistered_step_iff {op : AllocatorOp} {va : Nat}
    (hget : w.allocations.get? va = none) :
    (op.step cuda w).allocations.get? va = none ↔ ¬ AllocatesAt cuda w op va := by
  by_cases hop : ∃ sizeBytes device, op = .allocateVmmKvCache sizeBytes device
  · obtain ⟨sizeBytes, device, rfl⟩ := hop
    have hstep : (AllocatorOp.allocateVmmKvCache sizeBytes device).step cuda w =
        finalState (allocateVmmKvCache cuda sizeBytes device w) := by
      change finalState ((allocateVmmKvCache cuda sizeBytes device >>= fun _ => pure none) w) = _
      cases hresult : allocateVmmKvCache cuda sizeBytes device w with
      | ok t w' =>
        rw [run_bind_ok hresult, run_pure]
        rfl
      | error e w' =>
        rw [run_bind_error hresult]
        rfl
    rcases allocations_allocate cuda sizeBytes device w with
      ⟨t, w', hrun, alloc, hallocations⟩ | ⟨e, w', hrun, hallocations⟩
    · rw [hstep, hrun, finalState, hallocations, Dict.get?_set]
      constructor
      · rintro hnone ⟨_, _, t', w'', heq, hrun', hptr⟩
        cases heq
        cases hrun.symm.trans hrun'
        rw [if_pos hptr.symm] at hnone
        cases hnone
      · intro hnot
        rw [if_neg, hget]
        intro hva
        exact hnot ⟨sizeBytes, device, t, w', rfl, hrun, hva.symm⟩
    · rw [hstep, hrun, finalState, hallocations]
      apply iff_of_true hget
      rintro ⟨_, _, t', w'', heq, hrun', -⟩
      cases heq
      cases hrun.symm.trans hrun'
  · push Not at hop
    apply iff_of_true (allocations_step hop hget)
    rintro ⟨sizeBytes, device, -, -, heq, -⟩
    exact hop sizeBytes device heq

/-! ## 3. Whole runs -/

/-- After the free, the tensor is not registered. -/
theorem unregistered_free (w : AllocatorState) (t : Tensor) :
    ((AllocatorOp.freeVmmKvCache t).step cuda w).allocations.get? t.dataPtr = none := by
  refine finalState_of_wp (I := fun w' : AllocatorState => w'.allocations.get? t.dataPtr = none) ?_
  simp only [AllocatorOp.exec, wp_bind, wp_pure]
  cases hregistered : getVmmAllocation w t with
  | none =>
    unfold wp
    rw [freeVmmKvCache_unregistered hregistered]
    exact hregistered
  | some alloc =>
    apply wp_mono (freeVmmKvCache_spec hregistered) _ (fun _ _ h => h.elim)
    rintro u w' ⟨hallocations, -⟩
    rw [hallocations, Dict.get?_erase_self]

/-- From a state without an allocation at `va`, none is there at any later moment
    exactly if no call allocates there. -/
theorem unregistered_run_iff {va : Nat} (ops : List AllocatorOp)
    (hget : w.allocations.get? va = none) :
    (∀ later rest, ops = later ++ rest →
        (later.foldl (AllocatorOp.step cuda) w).allocations.get? va = none) ↔
      ∀ earlier op rest, ops = earlier ++ op :: rest →
        ¬ AllocatesAt cuda (earlier.foldl (AllocatorOp.step cuda) w) op va := by
  constructor
  · rintro h earlier op rest rfl
    have hbefore := h earlier (op :: rest) rfl
    have hafter := h (earlier ++ [op]) rest (by simp)
    rw [List.foldl_append] at hafter
    exact (unregistered_step_iff hbefore).mp hafter
  · intro h later
    induction later using List.reverseRecOn with
    | nil => exact fun _ _ => hget
    | append_singleton later op ih =>
      rintro rest rfl
      rw [List.foldl_append]
      apply (unregistered_step_iff (ih (op :: rest) (by simp))).mpr
      exact h later op rest (by simp)

/-- **When a freed tensor stays stale.**  After `free_vmm_kv_cache(t)`, in any run of
    the module, no later call can reach an allocation through `t`, at any moment, if
    and only if no later allocation returns a tensor at `t`'s address. -/
theorem staleTensor_iff (cuda : Cuda) (memory : Handle → Nat → UInt8)
    (before after : List AllocatorOp) (t : Tensor) :
    (∀ later rest, after = later ++ rest →
        Unreachable cuda (runAllocator cuda memory (before ++ .freeVmmKvCache t :: later)) t) ↔
      ∀ earlier op rest, after = earlier ++ op :: rest →
        ¬ AllocatesAt cuda (runAllocator cuda memory (before ++ .freeVmmKvCache t :: earlier)) op
          t.dataPtr := by
  have hrun : ∀ ops, runAllocator cuda memory (before ++ .freeVmmKvCache t :: ops) =
      ops.foldl (AllocatorOp.step cuda)
        ((AllocatorOp.freeVmmKvCache t).step cuda (runAllocator cuda memory before)) := by
    intro ops
    unfold runAllocator
    rw [List.foldl_append, List.foldl_cons]
  simp only [hrun, unreachable_iff, getVmmAllocation]
  exact unregistered_run_iff after (unregistered_free _ t)

/-- With a driver that keeps reservations disjoint: a freed tensor whose address
    goes to another allocation remaps and frees that allocation. -/
theorem stale_tensor_reaches_new_allocation :
    Cuda.bump.Lawful ∧
    (∃ w', remapBlock .bump ⟨0, 1, 0⟩ 0 3 (runAllocator .bump (fun _ _ => 0)
        [.allocateVmmKvCache 1 ⟨none⟩, .freeVmmKvCache ⟨0, 1, 0⟩, .allocateVmmKvCache 2 ⟨none⟩]) =
      .ok 1 w') ∧
    ¬ Unreachable .bump (runAllocator .bump (fun _ _ => 0)
        [.allocateVmmKvCache 1 ⟨none⟩, .freeVmmKvCache ⟨0, 1, 0⟩, .allocateVmmKvCache 2 ⟨none⟩])
      ⟨0, 1, 0⟩ := by
  have hreturned : returned (remapBlock .bump ⟨0, 1, 0⟩ 0 3 (runAllocator .bump (fun _ _ => 0)
      [.allocateVmmKvCache 1 ⟨none⟩, .freeVmmKvCache ⟨0, 1, 0⟩,
        .allocateVmmKvCache 2 ⟨none⟩])) = some 1 := by
    decide +kernel
  refine ⟨Cuda.bump_lawful, returned_eq_some.mp hreturned, ?_⟩
  intro hunreachable
  obtain ⟨msg, hraised⟩ := hunreachable.remap 0 3
  rw [hraised] at hreturned
  cases hreturned

end Edmm
