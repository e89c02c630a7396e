/-
  Edmm/ConcurrentRemaps.lean
  ==========================
  **Concurrent remaps lose no page.**

  Any number of threads call `remap_block`.  The registry lookup and the range
  check happen outside `_remap_lock`, but they read nothing that a remap writes:
  the registry and the number of pages of each allocation, the *shape* of the
  state, stay as they are.  What happens under the lock adds up to the call
  running alone, so the calls serialise in the order of their locks, and every
  handle is installed or returned exactly once.
-/
import Edmm.AllocatorThreads
import Edmm.HandleConservation

namespace Edmm

open Program

variable {cuda : Cuda}

/-! ### 1. Remapping alone -/

/-- The call of a thread running alone: the state it leaves and how it ends. -/
def RemapCall.run (cuda : Cuda) (call : RemapCall) (w : AllocatorState) :
    AllocatorState × Except PyError Handle :=
  (finalState (remapBlock cuda call.tensor call.blockId call.newPhysicalHandle w),
    outcome (remapBlock cuda call.tensor call.blockId call.newPhysicalHandle w))

/-- What a remap reads before it takes the lock: the number of pages of each
    allocation. -/
def AllocatorState.shape (w : AllocatorState) (va : Nat) : Option Nat :=
  (w.allocations.get? va).map VMMAllocation.numPages

theorem RemapCall.run_of_unregistered {call : RemapCall} {w : AllocatorState}
    (h : w.shape call.tensor.dataPtr = none) :
    call.run cuda w = (w, .error (.valueError "Tensor is not VMM-backed")) := by
  have hget : getVmmAllocation w call.tensor = none := by
    simpa [AllocatorState.shape, getVmmAllocation] using h
  have hrun : remapBlock cuda call.tensor call.blockId call.newPhysicalHandle w =
      .error (.valueError "Tensor is not VMM-backed") w := by
    unfold remapBlock
    rw [run_get_bind, hget]
    rfl
  rw [RemapCall.run, hrun]
  rfl

theorem RemapCall.run_of_out_of_range {call : RemapCall} {w : AllocatorState} {numPages : Nat}
    (h : w.shape call.tensor.dataPtr = some numPages)
    (hrange : call.blockId < 0 ∨ call.blockId ≥ numPages) :
    call.run cuda w = (w, .error (.valueError
      s!"block_id {call.blockId} out of range [0, {numPages})")) := by
  obtain ⟨alloc, hget, rfl⟩ := Option.map_eq_some_iff.mp h
  have hget' : getVmmAllocation w call.tensor = some alloc := hget
  have hrun : remapBlock cuda call.tensor call.blockId call.newPhysicalHandle w =
      .error (.valueError s!"block_id {call.blockId} out of range [0, {alloc.numPages})") w := by
    unfold remapBlock
    rw [run_get_bind, hget']
    simp only [if_pos hrange]
    rfl
  rw [RemapCall.run, hrun]
  rfl

/-- Replacing a handle keeps the shape. -/
theorem AllocatorState.shape_set {w w' : AllocatorState} {va block : Nat} {alloc : VMMAllocation}
    {handle : Handle} (hget : w.allocations.get? va = some alloc)
    (hset : w'.allocations =
      w.allocations.set va { alloc with handles := alloc.handles.set block handle }) :
    w'.shape = w.shape := by
  funext va'
  simp only [AllocatorState.shape, hset, Dict.get?_set]
  split
  · rename_i heq
    rw [heq, hget]
    simp [VMMAllocation.numPages]
  · rfl

/-- A remap keeps the shape. -/
theorem RemapCall.shape_run (call : RemapCall) (w : AllocatorState) :
    (call.run cuda w).1.shape = w.shape := by
  rcases remapBlock_cases cuda w call.tensor call.blockId call.newPhysicalHandle with
    ⟨msg, hrun⟩ | ⟨alloc, block, hblock, hget, hlt, hrun⟩
  · rw [RemapCall.run, hrun]
    rfl
  · have hswap : wp (swapBlock cuda call.tensor alloc block call.newPhysicalHandle) _ _ w :=
      swapBlock_run call.tensor alloc block call.newPhysicalHandle
    have hshape : wp (swapBlock cuda call.tensor alloc block call.newPhysicalHandle)
        (fun _ w' => w'.shape = w.shape) (fun _ w' => w'.shape = w.shape) w := by
      apply wp_mono hswap
      · rintro old w' ⟨_, _, hallocations, _⟩
        exact AllocatorState.shape_set hget hallocations
      · rintro e w' ⟨_, _, _, hallocations, _⟩
        funext va
        simp only [AllocatorState.shape, hallocations]
    rw [RemapCall.run, hrun]
    exact finalState_of_wp (I := fun w' : AllocatorState => w'.shape = w.shape) hshape

/-- A remap of a registered page returns a handle; the page then lists the new handle
    in its place. -/
theorem RemapCall.run_returns (hsucceeds : cuda.Succeeds) {call : RemapCall} {w : AllocatorState}
    {numPages : Nat} (h : w.shape call.tensor.dataPtr = some numPages)
    (hlow : 0 ≤ call.blockId) (hhigh : call.blockId < numPages) :
    ∃ w' old, call.run cuda w = (w', .ok old) ∧
      (w.allocations.installed ++ [call.newPhysicalHandle]).Perm
        (w'.allocations.installed ++ [old]) := by
  obtain ⟨alloc, hget, rfl⟩ := Option.map_eq_some_iff.mp h
  have hlt : call.blockId.toNat < alloc.handles.length := by
    have hpages : alloc.numPages = alloc.handles.length := rfl
    omega
  have hblock : ((call.blockId.toNat : Nat) : Int) = call.blockId := by omega
  have haccepts : remapBlock cuda call.tensor call.blockId call.newPhysicalHandle w =
      swapBlock cuda call.tensor alloc call.blockId.toNat call.newPhysicalHandle w := by
    rw [← remapBlock_accepts call.newPhysicalHandle hget hlt, hblock]
  have hrun := wp_and_returns
    (swapBlock_run call.tensor alloc call.blockId.toNat call.newPhysicalHandle)
    (swapBlock_returns hsucceeds call.tensor alloc call.blockId.toNat call.newPhysicalHandle w)
  unfold wp at hrun
  cases hresult : swapBlock cuda call.tensor alloc call.blockId.toNat call.newPhysicalHandle w with
  | ok old w' =>
    rw [hresult] at hrun
    obtain ⟨-, hold, hallocations, -⟩ := hrun
    refine ⟨w', old, by rw [RemapCall.run, haccepts, hresult]; rfl, ?_⟩
    rw [List.getD_eq_getElem?_getD, List.getElem?_eq_getElem hlt, Option.getD_some] at hold
    have hin : 0 < alloc.handles.count old :=
      List.count_pos_iff.mpr (hold ▸ List.getElem_mem hlt)
    rw [List.perm_iff_count]
    intro x
    rw [List.count_append, List.count_append, count_installed hget, hallocations,
      count_installed_set, List.count_set hlt, ← hold, List.count_singleton, List.count_singleton]
    by_cases hx : old = x
    · subst hx
      simp only [beq_self_eq_true, if_true]
      omega
    · simp only [beq_iff_eq, hx, if_false]
      omega
  | error e w' =>
    rw [hresult] at hrun
    exact hrun.elim

/-! ### 2. What a thread under the lock still has to do -/

namespace RemapThread

/-- The registry update of `remap_block`, and the handle it returns. -/
def finish (p : RemapThread) (alloc : VMMAllocation) (oldHandle : Handle) : AllocM Handle := do
  modify fun w => { w with
    allocations := w.allocations.set p.call.tensor.dataPtr
      { alloc with handles := alloc.handles.set p.block p.call.newPhysicalHandle } }
  return oldHandle

def grantAccess (cuda : Cuda) (p : RemapThread) (alloc : VMMAllocation) : AllocM Handle := do
  let result ← Edmm.call cuda (.cuMemSetAccess (alloc.pageVa p.block) alloc.pageSize 0)
  check result s!"cuMemSetAccess block {p.block}"
  p.finish alloc (alloc.handles.getD p.block 0)

def mapNew (cuda : Cuda) (p : RemapThread) (alloc : VMMAllocation) : AllocM Handle := do
  let result ← Edmm.call cuda
    (.cuMemMap (alloc.pageVa p.block) alloc.pageSize p.call.newPhysicalHandle)
  check result s!"cuMemMap block {p.block}"
  p.grantAccess cuda alloc

/-- The rest of the call, for a thread that holds the lock. -/
def rest (cuda : Cuda) (p : RemapThread) (s : SharedAllocator) : AllocM Handle :=
  match p.pc with
  | .unmap obj =>
      swapBlock cuda p.call.tensor (s.objects obj) p.block p.call.newPhysicalHandle
  | .map obj => p.mapNew cuda (s.objects obj)
  | .setAccess obj => p.grantAccess cuda (s.objects obj)
  | .readOld obj => p.finish (s.objects obj) ((s.objects obj).handles.getD p.block 0)
  | .writeNew obj oldHandle => p.finish (s.objects obj) oldHandle
  | .release (.ok oldHandle) => pure oldHandle
  | .release (.error e) => throw e
  | _ => throw .keyError

/-- The thread is under the lock, with the object registered at `va`. -/
def UnderLock (va : Nat) : RemapPc → Prop
  | .unmap obj => obj = va
  | .map obj => obj = va
  | .setAccess obj => obj = va
  | .readOld obj => obj = va
  | .writeNew obj _ => obj = va
  | .release _ => True
  | _ => False

end RemapThread

/-- A checked driver call and what follows it. -/
theorem run_checkedCall (c : DriverCall) (msg : String) (next : AllocM Handle)
    (w : AllocatorState) :
    (do
      let result ← call cuda c
      check result msg
      next : AllocM Handle) w =
      (if cuda.result w.driver c ≠ 0 then
        throw (.runtimeError s!"CUDA driver error {cuda.result w.driver c}: {msg}")
      else next) { w with driver := cuda.after w.driver c } := by
  have hcall : call cuda c w =
      .ok (cuda.result w.driver c) { w with driver := cuda.after w.driver c } := rfl
  rw [run_bind_ok hcall]
  unfold check
  split
  · rfl
  · rfl

theorem RemapThread.rest_checkedCall {s : SharedAllocator} {p : RemapThread} {c : DriverCall}
    {msg : String} {next : RemapPc} :
    (p.checkedCall cuda s c msg next).2.rest cuda (s.afterCall cuda c) =
      if cuda.result s.driver c ≠ 0 then
        throw (.runtimeError s!"CUDA driver error {cuda.result s.driver c}: {msg}")
      else (p.goto next).rest cuda (s.afterCall cuda c) := by
  unfold RemapThread.checkedCall
  split
  · rfl
  · rfl

/-- A driver call under the lock leaves the same rest to do. -/
theorem RemapThread.rest_call {s : SharedAllocator} {p : RemapThread} {c : DriverCall}
    {msg : String} {next : RemapPc}
    (hrest : p.rest cuda s = do
      let result ← Edmm.call cuda c
      check result msg
      (p.goto next).rest cuda s)
    (hsame : (p.goto next).rest cuda (s.afterCall cuda c) = (p.goto next).rest cuda s) :
    p.rest cuda s s.sequential =
      (p.checkedCall cuda s c msg next).2.rest cuda (s.afterCall cuda c)
        (s.afterCall cuda c).sequential := by
  rw [hrest, run_checkedCall, RemapThread.rest_checkedCall, hsame]
  rfl

/-! ### 3. The calls serialise -/

namespace RemapThread

/-- The registry lookups that a thread outside the lock relies on. -/
def Prepared (call : RemapCall) (shape : Nat → Option Nat) : RemapPc → Prop
  | .lookup => True
  | .checkRange obj => obj = call.tensor.dataPtr ∧ ∃ numPages, shape obj = some numPages
  | .acquire obj => obj = call.tensor.dataPtr ∧ ∃ numPages, shape obj = some numPages ∧
      0 ≤ call.blockId ∧ call.blockId < numPages
  | _ => False

/-- The lock is free, and the shared state is that of the calls that ended. -/
structure LockFree (a : AllocatorState) (s : SharedAllocator) : Prop where
  lock : s.remapLock = none
  keyed : s.Keyed
  sequential : s.sequential = a

/-- The thread took the lock when the state was `a`, and what it still has to do ends
    as its call from `a` does. -/
structure Holds (cuda : Cuda) (call : RemapCall) (a : AllocatorState) (p : RemapThread)
    (s : SharedAllocator) : Prop where
  lock : s.remapLock ≠ none
  keyed : s.Keyed
  call_eq : p.call = call
  registered : s.allocations.get? call.tensor.dataPtr = some call.tensor.dataPtr
  shape : s.sequential.shape = a.shape
  under : UnderLock call.tensor.dataPtr p.pc
  rest : remapBlock cuda call.tensor call.blockId call.newPhysicalHandle a =
    p.rest cuda s s.sequential

end RemapThread

theorem SharedAllocator.shape_sequential {s : SharedAllocator} (hkeyed : s.Keyed) (va : Nat) :
    s.sequential.shape va = if (s.allocations.get? va).isSome then some (s.objects va).numPages
      else none := by
  unfold AllocatorState.shape
  rw [s.sequential_get?]
  cases hget : s.allocations.get? va with
  | none => rfl
  | some obj => simp [hkeyed va obj hget]

/-- A step outside the lock, as seen from the shape of the shared state. -/
theorem RemapThread.step_prepared {me : Nat} {s s' : SharedAllocator} {p p' : RemapThread}
    {a : AllocatorState} (hkeyed : s.Keyed) (hshape : s.sequential.shape = a.shape)
    (hprepared : Prepared p.call a.shape p.pc) (hstep : p.step cuda me s = some (s', p')) :
    (s' = s ∧ p'.call = p.call ∧ Prepared p.call a.shape p'.pc) ∨
      (s' = s ∧ ∃ r, p'.result = some r ∧ p.call.run cuda a = (a, r)) ∨
      (s.remapLock = none ∧ p.pc = .acquire p.call.tensor.dataPtr ∧
        s' = { s with remapLock := some me } ∧ p' = p.goto (.unmap p.call.tensor.dataPtr)) := by
  have hobserved := SharedAllocator.shape_sequential hkeyed p.call.tensor.dataPtr
  rw [hshape] at hobserved
  obtain ⟨call, pc⟩ := p
  cases pc with
  | lookup =>
    simp only [step] at hstep
    cases hget : s.allocations.get? call.tensor.dataPtr with
    | none =>
      rw [hget] at hstep hobserved
      cases hstep
      exact Or.inr (Or.inl ⟨rfl, _, rfl, RemapCall.run_of_unregistered (by simpa using hobserved)⟩)
    | some obj =>
      rw [hget] at hstep hobserved
      cases hstep
      have hobj : obj = call.tensor.dataPtr := hkeyed _ _ hget
      subst hobj
      exact Or.inl ⟨rfl, rfl, rfl, _, by simpa using hobserved⟩
  | checkRange obj =>
    obtain ⟨hobj, numPages, hnumPages⟩ := hprepared
    have hobj : obj = call.tensor.dataPtr := hobj
    subst hobj
    have hpages : (s.objects call.tensor.dataPtr).numPages = numPages := by
      rw [hobserved] at hnumPages
      split at hnumPages
      · exact Option.some.inj hnumPages
      · cases hnumPages
    simp only [step, hpages] at hstep
    split at hstep
    · rename_i hrange
      cases hstep
      exact Or.inr (Or.inl ⟨rfl, _, rfl, RemapCall.run_of_out_of_range hnumPages hrange⟩)
    · rename_i hrange
      cases hstep
      obtain ⟨hlow, hhigh⟩ := not_or.mp hrange
      exact Or.inl ⟨rfl, rfl, rfl, numPages, hnumPages, Int.not_lt.mp hlow, Int.not_le.mp hhigh⟩
  | acquire obj =>
    have hobj : obj = call.tensor.dataPtr := hprepared.1
    subst hobj
    simp only [step] at hstep
    split at hstep
    · rename_i hfree
      cases hstep
      exact Or.inr (Or.inr ⟨hfree, rfl, rfl, rfl⟩)
    · cases hstep
  | unmap obj => exact hprepared.elim
  | map obj => exact hprepared.elim
  | setAccess obj => exact hprepared.elim
  | readOld obj => exact hprepared.elim
  | writeNew obj oldHandle => exact hprepared.elim
  | release result => exact hprepared.elim
  | done result => exact hprepared.elim

/-- Taking the lock starts the swap. -/
theorem RemapThread.holds_acquired {s : SharedAllocator} {p : RemapThread}
    {a : AllocatorState} (hfree : LockFree a s)
    (hprepared : Prepared p.call a.shape (.acquire p.call.tensor.dataPtr)) (me : Nat) :
    Holds cuda p.call a (p.goto (.unmap p.call.tensor.dataPtr))
      { s with remapLock := some me } := by
  obtain ⟨_, numPages, hnumPages, hlow, hhigh⟩ := hprepared
  obtain ⟨alloc, hget, hlength⟩ := Option.map_eq_some_iff.mp hnumPages
  have hregistered : s.allocations.get? p.call.tensor.dataPtr = some p.call.tensor.dataPtr ∧
      alloc = s.objects p.call.tensor.dataPtr := by
    have hsequential := hget
    rw [← hfree.sequential, s.sequential_get?, Option.map_eq_some_iff] at hsequential
    obtain ⟨obj, hobj, rfl⟩ := hsequential
    have hkey : obj = p.call.tensor.dataPtr := hfree.keyed _ _ hobj
    subst hkey
    exact ⟨hobj, rfl⟩
  have hblock : ((p.call.blockId.toNat : Nat) : Int) = p.call.blockId := by omega
  have hlt : p.call.blockId.toNat < alloc.numPages := by omega
  have haccepts : remapBlock cuda p.call.tensor p.call.blockId p.call.newPhysicalHandle a =
      swapBlock cuda p.call.tensor alloc p.call.blockId.toNat p.call.newPhysicalHandle a := by
    rw [← remapBlock_accepts p.call.newPhysicalHandle hget hlt, hblock]
  exact
    { lock := by simp
      keyed := hfree.keyed
      call_eq := rfl
      registered := hregistered.1
      shape := congrArg AllocatorState.shape hfree.sequential
      under := rfl
      rest := by
        rw [haccepts, hregistered.2, ← hfree.sequential]
        rfl }

/-- A driver call under the lock. -/
theorem RemapThread.holds_call {call : RemapCall} {a : AllocatorState} {p : RemapThread}
    {s : SharedAllocator} {c : DriverCall} {msg : String} {next : RemapPc}
    (h : Holds cuda call a p s) (hnext : UnderLock call.tensor.dataPtr next)
    (hrest : p.rest cuda s = do
      let result ← Edmm.call cuda c
      check result msg
      (p.goto next).rest cuda s)
    (hsame : (p.goto next).rest cuda (s.afterCall cuda c) = (p.goto next).rest cuda s) :
    Holds cuda call a (p.checkedCall cuda s c msg next).2 (s.afterCall cuda c) where
  lock := h.lock
  keyed := h.keyed
  call_eq := h.call_eq
  registered := h.registered
  shape := h.shape
  under := by
    simp only [checkedCall, goto]
    split
    · trivial
    · exact hnext
  rest := h.rest.trans (rest_call hrest hsame)

/-- A step under the lock leaves the rest of the call to do; the last one leaves
    nothing. -/
theorem RemapThread.step_holds {me : Nat} {s s' : SharedAllocator} {p p' : RemapThread}
    {call : RemapCall} {a : AllocatorState} (h : Holds cuda call a p s)
    (hstep : p.step cuda me s = some (s', p')) :
    Holds cuda call a p' s' ∨
      ∃ a' r, call.run cuda a = (a', r) ∧ LockFree a' s' ∧ p'.result = some r := by
  obtain ⟨own, pc⟩ := p
  have hown : own = call := h.call_eq
  subst hown
  have hunder := h.under
  cases pc with
  | unmap obj =>
    cases hstep
    exact Or.inl (holds_call h hunder rfl rfl)
  | map obj =>
    cases hstep
    exact Or.inl (holds_call h hunder rfl rfl)
  | setAccess obj =>
    cases hstep
    exact Or.inl (holds_call h hunder rfl rfl)
  | readOld obj =>
    cases hstep
    exact Or.inl { h with under := hunder, rest := h.rest }
  | writeNew obj oldHandle =>
    have hobj : obj = own.tensor.dataPtr := hunder
    subst hobj
    cases hstep
    have hwritten := SharedAllocator.sequential_writeHandle h.keyed h.registered
      own.blockId.toNat own.newPhysicalHandle
    have hget : s.sequential.allocations.get? own.tensor.dataPtr =
        some (s.objects own.tensor.dataPtr) := by
      rw [s.sequential_get?, h.registered, Option.map_some]
    exact Or.inl
      { lock := h.lock
        keyed := h.keyed
        call_eq := rfl
        registered := h.registered
        shape := (AllocatorState.shape_set hget (congrArg _ hwritten)).trans h.shape
        under := trivial
        rest := by
          rw [h.rest]
          exact congrArg (EStateM.Result.ok oldHandle) hwritten.symm }
  | release result =>
    cases hstep
    refine Or.inr ⟨s.sequential, result, ?_, ⟨rfl, h.keyed, rfl⟩, rfl⟩
    rw [RemapCall.run, h.rest]
    cases result with
    | ok oldHandle => rfl
    | error e => rfl
  | lookup => exact hunder.elim
  | checkRange obj => exact hunder.elim
  | acquire obj => exact hunder.elim
  | done result => exact hunder.elim

theorem RemapThread.Prepared.unfinished {call : RemapCall} {shape : Nat → Option Nat}
    {p : RemapThread} (h : Prepared call shape p.pc) : p.result = none := by
  obtain ⟨_, pc⟩ := p
  cases pc with
  | done result => exact h.elim
  | _ => rfl

theorem RemapThread.UnderLock.unfinished {va : Nat} {p : RemapThread}
    (h : UnderLock va p.pc) : p.result = none := by
  obtain ⟨_, pc⟩ := p
  cases pc with
  | done result => exact h.elim
  | _ => rfl

theorem RemapThread.finished {me : Nat} {s : SharedAllocator} {p : RemapThread}
    {r : Except PyError Handle} (h : p.result = some r) : p.step cuda me s = none := by
  obtain ⟨_, pc⟩ := p
  cases pc with
  | done result => rfl
  | _ => cases h

/-- Threads in `remap_block` serialise: what happens outside the lock is invisible, what
    happens under it adds up to the call. -/
def remapSerialization (cuda : Cuda) (calls : Nat → RemapCall) :
    Threads.Serialization (RemapThread.step cuda) (fun t => (calls t).run cuda)
      RemapThread.result where
  Free := RemapThread.LockFree
  Held t a p s := RemapThread.Holds cuda (calls t) a p s
  Outside t a p := p.call = calls t ∧ RemapThread.Prepared p.call a.shape p.pc
  unfinished := by
    intro t a p hp
    exact hp.2.unfinished
  held_unfinished := by
    intro t a p s hp
    exact hp.under.unfinished
  finished := by
    intro t s p r hr
    exact RemapThread.finished hr
  stable := by
    intro t t' a p hp
    rw [RemapCall.shape_run]
    exact hp
  outside_free := by
    intro t a s s' p p' hfree ⟨hcall, hprepared⟩ hstep
    rcases RemapThread.step_prepared hfree.keyed (congrArg AllocatorState.shape hfree.sequential)
      hprepared hstep with ⟨rfl, hcall', hprepared'⟩ | ⟨rfl, r, hresult, hrun⟩ | ⟨_, hpc, rfl, rfl⟩
    · exact Or.inl ⟨rfl, hcall'.trans hcall, by rw [hcall']; exact hprepared'⟩
    · exact Or.inr (Or.inr ⟨rfl, r, hresult, by rw [← hcall]; exact hrun⟩)
    · rw [hpc] at hprepared
      rw [← hcall]
      exact Or.inr (Or.inl (RemapThread.holds_acquired hfree hprepared t))
  outside_held := by
    intro t t' a s s' p p' q hheld hne ⟨hcall, hprepared⟩ hstep
    rcases RemapThread.step_prepared hheld.keyed hheld.shape hprepared hstep with
      ⟨rfl, hcall', hprepared'⟩ | ⟨rfl, r, hresult, hrun⟩ | ⟨hfree, _⟩
    · exact Or.inl ⟨rfl, hcall'.trans hcall, by rw [hcall']; exact hprepared'⟩
    · exact Or.inr ⟨rfl, r, hresult, by rw [← hcall]; exact hrun⟩
    · exact absurd hfree hheld.lock
  held := RemapThread.step_holds

/-! ### 4. Any number of concurrent remaps -/

/-- The call names a page of a registered tensor. -/
def RemapCall.Registered (call : RemapCall) (w : AllocatorState) : Prop :=
  ∃ alloc, getVmmAllocation w call.tensor = some alloc ∧ 0 ≤ call.blockId ∧
    call.blockId < alloc.numPages

theorem RemapCall.Registered.of_shape {call : RemapCall} {w w' : AllocatorState}
    (h : call.Registered w) (hshape : w'.shape = w.shape) : call.Registered w' := by
  obtain ⟨alloc, hget, hlow, hhigh⟩ := h
  have hpages : w'.shape call.tensor.dataPtr = some alloc.numPages := by
    rw [hshape]
    exact congrArg (Option.map VMMAllocation.numPages) hget
  obtain ⟨alloc', hget', hsame⟩ := Option.map_eq_some_iff.mp hpages
  exact ⟨alloc', hget', hlow, by rw [hsame]; exact hhigh⟩

/-- The handle that a thread's call returned. -/
def RemapThread.returned (p : RemapThread) : Option Handle := p.result.bind Except.toOption

/-- Calls that run one after another return, and exchange the handles they were given
    for the ones they return. -/
theorem serial_remaps (hsucceeds : cuda.Succeeds) (calls : Nat → RemapCall) (order : List Nat)
    (w : AllocatorState) (hcalls : ∀ t ∈ order, (calls t).Registered w) :
    (∀ x ∈ (Threads.serial (fun t => (calls t).run cuda) order w).2, ∃ old, x.2 = .ok old) ∧
    (w.allocations.installed ++ order.map fun t => (calls t).newPhysicalHandle).Perm
      ((Threads.serial (fun t => (calls t).run cuda) order w).1.allocations.installed ++
        (Threads.serial (fun t => (calls t).run cuda) order w).2.filterMap fun x =>
          x.2.toOption) := by
  induction order generalizing w with
  | nil => exact ⟨fun x hx => (by cases hx), List.Perm.refl _⟩
  | cons t rest ih =>
    obtain ⟨alloc, hget, hlow, hhigh⟩ := hcalls t List.mem_cons_self
    obtain ⟨w', old, hrun, hperm⟩ := RemapCall.run_returns hsucceeds
      (congrArg (Option.map VMMAllocation.numPages) hget) hlow hhigh
    have hshape : w'.shape = w.shape := by
      have hkept : ((calls t).run cuda w).1.shape = w.shape := (calls t).shape_run w
      rwa [hrun] at hkept
    obtain ⟨hreturned, hrest⟩ := ih w' fun t' ht' =>
      (hcalls t' (List.mem_cons_of_mem _ ht')).of_shape hshape
    simp only [Threads.serial, hrun]
    constructor
    · intro x hx
      rcases List.mem_cons.mp hx with rfl | hx
      · exact ⟨old, rfl⟩
      · exact hreturned x hx
    · rw [List.perm_iff_count] at hperm hrest ⊢
      intro x
      have hnow := hperm x
      have hlater := hrest x
      simp only [List.map_cons, List.filterMap_cons, Except.toOption, List.count_append,
        List.count_cons, List.count_nil] at hnow hlater ⊢
      omega

/-- **Concurrent remaps lose no page.**  When `n` threads have gone through `remap_block`
    on registered pages, in any interleaving, the allocator is as if the calls had run
    one after another in some order, each thread returned what its call returns there,
    and every handle is installed or returned once for each time it was installed
    before or handed in. -/
theorem remaps_serialise (hsucceeds : cuda.Succeeds) (w : AllocatorState) (n : Nat)
    (calls : Nat → RemapCall) (hcalls : ∀ t < n, (calls t).Registered w)
    {s' : SharedAllocator} {threads : List RemapThread}
    (hmoves : Threads.Moves (RemapThread.step cuda)
      ⟨w.share, (List.range n).map fun t => RemapThread.start (calls t)⟩ ⟨s', threads⟩)
    (hdone : ∀ p ∈ threads, p.result.isSome = true) :
    ∃ order : List Nat, order.Perm (List.range n) ∧
      s'.sequential = (Threads.serial (fun t => (calls t).run cuda) order w).1 ∧
      (∀ t r, (t, r) ∈ (Threads.serial (fun t => (calls t).run cuda) order w).2 ↔
        ∃ p ∈ threads[t]?, p.result = some r) ∧
      (∀ p ∈ threads, p.returned.isSome = true) ∧
      (w.allocations.installed ++
          (List.range n).map fun t => (calls t).newPhysicalHandle).Perm
        (s'.sequential.allocations.installed ++ threads.filterMap RemapThread.returned) := by
  have hfree : RemapThread.LockFree w w.share := ⟨rfl, keyed_share w, sequential_share w⟩
  have houtside : ∀ t p, ((List.range n).map fun t => RemapThread.start (calls t))[t]? = some p →
      (remapSerialization cuda calls).Outside t w p := by
    intro t p hp
    rw [List.getElem?_map, Option.map_eq_some_iff] at hp
    obtain ⟨t', ht', rfl⟩ := hp
    obtain ⟨_, ht'⟩ := List.getElem?_eq_some_iff.mp ht'
    rw [List.getElem_range] at ht'
    subst ht'
    exact ⟨rfl, trivial⟩
  obtain ⟨order, hperm, hlast, hresults⟩ := Threads.serialized
    (h := remapSerialization cuda calls) hfree houtside hmoves hdone
  rw [List.length_map, List.length_range] at hperm
  have hlength : threads.length = n := by
    simpa using Threads.length_of_moves hmoves
  obtain ⟨hreturned, hhandles⟩ := serial_remaps hsucceeds calls order w fun t ht =>
    hcalls t (List.mem_range.mp (hperm.mem_iff.mp ht))
  refine ⟨order, hperm, hlast.sequential, hresults, ?_, ?_⟩
  · intro p hp
    obtain ⟨t, ht⟩ := List.mem_iff_getElem?.mp hp
    obtain ⟨r, hr⟩ := Option.isSome_iff_exists.mp (hdone p hp)
    obtain ⟨old, hold⟩ := hreturned (t, r) ((hresults t r).mpr ⟨p, ht, hr⟩)
    have hold : r = .ok old := hold
    rw [RemapThread.returned, hr, hold]
    rfl
  · have hnew := hperm.map fun t => (calls t).newPhysicalHandle
    have hold : ((Threads.serial (fun t => (calls t).run cuda) order w).2.filterMap fun x =>
        x.2.toOption).Perm (threads.filterMap RemapThread.returned) := by
      have hresults := (Threads.serial_results_perm (hlength ▸ hperm) hresults).filterMap
        Except.toOption
      rw [List.filterMap_map, List.filterMap_filterMap] at hresults
      exact hresults
    rw [hlast.sequential]
    have hbefore := hnew.symm.append_left w.allocations.installed
    exact hbefore.trans (hhandles.trans (hold.append_left _))

/-- An allocation of three pages and two fresh handles. -/
def threePages : AllocatorState :=
  runAllocator .bump (fun _ _ => 0)
    [.allocateVmmKvCache 5000000 ⟨none⟩, .createPhysicalHandle 2097152 0,
      .createPhysicalHandle 2097152 0]

/-- Two remaps of the middle page. -/
def middlePage (t : Nat) : RemapCall :=
  { tensor := ⟨0, 5000000, 0⟩, blockId := 1, newPhysicalHandle := 4 + t }

/-- Both threads pass the checks, the second one is first to take the lock. -/
def middlePageRemapped : Threads SharedAllocator RemapThread :=
  Threads.follow (RemapThread.step .bump)
    ⟨threePages.share, (List.range 2).map fun t => RemapThread.start (middlePage t)⟩
    [0, 1, 0, 1, 1, 0, 1, 1, 0, 1, 1, 1, 1, 0, 0, 0, 0, 0, 0, 0]

/-- The second thread got the page's first handle and the first thread the second
    one's. -/
theorem remaps_serialise_middle_page :
    middlePageRemapped.locals.filterMap RemapThread.returned = [5, 2] ∧
    middlePageRemapped.shared.sequential.allocations.installed = [1, 4, 3] ∧
    ∃ order : List Nat, order.Perm (List.range 2) ∧ middlePageRemapped.shared.sequential =
      (Threads.serial (fun t => (middlePage t).run .bump) order threePages).1 := by
  have hcalls : ∀ t < 2, (middlePage t).Registered threePages := by
    intro t _
    have hget : (getVmmAllocation threePages ⟨0, 5000000, 0⟩).map VMMAllocation.numPages =
        some 3 := by decide +kernel
    obtain ⟨alloc, hget, hpages⟩ := Option.map_eq_some_iff.mp hget
    exact ⟨alloc, hget, by simp [middlePage], by simp [middlePage, hpages]⟩
  obtain ⟨order, hperm, hlast, -⟩ := remaps_serialise Cuda.bump_succeeds threePages 2 middlePage
    hcalls (Threads.moves_follow _ _
      [0, 1, 0, 1, 1, 0, 1, 1, 0, 1, 1, 1, 1, 0, 0, 0, 0, 0, 0, 0]) (by decide +kernel)
  exact ⟨by decide +kernel, by decide +kernel, order, hperm, hlast⟩

end Edmm
