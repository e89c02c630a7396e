/-
  Edmm/RaceThreads.lean
  =====================
  **The threads of a race, step by step.**

  `FreeRace.lean` follows the shared state.  Here each thread has its own part of the
  invariant: a remap past its range check holds the registered object, its handle is
  listed by no one until it writes it, and an allocation owns the handles it created.
  A step changes the part of the thread that takes it, and what the others rely on is
  a frame condition (`Frame`).
-/
import Edmm.FreeRace

namespace Edmm

open Program

variable {cuda : Cuda} {R : RaceSetting} {pc pc' : FreePc} {s s' : SharedAllocator}

/-! ## 1. The threads -/

namespace RemapThread

/-- The thread has mapped no page yet. -/
def BeforeMap (p : RemapThread) : Prop :=
  match p.pc with
  | .lookup => True
  | .checkRange _ => True
  | .acquire _ => True
  | .unmap _ => True
  | .map _ => True
  | .release (.error (.valueError _)) => True
  | .done (.error (.valueError _)) => True
  | _ => False

/-- The thread passed its range check while the object was registered for the tensor. -/
def Checked (R : RaceSetting) (pc : FreePc) (p : RemapThread) (obj : Nat) : Prop :=
  pc = .pop ∧ obj = R.va ∧ p.block < R.alloc.handles.length

/-- What the thread found out so far. -/
def Knows (R : RaceSetting) (pc : FreePc) (p : RemapThread) : Prop :=
  match p.pc with
  | .lookup => True
  | .checkRange obj => pc = .pop → obj = R.va
  | .acquire obj => p.Checked R pc obj
  | .unmap obj => p.Checked R pc obj
  | .map obj => p.Checked R pc obj
  | .setAccess obj => p.Checked R pc obj
  | .readOld obj => p.Checked R pc obj
  | .writeNew obj _ => p.Checked R pc obj
  | .release _ => True
  | .done _ => True

/-- The part of the invariant that belongs to a remap. -/
structure Ok (R : RaceSetting) (pc : FreePc) (s : SharedAllocator) (p : RemapThread) : Prop where
  tensor : p.call.tensor = R.tensor
  pooled : p.call.newPhysicalHandle ∈ R.pool
  knows : p.Knows R pc
  unlisted : ¬ p.TookEffect → p.call.newPhysicalHandle ∉ (s.objects R.va).handles
  unmapped : p.BeforeMap → ∀ start size, ¬ s.driver.Maps start size p.call.newPhysicalHandle

/-- The handle of a remap that did not take effect is tracked. -/
theorem Ok.tracked {p : RemapThread} (h : p.Ok R pc s) (hpending : ¬ p.TookEffect) :
    R.Tracked pc s p.call.newPhysicalHandle :=
  ⟨h.pooled, fun hreleased => h.unlisted hpending (FreePc.released_subset hreleased)⟩

theorem BeforeMap.pending {p : RemapThread} (h : p.BeforeMap) : ¬ p.TookEffect := by
  obtain ⟨call, pc⟩ := p
  cases pc with
  | release result =>
    cases result with
    | ok oldHandle => exact h.elim
    | error e => exact id
  | done result =>
    cases result with
    | ok oldHandle => exact h.elim
    | error e => exact id
  | _ => exact id

end RemapThread

namespace AllocateThread

/-- The handles that the thread created. -/
def created (p : AllocateThread) : List Handle :=
  match p.pc with
  | .map handle => p.handles ++ [handle]
  | _ => p.handles

/-- The thread's local variables. -/
def Knows (p : AllocateThread) : Prop :=
  match p.pc with
  | .deviceGet => p.va = none
  | .ctxRetain => p.va = none
  | .ctxPush => p.va = none
  | .granularity => p.va = none
  | .reserve => p.va = none ∧ 0 < p.pageSize ∧ 0 < p.alignedSize
  | .create => (∃ va, p.va = some va) ∧ 0 < p.pageSize ∧ p.offset < p.alignedSize
  | .map _ => (∃ va, p.va = some va) ∧ 0 < p.pageSize ∧ p.offset < p.alignedSize
  | .setAccess => (∃ va, p.va = some va) ∧ 0 < p.alignedSize
  | .memset => (∃ va, p.va = some va) ∧ 0 < p.alignedSize
  | .register => (∃ va, p.va = some va) ∧ 0 < p.alignedSize
  | .done _ => True

/-- The part of the invariant that belongs to an allocation. -/
structure Ok (R : RaceSetting) (pc : FreePc) (s : SharedAllocator) (p : AllocateThread) :
    Prop where
  size_pos : 0 < p.sizeBytes
  knows : p.Knows
  owned : ∀ handle ∈ p.created, handle ∈ s.driver.live ∧ ¬ R.Tracked pc s handle

end AllocateThread

/-- The free works on the object of the tensor. -/
def FreeThread.Knows (R : RaceSetting) (s : SharedAllocator) (p : FreeThread) : Prop :=
  match p.pc with
  | .pop => True
  | .unmap obj => obj = R.va
  | .next obj _ => obj = R.va
  | .release obj i handle => obj = R.va ∧ (s.objects R.va).handles[i]? = some handle
  | .addressFree obj => obj = R.va
  | .done => True

def RaceThread.Ok (R : RaceSetting) (pc : FreePc) (s : SharedAllocator) : RaceThread → Prop
  | .free p => p.pc = pc ∧ p.tensor = R.tensor ∧ p.Knows R s
  | .remap p => p.Ok R pc s
  | .allocate p => p.Ok R pc s

/-! ## 2. What a step leaves to the other threads -/

/-- The step adds pages and list entries for the handles `touched` only, takes no handle
    away but tracked ones, and leaves the object alone once it is not registered. -/
structure Frame (R : RaceSetting) (pc : FreePc) (s : SharedAllocator) (pc' : FreePc)
    (s' : SharedAllocator) (touched : Handle → Prop) : Prop where
  popped : pc' = .pop → pc = .pop
  handles : ∀ x ∈ (s'.objects R.va).handles, x ∈ (s.objects R.va).handles ∨ touched x
  maps : ∀ start size x, s'.driver.Maps start size x → s.driver.Maps start size x ∨ touched x
  live : ∀ x ∈ s.driver.live, ¬ R.Tracked pc s x → x ∈ s'.driver.live
  tracked : ∀ x, R.Tracked pc' s' x → R.Tracked pc s x
  objects : pc ≠ .pop → s'.objects R.va = s.objects R.va

theorem RemapThread.Ok.frame {touched : Handle → Prop} {p : RemapThread} (h : p.Ok R pc s)
    (hframe : Frame R pc s pc' s' touched)
    (hpop : (pc = .pop → pc' = .pop) ∨ p.Unchecked ∨ p.Swapped)
    (huntouched : ¬ p.TookEffect → ¬ touched p.call.newPhysicalHandle) : p.Ok R pc' s' where
  tensor := h.tensor
  pooled := h.pooled
  knows := by
    have hknows := h.knows
    obtain ⟨call, at_⟩ := p
    have hchecked : ∀ obj, RemapThread.Checked R pc ⟨call, at_⟩ obj →
        ¬ RemapThread.Unchecked ⟨call, at_⟩ → ¬ RemapThread.Swapped ⟨call, at_⟩ →
        RemapThread.Checked R pc' ⟨call, at_⟩ obj := by
      rintro obj ⟨hbefore, hobj, hblock⟩ hunchecked hswapped
      rcases hpop with hpop | hpop | hpop
      · exact ⟨hpop hbefore, hobj, hblock⟩
      · exact absurd hpop hunchecked
      · exact absurd hpop hswapped
    cases at_ with
    | lookup => trivial
    | checkRange obj => exact fun hnow => hknows (hframe.popped hnow)
    | acquire obj => exact hchecked obj hknows id id
    | unmap obj => exact hchecked obj hknows id id
    | map obj => exact hchecked obj hknows id id
    | setAccess obj => exact hchecked obj hknows id id
    | readOld obj => exact hchecked obj hknows id id
    | writeNew obj oldHandle => exact hchecked obj hknows id id
    | release result => trivial
    | done result => trivial
  unlisted := by
    intro hpending hlisted
    rcases hframe.handles _ hlisted with hlisted | htouched
    · exact h.unlisted hpending hlisted
    · exact huntouched hpending htouched
  unmapped := by
    intro hbefore start size hmaps
    rcases hframe.maps _ _ _ hmaps with hmaps | htouched
    · exact h.unmapped hbefore start size hmaps
    · exact huntouched hbefore.pending htouched

theorem AllocateThread.Ok.frame {touched : Handle → Prop} {p : AllocateThread} (h : p.Ok R pc s)
    (hframe : Frame R pc s pc' s' touched) : p.Ok R pc' s' where
  size_pos := h.size_pos
  knows := h.knows
  owned := by
    intro handle hmem
    obtain ⟨hlive, htracked⟩ := h.owned handle hmem
    exact ⟨hframe.live handle hlive htracked, fun hnow => htracked (hframe.tracked handle hnow)⟩

/-- What the free found in the list stays there. -/
theorem FreeThread.Knows.frame {touched : Handle → Prop} {p : FreeThread}
    (h : p.Knows R s) (hframe : Frame R p.pc s pc' s' touched) : p.Knows R s' := by
  obtain ⟨tensor, at_⟩ := p
  cases at_ with
  | pop => trivial
  | unmap obj => exact h
  | next obj i => exact h
  | release obj i handle =>
    obtain ⟨hobj, hget⟩ := h
    refine ⟨hobj, ?_⟩
    rw [hframe.objects (by simp)]
    exact hget
  | addressFree obj => exact h
  | done => trivial

/-- A driver call that maps no page and takes no handle away. -/
theorem Frame.afterCall {c : DriverCall}
    (hmaps : ∀ start size x, (cuda.after s.driver c).Maps start size x →
      s.driver.Maps start size x)
    (hlive : ∀ x ∈ s.driver.live, x ∈ (cuda.after s.driver c).live) (touched : Handle → Prop) :
    Frame R pc s pc (s.afterCall cuda c) touched where
  popped := id
  handles := fun _ hx => Or.inl hx
  maps := fun start size x hx => Or.inl (hmaps start size x hx)
  live := fun x hx _ => hlive x hx
  tracked := fun _ hx => hx
  objects := fun _ => rfl

theorem Frame.fewerMaps {c : DriverCall} (hdriver : FewerMaps s.driver (cuda.after s.driver c))
    (touched : Handle → Prop) : Frame R pc s pc (s.afterCall cuda c) touched :=
  Frame.afterCall hdriver.maps (fun x hx => by rw [hdriver.live]; exact hx) touched

/-- A map touches the handle that it maps. -/
theorem Frame.map (va size : Nat) (handle : Handle) :
    Frame R pc s pc (s.afterCall cuda (.cuMemMap va size handle)) (· = handle) where
  popped := id
  handles := fun _ hx => Or.inl hx
  maps := by
    intro start size' x hmaps
    rcases maps_mapped hmaps with ⟨_, _, hx⟩ | hold
    · exact Or.inr hx
    · exact Or.inl hold
  live := by
    intro x hx _
    show x ∈ (cuda.after s.driver _).live
    rw [(sameHandles_mapped cuda s.driver va size handle).2]
    exact hx
  tracked := fun _ hx => hx
  objects := fun _ => rfl

/-- A step that leaves the driver, the objects and the tracked handles alone. -/
theorem Frame.quiet (hdriver : s'.driver = s.driver)
    (hobjects : s'.objects R.va = s.objects R.va) (hpopped : pc' = .pop → pc = .pop)
    (hreleased : ∀ x ∈ pc.released (s.objects R.va).handles,
      x ∈ pc'.released (s.objects R.va).handles)
    (touched : Handle → Prop) : Frame R pc s pc' s' touched where
  popped := hpopped
  handles := by rw [hobjects]; exact fun _ hx => Or.inl hx
  maps := by rw [hdriver]; exact fun _ _ _ hx => Or.inl hx
  live := by rw [hdriver]; exact fun _ hx _ => hx
  tracked := by
    rintro x ⟨hpool, hnot⟩
    refine ⟨hpool, fun hx => hnot ?_⟩
    simp only [RaceSetting.released, hobjects]
    exact hreleased x hx
  objects := fun _ => hobjects

/-! ## 3. A step of a remap -/

namespace RemapThread

/-- What a step of a remap keeps. -/
structure Kept (R : RaceSetting) (pc : FreePc) (s : SharedAllocator) (p : RemapThread)
    (s' : SharedAllocator) (p' : RemapThread) : Prop where
  call_eq : p'.call = p.call
  shared : R.SharedOk pc s'
  ok : p'.Ok R pc s'
  frame : Frame R pc s pc s' (· = p.call.newPhysicalHandle)
  reserved : s'.driver.reserved = s.driver.reserved

theorem Checked.page_inside {p : RemapThread} {obj : Nat} (h : p.Checked R pc obj)
    (hshared : R.SharedOk pc s) :
    Inside R.region ((s.objects obj).pageVa p.block) (s.objects obj).pageSize := by
  obtain ⟨_, rfl, hblock⟩ := h
  exact hshared.objects.page_inside hblock

/-- A step that reads or takes the lock. -/
theorem Ok.quiet {p : RemapThread} (h : p.Ok R pc s) (hshared : R.SharedOk pc s) {at_ : RemapPc}
    {lock : Option Nat} (hknows : (p.goto at_).Knows R pc)
    (heffect : p.TookEffect → (p.goto at_).TookEffect)
    (hbefore : (p.goto at_).BeforeMap → p.BeforeMap) :
    Kept R pc s p { s with remapLock := lock } (p.goto at_) where
  call_eq := rfl
  shared := hshared.fewerMaps ⟨rfl, rfl, rfl⟩ ⟨rfl, rfl, fun _ _ _ hmaps => hmaps⟩
  ok :=
    { tensor := h.tensor
      pooled := h.pooled
      knows := hknows
      unlisted := fun hpending => h.unlisted fun hnow => hpending (heffect hnow)
      unmapped := fun hnow => h.unmapped (hbefore hnow) }
  frame := by
    apply Frame.quiet
    · rfl
    · rfl
    · exact id
    · exact fun _ hx => hx
  reserved := rfl

/-- A driver call that maps no page, or that failed. -/
theorem Ok.call {p : RemapThread} (h : p.Ok R pc s) (hshared : R.SharedOk pc s) {at_ : RemapPc}
    {c : DriverCall} (hcall : c.OnlyUnmaps ∨ cuda.result s.driver c ≠ 0)
    (hknows : (p.goto at_).Knows R pc) (hpending : ¬ p.TookEffect)
    (hbefore : (p.goto at_).BeforeMap → p.BeforeMap) :
    Kept R pc s p (s.afterCall cuda c) (p.goto at_) := by
  have hdriver : FewerMaps s.driver (cuda.after s.driver c) :=
    FewerMaps.of_unmaps_or_failure hcall
  exact
    { call_eq := rfl
      shared := hshared.afterCall cuda hcall
      ok :=
        { tensor := h.tensor
          pooled := h.pooled
          knows := hknows
          unlisted := fun _ => h.unlisted hpending
          unmapped := fun hnow start size hmaps =>
            h.unmapped (hbefore hnow) start size (hdriver.maps _ _ _ hmaps) }
      frame := Frame.fewerMaps hdriver _
      reserved := hdriver.reserved }

/-- The page is mapped to the new handle. -/
theorem Ok.map {p : RemapThread} (h : p.Ok R pc s) (hshared : R.SharedOk pc s) {obj : Nat}
    {at_ : RemapPc} (hchecked : p.Checked R pc obj) (hpending : ¬ p.TookEffect)
    (hregion : R.region ∈ s.driver.reserved) (hknows : (p.goto at_).Knows R pc)
    (hbefore : ¬ (p.goto at_).BeforeMap) :
    Kept R pc s p (s.afterCall cuda (.cuMemMap ((s.objects obj).pageVa p.block)
      (s.objects obj).pageSize p.call.newPhysicalHandle)) (p.goto at_) := by
  have hinside := hchecked.page_inside hshared
  have hnot : ¬ pc.Unmapped := by
    rw [hchecked.1]
    exact id
  have hpage : RaceSetting.Mappable R pc s ((s.objects obj).pageVa p.block)
      (s.objects obj).pageSize p.call.newPhysicalHandle :=
    { housed := ⟨R.region, hregion, hinside⟩
      live := hshared.handles.trackedLive _ (h.tracked hpending)
      home := fun _ => ⟨hinside, hnot⟩
      vacated := fun hunmapped => absurd hunmapped hnot }
  exact
    { call_eq := rfl
      shared := hshared.map cuda hpage
      ok :=
        { tensor := h.tensor
          pooled := h.pooled
          knows := hknows
          unlisted := fun _ => h.unlisted hpending
          unmapped := fun hnow => absurd hnow hbefore }
      frame := Frame.map ..
      reserved := (sameHandles_mapped ..).1 }

/-- The new handle is listed. -/
theorem Ok.write {p : RemapThread} (h : p.Ok R pc s) (hshared : R.SharedOk pc s) {obj : Nat}
    {oldHandle : Handle} (hchecked : p.Checked R pc obj) (hpending : ¬ p.TookEffect) :
    Kept R pc s p (s.writeHandle obj p.block p.call.newPhysicalHandle)
      (p.goto (.release (.ok oldHandle))) := by
  obtain ⟨rfl, rfl, _⟩ := hchecked
  have hself : (s.writeHandle R.va p.block p.call.newPhysicalHandle).objects R.va =
      { s.objects R.va with
        handles := (s.objects R.va).handles.set p.block p.call.newPhysicalHandle } := by
    simp [SharedAllocator.writeHandle]
  exact
    { call_eq := rfl
      shared := hshared.writeHandle h.pooled (h.unlisted hpending)
      ok :=
        { tensor := h.tensor
          pooled := h.pooled
          knows := trivial
          unlisted := fun hnot => absurd trivial hnot
          unmapped := fun hnow => hnow.elim }
      frame :=
        { popped := id
          handles := by
            intro x hx
            rw [hself] at hx
            exact List.mem_or_eq_of_mem_set hx
          maps := fun _ _ _ hx => Or.inl hx
          live := fun _ hx _ => hx
          tracked := fun _ hx => hx
          objects := fun hne => absurd rfl hne }
      reserved := rfl }

/-- **Step lemma of a remap.**  A thread that is past its range check works on a
    registered object, whose range is reserved. -/
theorem Ok.step {p p' : RemapThread} {me : Nat} (h : p.Ok R pc s) (hshared : R.SharedOk pc s)
    (hregion : R.region ∈ s.driver.reserved ∨ pc = .done)
    (hguard : ∀ obj, p.pc = .checkRange obj → pc ≠ .pop →
      p.call.blockId < 0 ∨ p.call.blockId ≥ (s.objects obj).numPages)
    (hstep : p.step cuda me s = some (s', p')) : Kept R pc s p s' p' := by
  have hknows := h.knows
  have hreserved : ∀ {obj}, p.Checked R pc obj → R.region ∈ s.driver.reserved := by
    rintro obj ⟨rfl, _⟩
    rcases hregion with hregion | hdone
    · exact hregion
    · cases hdone
  obtain ⟨call, at_⟩ := p
  cases at_ with
  | lookup =>
    simp only [RemapThread.step] at hstep
    split at hstep
    · cases hstep
      exact h.quiet hshared trivial id fun _ => trivial
    · rename_i obj hget
      cases hstep
      refine h.quiet hshared ?_ id fun _ => trivial
      intro hpop
      have hregistered := hshared.objects.registered hpop
      have hva : call.tensor.dataPtr = R.va := congrArg Tensor.dataPtr h.tensor
      rw [hva, hregistered] at hget
      exact (Option.some.inj hget).symm
  | checkRange obj =>
    simp only [RemapThread.step] at hstep
    split at hstep
    · cases hstep
      exact h.quiet hshared trivial id fun _ => trivial
    · rename_i hrange
      cases hstep
      refine h.quiet hshared ?_ id fun _ => trivial
      have hpop : pc = .pop := by
        by_contra hne
        exact hrange (hguard obj rfl hne)
      have hobj : obj = R.va := hknows hpop
      refine ⟨hpop, hobj, ?_⟩
      have hlength := hshared.objects.length
      rw [← hobj] at hlength
      show call.blockId.toNat < _
      rw [← hlength]
      simp only [not_or, VMMAllocation.numPages] at hrange
      omega
  | acquire obj =>
    simp only [RemapThread.step] at hstep
    split at hstep
    · cases hstep
      exact h.quiet hshared hknows id fun _ => trivial
    · cases hstep
  | unmap obj =>
    cases hstep
    refine h.call hshared (Or.inl trivial) ?_ id fun _ => trivial
    split
    · trivial
    · exact hknows
  | map obj =>
    cases hstep
    refine h.map hshared hknows id (hreserved hknows) ?_ ?_
    · split
      · trivial
      · exact hknows
    · split
      · exact id
      · exact id
  | setAccess obj =>
    cases hstep
    refine h.call hshared (Or.inl trivial) ?_ id fun hnow => ?_
    · split
      · trivial
      · exact hknows
    · split at hnow
      · exact hnow.elim
      · exact hnow.elim
  | readOld obj =>
    cases hstep
    exact h.quiet hshared hknows id fun hnow => hnow.elim
  | writeNew obj oldHandle =>
    cases hstep
    exact h.write hshared hknows id
  | release result =>
    cases hstep
    refine h.quiet hshared trivial ?_ ?_
    · cases result with
      | ok oldHandle => exact id
      | error e => exact id
    · cases result with
      | ok oldHandle => exact id
      | error e =>
        cases e with
        | valueError msg => exact id
        | _ => exact id
  | done result => cases hstep

end RemapThread

/-! ## 4. A step of an allocation -/

namespace AllocateThread

/-- What a step of an allocation keeps. -/
structure Kept (R : RaceSetting) (pc : FreePc) (s : SharedAllocator) (p : AllocateThread)
    (s' : SharedAllocator) (p' : AllocateThread) : Prop where
  shared : R.SharedOk pc s'
  ok : p'.Ok R pc s'
  frame : ∃ touched, Frame R pc s pc s' touched ∧ ∀ x, touched x → ¬ R.Tracked pc s x
  reserved : (s'.driver.reserved = s.driver.reserved ∧
      (RaceThread.allocate p').reservation = (RaceThread.allocate p).reservation) ∨
    ∃ range, s'.driver.reserved = range :: s.driver.reserved ∧
      (RaceThread.allocate p).reservation = none ∧
      (RaceThread.allocate p').reservation = some range

/-- The thread goes on with the same local variables. -/
theorem Ok.goto {p : AllocateThread} (h : p.Ok R pc s) {at_ : AllocatePc}
    (hknows : (p.goto at_).Knows) (hcreated : (p.goto at_).created = p.handles)
    (hframe : ∃ touched, Frame R pc s pc s' touched) : (p.goto at_).Ok R pc s' where
  size_pos := h.size_pos
  knows := hknows
  owned := by
    intro handle hmem
    obtain ⟨touched, hframe⟩ := hframe
    rw [hcreated] at hmem
    have hbefore : handle ∈ p.created := by
      unfold created
      split
      · exact List.mem_append_left _ hmem
      · exact hmem
    obtain ⟨hlive, htracked⟩ := h.owned handle hbefore
    exact ⟨hframe.live handle hlive htracked, fun hnow => htracked (hframe.tracked handle hnow)⟩

/-- A driver call that maps no page and takes no handle away, or that failed. -/
theorem Ok.call {p : AllocateThread} (h : p.Ok R pc s) (hshared : R.SharedOk pc s)
    {c : DriverCall} (hcall : c.OnlyUnmaps ∨ cuda.result s.driver c ≠ 0) {at_ : AllocatePc}
    (hknows : (p.goto at_).Knows) (hcreated : (p.goto at_).created = p.handles) :
    Kept R pc s p (s.afterCall cuda c) (p.goto at_) := by
  have hdriver : FewerMaps s.driver (cuda.after s.driver c) :=
    FewerMaps.of_unmaps_or_failure hcall
  have hframe : Frame R pc s pc (s.afterCall cuda c) fun _ => False :=
    Frame.fewerMaps hdriver _
  exact
    { shared := hshared.afterCall cuda hcall
      ok := h.goto hknows hcreated ⟨_, hframe⟩
      frame := ⟨_, hframe, fun _ hx => hx.elim⟩
      reserved := Or.inl ⟨hdriver.reserved, rfl⟩ }

theorem Ok.raise {p : AllocateThread} (h : p.Ok R pc s) (hshared : R.SharedOk pc s)
    {c : DriverCall} (hfailed : cuda.result s.driver c ≠ 0) (e : PyError) :
    Kept R pc s p (s.afterCall cuda c) (p.goto (.done (.error e))) :=
  h.call hshared (Or.inr hfailed) trivial rfl

/-- A checked call raises, or succeeds and goes on. -/
theorem Ok.checkedCall {p : AllocateThread} (h : p.Ok R pc s) (hshared : R.SharedOk pc s)
    {c : DriverCall} {msg : String} {next : AllocateThread}
    (hnext : cuda.result s.driver c = 0 → Kept R pc s p (s.afterCall cuda c) next) :
    Kept R pc s p (p.checkedCall cuda s c msg next).1 (p.checkedCall cuda s c msg next).2 := by
  unfold AllocateThread.checkedCall
  dsimp only
  split
  · rename_i hfailed
    exact h.raise hshared hfailed _
  · rename_i hresult
    exact hnext (not_not.mp hresult)

/-- `while offset < aligned_size`. -/
theorem knows_loopTest {p : AllocateThread} (hva : ∃ va, p.va = some va) (hpage : 0 < p.pageSize)
    (hsize : 0 < p.alignedSize) : p.loopTest.Knows := by
  unfold AllocateThread.loopTest
  split
  · rename_i hlt
    exact ⟨hva, hpage, hlt⟩
  · exact ⟨hva, hsize⟩

theorem created_loopTest (p : AllocateThread) : p.loopTest.created = p.handles := by
  unfold AllocateThread.loopTest
  split
  · rfl
  · rfl

/-- The thread's page lies in its reservation. -/
theorem chunk_inside {p : AllocateThread} {va : Nat} (hva : p.va = some va)
    (hpage : 0 < p.pageSize) (hlt : p.offset < p.alignedSize) :
    Inside (va, p.alignedSize) (p.vaValue + p.offset) p.chunk := by
  have hvalue : p.vaValue = va := by simp [vaValue, hva]
  have hle : p.chunk ≤ p.alignedSize - p.offset := Nat.min_le_right _ _
  have hpos : 0 < p.chunk := Nat.lt_min.mpr ⟨hpage, by omega⟩
  rw [hvalue]
  refine ⟨hpos, ?_, ?_⟩
  · show va ≤ va + p.offset
    omega
  · show va + p.offset + p.chunk ≤ va + p.alignedSize
    omega

/-- The thread's range is reserved, and apart from the tensor's while that is
    reserved. -/
def Apart (R : RaceSetting) (pc : FreePc) (s : SharedAllocator) (p : AllocateThread) : Prop :=
  ∀ va, p.va = some va → (va, p.alignedSize) ∈ s.driver.reserved ∧
    (pc.Reserving → RangesDisjoint R.region (va, p.alignedSize))

theorem Ok.granularity {p : AllocateThread} (h : p.Ok R pc s) (hshared : R.SharedOk pc s)
    {device : DeviceId} (hknows : p.va = none) (hcreated : p.created = p.handles) :
    Kept R pc s p (s.afterCall cuda (.cuMemGetAllocationGranularity device))
      { p with
        pageSize := pageSizeOf (cuda.granularity s.driver p.deviceId)
        alignedSize := alignedSizeOf p.sizeBytes (pageSizeOf (cuda.granularity s.driver p.deviceId))
        pc := .reserve } := by
  have hdriver : FewerMaps s.driver
      (cuda.after s.driver (.cuMemGetAllocationGranularity device)) :=
    FewerMaps.after cuda s.driver trivial
  have hframe : Frame R pc s pc (s.afterCall cuda (.cuMemGetAllocationGranularity device))
      fun _ => False := Frame.fewerMaps hdriver _
  have hpage := pageSizeOf_pos (cuda.granularity s.driver p.deviceId)
  have haligned : 0 < alignedSizeOf p.sizeBytes
      (pageSizeOf (cuda.granularity s.driver p.deviceId)) := by
    obtain ⟨k, hk, hcovers⟩ := alignedSizeOf_eq p.sizeBytes hpage
    rw [hk]
    exact Nat.lt_of_lt_of_le h.size_pos hcovers
  refine
    { shared := hshared.fewerMaps (RaceSetting.SameObjects.afterCall cuda s _) hdriver
      ok :=
        { size_pos := h.size_pos
          knows := ⟨hknows, hpage, haligned⟩
          owned := ?_ }
      frame := ⟨_, hframe, fun _ hx => hx.elim⟩
      reserved := Or.inl ⟨hdriver.reserved, ?_⟩ }
  · intro handle hmem
    exact (h.frame hframe).owned handle (by rw [hcreated]; exact hmem)
  · simp [RaceThread.reservation, hknows]

theorem Ok.reserve {p : AllocateThread} (h : p.Ok R pc s) (hshared : R.SharedOk pc s)
    (hlawful : cuda.Lawful) (hknows : p.va = none ∧ 0 < p.pageSize ∧ 0 < p.alignedSize)
    (hcreated : p.created = p.handles)
    (hresult : cuda.result s.driver (.cuMemAddressReserve p.alignedSize) = 0) :
    Kept R pc s p (s.afterCall cuda (.cuMemAddressReserve p.alignedSize))
      { p with va := some (cuda.pickVa s.driver p.alignedSize) }.loopTest := by
  have hafter := Cuda.after_of_result hresult
  have hframe : Frame R pc s pc (s.afterCall cuda (.cuMemAddressReserve p.alignedSize))
      fun _ => False := by
    apply Frame.afterCall
    · rw [hafter]
      exact fun _ _ _ hmaps => hmaps
    · rw [hafter]
      exact fun _ hx => hx
  refine
    { shared := hshared.reserve hlawful p.alignedSize
      ok :=
        { size_pos := h.size_pos
          knows := knows_loopTest ⟨_, rfl⟩ hknows.2.1 hknows.2.2
          owned := ?_ }
      frame := ⟨_, hframe, fun _ hx => hx.elim⟩
      reserved := Or.inr ⟨(cuda.pickVa s.driver p.alignedSize, p.alignedSize), ?_, ?_, rfl⟩ }
  · intro handle hmem
    rw [created_loopTest] at hmem
    exact (h.frame hframe).owned handle (by rw [hcreated]; exact hmem)
  · show (cuda.after s.driver _).reserved = _
    rw [hafter]
    rfl
  · simp [RaceThread.reservation, hknows.1]

theorem Ok.create {p : AllocateThread} (h : p.Ok R pc s) (hshared : R.SharedOk pc s)
    (hlawful : cuda.Lawful) {size : Nat} {device : DeviceId}
    (hknows : (∃ va, p.va = some va) ∧ 0 < p.pageSize ∧ p.offset < p.alignedSize)
    (hcreated : p.created = p.handles)
    (hresult : cuda.result s.driver (.cuMemCreate size device) = 0) :
    Kept R pc s p (s.afterCall cuda (.cuMemCreate size device))
      (p.goto (.map (cuda.pickHandle s.driver))) := by
  have hafter := Cuda.after_of_result hresult
  have hlive : (s.afterCall cuda (.cuMemCreate size device)).driver.live =
      cuda.pickHandle s.driver :: s.driver.live := by
    show (cuda.after s.driver _).live = _
    rw [hafter]
    rfl
  have hframe : Frame R pc s pc (s.afterCall cuda (.cuMemCreate size device)) fun _ => False := by
    apply Frame.afterCall
    · rw [hafter]
      exact fun _ _ _ hmaps => hmaps
    · rw [hafter]
      exact fun _ hx => List.mem_cons_of_mem _ hx
  refine
    { shared := hshared.create cuda size device
      ok :=
        { size_pos := h.size_pos
          knows := hknows
          owned := ?_ }
      frame := ⟨_, hframe, fun _ hx => hx.elim⟩
      reserved := Or.inl ⟨?_, rfl⟩ }
  · intro handle hmem
    rcases List.mem_append.mp hmem with hmem | hmem
    · exact (h.frame hframe).owned handle (by rw [hcreated]; exact hmem)
    · rw [List.mem_singleton] at hmem
      subst hmem
      refine ⟨by rw [hlive]; exact List.mem_cons_self, fun htracked => ?_⟩
      exact hlawful.create_fresh s.driver (hshared.handles.trackedLive _ htracked)
  · show (cuda.after s.driver _).reserved = _
    rw [hafter]
    rfl

theorem Ok.map {p : AllocateThread} (h : p.Ok R pc s) (hshared : R.SharedOk pc s)
    (hapart : p.Apart R pc s) {handle : Handle}
    (hknows : (∃ va, p.va = some va) ∧ 0 < p.pageSize ∧ p.offset < p.alignedSize)
    (hcreated : p.created = p.handles ++ [handle]) :
    Kept R pc s p (s.afterCall cuda (.cuMemMap (p.vaValue + p.offset) p.chunk handle))
      { p with handles := p.handles ++ [handle], offset := p.offset + p.chunk }.loopTest := by
  obtain ⟨⟨va, hva⟩, hpage, hlt⟩ := hknows
  obtain ⟨hreserved, hdisjoint⟩ := hapart va hva
  have hinside := chunk_inside hva hpage hlt
  obtain ⟨hlive, htracked⟩ := h.owned handle (by rw [hcreated]; simp)
  have hmappable : RaceSetting.Mappable R pc s (p.vaValue + p.offset) p.chunk handle :=
    { housed := ⟨_, hreserved, hinside⟩
      live := hlive
      home := fun hnow => absurd hnow htracked
      vacated := fun _ hreserving => hinside.not_of_disjoint (hdisjoint hreserving) }
  have hframe : Frame R pc s pc
      (s.afterCall cuda (.cuMemMap (p.vaValue + p.offset) p.chunk handle)) (· = handle) :=
    Frame.map ..
  refine
    { shared := hshared.map cuda hmappable
      ok :=
        { size_pos := h.size_pos
          knows := knows_loopTest ⟨va, hva⟩ hpage (Nat.lt_of_le_of_lt (Nat.zero_le _) hlt)
          owned := ?_ }
      frame := ⟨_, hframe, ?_⟩
      reserved := Or.inl ⟨(sameHandles_mapped ..).1, rfl⟩ }
  · intro x hmem
    rw [created_loopTest] at hmem
    exact (h.frame hframe).owned x (by rw [hcreated]; exact hmem)
  · rintro x rfl
    exact htracked

theorem Ok.register {p : AllocateThread} (h : p.Ok R pc s) (hshared : R.SharedOk pc s)
    (hapart : p.Apart R pc s) (hknows : (∃ va, p.va = some va) ∧ 0 < p.alignedSize)
    (hcreated : p.created = p.handles) :
    Kept R pc s p
      { s with
        objects := Function.update s.objects s.nextObject p.alloc
        nextObject := s.nextObject + 1
        allocations := s.allocations.set p.vaValue s.nextObject }
      (p.goto (.done (.ok p.tensor))) := by
  obtain ⟨⟨va, hva⟩, hsize⟩ := hknows
  have hvalue : p.vaValue = va := by simp [vaValue, hva]
  have hne : pc = .pop → p.vaValue ≠ R.va := by
    rintro rfl
    have hdisjoint := (hapart va hva).2 trivial
    have hpos := R.nonempty
    have hkeyed : R.alloc.vaPtr = R.va := R.keyed
    simp only [RangesDisjoint, RaceSetting.region] at hdisjoint
    omega
  have hframe : Frame R pc s pc
      { s with
        objects := Function.update s.objects s.nextObject p.alloc
        nextObject := s.nextObject + 1
        allocations := s.allocations.set p.vaValue s.nextObject } fun _ => False := by
    apply Frame.quiet
    · rfl
    · exact Function.update_of_ne (Nat.ne_of_lt hshared.objects.numbered) _ _
    · exact id
    · exact fun _ hx => hx
  exact
    { shared := hshared.register hne fun x hx => h.owned x (by rw [hcreated]; exact hx)
      ok := h.goto trivial rfl ⟨_, hframe⟩
      frame := ⟨_, hframe, fun _ hx => hx.elim⟩
      reserved := Or.inl ⟨rfl, rfl⟩ }

/-- **Step lemma of an allocation.** -/
theorem Ok.step {p p' : AllocateThread} (h : p.Ok R pc s) (hshared : R.SharedOk pc s)
    (hlawful : cuda.Lawful) (hapart : p.Apart R pc s) (hstep : p.step cuda s = some (s', p')) :
    Kept R pc s p s' p' := by
  have hknows := h.knows
  have hsize := h.size_pos
  obtain ⟨sizeBytes, device, pageSize, alignedSize, va, handles, offset, at_⟩ := p
  cases at_ with
  | deviceGet =>
    cases hstep
    refine h.call hshared (Or.inl ?_) hknows rfl
    trivial
  | ctxRetain =>
    cases hstep
    refine h.call hshared (Or.inl ?_) hknows rfl
    trivial
  | ctxPush =>
    cases hstep
    refine h.call hshared (Or.inl ?_) hknows rfl
    trivial
  | granularity =>
    cases hstep
    exact h.checkedCall hshared fun _ => h.granularity hshared hknows rfl
  | reserve =>
    cases hstep
    exact h.checkedCall hshared fun hresult => h.reserve hshared hlawful hknows rfl hresult
  | create =>
    cases hstep
    exact h.checkedCall hshared fun hresult => h.create hshared hlawful hknows rfl hresult
  | map handle =>
    cases hstep
    exact h.checkedCall hshared fun _ => h.map hshared hapart hknows rfl
  | setAccess =>
    cases hstep
    refine h.checkedCall hshared fun _ => h.call hshared (Or.inl ?_) hknows rfl
    trivial
  | memset =>
    cases hstep
    refine h.call hshared (Or.inl ?_) hknows rfl
    trivial
  | register =>
    cases hstep
    exact h.register hshared hapart hknows rfl
  | done result => cases hstep

end AllocateThread

/-! ## 5. A step of the free -/

namespace FreeThread

/-- What a step of the free keeps. -/
structure Kept (R : RaceSetting) (s : SharedAllocator) (p : FreeThread) (s' : SharedAllocator)
    (p' : FreeThread) : Prop where
  tensor : p'.tensor = p.tensor
  shared : R.SharedOk p'.pc s'
  knows : p'.Knows R s'
  frame : Frame R p.pc s p'.pc s' fun _ => False
  reserved : (s'.driver.reserved = s.driver.reserved ∧ R.base p'.pc = R.base p.pc) ∨
    (s'.driver.reserved = s.driver.reserved.erase R.region ∧ R.base p.pc = R.reserved ∧
      R.base p'.pc = R.reserved.erase R.region)
  popped : p'.pc ≠ .pop

/-- The driver does unmap and give back the range. -/
def Succeeding (cuda : Cuda) (s : SharedAllocator) (p : FreeThread) : Prop :=
  match p.pc with
  | .unmap obj => cuda.result s.driver
      (.cuMemUnmap (s.objects obj).vaPtr (s.objects obj).totalBytes) = 0
  | .addressFree obj => cuda.result s.driver
      (.cuMemAddressFree (s.objects obj).vaPtr (s.objects obj).totalBytes) = 0
  | _ => True

/-- **Step lemma of the free.** -/
theorem Knows.step {p p' : FreeThread} (h : p.Knows R s) (htensor : p.tensor = R.tensor)
    (hshared : R.SharedOk p.pc s) (hsucceeding : p.Succeeding cuda s)
    (hstep : p.step cuda s = some (s', p')) : Kept R s p s' p' := by
  obtain ⟨tensor, at_⟩ := p
  cases at_ with
  | pop =>
    have hva : tensor.dataPtr = R.va := congrArg Tensor.dataPtr htensor
    simp only [FreeThread.step, hva, hshared.objects.registered rfl] at hstep
    cases hstep
    refine
      { tensor := rfl
        shared := hshared.pop
        knows := rfl
        frame := ?_
        reserved := Or.inl ⟨rfl, rfl⟩
        popped := by simp [goto] }
    apply Frame.quiet
    · rfl
    · rfl
    · exact fun hnow => by cases hnow
    · exact fun _ hx => hx
  | unmap obj =>
    obtain rfl : obj = R.va := h
    cases hstep
    have hdriver : FewerMaps s.driver (cuda.after s.driver
        (.cuMemUnmap (s.objects R.va).vaPtr (s.objects R.va).totalBytes)) :=
      FewerMaps.after cuda s.driver trivial
    exact
      { tensor := rfl
        shared := hshared.unmapAll hsucceeding
        knows := rfl
        frame :=
          { popped := fun hnow => by cases hnow
            handles := fun _ hx => Or.inl hx
            maps := fun start size x hx => Or.inl (hdriver.maps start size x hx)
            live := fun x hx _ => by
              show x ∈ (cuda.after s.driver _).live
              rw [hdriver.live]
              exact hx
            tracked := fun _ hx => hx
            objects := fun _ => rfl }
        reserved := Or.inl ⟨hdriver.reserved, rfl⟩
        popped := by simp [goto] }
  | next obj i =>
    obtain rfl : obj = R.va := h
    simp only [FreeThread.step] at hstep
    split at hstep
    · rename_i hend
      cases hstep
      have hall : (s.objects R.va).handles.take i = (s.objects R.va).handles :=
        List.take_of_length_le (List.getElem?_eq_none_iff.mp hend)
      refine
        { tensor := rfl
          shared := hshared.advance (by simp) (by simp [goto]) ?_ Iff.rfl fun _ => trivial
          knows := rfl
          frame := ?_
          reserved := Or.inl ⟨rfl, rfl⟩
          popped := by simp [goto] }
      · exact hall.symm
      · apply Frame.quiet
        · rfl
        · rfl
        · exact fun hnow => by cases hnow
        · exact fun x hx => List.mem_of_mem_take hx
    · rename_i handle hget
      cases hstep
      refine
        { tensor := rfl
          shared := hshared.advance (by simp) (by simp [goto]) rfl Iff.rfl fun _ => trivial
          knows := ⟨rfl, hget⟩
          frame := ?_
          reserved := Or.inl ⟨rfl, rfl⟩
          popped := by simp [goto] }
      apply Frame.quiet
      · rfl
      · rfl
      · exact fun hnow => by cases hnow
      · exact fun _ hx => hx
  | release obj i handle =>
    obtain ⟨rfl, hget⟩ : obj = R.va ∧ (s.objects R.va).handles[i]? = some handle := h
    cases hstep
    obtain ⟨hreserved, hpages, hlive⟩ := RaceSetting.after_release cuda s.driver handle
    have hnow := hshared.objects.tracked_release hget
    exact
      { tensor := rfl
        shared := hshared.release cuda hget
        knows := rfl
        frame :=
          { popped := fun hpop => by cases hpop
            handles := fun _ hx => Or.inl hx
            maps := by
              rintro start size x ⟨access, hpage⟩
              have hpage : (cuda.after s.driver (.cuMemRelease handle)).pages.get? start =
                some ⟨size, x, access⟩ := hpage
              rw [hpages] at hpage
              exact Or.inl ⟨access, hpage⟩
            live := by
              intro x hx hnot
              refine hlive x hx ?_
              rintro rfl
              exact hnot hnow
            tracked := fun x hx => (RaceSetting.tracked_next hget hx).2
            objects := fun _ => rfl }
        reserved := Or.inl ⟨hreserved, rfl⟩
        popped := by simp [goto] }
  | addressFree obj =>
    obtain rfl : obj = R.va := h
    cases hstep
    obtain ⟨hreserved, hpages, hlive⟩ := hshared.objects.after_addressFree hsucceeding
    exact
      { tensor := rfl
        shared := hshared.addressFree hsucceeding
        knows := trivial
        frame :=
          { popped := fun hpop => by cases hpop
            handles := fun _ hx => Or.inl hx
            maps := by
              rintro start size x ⟨access, hpage⟩
              simp only [SharedAllocator.afterCall, hpages] at hpage
              exact Or.inl ⟨access, hpage⟩
            live := by
              intro x hx _
              simp only [SharedAllocator.afterCall, hlive]
              exact hx
            tracked := fun _ hx => hx
            objects := fun _ => rfl }
        reserved := Or.inr ⟨hreserved, rfl, rfl⟩
        popped := by simp [goto] }
  | done => cases hstep

end FreeThread

end Edmm
