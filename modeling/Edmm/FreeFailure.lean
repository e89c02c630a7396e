/-
  Edmm/FreeFailure.lean
  =====================
  **Freeing a KV cache while driver calls fail.**

  `free_vmm_kv_cache` takes the entry out of the registry first and drops the
  results of all driver calls that follow.  The driver unmaps a range only if all
  of it is mapped, and takes back an address range only if nothing of it is.  So a
  hole that a failed remap left makes the unmapping fail and then the return of the
  range, and nobody hears of it.  `nothingLost_iff` says when nothing is lost.
-/
import Edmm.AllocationFailure

namespace Edmm

open Program

variable {cuda : Cuda} {w w' : AllocatorState}

/-! ## 1. What every driver call keeps -/

section Keeps

variable {I : DriverState → Prop} (hafter : ∀ s c, I s → I (cuda.after s c))
include hafter

theorem keeps_call (c : DriverCall) : Keeps (fun w => I w.driver) (call cuda c) :=
  fun w h => hafter w.driver c h

omit hafter in
theorem keeps_setAllocations (f : AllocatorState → Dict Nat VMMAllocation) :
    Keeps (fun w : AllocatorState => I w.driver)
      (modify (fun w : AllocatorState => { w with allocations := f w }) : AllocM PUnit) :=
  Keeps.modify fun _ h => h

theorem keeps_allocateVmmKvCache (sizeBytes : Nat) (device : Device) :
    Keeps (fun w => I w.driver) (allocateVmmKvCache cuda sizeBytes device) := by
  rw [allocateVmmKvCache_eq]
  refine (keeps_allocateRegion (fun c _ => keeps_call hafter c) _ _).bind fun alloc => ?_
  refine (keeps_call hafter _).bind fun _ => ?_
  exact (keeps_setAllocations _).bind fun _ => Keeps.pure _

theorem keeps_remapBlock (tensor : Tensor) (blockId : Int) (handle : Handle) :
    Keeps (fun w => I w.driver) (remapBlock cuda tensor blockId handle) := by
  refine Keeps.get.bind fun w => ?_
  cases getVmmAllocation w tensor with
  | none => exact Keeps.throw _
  | some alloc =>
    refine Keeps.ite (Keeps.throw _) ?_
    exact (keeps_call hafter _).bind fun _ => (keeps_check _ _).bind fun _ =>
      (keeps_call hafter _).bind fun _ => (keeps_check _ _).bind fun _ =>
        (keeps_call hafter _).bind fun _ => (keeps_check _ _).bind fun _ =>
          (keeps_setAllocations _).bind fun _ => Keeps.pure _

theorem keeps_releaseHandles (handles : List Handle) :
    Keeps (fun w => I w.driver) (releaseHandles cuda handles) := by
  induction handles with
  | nil => exact Keeps.pure _
  | cons handle rest ih => exact (keeps_call hafter _).bind fun _ => ih

theorem keeps_freeVmmKvCache (tensor : Tensor) :
    Keeps (fun w => I w.driver) (freeVmmKvCache cuda tensor) := by
  refine Keeps.get.bind fun w => ?_
  cases getVmmAllocation w tensor with
  | none => exact Keeps.pure _
  | some alloc =>
    exact (keeps_setAllocations _).bind fun _ => (keeps_call hafter _).bind fun _ =>
      (keeps_releaseHandles hafter _).bind fun _ => (keeps_call hafter _).bind fun _ =>
        Keeps.pure _

/-- What each driver call keeps, each operation keeps. -/
theorem keeps_exec (op : AllocatorOp) : Keeps (fun w => I w.driver) (op.exec cuda) := by
  cases op with
  | allocateVmmKvCache sizeBytes device =>
    exact (keeps_allocateVmmKvCache hafter _ _).bind fun _ => Keeps.pure _
  | createPhysicalHandle sizeBytes deviceId =>
    refine Keeps.bind ?_ fun _ => Keeps.pure _
    have hcall := fun c (_ : ∀ va value size, c ≠ .cudaMemset va value size) =>
      keeps_call hafter c
    refine (keeps_ensureDriverContext hcall _).bind fun _ => ?_
    refine (keeps_cuMemCreate hcall _ _).bind ?_
    rintro ⟨result, handle⟩
    exact (keeps_check _ _).bind fun _ => Keeps.pure _
  | remapBlock tensor blockId handle =>
    exact (keeps_remapBlock hafter _ _ _).bind fun _ => Keeps.pure _
  | releasePhysicalHandle handle =>
    exact ((keeps_call hafter _).bind fun _ => keeps_check _ _).bind fun _ => Keeps.pure _
  | freeVmmKvCache tensor =>
    exact (keeps_freeVmmKvCache hafter _).bind fun _ => Keeps.pure _

theorem driver_runAllocator {memory : Handle → Nat → UInt8} (hinit : I (.init memory))
    (ops : List AllocatorOp) : I (runAllocator cuda memory ops).driver :=
  runAllocator_induction (I := fun w => I w.driver) hinit
    (fun _ op h => (keeps_exec hafter op).finalState h) ops

end Keeps

/-- No handle is alive twice. -/
theorem live_nodup_after (hlawful : cuda.Lawful) (s : DriverState) (c : DriverCall)
    (h : s.live.Nodup) : (cuda.after s c).live.Nodup := by
  by_cases hresult : cuda.result s c = 0
  · rw [Cuda.after_of_result hresult]
    cases c with
    | cuMemCreate size device => exact List.nodup_cons.mpr ⟨hlawful.create_fresh s, h⟩
    | cuMemRelease handle => exact h.erase handle
    | _ => exact h
  · rw [Cuda.after_of_failure hresult]
    exact h

theorem live_nodup_runAllocator (hlawful : cuda.Lawful) (memory : Handle → Nat → UInt8)
    (ops : List AllocatorOp) : (runAllocator cuda memory ops).driver.live.Nodup :=
  driver_runAllocator (live_nodup_after hlawful) List.nodup_nil ops

/-! ## 2. The calls of a free -/

/-- What the driver refuses: unmapping a range that is not wholly mapped, and taking
    back a range of which something is mapped. -/
structure Cuda.Strict (cuda : Cuda) : Prop where
  unmap_whole : ∀ s va size a, inRange va size a = true → ¬ s.mappedAt a →
    cuda.result s (.cuMemUnmap va size) ≠ 0
  free_unmapped : ∀ s va size a, inRange va size a = true → s.mappedAt a →
    cuda.result s (.cuMemAddressFree va size) ≠ 0

/-- The driver after these releases, whatever their results. -/
def Cuda.afterReleases (cuda : Cuda) (s : DriverState) (handles : List Handle) : DriverState :=
  handles.foldl (fun s handle => cuda.after s (.cuMemRelease handle)) s

theorem releaseHandles_run (handles : List Handle) (w : AllocatorState) :
    releaseHandles cuda handles w =
      .ok ⟨⟩ { w with driver := cuda.afterReleases w.driver handles } := by
  induction handles generalizing w with
  | nil => rfl
  | cons handle rest ih => exact ih { w with driver := cuda.after w.driver (.cuMemRelease handle) }

theorem freeVmmKvCache_run {tensor : Tensor} {alloc : VMMAllocation}
    (hget : getVmmAllocation w tensor = some alloc) :
    freeVmmKvCache cuda tensor w = .ok ⟨⟩
      { driver := cuda.after (cuda.afterReleases
          (cuda.after w.driver (.cuMemUnmap alloc.vaPtr alloc.totalBytes)) alloc.handles)
          (.cuMemAddressFree alloc.vaPtr alloc.totalBytes)
        allocations := w.allocations.erase tensor.dataPtr } := by
  unfold freeVmmKvCache
  rw [run_get_bind, hget]
  exact run_bind_ok (releaseHandles_run alloc.handles _) _

theorem SameButReleases.trans {s s' s'' : DriverState} (h : SameButReleases s s')
    (h' : SameButReleases s' s'') : SameButReleases s s'' := by
  unfold SameButReleases at h h' ⊢
  rw [← h', ← h]

theorem sameButReleases_after (cuda : Cuda) (s : DriverState) (handle : Handle) :
    SameButReleases s (cuda.after s (.cuMemRelease handle)) ∧
      ∀ other ∈ (cuda.after s (.cuMemRelease handle)).live, other ∈ s.live := by
  by_cases h : cuda.result s (.cuMemRelease handle) = 0
  · rw [Cuda.after_of_result h]
    exact ⟨rfl, fun other hother => List.mem_of_mem_erase hother⟩
  · rw [Cuda.after_of_failure h]
    exact ⟨rfl, fun _ hother => hother⟩

theorem sameButReleases_afterReleases (cuda : Cuda) (s : DriverState) (handles : List Handle) :
    SameButReleases s (cuda.afterReleases s handles) ∧
      ∀ other ∈ (cuda.afterReleases s handles).live, other ∈ s.live := by
  induction handles generalizing s with
  | nil => exact ⟨rfl, fun _ hother => hother⟩
  | cons handle rest ih =>
    obtain ⟨hsame, hlive⟩ := sameButReleases_after cuda s handle
    obtain ⟨hsame', hlive'⟩ := ih (cuda.after s (.cuMemRelease handle))
    exact ⟨hsame.trans hsame', fun other hother => hlive other (hlive' other hother)⟩

/-- Among these releases, from `s` on, one of `handle` succeeds. -/
def Cuda.Releases (cuda : Cuda) (s : DriverState) (handles : List Handle) (handle : Handle) :
    Prop :=
  ∃ before after, handles = before ++ handle :: after ∧
    cuda.result (cuda.afterReleases s before) (.cuMemRelease handle) = 0

/-- A handle is gone exactly if one of its releases succeeded. -/
theorem not_live_iff_releases (hlawful : cuda.Lawful) {handle : Handle} (handles : List Handle) :
    ∀ s : DriverState, s.live.Nodup → handle ∈ s.live →
      (handle ∉ (cuda.afterReleases s handles).live ↔ cuda.Releases s handles handle) := by
  induction handles with
  | nil =>
    intro s _ hlive
    refine iff_of_false (fun hgone => hgone hlive) ?_
    rintro ⟨before, after, hsplit, _⟩
    exact absurd hsplit.symm (List.append_ne_nil_of_right_ne_nil _ (List.cons_ne_nil _ _))
  | cons first rest ih =>
    intro s hnodup hlive
    by_cases hfirst : first = handle ∧ cuda.result s (.cuMemRelease handle) = 0
    · obtain ⟨rfl, hresult⟩ := hfirst
      refine iff_of_true (fun hgone => ?_) ⟨[], rest, rfl, hresult⟩
      have hnow : first ∈ (cuda.after s (.cuMemRelease first)).live :=
        (sameButReleases_afterReleases cuda _ rest).2 first hgone
      rw [Cuda.after_of_result hresult] at hnow
      exact (hnodup.mem_erase_iff.mp hnow).1 rfl
    · have hstays : handle ∈ (cuda.after s (.cuMemRelease first)).live := by
        by_cases hresult : cuda.result s (.cuMemRelease first) = 0
        · rw [Cuda.after_of_result hresult]
          refine hnodup.mem_erase_iff.mpr ⟨?_, hlive⟩
          rintro rfl
          exact hfirst ⟨rfl, hresult⟩
        · rw [Cuda.after_of_failure hresult]
          exact hlive
      refine (ih _ (live_nodup_after hlawful s _ hnodup) hstays).trans ?_
      constructor
      · rintro ⟨before, after, rfl, hresult⟩
        exact ⟨first :: before, after, rfl, hresult⟩
      · rintro ⟨before, after, hsplit, hresult⟩
        cases before with
        | nil =>
          obtain ⟨rfl, rfl⟩ := List.cons.inj hsplit
          exact absurd ⟨rfl, hresult⟩ hfirst
        | cons other before =>
          obtain ⟨rfl, rfl⟩ := List.cons.inj hsplit
          exact ⟨before, after, rfl, hresult⟩

/-! ## 3. When nothing is lost -/

/-- The handles that are installed in an allocation: listed, or mapped in its range. -/
def Installed (s : DriverState) (alloc : VMMAllocation) (handle : Handle) : Prop :=
  handle ∈ alloc.handles ∨ ∃ p page a, s.pages.get? p = some page ∧ page.handle = handle ∧
    inRange p page.size a = true ∧ inRange alloc.vaPtr alloc.totalBytes a = true

/-- The range is unmapped and given back, and no installed handle is alive. -/
structure NothingLost (s s' : DriverState) (alloc : VMMAllocation) : Prop where
  unmapped : ∀ a, inRange alloc.vaPtr alloc.totalBytes a = true → ¬ s'.mappedAt a
  unreserved : (alloc.vaPtr, alloc.totalBytes) ∉ s'.reserved
  released : ∀ handle, Installed s alloc handle → handle ∉ s'.live

/-- A free that returns has lost nothing or kept the entry; one that raises has kept
    the entry. -/
def FreeKeepsTrack (cuda : Cuda) (tensor : Tensor) (alloc : VMMAllocation) (w : AllocatorState) :
    Prop :=
  wp (freeVmmKvCache cuda tensor)
    (fun _ w' => NothingLost w.driver w'.driver alloc ∨ getVmmAllocation w' tensor = some alloc)
    (fun _ w' => getVmmAllocation w' tensor = some alloc) w

/-- The driver goes along with the calls of a free that have something to do. -/
structure FreeAccepted (cuda : Cuda) (s : DriverState) (alloc : VMMAllocation) : Prop where
  /-- All of the range is mapped and can be unmapped, or nothing of it is mapped. -/
  unmaps : (∀ a, inRange alloc.vaPtr alloc.totalBytes a = true → s.mappedAt a) ∧
      cuda.result s (.cuMemUnmap alloc.vaPtr alloc.totalBytes) = 0 ∨
    ∀ a, inRange alloc.vaPtr alloc.totalBytes a = true → ¬ s.mappedAt a
  releases : ∀ handle, Installed s alloc handle → handle ∈ s.live →
    cuda.Releases (cuda.after s (.cuMemUnmap alloc.vaPtr alloc.totalBytes)) alloc.handles handle
  returns : cuda.result (cuda.afterReleases
      (cuda.after s (.cuMemUnmap alloc.vaPtr alloc.totalBytes)) alloc.handles)
    (.cuMemAddressFree alloc.vaPtr alloc.totalBytes) = 0

theorem mappedAt_of_pages {s s' : DriverState} (h : s'.pages = s.pages) (a : Nat) :
    s'.mappedAt a ↔ s.mappedAt a := by
  unfold DriverState.mappedAt
  rw [h]

section Free

variable {alloc : VMMAllocation} {s : DriverState}

/-- Unmapping changes neither the reservations nor the handles. -/
theorem after_cuMemUnmap (cuda : Cuda) (s : DriverState) (va size : Nat) :
    (cuda.after s (.cuMemUnmap va size)).reserved = s.reserved ∧
      (cuda.after s (.cuMemUnmap va size)).live = s.live := by
  by_cases h : cuda.result s (.cuMemUnmap va size) = 0
  · rw [Cuda.after_of_result h]
    exact ⟨rfl, rfl⟩
  · rw [Cuda.after_of_failure h]
    exact ⟨rfl, rfl⟩

/-- Returning a range changes neither the pages nor the handles. -/
theorem after_cuMemAddressFree (cuda : Cuda) (s : DriverState) (va size : Nat) :
    (cuda.after s (.cuMemAddressFree va size)).pages = s.pages ∧
      (cuda.after s (.cuMemAddressFree va size)).live = s.live := by
  by_cases h : cuda.result s (.cuMemAddressFree va size) = 0
  · rw [Cuda.after_of_result h]
    exact ⟨rfl, rfl⟩
  · rw [Cuda.after_of_failure h]
    exact ⟨rfl, rfl⟩

/-- After the calls of a free: nothing is lost exactly if the driver accepted them. -/
theorem nothingLost_iff_accepted (hlawful : cuda.Lawful) (hstrict : cuda.Strict)
    (hnodup : s.live.Nodup) (hdisjoint : s.reserved.Pairwise RangesDisjoint)
    (hreserved : (alloc.vaPtr, alloc.totalBytes) ∈ s.reserved) (hnonempty : 0 < alloc.totalBytes) :
    NothingLost s (cuda.after (cuda.afterReleases
        (cuda.after s (.cuMemUnmap alloc.vaPtr alloc.totalBytes)) alloc.handles)
        (.cuMemAddressFree alloc.vaPtr alloc.totalBytes)) alloc ↔
      FreeAccepted cuda s alloc := by
  obtain ⟨hreserved₁, hlive₁⟩ := after_cuMemUnmap cuda s alloc.vaPtr alloc.totalBytes
  obtain ⟨hsame, hlive₂⟩ := sameButReleases_afterReleases cuda
    (cuda.after s (.cuMemUnmap alloc.vaPtr alloc.totalBytes)) alloc.handles
  obtain ⟨hpages₃, hlive₃⟩ := after_cuMemAddressFree cuda
    (cuda.afterReleases (cuda.after s (.cuMemUnmap alloc.vaPtr alloc.totalBytes)) alloc.handles)
    alloc.vaPtr alloc.totalBytes
  have hgone : ∀ handle, handle ∈ s.live → (handle ∉ (cuda.afterReleases
      (cuda.after s (.cuMemUnmap alloc.vaPtr alloc.totalBytes)) alloc.handles).live ↔
        cuda.Releases (cuda.after s (.cuMemUnmap alloc.vaPtr alloc.totalBytes)) alloc.handles
          handle) := by
    intro handle hhandle
    rw [← hlive₁] at hnodup hhandle
    exact not_live_iff_releases hlawful alloc.handles _ hnodup hhandle
  -- the pages that the address range is returned with are those after the unmapping
  have hpages₂ : (cuda.afterReleases (cuda.after s (.cuMemUnmap alloc.vaPtr alloc.totalBytes))
      alloc.handles).pages = (cuda.after s (.cuMemUnmap alloc.vaPtr alloc.totalBytes)).pages := by
    rw [← hsame]
  have hreserved₂ : (cuda.afterReleases
      (cuda.after s (.cuMemUnmap alloc.vaPtr alloc.totalBytes)) alloc.handles).reserved =
        s.reserved := by
    rw [← hsame, ← hreserved₁]
  generalize hs₂ : cuda.afterReleases
    (cuda.after s (.cuMemUnmap alloc.vaPtr alloc.totalBytes)) alloc.handles = s₂ at *
  constructor
  · intro hnothing
    have hreturns : cuda.result s₂ (.cuMemAddressFree alloc.vaPtr alloc.totalBytes) = 0 := by
      by_contra hresult
      have hkept := hnothing.unreserved
      rw [Cuda.after_of_failure hresult] at hkept
      exact hkept (by rw [hreserved₂]; exact hreserved)
    refine ⟨?_, ?_, by rw [hs₂]; exact hreturns⟩
    · by_cases hunmap : cuda.result s (.cuMemUnmap alloc.vaPtr alloc.totalBytes) = 0
      · left
        refine ⟨fun a ha => ?_, hunmap⟩
        by_contra hhole
        exact hstrict.unmap_whole s _ _ a ha hhole hunmap
      · right
        intro a ha hmapped
        rw [Cuda.after_of_failure hunmap] at hpages₂
        refine hnothing.unmapped a ha ?_
        rwa [mappedAt_of_pages (hpages₃.trans hpages₂)]
    · intro handle hinstalled hlive
      have hdead := hnothing.released handle hinstalled
      rw [hlive₃] at hdead
      exact (hgone handle hlive).mp hdead
  · intro haccepted
    have hreturns := haccepted.returns
    rw [hs₂] at hreturns
    refine ⟨?_, ?_, ?_⟩
    · intro a ha hmapped
      rw [mappedAt_of_pages hpages₃] at hmapped
      exact hstrict.free_unmapped s₂ _ _ a ha hmapped hreturns
    · rw [Cuda.after_of_result hreturns]
      change _ ∉ s₂.reserved.erase _
      rw [hreserved₂]
      exact not_mem_erase_of_disjoint hdisjoint hreserved hnonempty
    · intro handle hinstalled hlive
      rw [hlive₃] at hlive
      have hbefore : handle ∈ s.live := by
        rw [← hlive₁]
        exact hlive₂ handle hlive
      exact (hgone handle hbefore).mpr (haccepted.releases handle hinstalled hbefore) hlive

end Free

/-- What the state before must be like. -/
theorem freeKeepsTrack_iff_accepted (hlawful : cuda.Lawful) (hstrict : cuda.Strict)
    {w : AllocatorState} (hreg : RegistryInv w) (hnodup : w.driver.live.Nodup) {tensor : Tensor}
    {alloc : VMMAllocation} (hget : getVmmAllocation w tensor = some alloc) :
    FreeKeepsTrack cuda tensor alloc w ↔ FreeAccepted cuda w.driver alloc := by
  have hentry := hreg.entries _ alloc hget
  rw [← nothingLost_iff_accepted hlawful hstrict hnodup hreg.disjoint hentry.reserved
    hentry.nonempty]
  unfold FreeKeepsTrack wp
  rw [freeVmmKvCache_run hget]
  refine or_iff_left ?_
  unfold getVmmAllocation
  rw [Dict.get?_erase, if_pos rfl]
  exact fun hnone => by cases hnone

/-- **When a free loses nothing.**  In every state that a run of the allocator reaches,
    with any driver calls failing before and in the free: exactly if the driver goes
    along with the calls of the free that have something to do. -/
theorem freeKeepsTrack_iff (hlawful : cuda.Lawful) (hstrict : cuda.Strict)
    (memory : Handle → Nat → UInt8) (ops : List AllocatorOp) {tensor : Tensor}
    {alloc : VMMAllocation}
    (hget : getVmmAllocation (runAllocator cuda memory ops) tensor = some alloc) :
    FreeKeepsTrack cuda tensor alloc (runAllocator cuda memory ops) ↔
      FreeAccepted cuda (runAllocator cuda memory ops).driver alloc :=
  freeKeepsTrack_iff_accepted hlawful hstrict (registryInv_runAllocator hlawful memory ops)
    (live_nodup_runAllocator hlawful memory ops) hget

/-- **A hole loses the rest.**  If some of a range is mapped and some is not, no outcome
    of the driver calls saves the free. -/
theorem not_freeKeepsTrack_of_hole (hlawful : cuda.Lawful) (hstrict : cuda.Strict)
    (memory : Handle → Nat → UInt8) (ops : List AllocatorOp) {tensor : Tensor}
    {alloc : VMMAllocation}
    (hget : getVmmAllocation (runAllocator cuda memory ops) tensor = some alloc) {a a' : Nat}
    (ha : inRange alloc.vaPtr alloc.totalBytes a = true)
    (hmapped : (runAllocator cuda memory ops).driver.mappedAt a)
    (ha' : inRange alloc.vaPtr alloc.totalBytes a' = true)
    (hhole : ¬ (runAllocator cuda memory ops).driver.mappedAt a') :
    ¬ FreeKeepsTrack cuda tensor alloc (runAllocator cuda memory ops) := by
  rw [freeKeepsTrack_iff_accepted hlawful hstrict (registryInv_runAllocator hlawful memory ops)
    (live_nodup_runAllocator hlawful memory ops) hget]
  intro haccepted
  rcases haccepted.unmaps with ⟨hwhole, _⟩ | hnone
  · exact hhole (hwhole a' ha')
  · exact hnone a ha hmapped

/-! ## 4. A driver that checks -/

/-- Pages one behind the other cover the addresses from `a` up to `stop`. -/
def DriverState.coversFrom (s : DriverState) (stop : Nat) : Nat → Nat → Bool
  | 0, a => stop ≤ a
  | fuel + 1, a =>
      stop ≤ a || match s.pageAt a with
        | none => false
        | some (start, page) => s.coversFrom stop fuel (start + page.size)

theorem DriverState.mappedAt_of_pageAt {s : DriverState} {a b : Nat} {item : Nat × PageMapping}
    (h : s.pageAt a = some item) (hab : a ≤ b) (hb : b < item.1 + item.2.size) : s.mappedAt b := by
  have hmem := List.mem_of_find?_eq_some h
  have ha := List.find?_some h
  rw [inRange_iff] at ha
  refine ⟨item.1, item.2, Dict.mem_items_iff.mp hmem, ?_⟩
  rw [inRange_iff]
  omega

theorem DriverState.mappedAt_of_coversFrom {s : DriverState} {stop : Nat} (fuel : Nat) :
    ∀ a, s.coversFrom stop fuel a = true → ∀ b, a ≤ b → b < stop → s.mappedAt b := by
  induction fuel with
  | zero =>
    intro a hcovers b hab hb
    have hstop : stop ≤ a := of_decide_eq_true hcovers
    omega
  | succ fuel ih =>
    intro a hcovers b hab hb
    unfold coversFrom at hcovers
    rcases (Bool.or_eq_true _ _).mp hcovers with hstop | hnext
    · have hstop := of_decide_eq_true hstop
      omega
    · split at hnext
      · cases hnext
      · rename_i start page hpage
        by_cases hin : b < start + page.size
        · exact mappedAt_of_pageAt hpage hab hin
        · exact ih _ hnext b (by omega) hb

/-- Some page reaches into the range. -/
def DriverState.touches (s : DriverState) (va size : Nat) : Bool :=
  s.pages.items.any fun item => item.1 < va + size && va < item.1 + item.2.size

/-- A driver that refuses what `Strict` says and the calls with these numbers. -/
def Cuda.checking (failing : List Nat) : Cuda :=
  { Cuda.bump with
    result := fun s c =>
      if s.calls ∈ failing then 1
      else match c with
        | .cuMemUnmap va size => if s.coversFrom (va + size) s.pages.items.length va then 0 else 1
        | .cuMemAddressFree va size => if s.touches va size then 1 else 0
        | _ => 0 }

theorem Cuda.checking_lawful (failing : List Nat) : (Cuda.checking failing).Lawful where
  reserve_disjoint := Cuda.bump_lawful.reserve_disjoint
  create_fresh := Cuda.bump_lawful.create_fresh

theorem Cuda.checking_strict (failing : List Nat) : (Cuda.checking failing).Strict where
  unmap_whole := by
    intro s va size a ha hhole
    have hcovers : s.coversFrom (va + size) s.pages.items.length va ≠ true := by
      intro hcovers
      rw [inRange_iff] at ha
      exact hhole (DriverState.mappedAt_of_coversFrom _ va hcovers a ha.1 ha.2)
    change (if s.calls ∈ failing then 1 else if _ then 0 else 1) ≠ 0
    rw [if_neg hcovers]
    split <;> decide
  free_unmapped := by
    rintro s va size a ha ⟨p, page, hpage, hin⟩
    have htouches : s.touches va size = true := by
      refine List.any_eq_true.mpr ⟨(p, page), Dict.mem_items_iff.mpr hpage, ?_⟩
      rw [inRange_iff] at ha hin
      simp only [Bool.and_eq_true, decide_eq_true_eq]
      omega
    change (if s.calls ∈ failing then 1 else if _ then 1 else 0) ≠ 0
    rw [if_pos htouches]
    split <;> decide

/-- Two pages, allocated and freed. -/
theorem freeKeepsTrack_iff_two_pages :
    FreeKeepsTrack (.checking []) ⟨0, 4000000, 0⟩
      ⟨0, 4194304, 2097152, [1, 2], some ⟨0, 4000000, 0⟩⟩
      (runAllocator (.checking []) (fun _ _ => 0)
        [.allocateVmmKvCache ⟨4000000, by decide⟩ ⟨none⟩]) := by
  have hstrict := Cuda.checking_strict []
  refine (freeKeepsTrack_iff (Cuda.checking_lawful []) hstrict (fun _ _ => 0)
    [.allocateVmmKvCache ⟨4000000, by decide⟩ ⟨none⟩] (by decide +kernel)).mpr ?_
  have hunmaps : (Cuda.checking []).result (runAllocator (.checking []) (fun _ _ => 0)
      [.allocateVmmKvCache ⟨4000000, by decide⟩ ⟨none⟩]).driver (.cuMemUnmap 0 4194304) = 0 := by
    decide +kernel
  refine ⟨Or.inl ⟨fun a ha => ?_, hunmaps⟩, fun handle _ hlive => ?_, by decide +kernel⟩
  · by_contra hhole
    exact hstrict.unmap_whole _ _ _ a ha hhole hunmaps
  · have hhandles : (runAllocator (.checking []) (fun _ _ => 0)
        [.allocateVmmKvCache ⟨4000000, by decide⟩ ⟨none⟩]).driver.live = [2, 1] := by
      decide +kernel
    rw [hhandles] at hlive
    rcases List.mem_cons.mp hlive with rfl | hone
    · exact ⟨[1], [], rfl, by decide +kernel⟩
    · obtain rfl := List.mem_singleton.mp hone
      exact ⟨[], [2], rfl, by decide +kernel⟩

/-- **A remap that failed loses the whole allocation.**  Of two pages one is remapped;
    its `cuMemMap` is driver call number 16.  The free that follows returns with the
    second page mapped, the range reserved and no entry left. -/
theorem free_loses_range :
    ¬ ∀ (cuda : Cuda), cuda.Lawful → cuda.Strict → ∀ (memory : Handle → Nat → UInt8)
      (ops : List AllocatorOp) (tensor : Tensor) (alloc : VMMAllocation),
      getVmmAllocation (runAllocator cuda memory ops) tensor = some alloc →
      FreeKeepsTrack cuda tensor alloc (runAllocator cuda memory ops) := by
  intro hclaim
  let ops : List AllocatorOp := [.allocateVmmKvCache ⟨4000000, by decide⟩ ⟨none⟩,
    .createPhysicalHandle 2097152 0, .remapBlock ⟨0, 4000000, 0⟩ 0 3]
  have hget : getVmmAllocation (runAllocator (.checking [16]) (fun _ _ => 0) ops) ⟨0, 4000000, 0⟩ =
      some ⟨0, 4194304, 2097152, [1, 2], some ⟨0, 4000000, 0⟩⟩ := by
    decide +kernel
  have hitems : (runAllocator (.checking [16]) (fun _ _ => 0) ops).driver.pages.items =
      [(2097152, ⟨2097152, 2, [0]⟩)] := by
    decide +kernel
  refine not_freeKeepsTrack_of_hole (Cuda.checking_lawful [16]) (Cuda.checking_strict [16])
    (fun _ _ => 0) ops hget (show inRange 0 4194304 2097152 = true by decide) ?_
    (show inRange 0 4194304 0 = true by decide) ?_
    (hclaim _ (Cuda.checking_lawful [16]) (Cuda.checking_strict [16]) _ ops _ _ hget)
  · exact ⟨2097152, ⟨2097152, 2, [0]⟩, Dict.mem_items_iff.mp (by rw [hitems]; decide), by decide⟩
  · rintro ⟨p, page, hpage, hin⟩
    have hmem := Dict.mem_items_iff.mpr hpage
    rw [hitems] at hmem
    obtain ⟨rfl, rfl⟩ := Prod.mk.inj (List.mem_singleton.mp hmem)
    cases hin

end Edmm
