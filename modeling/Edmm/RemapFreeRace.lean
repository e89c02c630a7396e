/-
  Edmm/RemapFreeRace.lean
  =======================
  **When a remap is safe from the free of its tensor.**

  The invariants of the shared state and of the threads hold along every run in
  order, so no remap acts on a range that was given up, a remap that comes too late
  raises, and the free leaves nothing behind (`remapFreeRace_safe`).  Out of order
  none of this holds: a remap that passed its checks before the free maps its page
  into a range that is reserved for nobody (`remap_outlives_free`).
-/
import Edmm.RaceThreads
import Edmm.RemapBytes

namespace Edmm

open Program Threads

variable {cuda : Cuda} {R : RaceSetting} {pc pc' : FreePc} {s s' : SharedAllocator}
  {σ σ' : Threads SharedAllocator RaceThread}

/-! ## 1. The invariant of a race -/

/-- A thread keeps its call. -/
def RaceThread.SameCall : RaceThread → RaceThread → Prop
  | .free _, .free _ => True
  | .remap q, .remap q' => q'.call = q.call
  | .allocate _, .allocate _ => True
  | _, _ => False

structure RaceInv (R : RaceSetting) (pc : FreePc) (σ : Threads SharedAllocator RaceThread) :
    Prop where
  head : ∃ f, σ.locals[0]? = some (.free f)
  onlyFree : ∀ k f, σ.locals[k]? = some (.free f) → k = 0
  shared : R.SharedOk pc σ.shared
  reserved : σ.shared.driver.reserved.Perm
    (R.base pc ++ σ.locals.filterMap RaceThread.reservation)
  threads : ∀ (k : Nat) (p : RaceThread), σ.locals[k]? = some p → p.Ok R pc σ.shared
  distinct : ∀ (k k' : Nat) (q q' : RemapThread), k ≠ k' → σ.locals[k]? = some (.remap q) →
    σ.locals[k']? = some (.remap q') → q.call.newPhysicalHandle ≠ q'.call.newPhysicalHandle

/-- The free thread is where the invariant says. -/
theorem RaceInv.free (h : RaceInv R pc σ) :
    ∃ f, σ.locals[0]? = some (.free f) ∧ f.pc = pc := by
  obtain ⟨f, hf⟩ := h.head
  exact ⟨f, hf, (h.threads 0 _ hf).1⟩

theorem RaceInv.popped_iff (h : RaceInv R pc σ) : Popped σ ↔ pc ≠ .pop := by
  obtain ⟨f, hf, hpc⟩ := h.free
  constructor
  · rintro ⟨f', hf', hne⟩
    rw [hf, Option.some.injEq, RaceThread.free.injEq] at hf'
    rw [← hpc, hf']
    exact hne
  · intro hne
    exact ⟨f, hf, by rw [hpc]; exact hne⟩

/-- The step of a thread is carried over to the others. -/
theorem RaceInv.set (h : RaceInv R pc σ) {k : Nat} {p p' : RaceThread} {touched : Handle → Prop}
    (hlocal : σ.locals[k]? = some p) (hcall : p.SameCall p') (hshared : R.SharedOk pc' s')
    (hok : p'.Ok R pc' s') (hframe : Frame R pc σ.shared pc' s' touched)
    (htouched : ∀ x, touched x → R.Tracked pc σ.shared x →
      ∃ q, p = .remap q ∧ x = q.call.newPhysicalHandle)
    (hpc : pc' = pc ∨ k = 0)
    (hpop : (pc = .pop → pc' = .pop) ∨ ∀ q, .remap q ∈ σ.locals → q.Unchecked ∨ q.Swapped)
    (hreserved : s'.driver.reserved.Perm
      (R.base pc' ++ (σ.locals.set k p').filterMap RaceThread.reservation)) :
    RaceInv R pc' ⟨s', σ.locals.set k p'⟩ := by
  have hmoved : ∀ {k' q}, (σ.locals.set k p')[k']? = some q →
      (k' = k ∧ q = p') ∨ (k' ≠ k ∧ σ.locals[k']? = some q) := by
    intro k' q hq
    by_cases hk : k' = k
    · subst hk
      rw [getElem?_set_of_local hlocal] at hq
      exact Or.inl ⟨rfl, (Option.some.inj hq).symm⟩
    · rw [getElem?_set_of_ne hk] at hq
      exact Or.inr ⟨hk, hq⟩
  -- a remap after the step stood in the same place with the same call before it
  have hremap : ∀ {k' : Nat} {q' : RemapThread},
      (σ.locals.set k p')[k']? = some (.remap q') →
        ∃ q : RemapThread, σ.locals[k']? = some (.remap q) ∧ q'.call = q.call := by
    intro k' q' hq'
    rcases hmoved hq' with ⟨rfl, rfl⟩ | ⟨_, hold⟩
    · cases p with
      | remap q => exact ⟨q, hlocal, hcall⟩
      | free f => exact hcall.elim
      | allocate a => exact hcall.elim
    · exact ⟨q', hold, rfl⟩
  exact
    { head := by
        obtain ⟨f, hf⟩ := h.head
        by_cases hk : k = 0
        · subst hk
          rw [hf, Option.some.injEq] at hlocal
          subst hlocal
          cases p' with
          | free f' => exact ⟨f', getElem?_set_of_local hf _⟩
          | remap q => exact hcall.elim
          | allocate a => exact hcall.elim
        · exact ⟨f, by rw [← hf]; exact getElem?_set_of_ne (Ne.symm hk) _⟩
      onlyFree := by
        intro k' f hf
        rcases hmoved hf with ⟨rfl, rfl⟩ | ⟨_, hold⟩
        · cases p with
          | free f' => exact h.onlyFree _ f' hlocal
          | remap q => exact hcall.elim
          | allocate a => exact hcall.elim
        · exact h.onlyFree k' f hold
      shared := hshared
      reserved := hreserved
      threads := by
        intro k' q hq
        rcases hmoved hq with ⟨rfl, rfl⟩ | ⟨hk, hold⟩
        · exact hok
        · have hbefore := h.threads k' q hold
          cases q with
          | free f =>
            have hk' := h.onlyFree k' f hold
            rcases hpc with rfl | rfl
            · obtain ⟨rfl, htensor, hknows⟩ := hbefore
              exact ⟨rfl, htensor, hknows.frame hframe⟩
            · exact absurd hk' hk
          | remap q =>
            have hbefore : q.Ok R pc σ.shared := hbefore
            apply hbefore.frame hframe
            · rcases hpop with hpop | hpop
              · exact Or.inl hpop
              · exact Or.inr (hpop q (List.mem_of_getElem? hold))
            · intro hpending hnow
              obtain ⟨q₀, rfl, hsame⟩ := htouched _ hnow (hbefore.tracked hpending)
              exact h.distinct k' k q q₀ hk hold hlocal hsame
          | allocate a =>
            have hbefore : a.Ok R pc σ.shared := hbefore
            exact hbefore.frame hframe
      distinct := by
        intro k₁ k₂ q₁ q₂ hne h₁ h₂
        obtain ⟨q₁', h₁', hcall₁⟩ := hremap h₁
        obtain ⟨q₂', h₂', hcall₂⟩ := hremap h₂
        rw [hcall₁, hcall₂]
        exact h.distinct k₁ k₂ q₁' q₂' hne h₁' h₂' }

/-- The tensor's range is reserved until the free gives it back. -/
theorem RaceInv.region_reserved (h : RaceInv R pc σ) :
    R.region ∈ σ.shared.driver.reserved ∨ pc = .done := by
  by_cases hpc : pc = .done
  · exact Or.inr hpc
  · refine Or.inl (h.reserved.mem_iff.mpr (List.mem_append_left _ ?_))
    have hbase : R.base pc = R.reserved := by
      cases pc with
      | done => exact absurd rfl hpc
      | _ => rfl
    rw [hbase]
    exact R.mem_reserved

/-- An allocation's range is reserved, apart from the tensor's. -/
theorem RaceInv.apart (h : RaceInv R pc σ) {k : Nat} {p : AllocateThread}
    (hlocal : σ.locals[k]? = some (.allocate p)) : p.Apart R pc σ.shared := by
  intro va hva
  have hmem : (va, p.alignedSize) ∈ σ.locals.filterMap RaceThread.reservation := by
    refine List.mem_filterMap.mpr ⟨.allocate p, List.mem_of_getElem? hlocal, ?_⟩
    simp [RaceThread.reservation, hva]
  refine ⟨h.reserved.mem_iff.mpr (List.mem_append_right _ hmem), fun hreserving => ?_⟩
  have hbase : R.region ∈ R.base pc := by
    cases pc with
    | done => exact hreserving.elim
    | _ => exact R.mem_reserved
  have hdisjoint := h.reserved.pairwise_iff RangesDisjoint.symm |>.mp h.shared.ranges.disjoint
  exact (List.pairwise_append.mp hdisjoint).2.2 _ hbase _ hmem

/-- A thread that holds no reservation moves. -/
theorem RaceInv.reserved_set (h : RaceInv R pc σ) {k : Nat} {p p' : RaceThread}
    (hlocal : σ.locals[k]? = some p) (hsame : p'.reservation = p.reservation)
    (hreserved : s'.driver.reserved = σ.shared.driver.reserved) :
    s'.driver.reserved.Perm
      (R.base pc ++ (σ.locals.set k p').filterMap RaceThread.reservation) := by
  rw [hreserved, filterMap_set_of_eq hlocal hsame]
  exact h.reserved

/-- **Step lemma.** -/
theorem RaceInv.move (h : RaceInv R pc σ) (hlawful : cuda.Lawful)
    (hmove : GuardedMove (RaceThread.step cuda) (InOrder cuda) σ σ') :
    ∃ pc', RaceInv R pc' σ' ∧ (pc ≠ .pop → pc' ≠ .pop) := by
  obtain ⟨hguard, hlocal, hstep⟩ := hmove
  rename_i k p p' s'
  have hok := h.threads k p hlocal
  simp only [InOrder, hlocal] at hguard
  cases p with
  | remap q =>
    obtain ⟨⟨_, q'⟩, hstep', hmoved⟩ := Option.map_eq_some_iff.mp hstep
    cases hmoved
    have hok : q.Ok R pc σ.shared := hok
    have hkept := hok.step h.shared h.region_reserved (by
      intro obj hpc hne
      simp only [hpc] at hguard
      exact hguard (h.popped_iff.mpr hne)) hstep'
    refine ⟨pc, h.set hlocal hkept.call_eq hkept.shared hkept.ok hkept.frame ?_ (Or.inl rfl)
      (Or.inl id) (h.reserved_set hlocal rfl hkept.reserved), id⟩
    intro x hx _
    exact ⟨q, rfl, hx⟩
  | allocate a =>
    obtain ⟨⟨_, a'⟩, hstep', hmoved⟩ := Option.map_eq_some_iff.mp hstep
    cases hmoved
    have hok : a.Ok R pc σ.shared := hok
    have hkept := hok.step h.shared hlawful (h.apart hlocal) hstep'
    obtain ⟨touched, hframe, huntracked⟩ := hkept.frame
    refine ⟨pc, h.set hlocal trivial hkept.shared hkept.ok hframe ?_ (Or.inl rfl) (Or.inl id) ?_, id⟩
    · intro x hx htracked
      exact absurd htracked (huntracked x hx)
    · rcases hkept.reserved with ⟨hsame, hreservation⟩ | ⟨range, hnew, hnone, hsome⟩
      · exact h.reserved_set hlocal hreservation hsame
      · rw [hnew]
        have hset := filterMap_set_perm hlocal hnone hsome
        have hfront := h.reserved.cons range
        have hbehind := hset.symm.append_left (R.base pc)
        exact hfront.trans (List.perm_middle.symm.trans hbehind)
  | free f =>
    obtain ⟨⟨_, f'⟩, hstep', hmoved⟩ := Option.map_eq_some_iff.mp hstep
    cases hmoved
    obtain ⟨rfl, htensor, hknows⟩ := hok
    have hsucceeding : f.Succeeding cuda σ.shared := by
      unfold FreeThread.Succeeding
      cases hpc : f.pc with
      | unmap obj =>
        simp only [hpc] at hguard
        exact hguard
      | addressFree obj =>
        simp only [hpc] at hguard
        exact hguard
      | _ => trivial
    have hkept := hknows.step htensor h.shared hsucceeding hstep'
    refine ⟨f'.pc, h.set hlocal trivial hkept.shared ⟨rfl, hkept.tensor.trans htensor, hkept.knows⟩
      hkept.frame (fun x hx _ => hx.elim) (Or.inr (h.onlyFree k f hlocal)) ?_ ?_,
      fun _ => hkept.popped⟩
    · by_cases hpop : f.pc = .pop
      · simp only [hpop] at hguard
        exact Or.inr hguard
      · exact Or.inl fun hnow => absurd hnow hpop
    · have hsame : (σ.locals.set k (.free f')).filterMap RaceThread.reservation =
          σ.locals.filterMap RaceThread.reservation := filterMap_set_of_eq hlocal rfl
      rw [hsame]
      rcases hkept.reserved with ⟨hreserved, hbase⟩ | ⟨hreserved, hbefore, hafter⟩
      · rw [hreserved, hbase]
        exact h.reserved
      · have herased := h.reserved.erase R.region
        have hregion : R.region ∈ R.reserved := R.mem_reserved
        rw [hbefore, List.erase_append_left _ hregion] at herased
        rw [hreserved, hafter]
        exact herased

/-- **Run lemma.** -/
theorem RaceInv.moves (h : RaceInv R pc σ) (hlawful : cuda.Lawful)
    (hmoves : GuardedMoves (RaceThread.step cuda) (InOrder cuda) σ σ') :
    ∃ pc', RaceInv R pc' σ' ∧ (pc ≠ .pop → pc' ≠ .pop) := by
  induction hmoves with
  | refl => exact ⟨pc, h, id⟩
  | tail _ last ih =>
    obtain ⟨pc₁, h₁, hpopped₁⟩ := ih
    obtain ⟨pc₂, h₂, hpopped₂⟩ := h₁.move hlawful last
    exact ⟨pc₂, h₂, fun hne => hpopped₂ (hpopped₁ hne)⟩

/-! ## 2. What the invariant says -/

/-- A driver call of a remap acts on a page of the registered and reserved tensor. -/
theorem RaceInv.acts (h : RaceInv R pc σ) {q : RemapThread} (hmem : .remap q ∈ σ.locals)
    {obj start size : Nat} (htarget : q.target σ.shared = some (obj, start, size)) :
    obj = R.va ∧ σ.shared.allocations.get? R.va = some obj ∧
      R.region ∈ σ.shared.driver.reserved ∧ Inside R.region start size := by
  obtain ⟨k, hlocal⟩ := List.mem_iff_getElem?.mp hmem
  have hok : q.Ok R pc σ.shared := h.threads k _ hlocal
  have hchecked : q.Checked R pc obj ∧ (σ.shared.objects obj).pageVa q.block = start ∧
      (σ.shared.objects obj).pageSize = size := by
    have hknows := hok.knows
    obtain ⟨call, at_⟩ := q
    cases at_ with
    | unmap obj' =>
      cases htarget
      exact ⟨hknows, rfl, rfl⟩
    | map obj' =>
      cases htarget
      exact ⟨hknows, rfl, rfl⟩
    | setAccess obj' =>
      cases htarget
      exact ⟨hknows, rfl, rfl⟩
    | _ => cases htarget
  obtain ⟨hchecked, rfl, rfl⟩ := hchecked
  have hinside := hchecked.page_inside h.shared
  obtain ⟨rfl, rfl, _⟩ := hchecked
  refine ⟨rfl, h.shared.objects.registered rfl, ?_, hinside⟩
  rcases h.region_reserved with hreserved | hdone
  · exact hreserved
  · cases hdone

/-- When all calls have ended, nothing of the tensor is left. -/
theorem RaceInv.clean (h : RaceInv R pc σ) (hdone : ∀ p ∈ σ.locals, p.isDone = true) :
    pc = .done ∧ (∀ va, σ.shared.allocations.get? va ≠ some R.va) ∧
    σ.shared.driver.reserved.Perm
      (R.reserved.erase R.region ++ σ.locals.filterMap RaceThread.reservation) ∧
    ∀ start size handle, σ.shared.driver.Maps start size handle →
      handle ∈ σ.shared.driver.live ∧ ¬ R.Tracked pc σ.shared handle ∧
        (∃ range ∈ R.reserved.erase R.region ++ σ.locals.filterMap RaceThread.reservation,
          Inside range start size) := by
  obtain ⟨f, hf, rfl⟩ := h.free
  have hpc : f.pc = .done := by simpa [RaceThread.isDone] using hdone _ (List.mem_of_getElem? hf)
  have hreserved := h.reserved
  rw [hpc] at h hreserved ⊢
  refine ⟨rfl, ?_, hreserved, ?_⟩
  · intro va hget
    cases (h.shared.objects.onlyHere va hget).1
  · intro start size handle hmaps
    obtain ⟨range, hrange, hinside⟩ := h.shared.ranges.housed start size handle hmaps
    refine ⟨h.shared.handles.mappedLive start size handle hmaps, ?_, range,
      hreserved.mem_iff.mp hrange, hinside⟩
    intro htracked
    exact (h.shared.handles.trackedHome start size handle hmaps htracked).2 trivial

/-- Every registered handle is alive then. -/
theorem RaceInv.installed_live (h : RaceInv R pc σ) (hpc : pc ≠ .pop) :
    ∀ handle ∈ σ.shared.sequential.allocations.installed, handle ∈ σ.shared.driver.live := by
  intro handle hmem
  obtain ⟨va, alloc, i, hget, hi⟩ := mem_installed_iff.mp hmem
  rw [σ.shared.sequential_get?, Option.map_eq_some_iff] at hget
  obtain ⟨obj, hobj, rfl⟩ := hget
  have hne : obj ≠ R.va := by
    rintro rfl
    exact hpc (h.shared.objects.onlyHere va hobj).1
  exact (h.shared.handles.others va obj hobj hne handle (List.mem_of_getElem? hi)).1

/-! ## 3. Remaps that come too late -/

/-- The free moves when the entry disappears, and finds no remap in its swap. -/
theorem RaceInv.popping (h : RaceInv R .pop σ)
    (hmove : GuardedMove (RaceThread.step cuda) (InOrder cuda) σ σ') (hpopped : Popped σ') :
    (∀ q, .remap q ∈ σ.locals → q.Unchecked ∨ q.Swapped) ∧
      ∀ (k : Nat) (q : RemapThread), σ.locals[k]? = some (.remap q) →
        σ'.locals[k]? = some (.remap q) := by
  obtain ⟨hguard, hlocal, hstep⟩ := hmove
  rename_i k p p' s'
  obtain ⟨f, hf, hpc⟩ := h.free
  by_cases hk : k = 0
  · subst hk
    rw [hf, Option.some.injEq] at hlocal
    subst hlocal
    simp only [InOrder, hf, hpc] at hguard
    refine ⟨hguard, fun k q hq => ?_⟩
    have hne : k ≠ 0 := by
      rintro rfl
      rw [hf] at hq
      cases hq
    rw [← hq]
    exact getElem?_set_of_ne hne _
  · obtain ⟨f', hf', hne⟩ := hpopped
    have hhead : σ.locals[0]? = some (.free f') := by
      rw [← hf']
      exact (getElem?_set_of_ne (Ne.symm hk) _).symm
    exact absurd rfl (h.popped_iff.mp ⟨f', hhead, hne⟩)

/-- What every step of a remap keeps that the guard admits after the free took the entry
    away, holds as long as the race goes on. -/
theorem RaceInv.late {I : RemapThread → Prop}
    (hI : ∀ {s s' : SharedAllocator} {q q' : RemapThread} {me : Nat}, I q →
      (∀ obj, q.pc = .checkRange obj →
        q.call.blockId < 0 ∨ q.call.blockId ≥ (s.objects obj).numPages) →
      q.step cuda me s = some (s', q') → I q' ∧ q'.call = q.call)
    (h : RaceInv R pc σ) (hpc : pc ≠ .pop) (hlawful : cuda.Lawful)
    (hmoves : GuardedMoves (RaceThread.step cuda) (InOrder cuda) σ σ') {k : Nat}
    {q : RemapThread} (hlocal : σ.locals[k]? = some (.remap q)) (hq : I q) :
    ∃ q', σ'.locals[k]? = some (.remap q') ∧ I q' ∧ q'.call = q.call := by
  induction hmoves with
  | refl => exact ⟨q, hlocal, hq, rfl⟩
  | @tail σ₁ σ₂ hbefore hmove ih =>
    obtain ⟨q₁, hlocal₁, hq₁, hcall₁⟩ := ih
    obtain ⟨pc₁, h₁, hpopped⟩ := h.moves hlawful hbefore
    have hnow := h₁.popped_iff.mpr (hpopped hpc)
    obtain ⟨hguard, hlocal', hstep⟩ := hmove
    rename_i t p p' s'
    by_cases ht : k = t
    · subst ht
      rw [hlocal₁, Option.some.injEq] at hlocal'
      subst hlocal'
      obtain ⟨⟨_, q₂⟩, hstep', hmoved⟩ := Option.map_eq_some_iff.mp hstep
      cases hmoved
      obtain ⟨hq₂, hcall₂⟩ := hI hq₁ (by
        intro obj hat
        simp only [InOrder, hlocal₁, hat] at hguard
        exact hguard hnow) hstep'
      exact ⟨q₂, getElem?_set_of_local hlocal₁ _, hq₂, hcall₂.trans hcall₁⟩
    · exact ⟨q₁, by rw [← hlocal₁]; exact getElem?_set_of_ne ht _, hq₁, hcall₁⟩

namespace RemapThread

/-- The thread has not passed its range check, or did not pass it. -/
def Barred (p : RemapThread) : Prop :=
  match p.pc with
  | .lookup => True
  | .checkRange _ => True
  | .done (.error (.valueError _)) => True
  | _ => False

/-- The thread's swap has failed. -/
def Failed (p : RemapThread) : Prop :=
  match p.pc with
  | .release (.error _) => True
  | .done (.error _) => True
  | _ => False

theorem Barred.step {p p' : RemapThread} {me : Nat} (h : p.Barred)
    (hrange : ∀ obj, p.pc = .checkRange obj →
      p.call.blockId < 0 ∨ p.call.blockId ≥ (s.objects obj).numPages)
    (hstep : p.step cuda me s = some (s', p')) : p'.Barred ∧ p'.call = p.call := by
  obtain ⟨call, at_⟩ := p
  cases at_ with
  | lookup =>
    simp only [RemapThread.step] at hstep
    split at hstep
    · cases hstep
      exact ⟨trivial, rfl⟩
    · cases hstep
      exact ⟨trivial, rfl⟩
  | checkRange obj =>
    simp only [RemapThread.step] at hstep
    rw [if_pos (hrange obj rfl)] at hstep
    cases hstep
    exact ⟨trivial, rfl⟩
  | done result => cases hstep
  | _ => exact h.elim

theorem Failed.step {p p' : RemapThread} {me : Nat} (h : p.Failed)
    (hstep : p.step cuda me s = some (s', p')) : p'.Failed ∧ p'.call = p.call := by
  obtain ⟨call, at_⟩ := p
  cases at_ with
  | release result =>
    cases hstep
    cases result with
    | ok oldHandle => exact h.elim
    | error e => exact ⟨trivial, rfl⟩
  | done result => cases hstep
  | _ => exact h.elim

theorem Unchecked.barred {p : RemapThread} (h : p.Unchecked) : p.Barred := by
  obtain ⟨call, at_⟩ := p
  cases at_ with
  | lookup => trivial
  | checkRange obj => trivial
  | _ => exact h.elim

theorem Swapped.failed {p : RemapThread} (h : p.Swapped) (heffect : ¬ p.TookEffect) :
    p.Failed := by
  obtain ⟨call, at_⟩ := p
  cases at_ with
  | release result =>
    cases result with
    | ok oldHandle => exact absurd trivial heffect
    | error e => trivial
  | done result =>
    cases result with
    | ok oldHandle => exact absurd trivial heffect
    | error e => trivial
  | _ => exact h.elim

theorem Unchecked.not_swapped {p : RemapThread} (h : p.Unchecked) : ¬ p.Swapped := by
  obtain ⟨call, at_⟩ := p
  cases at_ with
  | lookup => exact id
  | checkRange obj => exact id
  | _ => exact h.elim

/-- Neither kind of thread returns a handle. -/
theorem Barred.raises {p : RemapThread} (h : p.Barred) {r : Except PyError Handle}
    (hr : p.result = some r) : ∃ e, r = .error e := by
  obtain ⟨call, at_⟩ := p
  cases at_ with
  | done result =>
    obtain rfl := Option.some.inj hr
    cases result with
    | ok oldHandle => exact h.elim
    | error e => exact ⟨e, rfl⟩
  | _ => cases hr

theorem Failed.raises {p : RemapThread} (h : p.Failed) {r : Except PyError Handle}
    (hr : p.result = some r) : ∃ e, r = .error e := by
  obtain ⟨call, at_⟩ := p
  cases at_ with
  | done result =>
    obtain rfl := Option.some.inj hr
    cases result with
    | ok oldHandle => exact h.elim
    | error e => exact ⟨e, rfl⟩
  | _ => cases hr

theorem Barred.beforeMap {p : RemapThread} (h : p.Barred) : p.BeforeMap := by
  obtain ⟨call, at_⟩ := p
  cases at_ with
  | lookup => trivial
  | checkRange obj => trivial
  | done result =>
    cases result with
    | ok oldHandle => exact h.elim
    | error e =>
      cases e with
      | valueError msg => trivial
      | _ => exact h.elim
  | _ => exact h.elim

theorem Failed.pending {p : RemapThread} (h : p.Failed) : ¬ p.TookEffect := by
  obtain ⟨call, at_⟩ := p
  cases at_ with
  | release result =>
    cases result with
    | ok oldHandle => exact h.elim
    | error e => exact id
  | done result =>
    cases result with
    | ok oldHandle => exact h.elim
    | error e => exact id
  | _ => exact h.elim

end RemapThread

/-- A remap that did not take effect before the free raises, and its handle is mapped
    nowhere. -/
theorem RaceInv.raises {σ₀ σ₁ : Threads SharedAllocator RaceThread} (h : RaceInv R pc σ₀)
    (hlawful : cuda.Lawful) (hmove : GuardedMove (RaceThread.step cuda) (InOrder cuda) σ₀ σ₁)
    (hbefore : ¬ Popped σ₀) (hafter : Popped σ₁)
    (hmoves : GuardedMoves (RaceThread.step cuda) (InOrder cuda) σ₁ σ) {k : Nat}
    {q q' : RemapThread} (hlocal : σ₀.locals[k]? = some (.remap q)) (heffect : ¬ q.TookEffect)
    (hlocal' : σ.locals[k]? = some (.remap q')) :
    (∀ r, q'.result = some r → ∃ e, r = .error e) ∧
      (q.Unchecked ∨ (∀ p ∈ σ.locals, p.isDone = true) →
        ∀ start size, ¬ σ.shared.driver.Maps start size q'.call.newPhysicalHandle) := by
  obtain rfl : pc = .pop := by
    by_contra hne
    exact hbefore (h.popped_iff.mpr hne)
  obtain ⟨hquiet, hkept⟩ := h.popping hmove hafter
  obtain ⟨pc₁, h₁, -⟩ := h.move hlawful hmove
  have hpc₁ := h₁.popped_iff.mp hafter
  obtain ⟨pc₂, h₂, hpopped⟩ := h₁.moves hlawful hmoves
  have hpc₂ := hpopped hpc₁
  have hnow := hkept k q hlocal
  have hok : q'.Ok R pc₂ σ.shared := h₂.threads k _ hlocal'
  -- at the end a handle that is still tracked is mapped nowhere
  have hdone : ¬ q'.TookEffect → (∀ p ∈ σ.locals, p.isDone = true) →
      ∀ start size, ¬ σ.shared.driver.Maps start size q'.call.newPhysicalHandle := by
    intro hpending hall start size hmaps
    exact ((h₂.clean hall).2.2.2 start size _ hmaps).2.1 (hok.tracked hpending)
  rcases hquiet q (List.mem_of_getElem? hlocal) with hunchecked | hswapped
  · obtain ⟨q'', hq'', hbarred, -⟩ := h₁.late
      (fun hq hrange hstep => hq.step hrange hstep) hpc₁ hlawful hmoves hnow hunchecked.barred
    rw [hlocal', Option.some.injEq, RaceThread.remap.injEq] at hq''
    subst hq''
    exact ⟨fun r hr => hbarred.raises hr, fun _ => hok.unmapped hbarred.beforeMap⟩
  · obtain ⟨q'', hq'', hfailed, -⟩ := h₁.late (fun hq _ hstep => hq.step hstep) hpc₁ hlawful hmoves
      hnow (hswapped.failed heffect)
    rw [hlocal', Option.some.injEq, RaceThread.remap.injEq] at hq''
    subst hq''
    refine ⟨fun r hr => hfailed.raises hr, ?_⟩
    rintro (hunchecked | hall)
    · exact absurd hswapped hunchecked.not_swapped
    · exact hdone hfailed.pending hall

/-! ## 4. The start -/

/-- The setting of a race that starts in a state with a registered tensor. -/
def RaceSetting.ofRegistered {w : AllocatorState} {tensor : Tensor} {alloc : VMMAllocation}
    (h : Registered w.driver tensor.dataPtr alloc) (calls : List RaceCall) : RaceSetting where
  tensor := tensor
  alloc := alloc
  reserved := w.driver.reserved
  pool := alloc.handles ++ calls.filterMap RaceCall.newHandle
  keyed := h.keyed
  pageSize_pos := h.pageSize_pos
  sized := h.sized
  nonempty := h.nonempty
  mem_reserved := h.reserved

section Start

variable {w : AllocatorState} {held : List Handle} {tensor : Tensor} {alloc : VMMAllocation}
  {calls : List RaceCall}

theorem share_objects (hget : w.allocations.get? tensor.dataPtr = some alloc) :
    w.share.objects tensor.dataPtr = alloc := by
  simp [AllocatorState.share, hget]

theorem share_get? {va obj : Nat} (hget : w.share.allocations.get? va = some obj) :
    obj = va ∧ ∃ alloc, w.allocations.get? va = some alloc ∧ w.share.objects obj = alloc := by
  obtain rfl := keyed_share w va obj hget
  simp only [AllocatorState.share, Dict.get?_mapValues, Option.map_eq_some_iff] at hget
  obtain ⟨alloc, hget, -⟩ := hget
  exact ⟨rfl, alloc, hget, by simp [AllocatorState.share, hget]⟩

/-- A mapped page belongs to a registered allocation. -/
theorem MappingInv.of_maps (h : MappingInv w) {start size : Nat} {handle : Handle}
    (hmaps : w.driver.Maps start size handle) :
    ∃ (va : Nat) (alloc : VMMAllocation) (i : Nat), w.allocations.get? va = some alloc ∧
      alloc.handles[i]? = some handle ∧ (alloc.vaPtr, alloc.totalBytes) ∈ w.driver.reserved ∧
        Inside (alloc.vaPtr, alloc.totalBytes) start size := by
  obtain ⟨access, hpage⟩ := hmaps
  obtain ⟨va, alloc, i, hget, hi, rfl⟩ := h.mappedOnly start _ hpage
  obtain ⟨access', hlisted⟩ := h.mirrors va alloc hget i _ (List.getElem?_eq_getElem hi)
  rw [hpage, Option.some.injEq, PageMapping.mk.injEq] at hlisted
  obtain ⟨rfl, rfl, -⟩ := hlisted
  have hentry := h.entries va alloc hget
  have hbounds := pageVa_inRange hentry.sized hi
  exact ⟨va, alloc, i, hget, List.getElem?_eq_getElem hi, hentry.reserved, hentry.pageSize_pos,
    hbounds.1, hbounds.2⟩

/-- A handle that the caller holds is installed nowhere. -/
theorem Balanced.not_installed {c : CallerState} (h : Balanced c) {handle : Handle}
    (hheld : handle ∈ c.held) : handle ∉ c.world.allocations.installed := by
  intro hinstalled
  have hheld := List.count_pos_iff.mpr hheld
  have hinstalled := List.count_pos_iff.mpr hinstalled
  have hlive := h.live handle
  have hone := List.nodup_iff_count_le_one.mp h.liveNodup handle
  omega

theorem Balanced.mem_live {c : CallerState} (h : Balanced c) {handle : Handle}
    (hmem : handle ∈ c.held ∨ handle ∈ c.world.allocations.installed) :
    handle ∈ c.world.driver.live := by
  have hlive := h.live handle
  rcases hmem with hmem | hmem
  · have hpos := List.count_pos_iff.mpr hmem
    exact List.count_pos_iff.mp (by omega)
  · have hpos := List.count_pos_iff.mpr hmem
    exact List.count_pos_iff.mp (by omega)

/-- What a race needs of its first state. -/
structure RaceReady (c : CallerState) (tensor : Tensor) (alloc : VMMAllocation)
    (calls : List RaceCall) : Prop where
  balanced : Balanced c
  mapping : MappingInv c.world
  get : c.world.allocations.get? tensor.dataPtr = some alloc
  held : ∀ call ∈ calls, ∀ handle, call.newHandle = some handle → handle ∈ c.held
  distinct : (calls.filterMap RaceCall.newHandle).Nodup

variable {c : CallerState}

/-- The setting of the race. -/
def RaceReady.setting (h : RaceReady c tensor alloc calls) : RaceSetting :=
  RaceSetting.ofRegistered (h.mapping.entries _ _ h.get) calls

/-- A handle of the race is installed in the tensor or held by the caller. -/
theorem RaceReady.mem_pool (h : RaceReady c tensor alloc calls) {handle : Handle} :
    handle ∈ h.setting.pool → handle ∈ alloc.handles ∨ handle ∈ c.held := by
  intro hpool
  rcases List.mem_append.mp hpool with hlisted | hnew
  · exact Or.inl hlisted
  · obtain ⟨call, hcall, hhandle⟩ := List.mem_filterMap.mp hnew
    exact Or.inr (h.held call hcall handle hhandle)

/-- It is installed nowhere else. -/
theorem RaceReady.pool_home (h : RaceReady c tensor alloc calls) {handle : Handle}
    (hpool : handle ∈ h.setting.pool) {va i : Nat} {other : VMMAllocation}
    (hother : c.world.allocations.get? va = some other) (hi : other.handles[i]? = some handle) :
    va = tensor.dataPtr := by
  rcases h.mem_pool hpool with hlisted | hheld
  · obtain ⟨j, hj⟩ := List.mem_iff_getElem?.mp hlisted
    exact (installed_unique h.balanced.installed_once hother hi h.get hj).1
  · exact absurd (mem_installed_iff.mpr ⟨va, other, i, hother, hi⟩) (h.balanced.not_installed hheld)

theorem RaceReady.sharedOk (h : RaceReady c tensor alloc calls) :
    h.setting.SharedOk .pop c.world.share := by
  have hobject : c.world.share.objects h.setting.va = alloc := share_objects h.get
  have hnumbered : ∀ {va alloc}, c.world.allocations.get? va = some alloc →
      va < c.world.share.nextObject := by
    intro va alloc hget
    exact Nat.lt_succ_of_le (le_foldr_max (Dict.mem_keys_iff.mpr ⟨alloc, hget⟩))
  have hnodup : alloc.handles.Nodup := by
    refine List.nodup_iff_count_le_one.mpr fun x => ?_
    have hone := h.balanced.installed_once x
    rw [count_installed h.get] at hone
    omega
  refine ⟨?_, ⟨h.mapping.disjoint, ?_, fun hunmapped => hunmapped.elim⟩, ?_⟩
  · exact
      { vaPtr := congrArg _ hobject
        totalBytes := congrArg _ hobject
        pageSize := congrArg _ hobject
        length := congrArg (fun alloc : VMMAllocation => alloc.handles.length) hobject
        nodup := by rw [hobject]; exact hnodup
        pooled := by
          rw [hobject]
          exact fun x hx => List.mem_append_left _ hx
        registered := fun _ => by
          show c.world.share.allocations.get? tensor.dataPtr = some tensor.dataPtr
          simp [AllocatorState.share, h.get]
        onlyHere := fun va hget => ⟨rfl, (share_get? hget).1.symm⟩
        numbered := hnumbered h.get
        fresh := by
          intro va obj hget
          obtain ⟨rfl, alloc', hget', -⟩ := share_get? hget
          exact hnumbered hget' }
  · intro start size handle hmaps
    obtain ⟨va, other, i, -, -, hreserved, hinside⟩ := h.mapping.of_maps hmaps
    exact ⟨_, hreserved, hinside⟩
  · exact
      { trackedLive := by
          rintro x ⟨hpool, -⟩
          rcases h.mem_pool hpool with hlisted | hheld
          · obtain ⟨i, hi⟩ := List.mem_iff_getElem?.mp hlisted
            exact h.balanced.mem_live (Or.inr (mem_installed_iff.mpr ⟨_, alloc, i, h.get, hi⟩))
          · exact h.balanced.mem_live (Or.inl hheld)
        trackedHome := by
          rintro start size x hmaps ⟨hpool, -⟩
          obtain ⟨va, other, i, hother, hi, -, hinside⟩ := h.mapping.of_maps hmaps
          obtain rfl := h.pool_home hpool hother hi
          rw [h.get, Option.some.injEq] at hother
          subst hother
          exact ⟨hinside, id⟩
        mappedLive := by
          intro start size x hmaps
          obtain ⟨va, other, i, hother, hi, -⟩ := h.mapping.of_maps hmaps
          exact h.balanced.mem_live (Or.inr (mem_installed_iff.mpr ⟨va, other, i, hother, hi⟩))
        others := by
          intro va obj hget hne x hx
          obtain ⟨rfl, other, hother, hsame⟩ := share_get? hget
          rw [hsame] at hx
          obtain ⟨i, hi⟩ := List.mem_iff_getElem?.mp hx
          refine ⟨h.balanced.mem_live (Or.inr (mem_installed_iff.mpr ⟨_, other, i, hother, hi⟩)), ?_⟩
          rintro ⟨hpool, -⟩
          exact hne (h.pool_home hpool hother hi) }

/-- The threads of the race stand at their starts. -/
theorem raceStart_local {w : AllocatorState} {k : Nat} {p : RaceThread}
    (hlocal : (raceStart w tensor calls).locals[k]? = some p) :
    (k = 0 ∧ p = .free (FreeThread.start tensor)) ∨
      ∃ j call, k = j + 1 ∧ calls[j]? = some call ∧ p = call.thread tensor := by
  cases k with
  | zero =>
    cases hlocal
    exact Or.inl ⟨rfl, rfl⟩
  | succ j =>
    simp only [raceStart, List.getElem?_cons_succ, List.getElem?_map, Option.map_eq_some_iff]
      at hlocal
    obtain ⟨call, hcall, hthread⟩ := hlocal
    exact Or.inr ⟨j, call, rfl, hcall, hthread.symm⟩

theorem raceStart_remap {w : AllocatorState} {k : Nat} {q : RemapThread}
    (hlocal : (raceStart w tensor calls).locals[k]? = some (.remap q)) :
    ∃ j blockId handle, k = j + 1 ∧ calls[j]? = some (.remap blockId handle) ∧
      q = RemapThread.start ⟨tensor, blockId, handle⟩ := by
  rcases raceStart_local hlocal with ⟨-, hthread⟩ | ⟨j, call, rfl, hcall, hthread⟩
  · cases hthread
  · cases call with
    | remap blockId handle =>
      cases hthread
      exact ⟨j, blockId, handle, rfl, hcall, rfl⟩
    | allocate sizeBytes device => cases hthread

/-- **The invariant holds at the start of a race.** -/
theorem RaceReady.inv (h : RaceReady c tensor alloc calls) :
    RaceInv h.setting .pop (raceStart c.world tensor calls) where
  head := ⟨_, rfl⟩
  onlyFree := by
    intro k f hf
    rcases raceStart_local hf with ⟨hk, -⟩ | ⟨j, call, -, -, hthread⟩
    · exact hk
    · cases call with
      | remap blockId handle => cases hthread
      | allocate sizeBytes device => cases hthread
  shared := h.sharedOk
  reserved := by
    have hnone : (raceStart c.world tensor calls).locals.filterMap RaceThread.reservation = [] := by
      refine List.filterMap_eq_nil_iff.mpr fun p hp => ?_
      rcases List.mem_cons.mp hp with rfl | hp
      · rfl
      · obtain ⟨call, -, rfl⟩ := List.mem_map.mp hp
        cases call with
        | remap blockId handle => rfl
        | allocate sizeBytes device => rfl
    rw [hnone, List.append_nil]
    exact List.Perm.refl _
  threads := by
    intro k p hp
    rcases raceStart_local hp with ⟨-, rfl⟩ | ⟨j, call, -, hcall, rfl⟩
    · exact ⟨rfl, rfl, trivial⟩
    · have hmem := List.mem_of_getElem? hcall
      cases call with
      | remap blockId handle =>
        have hheld := h.held _ hmem handle rfl
        exact
          { tensor := rfl
            pooled := List.mem_append_right _ (List.mem_filterMap.mpr ⟨_, hmem, rfl⟩)
            knows := trivial
            unlisted := by
              intro _ hlisted
              have hobject : c.world.share.objects h.setting.va = alloc := share_objects h.get
              rw [show (raceStart c.world tensor calls).shared = c.world.share from rfl,
                hobject] at hlisted
              obtain ⟨i, hi⟩ := List.mem_iff_getElem?.mp hlisted
              exact h.balanced.not_installed hheld
                (mem_installed_iff.mpr ⟨_, alloc, i, h.get, hi⟩)
            unmapped := by
              intro _ start size hmaps
              obtain ⟨va, other, i, hother, hi, -⟩ := h.mapping.of_maps hmaps
              exact h.balanced.not_installed hheld
                (mem_installed_iff.mpr ⟨va, other, i, hother, hi⟩) }
      | allocate sizeBytes device =>
        exact
          { size_pos := sizeBytes.2
            knows := rfl
            owned := fun handle hmem => by cases hmem }
  distinct := by
    intro k k' q q' hne hq hq' hsame
    obtain ⟨j, blockId, handle, rfl, hcall, rfl⟩ := raceStart_remap hq
    obtain ⟨j', blockId', handle', rfl, hcall', rfl⟩ := raceStart_remap hq'
    have hsame : handle = handle' := hsame
    subst hsame
    obtain ⟨hj, hcall⟩ := List.getElem?_eq_some_iff.mp hcall
    obtain ⟨hj', hcall'⟩ := List.getElem?_eq_some_iff.mp hcall'
    have hpairwise := List.pairwise_iff_getElem.mp (List.pairwise_filterMap.mp h.distinct)
    have hnew : calls[j].newHandle = some handle := by rw [hcall]; rfl
    have hnew' : calls[j'].newHandle = some handle := by rw [hcall']; rfl
    rcases Nat.lt_trichotomy j j' with hlt | rfl | hlt
    · exact hpairwise j j' hj hj' hlt handle hnew handle hnew' rfl
    · exact hne rfl
    · exact hpairwise j' j hj' hj hlt handle hnew' handle hnew rfl

end Start

/-! ## 5. Safe in order -/

theorem RaceReady.raceSafe {c : CallerState} {tensor : Tensor} {alloc : VMMAllocation}
    {calls : List RaceCall} (h : RaceReady c tensor alloc calls) (hlawful : cuda.Lawful) :
    RaceSafe (InOrder cuda) cuda c.world tensor alloc calls where
  acts := by
    intro σ hmoves q hmem obj start size htarget
    obtain ⟨pc, hinv, -⟩ := h.inv.moves hlawful hmoves
    exact hinv.acts hmem htarget
  raises := by
    intro σ₀ σ₁ σ hmoves₀ hmove hbefore hafter hmoves k q q' hlocal heffect hlocal'
    obtain ⟨pc, hinv, -⟩ := h.inv.moves hlawful hmoves₀
    exact hinv.raises hlawful hmove hbefore hafter hmoves hlocal heffect hlocal'
  clean := by
    intro σ hmoves hdone
    obtain ⟨pc, hinv, -⟩ := h.inv.moves hlawful hmoves
    obtain ⟨hpc, hunregistered, hreserved, hmapped⟩ := hinv.clean hdone
    refine ⟨hunregistered, hreserved, ?_, hinv.installed_live (by rw [hpc]; simp)⟩
    intro start size handle hmaps
    obtain ⟨hlive, -, range, hrange, hinside⟩ := hmapped start size handle hmaps
    refine ⟨hlive, ?_⟩
    rcases List.mem_append.mp hrange with hold | hnew
    · have hperm := List.perm_cons_erase h.setting.mem_reserved
      have hpairwise := (hperm.pairwise_iff RangesDisjoint.symm).mp h.mapping.disjoint
      exact Or.inl (hinside.disjoint ((List.pairwise_cons.mp hpairwise).1 range hold))
    · exact Or.inr ⟨range, hnew, hinside⟩

/-- **A race in order is safe.**  After any run of the caller with a driver that kept its
    promises, one thread frees a tensor while others remap its pages, with different
    handles that the caller holds, and allocate.  In every interleaving in which the
    free meets no remap in its swap, no remap passes its range check afterwards, and the
    driver unmaps and gives back the range: remaps act on the registered tensor only,
    remaps that come too late raise, and nothing of the tensor is left. -/
theorem remapFreeRace_safe (prior : Cuda) (hprior : prior.Lawful) (hsucceeds : prior.Succeeds)
    (hlawful : cuda.Lawful) (memory : Handle → Nat → UInt8) (ops : List AllocatorOp)
    (hpermitted : PermittedRun prior (CallerState.init memory) ops) (tensor : Tensor)
    (alloc : VMMAllocation)
    (hget : getVmmAllocation (runCaller prior memory ops).world tensor = some alloc)
    (calls : List RaceCall)
    (hheld : ∀ call ∈ calls, ∀ handle, call.newHandle = some handle →
      handle ∈ (runCaller prior memory ops).held)
    (hdistinct : (calls.filterMap RaceCall.newHandle).Nodup) :
    RaceSafe (InOrder cuda) cuda (runCaller prior memory ops).world tensor alloc calls := by
  have hmapping : MappingInv (runCaller prior memory ops).world := by
    rw [world_runCaller]
    exact mappingInv_runAllocator hprior hsucceeds memory ops
  have hready : RaceReady (runCaller prior memory ops) tensor alloc calls :=
    { balanced := balanced_foldl hprior hsucceeds (balanced_init memory) hpermitted
      mapping := hmapping
      get := hget
      held := hheld
      distinct := hdistinct }
  exact hready.raceSafe hlawful

/-- An allocation of three pages and two fresh handles. -/
def opsBeforeRace : List AllocatorOp :=
  [.allocateVmmKvCache ⟨5000000, by decide⟩ ⟨none⟩, .createPhysicalHandle 2097152 0,
    .createPhysicalHandle 2097152 0]

def beforeRace : CallerState := runCaller .bump (fun _ _ => 0) opsBeforeRace

def racedTensor : Tensor := { dataPtr := 0, nbytes := 5000000, device := 0 }

def racedAllocation : VMMAllocation :=
  { vaPtr := 0, totalBytes := 6291456, pageSize := 2097152, handles := [1, 2, 3],
    tensor := some racedTensor }

/-- Two remaps of the middle page and an allocation race with the free. -/
theorem remapFreeRace_safe_middle_page :
    RaceSafe (InOrder .bump) .bump beforeRace.world racedTensor racedAllocation
      [.remap 1 4, .remap 1 5, .allocate 1 ⟨none⟩] := by
  refine remapFreeRace_safe .bump Cuda.bump_lawful Cuda.bump_succeeds Cuda.bump_lawful
    (fun _ _ => 0) opsBeforeRace ⟨trivial, trivial, trivial, trivial⟩ racedTensor racedAllocation
    (by decide +kernel) _ ?_ (by decide)
  intro call hcall handle hhandle
  simp only [List.mem_cons, List.not_mem_nil, or_false] at hcall
  rcases hcall with rfl | rfl | rfl
  · obtain rfl := Option.some.inj hhandle
    decide +kernel
  · obtain rfl := Option.some.inj hhandle
    decide +kernel
  · cases hhandle

/-! ## 6. Out of order -/

/-- One remap of the middle page races with the free. -/
def middlePageRace (schedule : List Nat) : Threads SharedAllocator RaceThread :=
  follow (RaceThread.step .bump) (raceStart beforeRace.world racedTensor [.remap 1 4]) schedule

/-- What the next driver call of the thread acts on, for a remap. -/
def RaceThread.remapTarget (s : SharedAllocator) : RaceThread → Option (Nat × Nat × Nat)
  | .remap q => q.target s
  | _ => none

/-- The remap passes its checks and takes the lock; then the free runs from its first
    step to its last. -/
def freedAfterCheck : List Nat := [1, 1, 1, 0, 0, 0, 0, 0, 0, 0, 0, 0, 0]

/-- **A remap can outlive the free.**  When it takes the lock after its checks and the
    free runs then, its next driver call acts on a range that is registered and reserved
    for nobody; it returns, and its page stays mapped there. -/
theorem remap_outlives_free :
    ¬ RaceSafe (fun _ _ => True) .bump beforeRace.world racedTensor racedAllocation [.remap 1 4] ∧
    (middlePageRace freedAfterCheck).shared.allocations.items = [] ∧
    (middlePageRace (freedAfterCheck ++ [1, 1, 1, 1, 1, 1])).locals.all RaceThread.isDone = true ∧
    (middlePageRace (freedAfterCheck ++ [1, 1, 1, 1, 1, 1])).shared.driver.reserved = [] ∧
    (middlePageRace (freedAfterCheck ++ [1, 1, 1, 1, 1, 1])).shared.driver.pages.items =
      [(2097152, ⟨2097152, 4, [0]⟩)] := by
  have hgone : (middlePageRace freedAfterCheck).shared.allocations.get? 0 = none := by
    decide +kernel
  refine ⟨fun hsafe => ?_, by decide +kernel, by decide +kernel, by decide +kernel, by decide +kernel⟩
  have hmoves := (moves_follow (RaceThread.step .bump)
    (raceStart beforeRace.world racedTensor [.remap 1 4]) freedAfterCheck).guarded
  have htarget : (middlePageRace freedAfterCheck).locals[1]?.bind
      (RaceThread.remapTarget (middlePageRace freedAfterCheck).shared) =
        some (0, 2097152, 2097152) := by decide +kernel
  obtain ⟨p, hlocal, htarget⟩ := Option.bind_eq_some_iff.mp htarget
  cases p with
  | remap q =>
    have hacts := hsafe.acts _ hmoves q (List.mem_of_getElem? hlocal) 0 2097152 2097152 htarget
    have hregistered : (middlePageRace freedAfterCheck).shared.allocations.get? 0 = some 0 :=
      hacts.2.1
    rw [hgone] at hregistered
    cases hregistered
  | free f => cases htarget
  | allocate a => cases htarget

end Edmm
