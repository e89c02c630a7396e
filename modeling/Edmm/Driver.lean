/-
  Edmm/Driver.lean
  ================
  **The CUDA virtual-memory driver as the allocator sees it.**

  The driver is not part of the repository, so it is a parameter: a `Cuda` says
  which result code a call gets, which granularity a device reports, which
  virtual address a reservation gets and which handle a creation gets.  All four
  may depend on everything the driver did so far (`DriverState.calls` counts the
  calls), so quantifying over `Cuda` quantifies over every driver behaviour and
  every choice of failing calls.

  What a *successful* call does to the driver state is fixed here and follows the
  documented meaning of the call: a set of reserved ranges, a set of live
  physical handles, a page table from virtual address to handle, the bytes behind
  each handle.  A failing call changes nothing but the call counter.

  Sizes and addresses are unbounded naturals; a driver that succeeds has
  accepted them.
-/
import Edmm.Lib.Dict
import Edmm.Lib.Program

namespace Edmm

abbrev Handle := Nat
abbrev DeviceId := Nat

/-! ## 1. Driver state -/

/-- One entry of the page table.  `access` lists the devices granted read-write
    access by `cuMemSetAccess`; a fresh mapping grants none. -/
structure PageMapping where
  size : Nat
  handle : Handle
  access : List DeviceId
deriving DecidableEq, Repr

structure DriverState where
  /-- Reserved virtual ranges as (start, size). -/
  reserved : List (Nat × Nat)
  /-- Physical handles created and not yet released. -/
  live : List Handle
  /-- Page table, keyed by the virtual address where the mapping starts. -/
  pages : Dict Nat PageMapping
  /-- The bytes behind each handle. -/
  memory : Handle → Nat → UInt8
  /-- Every handle `cuMemCreate` returned, oldest first. -/
  created : List Handle
  /-- The size each of them was created with. -/
  createdSizes : List Nat
  /-- Every handle given to a successful `cuMemRelease`, oldest first. -/
  released : List Handle
  calls : Nat

/-- A driver that did nothing yet; the physical memory holds arbitrary bytes. -/
def DriverState.init (memory : Handle → Nat → UInt8) : DriverState :=
  { reserved := [], live := [], pages := ∅, memory, created := [], createdSizes := [],
    released := [], calls := 0 }

/-! ## 2. Driver calls -/

inductive DriverCall where
  | cuDeviceGet (device : DeviceId)
  | cuDevicePrimaryCtxRetain (device : DeviceId)
  | cuCtxPushCurrent (device : DeviceId)
  | cuMemGetAllocationGranularity (device : DeviceId)
  | cuMemAddressReserve (size : Nat)
  | cuMemCreate (size : Nat) (device : DeviceId)
  | cuMemMap (va size : Nat) (handle : Handle)
  | cuMemSetAccess (va size : Nat) (device : DeviceId)
  | cudaMemset (va : Nat) (value : UInt8) (size : Nat)
  | cuMemUnmap (va size : Nat)
  | cuMemRelease (handle : Handle)
  | cuMemAddressFree (va size : Nat)
deriving DecidableEq, Repr

/-- The choices the driver makes.  A result code of `0` is success. -/
structure Cuda where
  result : DriverState → DriverCall → Nat
  granularity : DriverState → DeviceId → Nat
  pickVa : DriverState → Nat → Nat
  pickHandle : DriverState → Handle

/-- The address `va` lies in the `size` bytes starting at `start`. -/
def inRange (start size va : Nat) : Bool := start ≤ va && va < start + size

@[simp] theorem inRange_iff {start size va : Nat} :
    inRange start size va = true ↔ start ≤ va ∧ va < start + size := by
  simp [inRange]

/-- Some page of the table shows byte `offset` of `handle` inside the range. -/
def DriverState.shows (s : DriverState) (start size : Nat) (handle : Handle)
    (offset : Nat) : Bool :=
  s.pages.items.any fun (va, page) =>
    page.handle = handle && offset < page.size && inRange start size (va + offset)

/-- What a successful call does. -/
def Cuda.effect (cuda : Cuda) (s : DriverState) : DriverCall → DriverState
  | .cuDeviceGet _ => s
  | .cuDevicePrimaryCtxRetain _ => s
  | .cuCtxPushCurrent _ => s
  | .cuMemGetAllocationGranularity _ => s
  | .cuMemAddressReserve size => { s with reserved := (cuda.pickVa s size, size) :: s.reserved }
  | .cuMemCreate size _ =>
      { s with
        live := cuda.pickHandle s :: s.live
        created := s.created ++ [cuda.pickHandle s]
        createdSizes := s.createdSizes ++ [size] }
  | .cuMemMap va size handle => { s with pages := s.pages.set va ⟨size, handle, []⟩ }
  | .cuMemSetAccess va size device =>
      { s with
        pages := s.pages.mapValues fun start page =>
          if inRange va size start then { page with access := device :: page.access } else page }
  | .cudaMemset va value size =>
      { s with
        memory := fun handle offset =>
          if s.shows va size handle offset then value else s.memory handle offset }
  | .cuMemUnmap va size => { s with pages := s.pages.filterKeys fun start => !inRange va size start }
  | .cuMemRelease handle =>
      { s with
        live := s.live.erase handle
        released := s.released ++ [handle] }
  | .cuMemAddressFree va size => { s with reserved := s.reserved.erase (va, size) }

/-- The driver state after a call: its effect when it succeeds, and one more call. -/
def Cuda.after (cuda : Cuda) (s : DriverState) (call : DriverCall) : DriverState :=
  { (if cuda.result s call = 0 then cuda.effect s call else s) with calls := s.calls + 1 }

/-! ## 3. Assumptions about the driver

`Lawful` is what every CUDA driver promises about the values it picks; `Succeeds`
is the assumption of the results that leave failing calls out. -/

/-- Two ranges, each given as (start, size), share no address. -/
def RangesDisjoint (r q : Nat × Nat) : Prop := r.1 + r.2 ≤ q.1 ∨ q.1 + q.2 ≤ r.1

theorem RangesDisjoint.symm {r q : Nat × Nat} (h : RangesDisjoint r q) : RangesDisjoint q r :=
  Or.symm h

instance : Std.Symm RangesDisjoint := ⟨fun _ _ => RangesDisjoint.symm⟩

structure Cuda.Lawful (cuda : Cuda) : Prop where
  /-- A new reservation overlaps none of the existing ones. -/
  reserve_disjoint : ∀ s size, ∀ r ∈ s.reserved, RangesDisjoint (cuda.pickVa s size, size) r
  /-- A new handle is not one that is still alive. -/
  create_fresh : ∀ s, cuda.pickHandle s ∉ s.live

def Cuda.Succeeds (cuda : Cuda) : Prop := ∀ s call, cuda.result s call = 0

theorem Cuda.Succeeds.after_eq {cuda : Cuda} (h : cuda.Succeeds) (s : DriverState)
    (call : DriverCall) :
    cuda.after s call = { cuda.effect s call with calls := s.calls + 1 } := by
  simp [Cuda.after, h s call]

/-- A driver that never fails, reserves past everything reserved and numbers its
    handles past everything alive. -/
def Cuda.bump : Cuda where
  result _ _ := 0
  granularity _ _ := 2 * 1024 * 1024
  pickVa s _ := (s.reserved.map fun r => r.1 + r.2).foldr max 0
  pickHandle s := s.live.foldr max 0 + 1

theorem le_foldr_max {a : Nat} {l : List Nat} (h : a ∈ l) : a ≤ l.foldr max 0 := by
  induction l with
  | nil => cases h
  | cons b rest ih =>
    rw [List.foldr_cons]
    rcases List.mem_cons.mp h with rfl | h
    · exact Nat.le_max_left _ _
    · exact Nat.le_trans (ih h) (Nat.le_max_right _ _)

theorem Cuda.bump_lawful : Cuda.bump.Lawful where
  reserve_disjoint := fun s size r hr =>
    Or.inr (le_foldr_max (List.mem_map.mpr ⟨r, hr, rfl⟩))
  create_fresh := fun s hlive => by
    have := le_foldr_max hlive
    simp only [Cuda.bump] at this
    omega

theorem Cuda.bump_succeeds : Cuda.bump.Succeeds := fun _ _ => rfl

/-! ## 4. Reading and writing bytes through virtual addresses -/

/-- The page-table entry that covers an address. -/
def DriverState.pageAt (s : DriverState) (va : Nat) : Option (Nat × PageMapping) :=
  s.pages.items.find? fun item => inRange item.1 item.2.size va

/-- The physical cell behind an address, provided the device may access it. -/
def DriverState.translate (s : DriverState) (device : DeviceId) (va : Nat) :
    Option (Handle × Nat) :=
  match s.pageAt va with
  | some (start, page) => if device ∈ page.access then some (page.handle, va - start) else none
  | none => none

/-- Read one byte; `none` is an illegal access. -/
def DriverState.load (s : DriverState) (device : DeviceId) (va : Nat) : Option UInt8 :=
  (s.translate device va).map fun cell => s.memory cell.1 cell.2

/-- Write one byte; `none` is an illegal access. -/
def DriverState.store (s : DriverState) (device : DeviceId) (va : Nat) (byte : UInt8) :
    Option DriverState :=
  (s.translate device va).map fun cell =>
    { s with
      memory := fun handle offset =>
        if handle = cell.1 ∧ offset = cell.2 then byte else s.memory handle offset }

/-- Translation looks at the page table only. -/
theorem DriverState.translate_of_pages {s s' : DriverState} (h : s'.pages = s.pages)
    (device : DeviceId) (va : Nat) : s'.translate device va = s.translate device va := by
  unfold DriverState.translate DriverState.pageAt
  rw [h]

/-- A write changes nothing but bytes. -/
theorem DriverState.store_memory {s s' : DriverState} {device : DeviceId} {va : Nat}
    {byte : UInt8} (h : s.store device va byte = some s') : ∃ memory, s' = { s with memory } := by
  obtain ⟨cell, -, rfl⟩ := Option.map_eq_some_iff.mp h
  exact ⟨_, rfl⟩

/-- A write shows up at exactly the addresses of the same physical cell. -/
theorem DriverState.load_store {s s' : DriverState} {device : DeviceId} {va : Nat} {byte : UInt8}
    (h : s.store device va byte = some s') (device' : DeviceId) (va' : Nat) :
    s'.load device' va' =
      if s.translate device' va' = s.translate device va then some byte
      else s.load device' va' := by
  cases hcell : s.translate device va with
  | none =>
    unfold DriverState.store at h
    rw [hcell] at h
    cases h
  | some cell =>
    have hpages : s'.pages = s.pages := by
      obtain ⟨memory, rfl⟩ := DriverState.store_memory h
      rfl
    unfold DriverState.store at h
    rw [hcell, Option.map_some, Option.some.injEq] at h
    unfold DriverState.load
    rw [DriverState.translate_of_pages hpages, ← h]
    cases hcell' : s.translate device' va' with
    | none => simp
    | some cell' =>
      by_cases heq : cell' = cell
      · simp [heq]
      · have hne : ¬ (cell'.1 = cell.1 ∧ cell'.2 = cell.2) := fun hboth =>
          heq (Prod.ext hboth.1 hboth.2)
        simp [heq, hne]

end Edmm
