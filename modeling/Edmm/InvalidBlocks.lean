/-
  Edmm/InvalidBlocks.lean
  =======================
  **KV blocks that failed to load.**

  A KV connector reports the blocks that it could not load.  `_handle_invalid_blocks`
  cuts the computed tokens of every request that holds one.  Requests share blocks, and
  a shared block is computed again by one of them only: the others count it as computed.

  So each invalid block that a request still counts as computed lies behind the computed
  tokens of an earlier request, which holds it too (`Rescued.recomputed`).
-/
import Edmm.ClientStream
import Edmm.Lib.Visited

namespace Edmm

open Program

variable {W : Type}

namespace Scheduler

variable (self : Scheduler W)

/-! ## 1. The law -/

/-- The tokens of a request that were computed before this step. -/
def loadedTokens (numScheduledTokens : Dict RequestId Int) (r : Request) : Int :=
  r.numComputedTokens - (numScheduledTokens.get? r.requestId).getD 0

/-- The blocks that hold them, each with its place. -/
def loadedBlocks (numScheduledTokens : Dict RequestId Int) (s : SchedulerState W) (x : Ref) :
    List (Nat × Nat) :=
  let reqBlockIds := (self.externals.getBlocks s.world (s.objs x).requestId).getBlockIds.headD []
  reqBlockIds.zipIdx.take
    ((loadedTokens numScheduledTokens (s.objs x) + self.blockSize - 1) / self.blockSize).toNat

/-- The request holds an invalid block. -/
def Stricken (invalidBlockIds : List Nat) (numScheduledTokens : Dict RequestId Int)
    (s : SchedulerState W) (x : Ref) : Prop :=
  ∃ entry ∈ self.loadedBlocks numScheduledTokens s x, entry.1 ∈ invalidBlockIds

variable {self}

/-- What becomes of the requests of a list; `s` is the state before. -/
structure Rescued (scheduler : Scheduler W) (invalidBlockIds : List Nat)
    (numScheduledTokens : Dict RequestId Int) (s : SchedulerState W) (requests : List Ref)
    (affectedReqIds : List RequestId) (objs : Ref → Request) : Prop where
  affected : ∀ reqId, reqId ∈ affectedReqIds ↔
    ∃ x ∈ requests, scheduler.Stricken invalidBlockIds numScheduledTokens s x ∧
      (s.objs x).requestId = reqId
  spared : ∀ x ∈ requests, ¬ scheduler.Stricken invalidBlockIds numScheduledTokens s x →
    objs x = s.objs x
  shortened : ∀ x ∈ requests, scheduler.Stricken invalidBlockIds numScheduledTokens s x →
    ∃ numComputedTokens ≤ loadedTokens numScheduledTokens (s.objs x),
      objs x = { s.objs x with numComputedTokens }
  /-- What a request counts as computed, an earlier one computes. -/
  recomputed : ∀ earlier x later, requests = earlier ++ x :: later →
    ∀ entry ∈ scheduler.loadedBlocks numScheduledTokens s x, entry.1 ∈ invalidBlockIds →
      entry.2 * scheduler.blockSize < (objs x).numComputedTokens →
        ∃ y ∈ earlier, ∃ other ∈ scheduler.loadedBlocks numScheduledTokens s y,
          other.1 = entry.1 ∧ (objs y).numComputedTokens ≤ other.2 * scheduler.blockSize
  /-- No request computes more again than from a block that only it can compute. -/
  kept : ∀ earlier x later, requests = earlier ++ x :: later →
    scheduler.Stricken invalidBlockIds numScheduledTokens s x →
      (objs x).numComputedTokens = loadedTokens numScheduledTokens (s.objs x) ∨
      ∃ entry ∈ scheduler.loadedBlocks numScheduledTokens s x, entry.1 ∈ invalidBlockIds ∧
        (objs x).numComputedTokens = entry.2 * scheduler.blockSize ∧
        ∀ y ∈ earlier, ∀ other ∈ scheduler.loadedBlocks numScheduledTokens s y,
          other.1 ≠ entry.1

/-! ## 2. The blocks of one request -/

/-- The scan, after some blocks of the request were seen. -/
structure Scanned (scheduler : Scheduler W) (invalidBlockIds reqBlockIds : List Nat)
    (evictBlocks : Bool) (start : InvalidScan) (seen : List (Nat × Nat)) (scan : InvalidScan) :
    Prop where
  affected : scan.isAffected = true ↔ ∃ entry ∈ seen, entry.1 ∈ invalidBlockIds
  marked : ∀ block, block ∈ scan.markedInvalidBlockIds ↔ block ∈ start.markedInvalidBlockIds ∨
    (block ∈ invalidBlockIds ∧ ∃ entry ∈ seen, entry.1 = block)
  shared : scan.markedInvalidBlock = false → scan.numComputedTokens = start.numComputedTokens ∧
    ∀ entry ∈ seen, entry.1 ∈ invalidBlockIds → entry.1 ∈ start.markedInvalidBlockIds
  first : scan.markedInvalidBlock = true → ∃ entry ∈ seen, entry.1 ∈ invalidBlockIds ∧
    entry.1 ∉ start.markedInvalidBlockIds ∧
    scan.numComputedTokens = entry.2 * scheduler.blockSize ∧
    (evictBlocks = true → ∀ block ∈ reqBlockIds.drop entry.2, block ∈ scan.blocksToEvict) ∧
    ∀ other ∈ seen, other.1 ∈ invalidBlockIds → other.1 ∉ start.markedInvalidBlockIds →
      entry.2 ≤ other.2
  evicted : ∀ block ∈ start.blocksToEvict, block ∈ scan.blocksToEvict

namespace Scanned

variable {invalidBlockIds reqBlockIds : List Nat} {evictBlocks : Bool}
  {start scan : InvalidScan} {seen : List (Nat × Nat)} {entry : Nat × Nat}

/-- A valid block. -/
theorem valid (h : Scanned self invalidBlockIds reqBlockIds evictBlocks start seen scan)
    (hvalid : entry.1 ∉ invalidBlockIds) :
    Scanned self invalidBlockIds reqBlockIds evictBlocks start (seen ++ [entry]) scan where
  affected := by
    rw [h.affected]
    simp [or_and_right, exists_or, hvalid]
  marked block := by
    rw [h.marked]
    constructor
    · rintro (hstart | ⟨hinvalid, other, hother, hblock⟩)
      · exact Or.inl hstart
      · exact Or.inr ⟨hinvalid, other, List.mem_append_left _ hother, hblock⟩
    · rintro (hstart | ⟨hinvalid, other, hother, hblock⟩)
      · exact Or.inl hstart
      · rcases List.mem_append.mp hother with hother | hother
        · exact Or.inr ⟨hinvalid, other, hother, hblock⟩
        · rw [List.mem_singleton.mp hother] at hblock
          rw [← hblock] at hinvalid
          exact absurd hinvalid hvalid
  shared hunmarked := by
    obtain ⟨hcomputed, hseen⟩ := h.shared hunmarked
    refine ⟨hcomputed, ?_⟩
    intro other hother hinvalid
    rcases List.mem_append.mp hother with hother | hother
    · exact hseen other hother hinvalid
    · rw [List.mem_singleton.mp hother] at hinvalid
      exact absurd hinvalid hvalid
  first hmarked := by
    obtain ⟨cut, hcut, hinvalid, hfresh, hcomputed, hevicted, hfirst⟩ := h.first hmarked
    refine ⟨cut, List.mem_append_left _ hcut, hinvalid, hfresh, hcomputed, hevicted, ?_⟩
    intro other hother hother' hfresh'
    rcases List.mem_append.mp hother with hother | hother
    · exact hfirst other hother hother' hfresh'
    · rw [List.mem_singleton.mp hother] at hother'
      exact absurd hother' hvalid
  evicted := h.evicted

/-- A block that is marked already. -/
theorem known (h : Scanned self invalidBlockIds reqBlockIds evictBlocks start seen scan)
    (hlast : ∀ other ∈ seen, other.2 ≤ entry.2) (hinvalid : entry.1 ∈ invalidBlockIds)
    (hmarked : entry.1 ∈ scan.markedInvalidBlockIds) :
    Scanned self invalidBlockIds reqBlockIds evictBlocks start (seen ++ [entry])
      { scan with isAffected := true } where
  affected := by
    simp only [List.mem_append, List.mem_singleton, true_iff]
    exact ⟨entry, Or.inr rfl, hinvalid⟩
  marked block := by
    rw [h.marked]
    constructor
    · rintro (hstart | ⟨hinvalid, other, hother, hblock⟩)
      · exact Or.inl hstart
      · exact Or.inr ⟨hinvalid, other, List.mem_append_left _ hother, hblock⟩
    · rintro (hstart | ⟨hinvalid, other, hother, hblock⟩)
      · exact Or.inl hstart
      · rcases List.mem_append.mp hother with hother | hother
        · exact Or.inr ⟨hinvalid, other, hother, hblock⟩
        · rw [List.mem_singleton.mp hother] at hblock
          rw [← hblock]
          exact (h.marked entry.1).mp hmarked
  shared hunmarked := by
    obtain ⟨hcomputed, hseen⟩ := h.shared hunmarked
    refine ⟨hcomputed, ?_⟩
    intro other hother hother'
    rcases List.mem_append.mp hother with hother | hother
    · exact hseen other hother hother'
    · rw [List.mem_singleton.mp hother]
      rcases (h.marked entry.1).mp hmarked with hstart | ⟨_, same, hsame, hblock⟩
      · exact hstart
      · rw [← hblock] at hinvalid ⊢
        exact hseen same hsame hinvalid
  first hcutting := by
    obtain ⟨cut, hcut, hcutInvalid, hfresh, hcomputed, hevicted, hfirst⟩ := h.first hcutting
    refine ⟨cut, List.mem_append_left _ hcut, hcutInvalid, hfresh, hcomputed, hevicted, ?_⟩
    intro other hother hother' hfresh'
    rcases List.mem_append.mp hother with hother | hother
    · exact hfirst other hother hother' hfresh'
    · rw [List.mem_singleton.mp hother]
      exact hlast cut hcut
  evicted := h.evicted

theorem mem_marked_append (h : Scanned self invalidBlockIds reqBlockIds evictBlocks start seen scan)
    (hinvalid : entry.1 ∈ invalidBlockIds) (block : Nat) :
    block ∈ scan.markedInvalidBlockIds ++ [entry.1] ↔ block ∈ start.markedInvalidBlockIds ∨
      (block ∈ invalidBlockIds ∧ ∃ other ∈ seen ++ [entry], other.1 = block) := by
  rw [List.mem_append, List.mem_singleton, h.marked]
  constructor
  · rintro ((hstart | ⟨hblock, other, hother, heq⟩) | rfl)
    · exact Or.inl hstart
    · exact Or.inr ⟨hblock, other, List.mem_append_left _ hother, heq⟩
    · exact Or.inr ⟨hinvalid, entry, by simp, rfl⟩
  · rintro (hstart | ⟨hblock, other, hother, heq⟩)
    · exact Or.inl (Or.inl hstart)
    · rcases List.mem_append.mp hother with hother | hother
      · exact Or.inl (Or.inr ⟨hblock, other, hother, heq⟩)
      · rw [List.mem_singleton.mp hother] at heq
        exact Or.inr heq.symm

/-- A second block that is marked for this request. -/
theorem further (h : Scanned self invalidBlockIds reqBlockIds evictBlocks start seen scan)
    (hlast : ∀ other ∈ seen, other.2 ≤ entry.2) (hinvalid : entry.1 ∈ invalidBlockIds)
    (hcutting : scan.markedInvalidBlock = true) :
    Scanned self invalidBlockIds reqBlockIds evictBlocks start (seen ++ [entry])
      { scan with
        isAffected := true
        markedInvalidBlockIds := scan.markedInvalidBlockIds ++ [entry.1] } where
  affected := by
    simp only [List.mem_append, List.mem_singleton, true_iff]
    exact ⟨entry, Or.inr rfl, hinvalid⟩
  marked := h.mem_marked_append hinvalid
  shared hunmarked := by
    rw [hcutting] at hunmarked
    cases hunmarked
  first _ := by
    obtain ⟨cut, hcut, hcutInvalid, hfresh, hcomputed, hevicted, hfirst⟩ := h.first hcutting
    refine ⟨cut, List.mem_append_left _ hcut, hcutInvalid, hfresh, hcomputed, hevicted, ?_⟩
    intro other hother hother' hfresh'
    rcases List.mem_append.mp hother with hother | hother
    · exact hfirst other hother hother' hfresh'
    · rw [List.mem_singleton.mp hother]
      exact hlast cut hcut
  evicted := h.evicted

/-- The first block that is marked for this request: the computed tokens are cut. -/
theorem cut (h : Scanned self invalidBlockIds reqBlockIds evictBlocks start seen scan)
    (hinvalid : entry.1 ∈ invalidBlockIds) (hfresh : entry.1 ∉ scan.markedInvalidBlockIds)
    (hunmarked : scan.markedInvalidBlock = false) :
    Scanned self invalidBlockIds reqBlockIds evictBlocks start (seen ++ [entry])
      { isAffected := true
        markedInvalidBlock := true
        markedInvalidBlockIds := scan.markedInvalidBlockIds ++ [entry.1]
        numComputedTokens := entry.2 * self.blockSize
        blocksToEvict :=
          if evictBlocks then scan.blocksToEvict ++ reqBlockIds.drop entry.2
          else scan.blocksToEvict } where
  affected := by
    simp only [List.mem_append, List.mem_singleton, true_iff]
    exact ⟨entry, Or.inr rfl, hinvalid⟩
  marked := h.mem_marked_append hinvalid
  shared hfalse := by cases hfalse
  first _ := by
    refine ⟨entry, by simp, hinvalid, ?_, rfl, ?_, ?_⟩
    · intro hstart
      exact hfresh ((h.marked entry.1).mpr (Or.inl hstart))
    · intro hevict block hblock
      rw [if_pos hevict]
      exact List.mem_append_right _ hblock
    · intro other hother hother' hfresh'
      rcases List.mem_append.mp hother with hother | hother
      · exact absurd ((h.shared hunmarked).2 other hother hother') hfresh'
      · rw [List.mem_singleton.mp hother]
  evicted block hblock := by
    dsimp only
    split
    · exact List.mem_append_left _ (h.evicted block hblock)
    · exact h.evicted block hblock

/-- **Step lemma.** -/
theorem next (h : Scanned self invalidBlockIds reqBlockIds evictBlocks start seen scan)
    (hlast : ∀ other ∈ seen, other.2 ≤ entry.2) :
    Scanned self invalidBlockIds reqBlockIds evictBlocks start (seen ++ [entry])
      (self.scanBlock invalidBlockIds reqBlockIds evictBlocks scan entry) := by
  unfold scanBlock
  by_cases hinvalid : entry.1 ∈ invalidBlockIds
  · rw [if_neg (not_not.mpr hinvalid)]
    by_cases hmarked : entry.1 ∈ scan.markedInvalidBlockIds
    · rw [if_pos hmarked]
      exact h.known hlast hinvalid hmarked
    · rw [if_neg hmarked]
      by_cases hcutting : scan.markedInvalidBlock = true
      · rw [if_pos hcutting]
        exact h.further hlast hinvalid hcutting
      · rw [if_neg hcutting]
        exact h.cut hinvalid hmarked (Bool.not_eq_true _ ▸ hcutting)
  · rw [if_pos hinvalid]
    exact h.valid hinvalid

end Scanned

/-- The places of the blocks ascend. -/
theorem places_le {blocks : List Nat} {n : Nat} {seen rest : List (Nat × Nat)}
    {entry other : Nat × Nat} (h : blocks.zipIdx.take n = seen ++ entry :: rest)
    (hother : other ∈ seen) : other.2 ≤ entry.2 := by
  have hplace : ∀ (i : Nat) (e : Nat × Nat), (seen ++ entry :: rest)[i]? = some e → e.2 = i := by
    intro i e he
    rw [← h, List.getElem?_take] at he
    split at he
    · rw [List.getElem?_zipIdx, Option.map_eq_some_iff] at he
      obtain ⟨block, _, rfl⟩ := he
      exact Nat.zero_add i
    · cases he
  obtain ⟨i, hi⟩ := List.getElem?_of_mem hother
  obtain ⟨hlength, _⟩ := List.getElem?_eq_some_iff.mp hi
  have hentry : entry.2 = seen.length := hplace _ _ (by simp)
  have hearlier : other.2 = i := hplace i other (by rw [List.getElem?_append_left hlength, hi])
  omega

/-- **The scan of one request.** -/
theorem scan_scanned (invalidBlockIds reqBlockIds : List Nat) (evictBlocks : Bool)
    (start : InvalidScan) (hstart : start.isAffected = false)
    (hunmarked : start.markedInvalidBlock = false) (n : Nat) :
    Scanned self invalidBlockIds reqBlockIds evictBlocks start (reqBlockIds.zipIdx.take n)
      ((reqBlockIds.zipIdx.take n).foldl
        (self.scanBlock invalidBlockIds reqBlockIds evictBlocks) start) := by
  apply foldl_visited
    (I := fun seen scan =>
      Scanned self invalidBlockIds reqBlockIds evictBlocks start seen scan)
  · constructor
    · simp [hstart]
    · simp
    · simp
    · simp [hunmarked]
    · exact fun _ hblock => hblock
  · intro seen entry rest scan hitems hscanned
    exact hscanned.next fun other hother => places_le hitems hother

theorem mem_drop_of_mem {blocks : List Nat} {n : Nat} {entry : Nat × Nat} {place : Nat}
    (h : entry ∈ blocks.zipIdx.take n) (hplace : place ≤ entry.2) :
    entry.1 ∈ blocks.drop place := by
  have hblock := List.mem_zipIdx_iff_getElem?.mp (List.mem_of_mem_take h)
  apply List.mem_of_getElem?
  rw [List.getElem?_drop, Nat.add_sub_cancel' hplace]
  exact hblock

/-- What lies before the last blocks is less than what was computed. -/
theorem place_le_loaded (hsize : 0 < self.blockSize) {numScheduledTokens : Dict RequestId Int}
    {s : SchedulerState W} {x : Ref} {entry : Nat × Nat}
    (h : entry ∈ self.loadedBlocks numScheduledTokens s x) :
    entry.2 * self.blockSize ≤ loadedTokens numScheduledTokens (s.objs x) := by
  have hplace := place_lt h
  have hblocks : (entry.2 : Int) + 1 ≤
      (loadedTokens numScheduledTokens (s.objs x) + self.blockSize - 1) / self.blockSize := by
    omega
  have hbound := (Int.le_ediv_iff_mul_le hsize).mp hblocks
  rw [Int.add_mul] at hbound
  omega

/-! ## 3. The requests in turn -/

section
variable {invalidBlockIds : List Nat} {numScheduledTokens : Dict RequestId Int}
  {evictBlocks : Bool} {s : SchedulerState W}

/-- Some of the requests were visited. -/
structure Visited (scheduler : Scheduler W) (invalidBlockIds : List Nat)
    (numScheduledTokens : Dict RequestId Int) (evictBlocks : Bool) (s : SchedulerState W)
    (visited : List Ref) (acc : InvalidBlocks) (objs : Ref → Request) : Prop where
  rescued : Rescued scheduler invalidBlockIds numScheduledTokens s visited acc.affectedReqIds objs
  others : ∀ x ∉ visited, objs x = s.objs x
  marked : ∀ block, block ∈ acc.markedInvalidBlockIds ↔ block ∈ invalidBlockIds ∧
    ∃ y ∈ visited, ∃ entry ∈ scheduler.loadedBlocks numScheduledTokens s y, entry.1 = block
  computed : ∀ block ∈ acc.markedInvalidBlockIds, ∃ y ∈ visited,
    ∃ entry ∈ scheduler.loadedBlocks numScheduledTokens s y, entry.1 = block ∧
      (objs y).numComputedTokens ≤ entry.2 * scheduler.blockSize
  evicted : evictBlocks = true → ∀ y ∈ visited,
    ∀ entry ∈ scheduler.loadedBlocks numScheduledTokens s y, entry.1 ∈ invalidBlockIds →
      entry.1 ∈ acc.blocksToEvict

/-- The request after its scan. -/
def rescanned (scan : InvalidScan) (r : Request) : Request :=
  if scan.isAffected then { r with numComputedTokens := scan.numComputedTokens } else r

theorem split_snoc {visited earlier later : List Ref} {x y : Ref}
    (h : visited ++ [x] = earlier ++ y :: later) :
    (earlier = visited ∧ y = x) ∨ ∃ rest, visited = earlier ++ y :: rest := by
  rcases List.eq_nil_or_concat later with rfl | ⟨rest, last, rfl⟩
  · obtain ⟨rfl, hlast⟩ := List.append_inj' h rfl
    cases hlast
    exact Or.inl ⟨rfl, rfl⟩
  · rw [List.concat_eq_append, ← List.cons_append, ← List.append_assoc] at h
    exact Or.inr ⟨rest, (List.append_inj' h rfl).1⟩

/-- The scan of a request that was not visited yet. -/
structure ScansNext (scheduler : Scheduler W) (invalidBlockIds : List Nat)
    (numScheduledTokens : Dict RequestId Int) (evictBlocks : Bool) (s : SchedulerState W)
    (visited : List Ref) (acc : InvalidBlocks) (x : Ref) (reqBlockIds : List Nat) (n : Nat)
    (scan : InvalidScan) : Prop where
  fresh : x ∉ visited
  loaded : scheduler.loadedBlocks numScheduledTokens s x = reqBlockIds.zipIdx.take n
  scanned : Scanned scheduler invalidBlockIds reqBlockIds evictBlocks
    { isAffected := false
      markedInvalidBlock := false
      markedInvalidBlockIds := acc.markedInvalidBlockIds
      numComputedTokens := loadedTokens numScheduledTokens (s.objs x)
      blocksToEvict := acc.blocksToEvict }
    (scheduler.loadedBlocks numScheduledTokens s x) scan

namespace ScansNext

variable {visited : List Ref} {acc : InvalidBlocks} {objs : Ref → Request} {x : Ref}
  {reqBlockIds : List Nat} {n : Nat} {scan : InvalidScan}

theorem stricken (h : ScansNext self invalidBlockIds numScheduledTokens evictBlocks s visited acc x
      reqBlockIds n scan) :
    scan.isAffected = true ↔ self.Stricken invalidBlockIds numScheduledTokens s x :=
  h.scanned.affected

theorem rescanned_eq (h : ScansNext self invalidBlockIds numScheduledTokens evictBlocks s visited
      acc x reqBlockIds n scan)
    (hx : self.Stricken invalidBlockIds numScheduledTokens s x) :
    rescanned scan (s.objs x) =
      { s.objs x with numComputedTokens := scan.numComputedTokens } :=
  if_pos (h.stricken.mpr hx)

theorem others_same (h : ScansNext self invalidBlockIds numScheduledTokens evictBlocks s visited
      acc x reqBlockIds n scan) {y : Ref} (hy : y ∈ visited) :
    Function.update objs x (rescanned scan (s.objs x)) y = objs y := by
  apply Function.update_of_ne
  rintro rfl
  exact h.fresh hy

/-- A block that is marked for this request lies behind its computed tokens. -/
theorem behind (hsize : 0 < self.blockSize)
    (h : ScansNext self invalidBlockIds numScheduledTokens evictBlocks s visited acc x
      reqBlockIds n scan)
    {entry : Nat × Nat} (hentry : entry ∈ self.loadedBlocks numScheduledTokens s x)
    (hinvalid : entry.1 ∈ invalidBlockIds) (hfresh : entry.1 ∉ acc.markedInvalidBlockIds) :
    scan.numComputedTokens ≤ entry.2 * self.blockSize ∧
      (evictBlocks = true → entry.1 ∈ scan.blocksToEvict) := by
  cases hcutting : scan.markedInvalidBlock with
  | false => exact absurd ((h.scanned.shared hcutting).2 entry hentry hinvalid) hfresh
  | true =>
    obtain ⟨cut, _, _, _, hcomputed, hevicted, hfirst⟩ := h.scanned.first hcutting
    have hle := hfirst entry hentry hinvalid hfresh
    constructor
    · rw [hcomputed]
      exact Int.mul_le_mul_of_nonneg_right (by exact_mod_cast hle) hsize.le
    · intro hevict
      apply hevicted hevict
      rw [h.loaded] at hentry
      exact mem_drop_of_mem hentry hle

/-- The request is cut at a block that only it computes, or not at all. -/
theorem cut_or_kept (h : ScansNext self invalidBlockIds numScheduledTokens evictBlocks s visited
      acc x reqBlockIds n scan) :
    scan.numComputedTokens = loadedTokens numScheduledTokens (s.objs x) ∨
      ∃ entry ∈ self.loadedBlocks numScheduledTokens s x, entry.1 ∈ invalidBlockIds ∧
        scan.numComputedTokens = entry.2 * self.blockSize ∧
        entry.1 ∉ acc.markedInvalidBlockIds := by
  cases hcutting : scan.markedInvalidBlock with
  | false => exact Or.inl (h.scanned.shared hcutting).1
  | true =>
    obtain ⟨cut, hcut, hinvalid, hfresh, hcomputed, _⟩ := h.scanned.first hcutting
    exact Or.inr ⟨cut, hcut, hinvalid, hcomputed, hfresh⟩

/-- **Step lemma**, for the requests. -/
theorem rescued (hsize : 0 < self.blockSize)
    (h : ScansNext self invalidBlockIds numScheduledTokens evictBlocks s visited acc x
      reqBlockIds n scan)
    (hvisited : Visited self invalidBlockIds numScheduledTokens evictBlocks s visited acc objs) :
    Rescued self invalidBlockIds numScheduledTokens s (visited ++ [x])
      (if scan.isAffected then acc.affectedReqIds.insert (s.objs x).requestId
        else acc.affectedReqIds)
      (Function.update objs x (rescanned scan (s.objs x))) where
  affected reqId := by
    have hbefore := hvisited.rescued.affected reqId
    by_cases hx : self.Stricken invalidBlockIds numScheduledTokens s x
    · rw [if_pos (h.stricken.mpr hx), List.mem_insert_iff, hbefore]
      simp only [List.mem_append, List.mem_singleton, or_and_right, exists_or, exists_eq_left, hx,
        true_and]
      rw [or_comm, eq_comm]
    · rw [if_neg (fun haffected => hx (h.stricken.mp haffected)), hbefore]
      simp only [List.mem_append, List.mem_singleton, or_and_right, exists_or, exists_eq_left, hx,
        false_and, or_false]
  spared y hy hspared := by
    rcases List.mem_append.mp hy with hy | hy
    · rw [h.others_same hy]
      exact hvisited.rescued.spared y hy hspared
    · rw [List.mem_singleton.mp hy] at hspared ⊢
      rw [Function.update_self, rescanned, if_neg]
      exact fun haffected => hspared (h.stricken.mp haffected)
  shortened y hy hstricken := by
    rcases List.mem_append.mp hy with hy | hy
    · rw [h.others_same hy]
      exact hvisited.rescued.shortened y hy hstricken
    · rw [List.mem_singleton.mp hy] at hstricken ⊢
      rw [Function.update_self, h.rescanned_eq hstricken]
      refine ⟨scan.numComputedTokens, ?_, rfl⟩
      rcases h.cut_or_kept with hkept | ⟨entry, hentry, _, hcut, _⟩
      · exact hkept.le
      · rw [hcut]
        exact place_le_loaded hsize hentry
  recomputed earlier y later hsplit entry hentry hinvalid hcounted := by
    rcases split_snoc hsplit with ⟨rfl, rfl⟩ | ⟨rest, hbefore⟩
    · have hstricken : self.Stricken invalidBlockIds numScheduledTokens s y :=
        ⟨entry, hentry, hinvalid⟩
      rw [Function.update_self, h.rescanned_eq hstricken] at hcounted
      have hmarked : entry.1 ∈ acc.markedInvalidBlockIds := by
        by_contra hfresh
        have hbehind := (h.behind hsize hentry hinvalid hfresh).1
        exact absurd hcounted hbehind.not_gt
      obtain ⟨z, hz, other, hother, hsame, hcomputed⟩ := hvisited.computed entry.1 hmarked
      refine ⟨z, hz, other, hother, hsame, ?_⟩
      rw [h.others_same hz]
      exact hcomputed
    · have hmem : ∀ z ∈ earlier, z ∈ visited := fun z hz => by simp [hbefore, hz]
      rw [h.others_same (by simp [hbefore])] at hcounted
      obtain ⟨z, hz, other, hother, hsame, hcomputed⟩ :=
        hvisited.rescued.recomputed earlier y rest hbefore entry hentry hinvalid hcounted
      refine ⟨z, hz, other, hother, hsame, ?_⟩
      rw [h.others_same (hmem z hz)]
      exact hcomputed
  kept earlier y later hsplit hstricken := by
    rcases split_snoc hsplit with ⟨rfl, rfl⟩ | ⟨rest, hbefore⟩
    · rw [Function.update_self, h.rescanned_eq hstricken]
      rcases h.cut_or_kept with hkept | ⟨entry, hentry, hinvalid, hcut, hfresh⟩
      · exact Or.inl hkept
      · refine Or.inr ⟨entry, hentry, hinvalid, hcut, ?_⟩
        intro z hz other hother hsame
        exact hfresh ((hvisited.marked entry.1).mpr ⟨hinvalid, z, hz, other, hother, hsame⟩)
    · rw [h.others_same (by simp [hbefore])]
      exact hvisited.rescued.kept earlier y rest hbefore hstricken

/-- **Step lemma.** -/
theorem next (hsize : 0 < self.blockSize)
    (h : ScansNext self invalidBlockIds numScheduledTokens evictBlocks s visited acc x
      reqBlockIds n scan)
    (hvisited : Visited self invalidBlockIds numScheduledTokens evictBlocks s visited acc objs) :
    Visited self invalidBlockIds numScheduledTokens evictBlocks s (visited ++ [x])
      { affectedReqIds :=
          if scan.isAffected then acc.affectedReqIds.insert (s.objs x).requestId
          else acc.affectedReqIds
        blocksToEvict := scan.blocksToEvict
        markedInvalidBlockIds := scan.markedInvalidBlockIds }
      (Function.update objs x (rescanned scan (s.objs x))) where
  rescued := h.rescued hsize hvisited
  others y hy := by
    simp only [List.mem_append, List.mem_singleton, not_or] at hy
    rw [Function.update_of_ne hy.2]
    exact hvisited.others y hy.1
  marked block := by
    dsimp only
    rw [h.scanned.marked, hvisited.marked]
    simp only [List.mem_append, List.mem_singleton, or_and_right, exists_or, exists_eq_left,
      and_or_left]
  computed block hblock := by
    by_cases hmarked : block ∈ acc.markedInvalidBlockIds
    · obtain ⟨y, hy, entry, hentry, hsame, hcomputed⟩ := hvisited.computed block hmarked
      refine ⟨y, List.mem_append_left _ hy, entry, hentry, hsame, ?_⟩
      rw [h.others_same hy]
      exact hcomputed
    · obtain ⟨hinvalid, entry, hentry, rfl⟩ :=
        ((h.scanned.marked block).mp hblock).resolve_left hmarked
      refine ⟨x, by simp, entry, hentry, rfl, ?_⟩
      rw [Function.update_self, h.rescanned_eq ⟨entry, hentry, hinvalid⟩]
      exact (h.behind hsize hentry hinvalid hmarked).1
  evicted hevict y hy entry hentry hinvalid := by
    have hseen : entry.1 ∈ acc.markedInvalidBlockIds → entry.1 ∈ scan.blocksToEvict := by
      intro hmarked
      obtain ⟨_, z, hz, other, hother, hsame⟩ := (hvisited.marked entry.1).mp hmarked
      rw [← hsame] at hinvalid ⊢
      exact h.scanned.evicted _ (hvisited.evicted hevict z hz other hother hinvalid)
    rcases List.mem_append.mp hy with hy | hy
    · exact h.scanned.evicted _ (hvisited.evicted hevict y hy entry hentry hinvalid)
    · rw [List.mem_singleton.mp hy] at hentry
      by_cases hmarked : entry.1 ∈ acc.markedInvalidBlockIds
      · exact hseen hmarked
      · exact (h.behind hsize hentry hinvalid hmarked).2 hevict

end ScansNext

/-- **The scan of the requests.** -/
theorem rescan_visited (hsize : 0 < self.blockSize) (invalidBlockIds : List Nat)
    (numScheduledTokens : Dict RequestId Int) (evictBlocks : Bool) (s : SchedulerState W)
    {requests : List Ref} (hnodup : requests.Nodup) :
    wp (requests.foldlM
        (self.updateRequestWithInvalidBlocks invalidBlockIds numScheduledTokens evictBlocks)
        { affectedReqIds := [], blocksToEvict := [], markedInvalidBlockIds := [] })
      (fun acc s' => ∃ objs, s' = { s with objs } ∧
        Visited self invalidBlockIds numScheduledTokens evictBlocks s requests acc objs)
      (fun _ _ => True) s := by
  apply wp_foldlM_visited (E := fun _ (_ : SchedulerState W) => True)
    (I := fun visited acc (s' : SchedulerState W) => ∃ objs, s' = { s with objs } ∧
      Visited self invalidBlockIds numScheduledTokens evictBlocks s visited acc objs)
  · rintro visited x rest acc _ hitems ⟨objs, rfl, hvisited⟩
    have hfresh : x ∉ visited := by
      rw [hitems] at hnodup
      intro hx
      exact List.disjoint_of_nodup_append hnodup hx List.mem_cons_self
    have hsame : objs x = s.objs x := hvisited.others x hfresh
    unfold updateRequestWithInvalidBlocks
    rw [wp_bind, wp_get]
    dsimp only
    rw [hsame]
    split
    swap
    · exact trivial
    rename_i reqBlockIds hblocks
    generalize hscan : List.foldl _ _ _ = scan
    have hloaded : self.loadedBlocks numScheduledTokens s x = reqBlockIds.zipIdx.take
        ((loadedTokens numScheduledTokens (s.objs x) + self.blockSize - 1) /
          self.blockSize).toNat := by
      unfold loadedBlocks
      rw [hblocks]
      rfl
    have hnext : ScansNext self invalidBlockIds numScheduledTokens evictBlocks s visited acc x
        reqBlockIds ((loadedTokens numScheduledTokens (s.objs x) + self.blockSize - 1) /
          self.blockSize).toNat scan := by
      constructor
      · exact hfresh
      · exact hloaded
      · rw [hloaded, ← hscan]
        exact scan_scanned invalidBlockIds reqBlockIds evictBlocks _ rfl rfl _
    have hafter := hnext.next hsize hvisited
    rw [wp_bind, wp_onlyIf]
    constructor
    · intro haffected
      rw [wp_modifyRequest, wp_pure]
      refine ⟨_, ?_, hafter⟩
      simp [SchedulerState.updateRequest, rescanned, haffected, hsame]
    · intro hspared
      rw [wp_pure]
      refine ⟨_, ?_, hafter⟩
      rw [rescanned, if_neg hspared, ← hsame, Function.update_eq_self]
  · refine ⟨s.objs, rfl, ?_⟩
    constructor
    · constructor
      · simp
      · simp
      · simp
      · intro earlier x later hsplit
        simp at hsplit
      · intro earlier x later hsplit
        simp at hsplit
    · exact fun _ _ => rfl
    · simp
    · simp
    · simp

end

/-! ## 4. The whole call -/

variable {invalidBlockIds : List Nat} {numScheduledTokens : Dict RequestId Int}
  {s s' : SchedulerState W}

/-- The requests that wait for an asynchronous load. -/
def asyncLoadReqs (self : Scheduler W) (s : SchedulerState W) : List Ref :=
  (self.requestQueue.iter s.objs s.skippedWaiting).filter fun x =>
    (s.objs x).status = .waitingForRemoteKvs

/-- The blocks that fail affect the requests that load them and those that run, each list
    for itself. -/
structure Recovers (scheduler : Scheduler W) (invalidBlockIds : List Nat)
    (numScheduledTokens : Dict RequestId Int) (s : SchedulerState W)
    (asyncFailed syncFailed failed : List RequestId) (s' : SchedulerState W) : Prop where
  async : Rescued scheduler invalidBlockIds numScheduledTokens s (scheduler.asyncLoadReqs s)
    asyncFailed s'.objs
  sync : Rescued scheduler invalidBlockIds numScheduledTokens s s.running syncFailed s'.objs
  others : ∀ x, x ∉ scheduler.asyncLoadReqs s → x ∉ s.running → s'.objs x = s.objs x
  failed : failed = if scheduler.recomputeKvLoadFailures then syncFailed
    else asyncFailed ∪ syncFailed
  retried : ∀ reqId, reqId ∈ s'.failedRecvingKvReqIds ↔ reqId ∈ s.failedRecvingKvReqIds ∨
    (scheduler.recomputeKvLoadFailures = true ∧ reqId ∈ asyncFailed)
  /-- Without the recompute policy no invalid block of a running request stays cached. -/
  evicted : s'.world = s.world ∧ (scheduler.recomputeKvLoadFailures = true ∨ syncFailed = []) ∨
    scheduler.recomputeKvLoadFailures = false ∧ ∃ blocks,
      s'.world = scheduler.externals.evictBlocks s.world blocks ∧ ∀ x ∈ s.running,
        ∀ entry ∈ scheduler.loadedBlocks numScheduledTokens s x, entry.1 ∈ invalidBlockIds →
          entry.1 ∈ blocks
  queues : s'.running = s.running ∧ s'.waiting = s.waiting ∧
    s'.skippedWaiting = s.skippedWaiting ∧ s'.requests = s.requests

/-- Only the requests of the list count. -/
theorem Rescued.congr {start : SchedulerState W} {requests : List Ref} {affected : List RequestId}
    {objs objs' : Ref → Request}
    (h : Rescued self invalidBlockIds numScheduledTokens start requests affected objs)
    (hworld : s.world = start.world) (hstart : ∀ x ∈ requests, s.objs x = start.objs x)
    (hobjs : ∀ x ∈ requests, objs' x = objs x) :
    Rescued self invalidBlockIds numScheduledTokens s requests affected objs' := by
  have hloaded : ∀ x ∈ requests, self.loadedBlocks numScheduledTokens s x =
      self.loadedBlocks numScheduledTokens start x := by
    intro x hx
    unfold loadedBlocks
    rw [hworld, hstart x hx]
  have hstricken : ∀ x ∈ requests, self.Stricken invalidBlockIds numScheduledTokens s x ↔
      self.Stricken invalidBlockIds numScheduledTokens start x := by
    intro x hx
    unfold Stricken
    rw [hloaded x hx]
  constructor
  · intro reqId
    rw [h.affected]
    apply exists_congr
    intro x
    refine and_congr_right fun hx => ?_
    rw [hstricken x hx, hstart x hx]
  · intro x hx hspared
    rw [hobjs x hx, hstart x hx]
    exact h.spared x hx fun hhit => hspared ((hstricken x hx).mpr hhit)
  · intro x hx hhit
    rw [hobjs x hx, hstart x hx]
    exact h.shortened x hx ((hstricken x hx).mp hhit)
  · intro earlier x later hsplit entry hentry hinvalid hcounted
    have hx : x ∈ requests := by simp [hsplit]
    rw [hloaded x hx] at hentry
    rw [hobjs x hx] at hcounted
    obtain ⟨y, hy, other, hother, hsame, hbehind⟩ :=
      h.recomputed earlier x later hsplit entry hentry hinvalid hcounted
    have hy' : y ∈ requests := by simp [hsplit, hy]
    refine ⟨y, hy, other, ?_, hsame, ?_⟩
    · rw [hloaded y hy']
      exact hother
    · rw [hobjs y hy']
      exact hbehind
  · intro earlier x later hsplit hhit
    have hx : x ∈ requests := by simp [hsplit]
    rw [hobjs x hx, hstart x hx, hloaded x hx]
    rcases h.kept earlier x later hsplit ((hstricken x hx).mp hhit) with hkept | hcut
    · exact Or.inl hkept
    · obtain ⟨entry, hentry, hinvalid, hcut, hfresh⟩ := hcut
      refine Or.inr ⟨entry, hentry, hinvalid, hcut, ?_⟩
      intro y hy other hother
      have hy' : y ∈ requests := by simp [hsplit, hy]
      rw [hloaded y hy'] at hother
      exact hfresh y hy other hother

/-- A registered request with an affected id is affected. -/
theorem Rescued.stricken {requests : List Ref} {affected : List RequestId} {objs : Ref → Request}
    (h : Rescued self invalidBlockIds numScheduledTokens s requests affected objs)
    (hregistered : ∀ y ∈ requests, s.requests.get? (s.objs y).requestId = some y) {x : Ref}
    (hx : s.requests.get? (s.objs x).requestId = some x) (hmem : (s.objs x).requestId ∈ affected) :
    self.Stricken invalidBlockIds numScheduledTokens s x := by
  obtain ⟨y, hy, hhit, hid⟩ := (h.affected _).mp hmem
  have hsame := hregistered y hy
  rw [hid, hx] at hsame
  rw [Option.some.inj hsame]
  exact hhit

/-- Which requests fail. -/
theorem Recovers.mem_failed {asyncFailed syncFailed failed : List RequestId}
    (h : Recovers self invalidBlockIds numScheduledTokens s asyncFailed syncFailed failed s')
    (hregistered : ∀ x, x ∈ s.running ∨ x ∈ self.asyncLoadReqs s →
      s.requests.get? (s.objs x).requestId = some x) {x : Ref}
    (hx : x ∈ s.running ∨ (self.recomputeKvLoadFailures = false ∧ x ∈ self.asyncLoadReqs s)) :
    (s.objs x).requestId ∈ failed ↔ self.Stricken invalidBlockIds numScheduledTokens s x := by
  have hget := hregistered x (hx.imp_right And.right)
  have hsync := h.sync.stricken (fun y hy => hregistered y (Or.inl hy)) hget
  have hasync := h.async.stricken (fun y hy => hregistered y (Or.inr hy)) hget
  rw [h.failed]
  constructor
  · split
    · exact hsync
    · intro hmem
      exact (List.mem_union_iff.mp hmem).elim hasync hsync
  · intro hhit
    rcases hx with hx | ⟨hpolicy, hx⟩
    · have hmem := (h.sync.affected _).mpr ⟨x, hx, hhit, rfl⟩
      split
      · exact hmem
      · exact List.mem_union_iff.mpr (Or.inr hmem)
    · rw [hpolicy, if_neg Bool.false_ne_true]
      exact List.mem_union_iff.mpr (Or.inl ((h.async.affected _).mpr ⟨x, hx, hhit, rfl⟩))

/-- Nothing but the computed tokens changes. -/
theorem Recovers.cut {asyncFailed syncFailed failed : List RequestId}
    (h : Recovers self invalidBlockIds numScheduledTokens s asyncFailed syncFailed failed s')
    (x : Ref) : ∃ numComputedTokens, s'.objs x = { s.objs x with numComputedTokens } := by
  have hcut : ∀ requests affected,
      Rescued self invalidBlockIds numScheduledTokens s requests affected s'.objs →
        x ∈ requests → ∃ numComputedTokens, s'.objs x = { s.objs x with numComputedTokens } := by
    intro requests affected hrescued hx
    by_cases hhit : self.Stricken invalidBlockIds numScheduledTokens s x
    · obtain ⟨numComputedTokens, _, hcut⟩ := hrescued.shortened x hx hhit
      exact ⟨numComputedTokens, hcut⟩
    · exact ⟨(s.objs x).numComputedTokens, hrescued.spared x hx hhit⟩
  by_cases hrunning : x ∈ s.running
  · exact hcut _ _ h.sync hrunning
  · by_cases hloads : x ∈ self.asyncLoadReqs s
    · exact hcut _ _ h.async hloads
    · exact ⟨(s.objs x).numComputedTokens, h.others x hloads hrunning⟩

/-- **`_handle_invalid_blocks`.** -/
theorem handleInvalidBlocks_recovers (hsize : 0 < self.blockSize)
    (hqueues : (s.running ++ s.skippedWaiting).Nodup) (invalidBlockIds : List Nat)
    (numScheduledTokens : Dict RequestId Int) :
    wp (self.handleInvalidBlocks invalidBlockIds numScheduledTokens)
      (fun failed s' => ∃ asyncFailed syncFailed,
        Recovers self invalidBlockIds numScheduledTokens s asyncFailed syncFailed failed s')
      (fun _ _ => True) s := by
  have hperm := self.requestQueue.iter_perm s.objs s.skippedWaiting
  have hrunning : s.running.Nodup := hqueues.of_append_left
  have hasync : (self.asyncLoadReqs s).Nodup :=
    (hperm.nodup_iff.mpr hqueues.of_append_right).filter _
  have hapart : ∀ x ∈ s.running, x ∉ self.asyncLoadReqs s := by
    intro x hx hload
    have hskipped := hperm.mem_iff.mp (List.mem_of_mem_filter hload)
    exact List.disjoint_of_nodup_append hqueues hx hskipped
  unfold handleInvalidBlocks
  rw [wp_bind, wp_get, wp_bind]
  apply wp_mono (rescan_visited hsize invalidBlockIds numScheduledTokens false s hasync) _
    (fun _ _ _ => trivial)
  rintro asyncAcc _ ⟨objs₁, rfl, hasyncVisited⟩
  rw [wp_bind]
  apply wp_mono (rescan_visited hsize invalidBlockIds numScheduledTokens true _ hrunning) _
    (fun _ _ _ => trivial)
  rintro syncAcc _ ⟨objs₂, rfl, hsyncVisited⟩
  dsimp only at hsyncVisited ⊢
  have hasyncRescued : Rescued self invalidBlockIds numScheduledTokens s (self.asyncLoadReqs s)
      asyncAcc.affectedReqIds objs₂ := by
    apply hasyncVisited.rescued.congr rfl (fun _ _ => rfl)
    exact fun x hx => hsyncVisited.others x fun hx' => hapart x hx' hx
  have hsyncRescued : Rescued self invalidBlockIds numScheduledTokens s s.running
      syncAcc.affectedReqIds objs₂ := by
    apply Rescued.congr (s := s) hsyncVisited.rescued rfl _ (fun _ _ => rfl)
    exact fun x hx => (hasyncVisited.others x (hapart x hx)).symm
  have hothers : ∀ x, x ∉ self.asyncLoadReqs s → x ∉ s.running → objs₂ x = s.objs x := by
    intro x hload hrun
    exact (hsyncVisited.others x hrun).trans (hasyncVisited.others x hload)
  have hloaded : ∀ x ∈ s.running, self.loadedBlocks numScheduledTokens { s with objs := objs₁ } x =
      self.loadedBlocks numScheduledTokens s x := by
    intro x hx
    unfold loadedBlocks
    dsimp only
    rw [hasyncVisited.others x (hapart x hx)]
  have hevicted : ∀ x ∈ s.running, ∀ entry ∈ self.loadedBlocks numScheduledTokens s x,
      entry.1 ∈ invalidBlockIds → entry.1 ∈ syncAcc.blocksToEvict := by
    intro x hx entry hentry hinvalid
    rw [← hloaded x hx] at hentry
    exact hsyncVisited.evicted rfl x hx entry hentry hinvalid
  split
  · rename_i hnone
    obtain ⟨hnoAsync, hnoSync⟩ := hnone
    rw [hnoAsync] at hasyncRescued
    rw [hnoSync] at hsyncRescued
    rw [wp_pure]
    refine ⟨[], [], hasyncRescued, hsyncRescued, hothers, ?_, ?_, Or.inl ⟨rfl, Or.inr rfl⟩,
      rfl, rfl, rfl, rfl⟩
    · simp
    · simp
  rw [wp_bind, wp_onlyIf]
  cases hpolicy : self.recomputeKvLoadFailures with
  | true =>
    refine ⟨fun h => absurd h.2.symm Bool.false_ne_true, fun _ => ?_⟩
    rw [if_neg Bool.false_ne_true.symm, wp_bind, wp_modify, wp_pure]
    refine ⟨_, _, hasyncRescued, hsyncRescued, hothers, ?_, ?_, Or.inl ⟨rfl, Or.inl hpolicy⟩,
      rfl, rfl, rfl, rfl⟩
    · rw [hpolicy, if_pos rfl]
    · intro reqId
      rw [hpolicy, List.mem_union_iff]
      simp
  | false =>
    rw [if_pos rfl]
    constructor
    · intro _
      rw [wp_onWorld, wp_pure]
      refine ⟨_, _, hasyncRescued, hsyncRescued, hothers, ?_, ?_,
        Or.inr ⟨hpolicy, _, rfl, hevicted⟩, rfl, rfl, rfl, rfl⟩
      · rw [hpolicy, if_neg Bool.false_ne_true]
      · simp [hpolicy]
    · intro hnothing
      rw [wp_pure]
      have hempty : syncAcc.blocksToEvict = [] := by simpa using hnothing
      -- a request that is affected has a block to evict
      have hnoSync : syncAcc.affectedReqIds = [] := by
        rw [List.eq_nil_iff_forall_not_mem]
        intro reqId hmem
        obtain ⟨x, hx, ⟨entry, hentry, hinvalid⟩, _⟩ := (hsyncRescued.affected reqId).mp hmem
        have hblock := hevicted x hx entry hentry hinvalid
        rw [hempty] at hblock
        cases hblock
      refine ⟨_, _, hasyncRescued, hsyncRescued, hothers, ?_, ?_,
        Or.inl ⟨rfl, Or.inr hnoSync⟩, rfl, rfl, rfl, rfl⟩
      · rw [hpolicy, if_neg Bool.false_ne_true]
      · simp [hpolicy]

/-! ## 5. The rest of `update_from_output` -/

/-- The requests that are finished get the status. -/
theorem FinishedBy.objs_eq {requestIds : Option (List RequestId)} {finishedStatus : RequestStatus}
    (h : self.FinishedBy requestIds finishedStatus s s') {x : Ref}
    (hx : x ∈ validRequests s requestIds) (hunfinished : (s.objs x).isFinished = false) :
    s'.objs x = { s.objs x with status := finishedStatus } := by
  have hcases : s'.objs x = s.objs x ∨ s'.objs x = { s.objs x with status := finishedStatus } := by
    apply invariant_of_chain (I := fun s' : SchedulerState W => s'.objs x = s.objs x ∨
      s'.objs x = { s.objs x with status := finishedStatus }) _ h.effects (Or.inl rfl)
    intro s₁ s₂ heffect hbefore
    cases heffect with
    | @finish request delayed w finishedRecving failedRecving =>
      dsimp only [afterFree]
      rw [SchedulerState.objs_updateRequest]
      split
      · rename_i heq
        dsimp only
        rw [← heq]
        right
        rcases hbefore with hsame | hsame
        · rw [hsame]
        · rw [hsame]
      · exact hbefore
  rcases hcases with hsame | hdone
  · have hfinished := h.finished x hx
    rw [hsame, hunfinished] at hfinished
    cases hfinished
  · exact hdone

/-- What is sent for a request whose blocks failed to load. -/
def failedOutput (r : Request) : EngineCoreOutput :=
  { requestId := r.requestId
    clientIndex := r.clientIndex
    newTokenIds := []
    finishReason := r.status.getFinishedReason
    stopReason := none }

theorem finishFailedLoads_outputs (hok : RegistryOk s) (failedKvLoadReqIds : List RequestId) :
    wp (self.finishFailedLoads failedKvLoadReqIds)
      (fun outputs s' => self.FinishedBy (some failedKvLoadReqIds) .finishedError s s' ∧
        outputs = (failedKvLoadReqIds.filterMap s.requests.get?).map fun x =>
          failedOutput (s'.objs x))
      (fun _ _ => True) s := by
  unfold finishFailedLoads
  rw [wp_bind, wp_get, wp_bind]
  apply wp_mono (wp_foldlM_visited (E := fun _ (_ : SchedulerState W) => True)
    (I := fun visited requests s' => s' = s ∧ requests = visited.filterMap s.requests.get?)
    ?_ ⟨rfl, rfl⟩) _ (fun _ _ _ => trivial)
  · rintro visited reqId rest requests _ _ ⟨rfl, rfl⟩
    rw [wp_bind, wp_getOrRaise]
    refine ⟨fun x hx => ?_, fun _ => trivial⟩
    rw [wp_pure]
    simp [hx]
  · rintro requests _ ⟨rfl, rfl⟩
    rw [wp_bind]
    apply wp_mono (self.finishRequests_effects _ hok (some failedKvLoadReqIds) .finishedError) _
      (fun _ _ _ => trivial)
    intro _ s' hfinished
    rw [wp_bind, wp_get, wp_pure]
    exact ⟨hfinished, rfl⟩

/-- The transfers that ended do not touch the requests. -/
theorem updateFromKvXferFinished_objs (s : SchedulerState W) (output : KVConnectorOutput) :
    wp (self.updateFromKvXferFinished output) (fun _ s' => s'.objs = s.objs)
      (fun _ _ => True) s := by
  have hfree : ∀ (s₁ : SchedulerState W) request, s₁.objs = s.objs →
      wp (self.freeBlocks request) (fun _ s' => s'.objs = s.objs) (fun _ _ => True) s₁ := by
    intro s₁ request hsame
    apply wp_mono (self.freeBlocks_wp s₁ request) _ (fun _ _ _ => trivial)
    rintro _ s' ⟨_, w, rfl⟩
    exact hsame
  unfold updateFromKvXferFinished
  rw [wp_bind]
  apply wp_mono (TouchesWorld.onlyIf (TouchesWorld.onWorld (Q := fun _ => True) _ trivial) s) _
    (fun _ _ _ => trivial)
  rintro _ s₁ ⟨_, w, rfl⟩
  have hstart : ({ s with world := w } : SchedulerState W).objs = s.objs := rfl
  rw [wp_bind]
  apply wp_mono (wp_forM (E := fun _ (_ : SchedulerState W) => True)
    (I := fun s' => s'.objs = s.objs) ?_ hstart) _ (fun _ _ _ => trivial)
  · intro reqId _ s₂ hsame
    rw [wp_bind, wp_get, wp_bind, wp_getOrRaise]
    refine ⟨fun request _ => ?_, fun _ => trivial⟩
    split
    · exact hsame
    · rw [wp_bind, wp_pyAssert]
      exact ⟨fun _ => hfree s₂ request hsame, fun _ => trivial⟩
  · intro _ s₂ hsame
    apply wp_forM (E := fun _ (_ : SchedulerState W) => True) (I := fun s' => s'.objs = s.objs) _
      hsame
    intro reqId _ s₃ hsame
    rw [wp_bind, wp_get, wp_bind, wp_getOrRaise]
    exact ⟨fun request _ => hfree s₃ request hsame, fun _ => trivial⟩

/-- What `update_from_output` does after `_handle_invalid_blocks` returned `failed` and left the
    state `start`. -/
structure LoadFailureHandled (scheduler : Scheduler W) (out : SchedulerOutput)
    (loaded : KVConnectorOutput) (s : SchedulerState W) (failed : List RequestId)
    (start : SchedulerState W) (outputs : List EngineCoreOutput) (s' : SchedulerState W) :
    Prop where
  recovers : ∃ asyncFailed syncFailed, Recovers scheduler loaded.invalidBlockIds
    out.numScheduledTokens s asyncFailed syncFailed failed start
  /-- The requests that run on an invalid block fail and, without the recompute policy, those
      that load one. -/
  affected : ∀ x, x ∈ s.running ∨
      (scheduler.recomputeKvLoadFailures = false ∧ x ∈ scheduler.asyncLoadReqs s) →
    ((s.objs x).requestId ∈ failed ↔
      scheduler.Stricken loaded.invalidBlockIds out.numScheduledTokens s x)
  /-- With the recompute policy they compute again, and nothing is sent for them. -/
  recomputed : scheduler.recomputeKvLoadFailures = true → ∀ x ∈ s.running,
    (s.objs x).requestId ∈ failed →
      s'.objs x = start.objs x ∧ outputsFor (s.objs x).requestId outputs = []
  /-- Without it they end in an error, which is reported and comes with no token. -/
  reported : scheduler.recomputeKvLoadFailures = false → ∀ x,
    x ∈ s.running ∨ x ∈ scheduler.asyncLoadReqs s → (s.objs x).requestId ∈ failed →
      s'.objs x = { start.objs x with status := .finishedError } ∧
      outputsFor (s.objs x).requestId outputs ≠ [] ∧
      ∀ output ∈ outputsFor (s.objs x).requestId outputs,
        output.newTokenIds = [] ∧ output.finishReason = some .error
  /-- The others get the tokens of the step. -/
  unaffected : ∀ reqId ∉ failed, StreamsFrom start reqId (outputsFor reqId outputs) s'

/-- The first part of `update_from_output`. -/
theorem handleFailedLoads_recovers (hsize : 0 < self.blockSize) (hok : RegistryOk s)
    (hqueues : (s.running ++ s.skippedWaiting).Nodup) (out : SchedulerOutput)
    {mro : ModelRunnerOutput} {loaded : KVConnectorOutput}
    (hload : mro.kvConnectorOutput = some loaded) :
    wp (self.handleFailedLoads out mro)
      (fun failed start => RegistryOk start ∧ ∃ asyncFailed syncFailed,
        Recovers self loaded.invalidBlockIds out.numScheduledTokens s asyncFailed syncFailed
          failed start)
      (fun _ _ => True) s := by
  unfold handleFailedLoads
  rw [hload]
  dsimp only [Option.map_some, Option.getD_some]
  split
  · rename_i hnone
    have hunhurt : ∀ requests, Rescued self loaded.invalidBlockIds out.numScheduledTokens s
        requests [] s.objs := by
      intro requests
      rw [hnone]
      constructor
      · simp [Stricken]
      · exact fun _ _ _ => rfl
      · intro x _ hhit
        simp [Stricken] at hhit
      · intro earlier x later _ entry _ hinvalid
        cases hinvalid
      · intro earlier x later _ hhit
        simp [Stricken] at hhit
    refine ⟨hok, [], [], ?_⟩
    constructor
    · exact hunhurt _
    · exact hunhurt _
    · exact fun _ _ _ => rfl
    · simp
    · simp
    · exact Or.inl ⟨rfl, Or.inr rfl⟩
    · exact ⟨rfl, rfl, rfl, rfl⟩
  · apply wp_mono (wp_and (self.handleInvalidBlocks_wp s loaded.invalidBlockIds
      out.numScheduledTokens) (handleInvalidBlocks_recovers hsize hqueues loaded.invalidBlockIds
        out.numScheduledTokens)) _ (fun _ _ _ => trivial)
    rintro failed start ⟨⟨⟨heffects, _⟩, _⟩, hrecovers⟩
    refine ⟨?_, hrecovers⟩
    exact invariant_of_chain (I := fun s => RegistryOk s)
      (fun _ _ heffect hbefore => heffect.registryOk hbefore) heffects hok

/-- A request that is finished because its blocks failed to load. -/
theorem reported_of_failed (hok : RegistryOk s) {failed : List RequestId} {reqId : RequestId}
    {x : Ref} (hfinished : self.FinishedBy (some failed) .finishedError s s')
    (hmem : reqId ∈ failed) (hget : s.requests.get? reqId = some x)
    (hunfinished : (s.objs x).isFinished = false) :
    s'.objs x = { s.objs x with status := .finishedError } ∧
      outputsFor reqId ((failed.filterMap s.requests.get?).map fun y => failedOutput (s'.objs y)) ≠
        [] ∧
      ∀ output ∈ outputsFor reqId
          ((failed.filterMap s.requests.get?).map fun y => failedOutput (s'.objs y)),
        output.newTokenIds = [] ∧ output.finishReason = some .error := by
  have hx : x ∈ validRequests s (some failed) := by
    apply List.mem_filterMap.mpr
    refine ⟨reqId, List.mem_dedup.mpr hmem, ?_⟩
    rw [SchedulerState.unfinished?_eq_some]
    exact ⟨hget, hunfinished⟩
  have hobjs := hfinished.objs_eq hx hunfinished
  have hid : (s'.objs x).requestId = reqId := by
    rw [hobjs]
    exact hok.carries hget
  refine ⟨hobjs, ?_, ?_⟩
  · apply List.ne_nil_of_mem (a := failedOutput (s'.objs x))
    apply List.mem_filter.mpr
    refine ⟨List.mem_map_of_mem (List.mem_filterMap.mpr ⟨reqId, hmem, hget⟩), ?_⟩
    exact decide_eq_true hid
  · intro output houtput
    obtain ⟨hmade, hfor⟩ := List.mem_filter.mp houtput
    obtain ⟨y, hy, rfl⟩ := List.mem_map.mp hmade
    obtain ⟨other, _, hother⟩ := List.mem_filterMap.mp hy
    have hother' : (s'.objs y).requestId = other := by
      rw [(RequestChanges.livesOn (hfinished.changes y)).requestId]
      exact hok.carries hother
    have hsame : other = reqId := by
      rw [← hother']
      exact of_decide_eq_true hfor
    rw [hsame, hget] at hother
    cases hother
    refine ⟨rfl, ?_⟩
    dsimp only [failedOutput]
    rw [hobjs]
    rfl

/-- Nothing is reported for the others. -/
theorem streams_of_failed {start : SchedulerState W} (hok : RegistryOk s)
    (hstart : RegistryOk start) {failed : List RequestId} {reqId : RequestId}
    {outputs : List EngineCoreOutput}
    (hfinished : self.FinishedBy (some failed) .finishedError s s') (hnot : reqId ∉ failed)
    (hbefore : ∀ reqId x, s.requests.get? reqId = some x → start.requests.get? reqId = some x)
    (hstreams : StreamsFrom start reqId (outputsFor reqId outputs) s) :
    StreamsFrom start reqId (outputsFor reqId (outputs ++
      (failed.filterMap s.requests.get?).map fun x => failedOutput (s'.objs x))) s' := by
  have hnone : outputsFor reqId
      ((failed.filterMap s.requests.get?).map fun x => failedOutput (s'.objs x)) = [] := by
    unfold outputsFor
    rw [List.filter_eq_nil_iff]
    intro output houtput hid
    obtain ⟨x, hx, rfl⟩ := List.mem_map.mp houtput
    obtain ⟨other, hother, hget⟩ := List.mem_filterMap.mp hx
    have hother' : (s'.objs x).requestId = other := by
      rw [(RequestChanges.livesOn (hfinished.changes x)).requestId]
      exact hok.carries hget
    have hsame : (s'.objs x).requestId = reqId := of_decide_eq_true hid
    rw [← hsame, hother'] at hnot
    exact hnot hother
  rw [outputsFor_append, hnone, List.append_nil]
  apply hstreams.congr
  intro x hx
  apply hfinished.others
  intro hvalid
  obtain ⟨other, hother, hmem⟩ := mem_validRequests hvalid
  have hget := hbefore _ _ (s.unfinished?_eq_some.mp hother).1
  have hid := hstart.carries (start.unfinished?_eq_some.mp hx).1
  rw [← hstart.carries hget, hid] at hmem
  exact hnot (hmem failed rfl)

section
variable {out : SchedulerOutput} {loaded : KVConnectorOutput} {start done : SchedulerState W}
  {asyncFailed syncFailed failed : List RequestId} {acc : OutputLocals}
  (hrecovers : Recovers self loaded.invalidBlockIds out.numScheduledTokens s asyncFailed syncFailed
    failed start)
  (hget : ∀ x, x ∈ s.running ∨ x ∈ self.asyncLoadReqs s →
    s.requests.get? (s.objs x).requestId = some x)
  (hdone : ∀ reqId, Consumed failed start reqId (outputsFor reqId acc.outputs) done)

include hrecovers hget hdone

/-- The call that has no request to finish. -/
theorem handled_of_recompute (hpolicy : self.recomputeKvLoadFailures = true ∨ failed = [])
    (hobjs : s'.objs = done.objs) :
    LoadFailureHandled self out loaded s failed start acc.outputs s' where
  recovers := ⟨asyncFailed, syncFailed, hrecovers⟩
  affected x hx := hrecovers.mem_failed hget hx
  recomputed _ x hx hmem := by
    obtain ⟨hsilent, _, hkept⟩ := (hdone (s.objs x).requestId).skipped hmem
    refine ⟨?_, hsilent⟩
    rw [hobjs]
    apply hkept x
    rw [hrecovers.queues.2.2.2]
    exact hget x (Or.inl hx)
  reported hfails x _ hmem := by
    rcases hpolicy with hrecompute | hnone
    · rw [hrecompute] at hfails
      cases hfails
    · rw [hnone] at hmem
      cases hmem
  unaffected reqId hnot := by
    apply ((hdone reqId).streams hnot).congr
    intro x _
    rw [hobjs]

/-- The call that finishes the requests whose blocks failed to load. -/
theorem handled_of_finish (hpolicy : self.recomputeKvLoadFailures = false)
    (hunfinished : ∀ x, x ∈ s.running ∨ x ∈ self.asyncLoadReqs s →
      (start.objs x).isFinished = false)
    (hstart : RegistryOk start) (hok : RegistryOk done) {s₁ : SchedulerState W}
    (hfinished : self.FinishedBy (some failed) .finishedError (self.removeStopped acc done) s₁)
    (hbefore : ∀ reqId x, done.requests.get? reqId = some x →
      start.requests.get? reqId = some x) (hobjs : s'.objs = s₁.objs) :
    LoadFailureHandled self out loaded s failed start
      (acc.outputs ++ (failed.filterMap (self.removeStopped acc done).requests.get?).map
        fun x => failedOutput (s₁.objs x)) s' where
  recovers := ⟨asyncFailed, syncFailed, hrecovers⟩
  affected x hx := hrecovers.mem_failed hget hx
  recomputed hrecompute := by
    rw [hpolicy] at hrecompute
    cases hrecompute
  reported _ x hx hmem := by
    have hregistered : start.requests.get? (s.objs x).requestId = some x := by
      rw [hrecovers.queues.2.2.2]
      exact hget x hx
    obtain ⟨hsilent, hrequests, hkept⟩ := (hdone (s.objs x).requestId).skipped hmem
    have hsame : (self.removeStopped acc done).objs x = start.objs x := hkept x hregistered
    obtain ⟨hafter, hsome, hall⟩ := reported_of_failed (s := self.removeStopped acc done) hok
      hfinished hmem (hrequests.trans hregistered) (by rw [hsame]; exact hunfinished x hx)
    rw [hobjs, hafter, hsame, outputsFor_append, hsilent, List.nil_append]
    exact ⟨rfl, hsome, hall⟩
  unaffected reqId hnot := by
    have hloop : StreamsFrom start reqId (outputsFor reqId acc.outputs)
        (self.removeStopped acc done) := ((hdone reqId).streams hnot).congr fun _ _ => rfl
    apply (streams_of_failed (s := self.removeStopped acc done) hok hstart hfinished hnot hbefore
      hloop).congr
    intro x _
    rw [hobjs]

end

/-- **Failed KV loads.**  With the recompute policy the requests that run on an invalid block
    compute it again, or an earlier request does; without it they end in an error.  The other
    requests get the tokens of the step. -/
theorem updateFromOutput_recovers (hsize : 0 < self.blockSize) (hok : RegistryOk s)
    (hqueues : (s.running ++ s.skippedWaiting).Nodup)
    (hregistered : ∀ x ∈ s.running ++ s.skippedWaiting,
      s.unfinished? (s.objs x).requestId = some x)
    (out : SchedulerOutput) {mro : ModelRunnerOutput} {loaded : KVConnectorOutput}
    (hload : mro.kvConnectorOutput = some loaded) :
    wp (self.updateFromOutput out mro)
      (fun outputs s' => ∃ failed start, self.handleFailedLoads out mro s = .ok failed start ∧
        LoadFailureHandled self out loaded s failed start outputs s') (fun _ _ => True) s := by
  have hqueued : ∀ x, x ∈ s.running ∨ x ∈ self.asyncLoadReqs s →
      s.requests.get? (s.objs x).requestId = some x ∧ (s.objs x).isFinished = false := by
    intro x hx
    apply s.unfinished?_eq_some.mp
    apply hregistered
    rw [List.mem_append]
    refine hx.imp_right fun hasync => ?_
    exact (self.requestQueue.iter_perm _ _).mem_iff.mp (List.mem_of_mem_filter hasync)
  have hget := fun x hx => (hqueued x hx).1
  have hbegins : wp (self.handleFailedLoads out mro)
      (fun failed start => self.handleFailedLoads out mro s = .ok failed start)
      (fun _ _ => True) s := wp_of_run (fun _ _ h => h) fun _ _ _ => trivial
  unfold updateFromOutput
  dsimp only
  rw [wp_bind]
  apply wp_mono (wp_and (handleFailedLoads_recovers hsize hok hqueues out hload) hbegins) _
    (fun _ _ _ => trivial)
  rintro failed start ⟨⟨hstart, asyncFailed, syncFailed, hrecovers⟩, hbegins⟩
  have hunfinished : ∀ x, x ∈ s.running ∨ x ∈ self.asyncLoadReqs s →
      (start.objs x).isFinished = false := by
    intro x hx
    obtain ⟨numComputedTokens, hcut⟩ := hrecovers.cut x
    rw [hcut]
    exact (hqueued x hx).2
  rw [wp_bind]
  apply wp_mono (wp_and (self.consumeOutputs_effects start hstart out mro failed)
    (consumeOutputs_consumed hstart out mro failed)) _ (fun _ _ _ => trivial)
  rintro acc done ⟨heffects, hdone⟩
  have hdoneOk : RegistryOk done := by
    apply invariant_of_chain (I := fun p : SchedulerState W × OutputLocals => RegistryOk p.1) _
      heffects hstart
    rintro p p' ⟨_, heffect⟩ hbefore
    exact heffect.registryOk hbefore
  have hbefore : Unregisters start done := by
    apply Unregisters.of_chain self (fun p : SchedulerState W × OutputLocals => p.1) _ heffects
    rintro p p' ⟨_, heffect⟩
    exact heffect.unregisters
  rw [wp_bind, wp_modify, wp_bind]
  have hxfer : ∀ (s₁ : SchedulerState W) (outputs : List EngineCoreOutput),
      (∀ s', s'.objs = s₁.objs → LoadFailureHandled self out loaded s failed start outputs s') →
      wp (mro.kvConnectorOutput.toList.forM self.updateFromKvXferFinished >>= fun _ => pure outputs)
        (fun outputs s' => ∃ failed start, self.handleFailedLoads out mro s = .ok failed start ∧
          LoadFailureHandled self out loaded s failed start outputs s') (fun _ _ => True) s₁ := by
    intro s₁ outputs hhandled
    rw [hload, wp_bind]
    change wp (self.updateFromKvXferFinished loaded >>= fun _ => pure ()) _ _ s₁
    rw [wp_bind]
    apply wp_mono (updateFromKvXferFinished_objs s₁ loaded) _ (fun _ _ _ => trivial)
    intro _ s' hobjs
    exact ⟨failed, start, hbegins, hhandled s' hobjs⟩
  split
  · rename_i hfails
    apply wp_mono (finishFailedLoads_outputs (s := self.removeStopped acc done) hdoneOk failed) _
      (fun _ _ _ => trivial)
    rintro _ s₁ ⟨hfinished, rfl⟩
    apply hxfer
    intro s' hobjs
    exact handled_of_finish hrecovers hget hdone hfails.2 hunfinished hstart hdoneOk hfinished
      hbefore.before hobjs
  · rename_i hnothing
    rw [wp_pure, List.append_nil]
    apply hxfer
    intro s' hobjs
    apply handled_of_recompute hrecovers hget hdone _ hobjs
    cases hpolicy : self.recomputeKvLoadFailures with
    | true => exact Or.inl rfl
    | false => exact Or.inr (by_contra fun hsome => hnothing ⟨hsome, hpolicy⟩)

/-- A scheduler with a KV connector; the requests share their first block. -/
def sharing : Scheduler Unit :=
  { roomy with
    externals := { Externals.roomy with
      getBlocks := fun _ reqId => ⟨[if reqId = "a" then [1, 2] else [1, 3]]⟩ }
    blockSize := 4
    hasConnector := true
    recomputeKvLoadFailures := true }

/-- The worker answers, and reports that two blocks were not loaded. -/
def loadFailure : ModelRunnerOutput :=
  { ModelRunnerOutput.sampling [("a", [13]), ("b", [14])] with
    kvConnectorOutput := some ⟨[1, 3], [], []⟩ }

/-- The shared block and the second one of `b` fail: `a` computes the shared block again, and
    `b` its own block only. -/
theorem updateFromOutput_recovers_shared : ∃ s out mro loaded failed start outputs s',
    sharing.updateFromOutput out mro s = .ok outputs s' ∧ s.running = [0, 1] ∧
      loaded.invalidBlockIds = [1, 3] ∧
      sharing.handleFailedLoads out mro s = .ok failed start ∧
      (s'.objs 0).numComputedTokens = 0 ∧ (s'.objs 1).numComputedTokens = 4 ∧
      LoadFailureHandled sharing out loaded s failed start outputs s' := by
  have hplayed : ∃ p ∈ sharing.play start
      [.op (.addRequest (.text "a" [1, 2, 3, 4, 5, 6, 7, 8] 8 false)),
        .op (.addRequest (.text "b" [1, 2, 3, 4, 0, 0, 0, 0] 8 false)), .op .schedule,
        .deliver 0 [("a", [11]), ("b", [12])], .op .schedule],
      p.2.running = [0, 1] ∧ (p.2.running ++ p.2.skippedWaiting).Nodup ∧
        (∀ x ∈ p.2.running ++ p.2.skippedWaiting,
          p.2.unfinished? (p.2.objs x).requestId = some x) ∧
        ∃ out ∈ (p.1.filterMap fun step => step.output)[1]?,
          (returned (sharing.updateFromOutput out loadFailure p.2)).isSome = true ∧
          ((finalState (sharing.updateFromOutput out loadFailure p.2)).objs 0).numComputedTokens =
            0 ∧
          ((finalState (sharing.updateFromOutput out loadFailure p.2)).objs 1).numComputedTokens =
            4 := by
    decide +kernel
  obtain ⟨⟨history, s⟩, hhistory, hrunning, hnodup, hregistered, out, _, hreturns, hfirst,
    hsecond⟩ := hplayed
  obtain ⟨outputs, houtputs⟩ := Option.isSome_iff_exists.mp hreturns
  obtain ⟨s', hrun⟩ := returned_eq_some.mp houtputs
  rw [hrun] at hfirst hsecond
  have hok := registryOk_of_run (run_of_play (Option.mem_def.mp hhistory))
    (registered_init _ _ _).registry
  obtain ⟨failed, after, hbegins, hhandled⟩ :=
    wp_ok (updateFromOutput_recovers (by decide) hok hnodup hregistered out rfl) hrun
  exact ⟨s, out, _, _, failed, after, outputs, s', hrun, hrunning, rfl, hbegins, hfirst, hsecond,
    hhandled⟩

end Scheduler

end Edmm
