/-
  Edmm/PriorityQueues.lean
  ========================
  **The waiting queues of the PRIORITY policy are heaps.**

  A request ranks by its priority, its arrival time, its id and last its address, as
  `Request.__lt__` compares.  Both waiting queues are heaps by rank in every run without
  sessions: the requests in them keep their ranks.  A session that continues while it is
  queued gets a new arrival time in its place, which the heap does not notice.
-/
import Edmm.Lib.Ranking
import Edmm.LoopBounds
import Edmm.RequestLife
import Mathlib.Data.List.Sort
import Mathlib.Data.String.Basic
import Mathlib.Data.Prod.Lex
import Mathlib.Algebra.Order.Ring.Rat

namespace Edmm

open Program Ranking

variable {W : Type}

/-! ## 1. The rank of a request -/

/-- Priority, arrival time, id and address, compared in this order. -/
abbrev Rank := ℤ ×ₗ ℚ ×ₗ String ×ₗ ℕ

def Request.rank (r : Request) (address : Ref) : Rank :=
  toLex (r.priority, toLex (r.arrivalTime, toLex (r.requestId, address)))

/-- `__lt__` compares the ranks. -/
theorem Request.lt_iff_rank (r r' : Request) (x y : Ref) :
    Request.lt r r' x y = true ↔ r.rank x < r'.rank y := by
  simp only [Request.rank, Prod.Lex.toLex_lt_toLex, Request.lt]
  by_cases hpriority : r.priority = r'.priority
  · by_cases harrival : r.arrivalTime = r'.arrivalTime
    · by_cases hid : r.requestId = r'.requestId
      · simp [hpriority, harrival, hid]
      · simp [hpriority, harrival, hid]
    · simp [hpriority, harrival]
  · simp [hpriority]

theorem Request.rank_congr {r r' : Request} (hpriority : r'.priority = r.priority)
    (harrivalTime : r'.arrivalTime = r.arrivalTime) (hrequestId : r'.requestId = r.requestId)
    (x : Ref) : r'.rank x = r.rank x := by
  rw [Request.rank, Request.rank, hpriority, harrivalTime, hrequestId]

/-- The ranks in a heap of requests. -/
def ranks (objs : Ref → Request) (x : Ref) : Rank := (objs x).rank x

/-! ## 2. Priority queues -/

/-- What `PriorityRequestQueue` is: the operations of `heapq`, which keep a heap. -/
structure KeepsHeaps (queue : RequestQueue) : Prop where
  addRequest : ∀ objs items x, IsHeap (ranks objs) items →
    IsHeap (ranks objs) (queue.addRequest objs items x)
  prependRequest : ∀ objs items x, IsHeap (ranks objs) items →
    IsHeap (ranks objs) (queue.prependRequest objs items x)
  prependRequests : ∀ objs items others, IsHeap (ranks objs) items →
    IsHeap (ranks objs) (queue.prependRequests objs items others)
  popRest : ∀ objs items, IsHeap (ranks objs) items → IsHeap (ranks objs) (queue.popRest objs items)
  removeRequests : ∀ objs items removed, IsHeap (ranks objs) items →
    IsHeap (ranks objs) (queue.removeRequests objs items removed)

/-- The queue that keeps its requests sorted. -/
def sortedRequestQueue : RequestQueue where
  addRequest objs items x := (x :: items).insertionSort fun x y => ranks objs x ≤ ranks objs y
  prependRequest objs items x := (x :: items).insertionSort fun x y => ranks objs x ≤ ranks objs y
  prependRequests objs items others :=
    (others ++ items).insertionSort fun x y => ranks objs x ≤ ranks objs y
  popRest objs items := items.tail.insertionSort fun x y => ranks objs x ≤ ranks objs y
  removeRequests objs items removed :=
    (items.filter fun x => x ∉ removed).insertionSort fun x y => ranks objs x ≤ ranks objs y
  iter objs items := items.insertionSort fun x y => ranks objs x ≤ ranks objs y
  addRequest_perm _ _ _ := List.perm_insertionSort _ _
  prependRequest_perm _ _ _ := List.perm_insertionSort _ _
  prependRequests_perm _ _ _ := List.perm_insertionSort _ _
  popRest_perm _ _ := List.perm_insertionSort _ _
  removeRequests_perm _ _ _ := List.perm_insertionSort _ _
  iter_perm _ _ := List.perm_insertionSort _ _

theorem isHeap_insertionSort (objs : Ref → Request) (items : List Ref) :
    IsHeap (ranks objs) (items.insertionSort fun x y => ranks objs x ≤ ranks objs y) := by
  have htotal : Std.Total fun x y => ranks objs x ≤ ranks objs y :=
    ⟨fun x y => le_total (ranks objs x) (ranks objs y)⟩
  have htrans : IsTrans Ref fun x y => ranks objs x ≤ ranks objs y :=
    ⟨fun _ _ _ hxy hyz => le_trans hxy hyz⟩
  exact isHeap_of_sorted (List.pairwise_insertionSort _ items)

theorem keepsHeaps_sorted : KeepsHeaps sortedRequestQueue where
  addRequest objs _ _ _ := isHeap_insertionSort objs _
  prependRequest objs _ _ _ := isHeap_insertionSort objs _
  prependRequests objs _ _ _ := isHeap_insertionSort objs _
  popRest objs _ _ := isHeap_insertionSort objs _
  removeRequests objs _ _ _ := isHeap_insertionSort objs _

namespace Scheduler

variable {self : Scheduler W}

/-! ## 3. The heaps stay heaps -/

/-- A request of no session. -/
def Sessionless (r : Request) : Prop := r.resumable = false ∧ r.status ≠ .waitingForStreamingReq

/-- A request of no session keeps its rank. -/
theorem RequestChange.sessionless {r r' : Request} (h : self.RequestChange r r')
    (hr : Sessionless r) : Sessionless r' ∧ ∀ x, r'.rank x = r.rank x := by
  have hlives := h.livesOn
  have hresumable : r'.resumable = false := by
    by_contra hresumable
    rw [Bool.not_eq_false] at hresumable
    have hbefore := hlives.resumable hresumable
    rw [hr.1] at hbefore
    cases hbefore
  have hrank : r'.arrivalTime = r.arrivalTime → ∀ x, r'.rank x = r.rank x :=
    fun harrival x => Request.rank_congr hlives.priority harrival hlives.requestId x
  have hnot : ∀ {stopped : Request} {specTokenIds : List Token} {generated : List Token × Bool},
      self.Delivered specTokenIds generated r stopped true → stopped.resumable ≠ true := by
    intro stopped specTokenIds generated hdelivered hstopped
    have hbefore := hdelivered.resumable hstopped
    rw [hr.1] at hbefore
    cases hbefore
  cases h with
  | planned computed spec chunk placeholders discard preemptions stats queue =>
    exact ⟨hr, hrank rfl⟩
  | moved hmay hinput => exact ⟨⟨hresumable, hinput⟩, hrank rfl⟩
  | @answered _ _ _ stopped hunfinished hdelivered =>
    have hstatus : r'.status ≠ .waitingForStreamingReq := by
      cases stopped with
      | false =>
        rw [hdelivered.same.2 rfl]
        exact hr.2
      | true =>
        have hfinished := hdelivered.finished rfl
        intro hidle
        rw [Request.isFinished, hidle] at hfinished
        cases hfinished
    obtain ⟨kept, hashes, computed, placeholders, status, reason, resumable, rfl⟩ :=
      hdelivered.form
    exact ⟨⟨hresumable, hstatus⟩, hrank rfl⟩
  | idled hunfinished hdelivered hstopped => exact absurd hstopped (hnot hdelivered)
  | proceeded hunfinished hdelivered hcontinues => exact absurd hcontinues.1 (hnot hdelivered)
  | resumed hstatus update => exact absurd hstatus hr.2

theorem RequestChanges.sessionless {r r' : Request} (h : self.RequestChanges r r')
    (hr : Sessionless r) : Sessionless r' ∧ ∀ x, r'.rank x = r.rank x := by
  induction h with
  | refl => exact ⟨hr, fun _ => rfl⟩
  | tail _ last ih =>
    obtain ⟨hsession, hrank⟩ := last.sessionless ih.1
    exact ⟨hsession, fun x => (hrank x).trans (ih.2 x)⟩

/-- The requests that exist belong to no session, and the waiting queues are heaps. -/
structure Ranked (s : SchedulerState W) : Prop where
  known : ∀ x ∈ heldQueues s [], x < s.nextRef
  sessionless : ∀ x < s.nextRef, Sessionless (s.objs x)
  waiting : IsHeap (ranks s.objs) s.waiting
  skipped : IsHeap (ranks s.objs) s.skippedWaiting

/-- From `start` to `s` the requests changed, and the waiting queues are heaps of the
    ranks they had. -/
structure RankedSince (start s : SchedulerState W) (aside : List Ref) : Prop where
  nextRef : s.nextRef = start.nextRef
  known : ∀ x ∈ heldQueues s aside, x < start.nextRef
  ranks_eq : ∀ x < start.nextRef, ranks s.objs x = ranks start.objs x
  sessionless : ∀ x < start.nextRef, Sessionless (s.objs x)
  waiting : IsHeap (ranks start.objs) s.waiting
  skipped : IsHeap (ranks start.objs) s.skippedWaiting

theorem Ranked.since {s : SchedulerState W} (h : Ranked s) : RankedSince s s [] where
  nextRef := rfl
  known := h.known
  ranks_eq _ _ := rfl
  sessionless := h.sessionless
  waiting := h.waiting
  skipped := h.skipped

theorem held_of_waiting {s : SchedulerState W} {aside : List Ref} {x : Ref} (hx : x ∈ s.waiting) :
    x ∈ heldQueues s aside := by
  simp [mem_heldQueues, mem_waitingQueues, hx]

theorem held_of_skipped {s : SchedulerState W} {aside : List Ref} {x : Ref}
    (hx : x ∈ s.skippedWaiting) : x ∈ heldQueues s aside := by
  simp [mem_heldQueues, mem_waitingQueues, hx]

/-- The items are a heap, by ranks that the requests had since `start`. -/
def HeapSince (start : SchedulerState W) (items : List Ref) : Prop :=
  ∃ objs : Ref → Request, (∀ x < start.nextRef, ranks objs x = ranks start.objs x) ∧
    IsHeap (ranks objs) items

namespace RankedSince

variable {start s s' : SchedulerState W} {aside aside' : List Ref}

theorem waiting_at (h : RankedSince start s aside) {objs : Ref → Request}
    (hobjs : ∀ x < start.nextRef, ranks objs x = ranks start.objs x) :
    IsHeap (ranks objs) s.waiting :=
  h.waiting.congr fun x hx => hobjs x (h.known x (held_of_waiting hx))

theorem skipped_at (h : RankedSince start s aside) {objs : Ref → Request}
    (hobjs : ∀ x < start.nextRef, ranks objs x = ranks start.objs x) :
    IsHeap (ranks objs) s.skippedWaiting :=
  h.skipped.congr fun x hx => hobjs x (h.known x (held_of_skipped hx))

theorem sameWaiting (h : RankedSince start s aside) (hsame : s'.waiting = s.waiting) :
    HeapSince start s'.waiting :=
  ⟨start.objs, fun _ _ => rfl, hsame ▸ h.waiting⟩

theorem sameSkipped (h : RankedSince start s aside)
    (hsame : s'.skippedWaiting = s.skippedWaiting) : HeapSince start s'.skippedWaiting :=
  ⟨start.objs, fun _ _ => rfl, hsame ▸ h.skipped⟩

/-- The requests changed once more. -/
theorem next (self : Scheduler W) (h : RankedSince start s aside)
    (hnext : s'.nextRef = s.nextRef)
    (hchanges : ∀ x, self.RequestChanges (s.objs x) (s'.objs x))
    (hknown : ∀ x ∈ heldQueues s' aside', x < start.nextRef)
    (hwaiting : HeapSince start s'.waiting) (hskipped : HeapSince start s'.skippedWaiting) :
    RankedSince start s' aside' where
  nextRef := hnext.trans h.nextRef
  known := hknown
  ranks_eq x hx :=
    (((hchanges x).sessionless (h.sessionless x hx)).2 x).trans (h.ranks_eq x hx)
  sessionless x hx := ((hchanges x).sessionless (h.sessionless x hx)).1
  waiting := by
    obtain ⟨objs, hranks, hheap⟩ := hwaiting
    apply hheap.congr
    exact fun x hx => (hranks x (hknown x (held_of_waiting hx))).symm
  skipped := by
    obtain ⟨objs, hranks, hheap⟩ := hskipped
    apply hheap.congr
    exact fun x hx => (hranks x (hknown x (held_of_skipped hx))).symm

theorem ranked (start : SchedulerState W) (h : RankedSince start s []) : Ranked s where
  known x hx := (h.known x hx).trans_eq h.nextRef.symm
  sessionless x hx := h.sessionless x (hx.trans_eq h.nextRef)
  waiting := h.waiting_at h.ranks_eq
  skipped := h.skipped_at h.ranks_eq

/-- The heap that a popped queue is. -/
theorem popRequest (laws : KeepsHeaps self.requestQueue) (h : RankedSince start s aside)
    (which : WaitingQueue) : HeapSince start (self.popRequest which s).waiting ∧
      HeapSince start (self.popRequest which s).skippedWaiting := by
  cases which with
  | waiting =>
    exact ⟨⟨s.objs, h.ranks_eq, laws.popRest _ _ (h.waiting_at h.ranks_eq)⟩, h.sameSkipped rfl⟩
  | skippedWaiting =>
    exact ⟨h.sameWaiting rfl, ⟨s.objs, h.ranks_eq, laws.popRest _ _ (h.skipped_at h.ranks_eq)⟩⟩

end RankedSince

variable {start : SchedulerState W}

theorem RunningEffect.ranked (laws : KeepsHeaps self.requestQueue) {p p' : Frame W}
    (h : self.RunningEffect p p') (hp : RankedSince start p.1 p.2.stepSkippedWaiting) :
    RankedSince start p'.1 p'.2.stepSkippedWaiting := by
  apply hp.next self h.sameRegistry.1.nextRef h.changes fun x hx => hp.known x (h.perm.mem_iff.mp hx)
  · cases h with
    | @preempt s l l' victim rest w hvictim hstatus hlocals =>
      have hranks : ∀ x < start.nextRef,
          ranks (s.updateRequest victim Scheduler.preempted).objs x = ranks start.objs x := by
        intro x hx
        have hchanged : self.RequestChanges (s.objs x)
            ((s.updateRequest victim Scheduler.preempted).objs x) :=
          changes_updateRequest (changes_preempted hstatus) rfl x
        exact ((hchanged.sessionless (hp.sessionless x hx)).2 x).trans (hp.ranks_eq x hx)
      exact ⟨_, hranks, laws.prependRequest _ _ _ (hp.waiting_at hranks)⟩
    | touch | pass | schedule => exact hp.sameWaiting rfl
  · cases h with
    | touch | pass | preempt | schedule => exact hp.sameSkipped rfl

theorem WaitingEffect.ranked (laws : KeepsHeaps self.requestQueue)
    (hconnector : self.hasConnector = false) {p p' : Frame W} (h : self.WaitingEffect p p')
    (hp : RankedSince start p.1 p.2.stepSkippedWaiting) :
    RankedSince start p'.1 p'.2.stepSkippedWaiting := by
  have hqueues : HeapSince start p'.1.waiting ∧ HeapSince start p'.1.skippedWaiting := by
    cases h with
    | promote l hhead hpromotion =>
      exact ⟨hp.sameWaiting hpromotion.samePlaces.waiting,
        hp.sameSkipped hpromotion.samePlaces.skippedWaiting⟩
    | load objs numComputedTokens hhead hhas hunblocked hcomputed =>
      rw [hconnector] at hhas
      cases hhas
    | skip l hhead => exact hp.popRequest laws _
    | admitWaiting blocks w hhead hstatus hcomputed hsome hbound hlocals =>
      exact hp.popRequest laws _
    | touch | examine | lookup => exact ⟨hp.sameWaiting rfl, hp.sameSkipped rfl⟩
  exact hp.next self h.sameRegistry.nextRef (h.changes hconnector)
    (fun x hx => hp.known x (h.perm.mem_iff.mp hx)) hqueues.1 hqueues.2

theorem Scheduled.ranked (laws : KeepsHeaps self.requestQueue)
    (hconnector : self.hasConnector = false) {s s' : SchedulerState W}
    {afterRunning afterWaiting : Frame W} {out : SchedulerOutput}
    (h : self.Scheduled s afterRunning afterWaiting out s') (hs : Ranked s) :
    RankedSince s s' [] := by
  have hrunning : RankedSince s afterRunning.1 afterRunning.2.stepSkippedWaiting :=
    invariant_of_chain (I := fun p : Frame W => RankedSince s p.1 p.2.stepSkippedWaiting)
      (fun _ _ heffect hp => heffect.ranked laws hp) h.running hs.since
  have hwaiting : RankedSince s afterWaiting.1 afterWaiting.2.stepSkippedWaiting :=
    invariant_of_chain (I := fun p : Frame W => RankedSince s p.1 p.2.stepSkippedWaiting)
      (fun _ _ heffect hp => heffect.ranked laws hconnector hp) h.waiting hrunning
  have hfinal := h.final
  apply hwaiting.next self
  · exact hfinal.nextRef
  · intro x
    obtain ⟨computed, chunk, hx⟩ := hfinal.objs x
    exact changes_of_planned ⟨_, _, _, _, _, _, _, _, hx⟩
  · intro x hx
    exact hs.known x (h.perm.mem_iff.mp hx)
  · exact hwaiting.sameWaiting hfinal.waiting
  · rw [hfinal.skippedWaiting]
    unfold requeueSkipped
    split
    · exact hwaiting.sameSkipped rfl
    · exact ⟨_, hwaiting.ranks_eq, laws.prependRequests _ _ _ (hwaiting.skipped_at hwaiting.ranks_eq)⟩

theorem OutputEffect.ranked (hok : RegistryOk start) {out : SchedulerOutput}
    {mro : ModelRunnerOutput} {reqId : RequestId} {p p' : SchedulerState W × OutputLocals}
    (h : self.OutputEffect out mro start reqId p p') (hp : RankedSince start p.1 []) :
    RankedSince start p'.1 [] := by
  -- no session goes idle or continues
  have hnot : ∀ {s : SchedulerState W} {request : Ref} {r : Request},
      RankedSince start s [] → self.Answered out mro start s reqId request r true →
      r.resumable ≠ true := by
    intro s request r hs hanswered hresumable
    obtain ⟨generated, _, hdelivered⟩ := hanswered.delivered
    obtain ⟨hregistered, _⟩ := start.unfinished?_eq_some.mp hanswered.unfinished
    have hbefore := hdelivered.resumable hresumable
    rw [(hs.sessionless request (hok.known hregistered)).1] at hbefore
    cases hbefore
  have hchanges := h.changes
  cases h with
  | idle w hanswered hresumable hempty => exact absurd hresumable (hnot hp hanswered)
  | proceed w hanswered hcontinues => exact absurd hcontinues.1 (hnot hp hanswered)
  | touch | report | deliver | finish =>
    exact hp.next self rfl hchanges hp.known (hp.sameWaiting rfl) (hp.sameSkipped rfl)

theorem Updated.ranked (laws : KeepsHeaps self.requestQueue) {out : SchedulerOutput}
    {mro : ModelRunnerOutput} {s start done s' : SchedulerState W} {acc : OutputLocals}
    (h : self.Updated out mro s start done acc s') (hlocal : mro.kvConnectorOutput = none)
    (hok : RegistryOk s) (hs : Ranked s) : RankedSince s s' [] := by
  obtain ⟨rfl, rfl⟩ := h.withoutConnector hlocal
  have hdone : RankedSince start done [] := by
    apply invariant_of_chain
      (I := fun p : SchedulerState W × OutputLocals => RankedSince start p.1 []) _ h.outputs hs.since
    intro p p' heffect hp
    obtain ⟨reqId, heffect⟩ := heffect
    exact heffect.ranked hok hp
  apply hdone.next self
  · rfl
  · exact fun x => Relation.ReflTransGen.refl
  · intro x hx
    apply hdone.known
    simp only [mem_heldQueues, mem_waitingQueues] at hx ⊢
    refine hx.imp (fun hrunning => List.mem_of_mem_filter hrunning) (Or.imp_left ?_)
    exact self.mem_of_removeRequests
  · simp only [removeStopped]
    split
    · exact hdone.sameWaiting rfl
    · exact ⟨_, hdone.ranks_eq, laws.removeRequests _ _ _ (hdone.waiting_at hdone.ranks_eq)⟩
  · exact hdone.sameSkipped rfl

theorem FinishedBy.ranked (laws : KeepsHeaps self.requestQueue)
    {requestIds : Option (List RequestId)} {finishedStatus : RequestStatus}
    {s s' : SchedulerState W} (h : self.FinishedBy requestIds finishedStatus s s')
    (hs : Ranked s) : RankedSince s s' [] := by
  have hsince := hs.since
  have hremoved : RankedSince s
      (self.removeFromQueues (validRequests s requestIds) s) [] := by
    apply hsince.next self
    · rfl
    · exact fun x => Relation.ReflTransGen.refl
    · intro x hx
      apply hsince.known
      simp only [mem_heldQueues, mem_waitingQueues] at hx ⊢
      refine hx.imp (fun hrunning => List.mem_of_mem_filter hrunning) ?_
      exact Or.imp self.mem_of_removeRequests (Or.imp_left self.mem_of_removeRequests)
    · simp only [removeFromQueues]
      split
      · exact hsince.sameWaiting rfl
      · exact ⟨_, hsince.ranks_eq, laws.removeRequests _ _ _ hs.waiting⟩
    · simp only [removeFromQueues]
      split
      · exact hsince.sameSkipped rfl
      · exact ⟨_, hsince.ranks_eq, laws.removeRequests _ _ _ hs.skipped⟩
  apply invariant_of_chain (I := fun p => RankedSince s p []) _ h.effects hremoved
  intro p p' heffect hp
  have hchanges := heffect.changes
  cases heffect with
  | finish => exact hp.next self rfl hchanges hp.known (hp.sameWaiting rfl) (hp.sameSkipped rfl)

theorem ResetEffect.ranked (laws : KeepsHeaps self.requestQueue) {s s' : SchedulerState W}
    (h : self.ResetEffect s s') (hs : RankedSince start s []) : RankedSince start s' [] := by
  cases h with
  | @preempt victim rest w hvictim hstatus =>
    have hperm : s.running.Perm (victim :: rest) := by
      rw [hvictim]
      exact List.perm_append_singleton victim rest
    have hpreempted : RankedSince start (self.afterPreempt { s with running := rest } victim w) [] :=
      (RunningEffect.preempt (l := self.startLocals s) w hperm hstatus (Or.inl rfl)).ranked laws hs
    apply hpreempted.next self
    · rfl
    · exact changes_updateRequest (changes_of_planned ⟨_, _, _, _, _, _, _, _, rfl⟩) rfl
    · exact hpreempted.known
    · exact hpreempted.sameWaiting rfl
    · exact hpreempted.sameSkipped rfl

theorem ranked_afterRegister (laws : KeepsHeaps self.requestQueue) {s : SchedulerState W}
    (hs : Ranked s) {added : Request} (w : W) (hadded : Sessionless added) :
    Ranked (self.afterRegister s added w) := by
  have hold : ∀ x < s.nextRef, allocated s added x = s.objs x :=
    fun x hx => Function.update_of_ne hx.ne _ _
  have hranks : ∀ x < s.nextRef, ranks (allocated s added) x = ranks s.objs x :=
    fun x hx => congrArg (Request.rank · x) (hold x hx)
  constructor
  · intro x hx
    have hqueued : Queued (self.afterRegister s added w) x := by
      simpa [mem_heldQueues, mem_waitingQueues, Queued] using hx
    rcases queued_afterRegister hqueued with hnew | hbefore
    · exact Nat.lt_succ_of_le hnew.le
    · apply Nat.lt_succ_of_lt
      apply hs.known
      simpa [mem_heldQueues, mem_waitingQueues, Queued] using hbefore
  · intro x hx
    by_cases hnew : x = s.nextRef
    · rw [hnew]
      have hself : (self.afterRegister s added w).objs s.nextRef = added :=
        Function.update_self ..
      rw [hself]
      exact hadded
    · have hlt : x < s.nextRef := Nat.lt_of_le_of_ne (Nat.lt_succ_iff.mp hx) hnew
      have hsame : (self.afterRegister s added w).objs x = s.objs x := hold x hlt
      rw [hsame]
      exact hs.sessionless x hlt
  · have hheap := hs.since.waiting_at hranks
    simp only [afterRegister]
    split
    · exact hheap
    · exact laws.addRequest _ _ _ hheap
  · have hheap := hs.since.skipped_at hranks
    simp only [afterRegister]
    split
    · exact laws.addRequest _ _ _ hheap
    · exact hheap

theorem ranked_afterHold (laws : KeepsHeaps self.requestQueue) {s : SchedulerState W}
    (hs : Ranked s) {reqId : RequestId} (reading : EdmmSchedulerHook.PauseReading) {request : Ref}
    (hknown : request < s.nextRef)
    (hpaused : self.RequestChanges (s.objs request) (toolPaused (s.objs request))) :
    Ranked (self.afterHold s reqId reading request) := by
  have hsince := hs.since
  have hchanges : ∀ x, self.RequestChanges (s.objs x) ((s.updateRequest request toolPaused).objs x) :=
    changes_updateRequest hpaused rfl
  have hranks : ∀ x < s.nextRef,
      ranks (s.updateRequest request toolPaused).objs x = ranks s.objs x :=
    fun x hx => ((hchanges x).sessionless (hs.sessionless x hx)).2 x
  apply RankedSince.ranked s
  apply hsince.next self
  · rfl
  · exact hchanges
  · intro x hx
    simp only [mem_heldQueues, mem_waitingQueues, afterHold] at hx
    rcases hx with hrunning | hwaiting | hskipped | haside
    · exact hs.known x (mem_heldQueues.mpr (Or.inl (List.mem_of_mem_filter hrunning)))
    · exact hs.known x (held_of_waiting (self.mem_removeRequests.mp hwaiting).1)
    · rcases self.mem_addRequest.mp hskipped with rfl | hbefore
      · exact hknown
      · exact hs.known x (held_of_skipped (self.mem_removeRequests.mp hbefore).1)
    · cases haside
  · exact ⟨_, hranks, laws.removeRequests _ _ _ (hsince.waiting_at hranks)⟩
  · exact ⟨_, hranks, laws.addRequest _ _ _ (laws.removeRequests _ _ _ (hsince.skipped_at hranks))⟩

/-- Every request that is added belongs to no session. -/
def WithoutSessions : SchedulerOp W → Prop
  | .addRequest params => params.resumable = false
  | _ => True

instance : ∀ op : SchedulerOp W, Decidable (WithoutSessions op)
  | .addRequest params => inferInstanceAs (Decidable (params.resumable = false))
  | .schedule | .updateFromOutput _ _ | .finishRequests _ _ | .updateDraftTokenIds _
  | .resetPrefixCache _ _ | .setPauseState _ | .pauseInPlace _ _ | .holdForToolCall _ _
  | .submitToolResponse _ | .recordSpeculativeHandle _ _ | .environment _ => instDecidableTrue

theorem sessionless_init {blockHasher : Option (Request → List BlockHash)}
    {params : RequestParams} {r : Request} (h : Request.init blockHasher params = .ok r)
    (hparams : params.resumable = false) : Sessionless (sessionStarted r) := by
  have hstatus := (Request.fresh_init h).status
  obtain ⟨limits, hlimits, h⟩ := except_bind_eq_ok.mp h
  obtain ⟨numPromptTokens, hlength, h⟩ := except_bind_eq_ok.mp h
  injection h with h
  obtain ⟨hashes, hhashes⟩ := Request.updateBlockHashes_eq blockHasher _
  rw [hhashes] at h
  subst h
  unfold sessionStarted
  rw [if_neg (by simp [hparams])]
  refine ⟨hparams, ?_⟩
  rcases hstatus with hwaiting | hgrammar
  · rw [hwaiting]
    decide
  · rw [hgrammar]
    decide

/-- **Step lemma.** -/
theorem OperationEffect.ranked (laws : KeepsHeaps self.requestQueue)
    (hconnector : self.hasConnector = false) {s s' : SchedulerState W} {op : SchedulerOp W}
    {out : Option SchedulerOutput} (h : self.OperationEffect s op out s')
    (hlocal : op.WithoutConnector) (hop : WithoutSessions op) (hok : RegistryOk s)
    (hs : Ranked s) : Ranked s' := by
  have hsince := hs.since
  cases h with
  | register w hinit habsent => exact ranked_afterRegister laws hs w (sessionless_init hinit hop)
  | session hinit hexisting heffect =>
    have hsession := hs.sessionless _ (hok.known hexisting)
    cases heffect with
    | append hstatus =>
      apply RankedSince.ranked s
      apply hsince.next self
      · rfl
      · exact changes_updateRequest (changes_of_planned ⟨_, _, _, _, _, _, _, _, rfl⟩) rfl
      · exact hsince.known
      · exact hsince.sameWaiting rfl
      · exact hsince.sameSkipped rfl
    | proceed hstatus hprompt => exact absurd hstatus hsession.2
    | endSession hstatus hfinished => exact absurd hstatus hsession.2
  | schedule hscheduled => exact (hscheduled.ranked laws hconnector hs).ranked s
  | updateFromOutput hupdated => exact (hupdated.ranked laws hlocal hok hs).ranked s
  | finishRequests hfinished => exact (hfinished.ranked laws hs).ranked s
  | updateDraftTokenIds objs hobjs =>
    apply RankedSince.ranked s
    apply hsince.next self
    · rfl
    · intro x
      obtain ⟨specTokenIds, hx⟩ := hobjs x
      exact changes_of_planned ⟨_, specTokenIds, _, _, _, _, _, _, hx⟩
    · exact hsince.known
    · exact hsince.sameWaiting rfl
    · exact hsince.sameSkipped rfl
  | @resetPrefixCache _ _ s₁ previous w hreset hprevious =>
    have hpreempted : RankedSince s s₁ [] :=
      invariant_of_chain (I := fun p => RankedSince s p [])
        (fun _ _ heffect hp => heffect.ranked laws hp) hreset hsince
    have hranked := hpreempted.ranked s
    exact ⟨hranked.known, hranked.sessionless, hranked.waiting, hranked.skipped⟩
  | pauseInPlace hpausable => cases hlocal
  | holdForToolCall hpausable =>
    obtain ⟨hget, hunfinished, hunblocked⟩ := pausable?_eq_some hpausable
    exact ranked_afterHold laws hs _ (hok.known hget) (changes_toolPaused hpausable)
  | pauseInPlaceIgnored | holdForToolCallIgnored => exact hs
  | setPauseState | submitToolResponse | recordSpeculativeHandle | environment =>
    exact ⟨hs.known, hs.sessionless, hs.waiting, hs.skipped⟩

end Scheduler

end Edmm
