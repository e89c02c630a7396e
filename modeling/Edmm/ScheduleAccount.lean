/-
  Edmm/ScheduleAccount.lean
  =========================
  **The accounts that `schedule()` keeps of one step.**

  The token budget, `num_scheduled_tokens`, `req_to_new_blocks` and the three lists of
  scheduled requests are written apart from each other: handing out tokens writes all
  of them, and taking a preempted request back undoes all of them.  `Account` says how
  they agree.  Each of the four changes that the two loops make keeps it.
-/
import Edmm.Queues

namespace Edmm

namespace Scheduler

/-! ## 1. The account -/

/-- The requests that are handed tokens in this step. -/
def scheduledReqs (l : StepLocals) : List Ref :=
  l.scheduledRunningReqs ++ (l.scheduledNewReqs ++ l.scheduledResumedReqs)

/-- The keys are the ids of the requests. -/
def KeyedBy {α : Type} (ids : Ref → RequestId) (requests : List Ref) (d : Dict RequestId α) :
    Prop :=
  ∀ reqId, reqId ∈ d.keys ↔ ∃ x ∈ requests, ids x = reqId

/-- No two of the requests have the same id. -/
def DistinctIds (ids : Ref → RequestId) (requests : List Ref) : Prop :=
  ∀ x ∈ requests, ∀ y ∈ requests, ids x = ids y → x = y

/-- The accounts agree: the tokens handed out and the budget left add up to the budget
    of the step, and the tables have one entry for each scheduled request. -/
structure Account (ids : Ref → RequestId) (budget : Int) (running : List Ref) (l : StepLocals) :
    Prop where
  balance : l.tokenBudget + l.numScheduledTokens.values.sum = budget
  solvent : 0 ≤ l.tokenBudget
  once : (scheduledReqs l).Nodup
  inRunning : ∀ x ∈ scheduledReqs l, x ∈ running
  tokens : KeyedBy ids (scheduledReqs l) l.numScheduledTokens
  blocks : KeyedBy ids (scheduledReqs l) l.reqToNewBlocks
  spec : ∀ reqId ∈ l.scheduledSpecDecodeTokens.keys, reqId ∈ l.numScheduledTokens.keys
  encoder : ∀ reqId ∈ l.scheduledEncoderInputs.keys, reqId ∈ l.numScheduledTokens.keys
  preempted : ∀ x ∈ l.preemptedReqs, x ∉ running
  preemptedOnce : l.preemptedReqs.Nodup

section
variable {α : Type} {ids : Ref → RequestId} {requests requests' : List Ref} {d : Dict RequestId α}

theorem KeyedBy.empty : KeyedBy ids [] (∅ : Dict RequestId α) := by simp [KeyedBy]

theorem KeyedBy.get?_isSome (h : KeyedBy ids requests d) {x : Ref} (hx : x ∈ requests) :
    ∃ value, d.get? (ids x) = some value :=
  Dict.mem_keys_iff.mp ((h (ids x)).mpr ⟨x, hx, rfl⟩)

theorem KeyedBy.set (h : KeyedBy ids requests d) {x : Ref} (value : α)
    (hmem : ∀ y, y ∈ requests' ↔ y ∈ requests ∨ y = x) :
    KeyedBy ids requests' (d.set (ids x) value) := by
  intro reqId
  rw [Dict.mem_keys_set, h reqId]
  constructor
  · rintro (rfl | ⟨y, hy, rfl⟩)
    · exact ⟨x, (hmem x).mpr (Or.inr rfl), rfl⟩
    · exact ⟨y, (hmem y).mpr (Or.inl hy), rfl⟩
  · rintro ⟨y, hy, rfl⟩
    rcases (hmem y).mp hy with hy | rfl
    · exact Or.inr ⟨y, hy, rfl⟩
    · exact Or.inl rfl

theorem KeyedBy.erase (h : KeyedBy ids requests d) {x : Ref} (hx : x ∈ requests)
    (hids : DistinctIds ids requests) (hmem : ∀ y, y ∈ requests' ↔ y ≠ x ∧ y ∈ requests) :
    KeyedBy ids requests' (d.erase (ids x)) := by
  intro reqId
  rw [Dict.mem_keys_erase, h reqId]
  constructor
  · rintro ⟨hne, y, hy, rfl⟩
    exact ⟨y, (hmem y).mpr ⟨fun heq => hne (by rw [heq]), hy⟩, rfl⟩
  · rintro ⟨y, hy, rfl⟩
    obtain ⟨hne, hy⟩ := (hmem y).mp hy
    exact ⟨fun heq => hne (hids y hy x hx heq), y, hy, rfl⟩

theorem DistinctIds.mono (h : DistinctIds ids requests) (hsub : ∀ x ∈ requests', x ∈ requests) :
    DistinctIds ids requests' :=
  fun x hx y hy => h x (hsub x hx) y (hsub y hy)

/-- The keys of an account are the ids, in some order. -/
theorem KeyedBy.keys_perm (h : KeyedBy ids requests d) (hids : DistinctIds ids requests)
    (honce : requests.Nodup) : d.keys.Perm (requests.map ids) := by
  have hkeys : d.keys.Nodup := d.nodupKeys
  have hnames : (requests.map ids).Nodup := honce.map_on hids
  rw [List.perm_ext_iff_of_nodup hkeys hnames]
  intro reqId
  rw [h reqId, List.mem_map]

end

/-! ## 2. What keeps the account -/

section
variable {ids : Ref → RequestId} {budget : Int} {running running' : List Ref} {l : StepLocals}

theorem account_init {budget : Int} (hbudget : 0 ≤ budget) (encoderBudget : Int)
    (running : List Ref) : Account ids budget running (StepLocals.init budget encoderBudget) where
  balance := by simp [StepLocals.init]
  solvent := hbudget
  once := List.nodup_nil
  inRunning := nofun
  tokens := KeyedBy.empty
  blocks := KeyedBy.empty
  spec := nofun
  encoder := nofun
  preempted := nofun
  preemptedOnce := List.nodup_nil

namespace Account

/-- Where the loop stands, the LoRAs and what was set aside are not accounted for. -/
theorem of_locals (h : Account ids budget running l) (reqIndex : Nat) (scheduledLoras : List Int)
    (stepSkippedWaiting : List Ref) :
    Account ids budget running { l with reqIndex, scheduledLoras, stepSkippedWaiting } :=
  ⟨h.balance, h.solvent, h.once, h.inRunning, h.tokens, h.blocks, h.spec, h.encoder, h.preempted,
    h.preemptedOnce⟩

theorem distinct (h : Account ids budget running l) (hids : DistinctIds ids running) :
    DistinctIds ids (scheduledReqs l) :=
  hids.mono h.inRunning

/-- A request that holds no tokens leaves `running`. -/
theorem preempt (h : Account ids budget running l) {victim : Ref} (hrunning : running.Nodup)
    (hmem : victim ∈ running) (hunscheduled : victim ∉ scheduledReqs l) :
    Account ids budget (running.erase victim)
      { l with preemptedReqs := l.preemptedReqs ++ [victim] } where
  balance := h.balance
  solvent := h.solvent
  once := h.once
  inRunning := by
    intro x hx
    rw [hrunning.mem_erase_iff]
    exact ⟨fun heq => hunscheduled (heq ▸ hx), h.inRunning x hx⟩
  tokens := h.tokens
  blocks := h.blocks
  spec := h.spec
  encoder := h.encoder
  preempted := by
    intro x hx
    rw [hrunning.mem_erase_iff]
    rcases List.mem_append.mp hx with hx | hx
    · exact fun hin => h.preempted x hx hin.2
    · exact fun hin => hin.1 (List.mem_singleton.mp hx)
  preemptedOnce := by
    rw [List.nodup_append]
    refine ⟨h.preemptedOnce, List.nodup_singleton victim, ?_⟩
    intro x hx y hy
    rw [List.mem_singleton] at hy
    rintro rfl
    exact h.preempted x hx (hy ▸ hmem)

/-- The victim gives back what it was handed in this step. -/
theorem dropScheduled (h : Account ids budget running l) {objs : Ref → Request} {victim : Ref}
    {numTokens : Int} (hobjs : ∀ x, (objs x).requestId = ids x)
    (hids : DistinctIds ids running) (hvictim : victim ∈ l.scheduledRunningReqs)
    (htokens : l.numScheduledTokens.get? (ids victim) = some numTokens)
    (hnonneg : 0 ≤ l.tokenBudget + numTokens) :
    Account ids budget running (Scheduler.dropScheduled objs l victim numTokens) ∧
      victim ∉ scheduledReqs (Scheduler.dropScheduled objs l victim numTokens) := by
  have hscheduled : victim ∈ scheduledReqs l := List.mem_append_left _ hvictim
  have herase : scheduledReqs (Scheduler.dropScheduled objs l victim numTokens) =
      (scheduledReqs l).erase victim := (List.erase_append_left _ hvictim).symm
  have hmem : ∀ y, y ∈ scheduledReqs (Scheduler.dropScheduled objs l victim numTokens) ↔
      y ≠ victim ∧ y ∈ scheduledReqs l := by
    intro y
    rw [herase, h.once.mem_erase_iff]
  have hsum := Dict.sum_values_erase htokens
  have hkept : ∀ reqId, reqId ≠ ids victim → reqId ∈ l.numScheduledTokens.keys →
      reqId ∈ (l.numScheduledTokens.erase (ids victim)).keys :=
    fun reqId hne hkey => Dict.mem_keys_erase.mpr ⟨hne, hkey⟩
  refine ⟨?_, fun hvictim' => ((hmem victim).mp hvictim').1 rfl⟩
  constructor
  · have hbalance := h.balance
    simp only [Scheduler.dropScheduled, hobjs]
    omega
  · exact hnonneg
  · rw [herase]
    exact h.once.erase victim
  · exact fun x hx => h.inRunning x ((hmem x).mp hx).2
  · simp only [Scheduler.dropScheduled, hobjs]
    exact h.tokens.erase hscheduled (h.distinct hids) hmem
  · simp only [Scheduler.dropScheduled, hobjs]
    exact h.blocks.erase hscheduled (h.distinct hids) hmem
  · intro reqId hkey
    simp only [Scheduler.dropScheduled, hobjs, Dict.mem_keys_erase] at hkey ⊢
    exact ⟨hkey.1, h.spec reqId hkey.2⟩
  · intro reqId hkey
    simp only [Scheduler.dropScheduled, hobjs, Dict.mem_keys_erase] at hkey ⊢
    exact ⟨hkey.1, h.encoder reqId hkey.2⟩
  · exact h.preempted
  · exact h.preemptedOnce

/-- Tokens are handed to one more request. -/
theorem charge (h : Account ids budget running l) {l' : StepLocals} {request : Ref}
    {numNewTokens : Int} (blocks : KVCacheBlocks) (hfits : numNewTokens ≤ l.tokenBudget)
    (hunscheduled : request ∉ scheduledReqs l)
    (hrunning : ∀ x, x ∈ running' ↔ x ∈ running ∨ x = request)
    (hpreempted : request ∉ l.preemptedReqs)
    (hreqs : (scheduledReqs l').Perm (request :: scheduledReqs l))
    (hbudget : l'.tokenBudget = l.tokenBudget - numNewTokens)
    (htokens : l'.numScheduledTokens = l.numScheduledTokens.set (ids request) numNewTokens)
    (hblocks : l'.reqToNewBlocks = l.reqToNewBlocks.set (ids request) blocks)
    (hspec : ∀ reqId ∈ l'.scheduledSpecDecodeTokens.keys,
      reqId = ids request ∨ reqId ∈ l.scheduledSpecDecodeTokens.keys)
    (hencoder : ∀ reqId ∈ l'.scheduledEncoderInputs.keys,
      reqId = ids request ∨ reqId ∈ l.scheduledEncoderInputs.keys)
    (hpreemptedReqs : l'.preemptedReqs = l.preemptedReqs)
    (hids : DistinctIds ids running') : Account ids budget running' l' := by
  have hmem : ∀ x, x ∈ scheduledReqs l' ↔ x ∈ scheduledReqs l ∨ x = request := by
    intro x
    rw [hreqs.mem_iff, List.mem_cons, or_comm]
  have hinRunning : ∀ x ∈ scheduledReqs l', x ∈ running' := by
    intro x hx
    rw [hrunning]
    rcases (hmem x).mp hx with hx | hx
    · exact Or.inl (h.inRunning x hx)
    · exact Or.inr hx
  have habsent : ids request ∉ l.numScheduledTokens.keys := by
    intro hkey
    obtain ⟨x, hx, hid⟩ := (h.tokens _).mp hkey
    have hsame : x = request := hids x ((hrunning x).mpr (Or.inl (h.inRunning x hx))) request
      ((hrunning request).mpr (Or.inr rfl)) hid
    exact hunscheduled (hsame ▸ hx)
  have hkeys : ∀ reqId, reqId = ids request ∨ reqId ∈ l.numScheduledTokens.keys →
      reqId ∈ l'.numScheduledTokens.keys := by
    intro reqId hreqId
    rw [htokens]
    exact Dict.mem_keys_set.mpr hreqId
  constructor
  · have hbalance := h.balance
    rw [hbudget, htokens, Dict.sum_values_set_of_absent _ habsent]
    omega
  · omega
  · rw [hreqs.nodup_iff, List.nodup_cons]
    exact ⟨hunscheduled, h.once⟩
  · exact hinRunning
  · rw [htokens]
    exact h.tokens.set numNewTokens hmem
  · rw [hblocks]
    exact h.blocks.set blocks hmem
  · intro reqId hkey
    exact hkeys reqId ((hspec reqId hkey).imp id (h.spec reqId))
  · intro reqId hkey
    exact hkeys reqId ((hencoder reqId hkey).imp id (h.encoder reqId))
  · intro x hx hin
    rw [hpreemptedReqs] at hx
    rcases (hrunning x).mp hin with hin | rfl
    · exact h.preempted x hx hin
    · exact hpreempted hx
  · rw [hpreemptedReqs]
    exact h.preemptedOnce

end Account

/-- The locals with the encoder inputs of a request, as `schedule()` writes them. -/
def withEncoderInputs (requestId : RequestId) (plan : EncoderPlan) (l : StepLocals) : StepLocals :=
  if plan.encoderInputsToSchedule ≠ [] then
    { l with
      scheduledEncoderInputs :=
        l.scheduledEncoderInputs.set requestId plan.encoderInputsToSchedule
      encoderComputeBudget := plan.encoderComputeBudget }
  else l

theorem withEncoderInputs_eq (requestId : RequestId) (plan : EncoderPlan) (l : StepLocals) :
    SameButEncoder l (withEncoderInputs requestId plan l) := by
  unfold withEncoderInputs
  split
  · exact ⟨_, _, rfl⟩
  · exact ⟨_, _, rfl⟩

theorem mem_keys_withEncoderInputs {requestId reqId : RequestId} {plan : EncoderPlan}
    (h : reqId ∈ (withEncoderInputs requestId plan l).scheduledEncoderInputs.keys) :
    reqId = requestId ∨ reqId ∈ l.scheduledEncoderInputs.keys := by
  unfold withEncoderInputs at h
  split at h
  · exact Dict.mem_keys_set.mp h
  · exact Or.inr h

namespace Account

/-- A request in `running` is scheduled. -/
theorem schedule (h : Account ids budget running l) {request : Ref} {r : Request}
    {plan : EncoderPlan} (blocks : KVCacheBlocks) (hid : r.requestId = ids request)
    (hfits : plan.numNewTokens ≤ l.tokenBudget) (hunscheduled : request ∉ scheduledReqs l)
    (hmem : request ∈ running) (hids : DistinctIds ids running) :
    Account ids budget running (withEncoderInputs r.requestId plan
      (addRunning l request r plan.numNewTokens blocks)) := by
  obtain ⟨inputs, encoderBudget, hlocals⟩ := withEncoderInputs_eq r.requestId plan
    (addRunning l request r plan.numNewTokens blocks)
  have hencoder : ∀ reqId ∈ (withEncoderInputs r.requestId plan
      (addRunning l request r plan.numNewTokens blocks)).scheduledEncoderInputs.keys,
      reqId = ids request ∨ reqId ∈ l.scheduledEncoderInputs.keys := by
    intro reqId hkey
    have hcases := mem_keys_withEncoderInputs hkey
    rw [← hid]
    exact hcases
  rw [hlocals] at hencoder ⊢
  apply h.charge blocks hfits hunscheduled
  · intro x
    constructor
    · exact Or.inl
    · rintro (hx | rfl)
      · exact hx
      · exact hmem
  · exact fun hx => h.preempted request hx hmem
  · simp only [scheduledReqs, addRunning, List.append_assoc, List.singleton_append]
    exact List.perm_middle
  · rfl
  · rw [← hid]
    rfl
  · rw [← hid]
    rfl
  · intro reqId hkey
    simp only [addRunning] at hkey
    split at hkey
    · rw [← hid]
      exact Dict.mem_keys_set.mp hkey
    · exact Or.inr hkey
  · exact hencoder
  · rfl
  · exact hids

variable {W : Type}

/-- A waiting request enters `running`. -/
theorem admitted (h : Account ids budget running l) (self : Scheduler W) {request : Ref}
    {r : Request} {plan : EncoderPlan} (blocks : KVCacheBlocks) (hid : r.requestId = ids request)
    (hfits : plan.numNewTokens ≤ l.tokenBudget) (hmem : request ∉ running)
    (hpreempted : request ∉ l.preemptedReqs) (hids : DistinctIds ids (running ++ [request])) :
    Account ids budget (running ++ [request]) (withEncoderInputs r.requestId plan
      (self.addWaiting l request r plan.numNewTokens blocks)) := by
  obtain ⟨inputs, encoderBudget, hlocals⟩ := withEncoderInputs_eq r.requestId plan
    (self.addWaiting l request r plan.numNewTokens blocks)
  have hencoder : ∀ reqId ∈ (withEncoderInputs r.requestId plan
      (self.addWaiting l request r plan.numNewTokens blocks)).scheduledEncoderInputs.keys,
      reqId = ids request ∨ reqId ∈ l.scheduledEncoderInputs.keys := by
    intro reqId hkey
    have hcases := mem_keys_withEncoderInputs hkey
    rw [← hid]
    exact hcases
  rw [hlocals] at hencoder ⊢
  apply h.charge blocks hfits
  · exact fun hx => hmem (h.inRunning request hx)
  · intro x
    rw [List.mem_append, List.mem_singleton]
  · exact hpreempted
  · simp only [scheduledReqs, addWaiting]
    split
    · simp only [List.append_assoc, List.singleton_append]
      rw [← List.append_assoc, ← List.append_assoc]
      exact List.perm_middle
    · rw [← List.append_assoc l.scheduledNewReqs, ← List.append_assoc]
      exact List.perm_append_singleton _ _
  · rfl
  · rw [← hid]
    rfl
  · rw [← hid]
    rfl
  · exact fun reqId hkey => Or.inr hkey
  · exact hencoder
  · rfl
  · exact hids

end Account

end

end Scheduler

end Edmm
