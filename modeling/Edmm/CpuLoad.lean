/-
  Edmm/CpuLoad.lean
  =================
  **The CPU load that gates speculation** (`_sample_cpu_load`).

  A read of `/proc/stat` may fail in the middle, and its result is kept for 100 ms.
  No call raises, every value lies between 0 and 100, and each is the result of a
  read made less than 100 ms before (`sampleCpuLoad_fresh`).

  What a read computes is the share of the time since boot, not since the last read:
  it is the utilisation between two reads exactly if the idle share did not change
  (`cpuLoad_current_iff`).
-/
import Edmm.SchedulerHook
import Edmm.Lib.Program
import Edmm.Lib.Python
import Mathlib.Algebra.Order.BigOperators.Group.List
import Mathlib.Algebra.Order.Field.Basic
import Mathlib.Tactic.FieldSimp
import Mathlib.Tactic.Linarith

namespace Edmm

open Program

namespace EdmmSchedulerHook

/-! ## 1. The method, with its exceptions -/

/-- What reading and parsing `/proc/stat` may raise. -/
inductive ReadError where
  | osError
  | indexError
  | valueError
  | zeroDivisionError
deriving DecidableEq, Repr

abbrev SampleM := EStateM ReadError EdmmSchedulerHook

/-- `float(field)` -/
def float : Option ℚ → SampleM ℚ
  | some value => pure value
  | none => throw .valueError

def divide (a b : ℚ) : SampleM ℚ :=
  if b = 0 then throw .zeroDivisionError else pure (a / b)

/-- The `try` block of `_sample_cpu_load`. -/
def readCpuLoad : ProcStat → SampleM PUnit
  | none => throw .osError
  | some parts =>
      if parts.length ≥ 8 then do
        let idle ← match parts[4]? with
          | some field => float field
          | none => throw .indexError
        let total := (← (Python.slice parts 1 8).mapM float).sum
        let load ← if total > 0 then do
            let idleShare ← divide idle total
            pure (100 * (1 - idleShare))
          else pure 0
        modify fun hook => { hook with cpuLoadCache := load }
      else modify fun hook => { hook with cpuLoadCache := 0 }

/-- A call of `_sample_cpu_load`: the clock and the file it would read. -/
structure CpuReading where
  now : ℚ
  procStat : ProcStat

/-- `_sample_cpu_load` -/
def CpuReading.sample (reading : CpuReading) : SampleM ℚ := do
  let hook ← get
  if reading.now - hook.cpuLoadCacheTime < 1 / 10 then return hook.cpuLoadCache
  else
    try readCpuLoad reading.procStat
    catch _ => modify fun hook => { hook with cpuLoadCache := 0 }
    modify fun hook => { hook with cpuLoadCacheTime := reading.now }
    return (← get).cpuLoadCache

/-- Conversion stops at the first field that is no number. -/
theorem mapM_float (fields : List (Option ℚ)) (hook : EdmmSchedulerHook) :
    fields.mapM float hook = match fields.mapM id with
      | some counters => .ok counters hook
      | none => .error .valueError hook := by
  induction fields with
  | nil => rfl
  | cons field rest ih =>
    rw [List.mapM_cons, List.mapM_cons]
    cases field with
    | none => rfl
    | some value =>
      rw [run_bind_ok (show float (some value) hook = .ok value hook from rfl)]
      cases hrest : rest.mapM id with
      | none =>
        rw [hrest] at ih
        rw [run_bind_error ih]
        rfl
      | some counters =>
        rw [hrest] at ih
        rw [run_bind_ok ih]
        rfl

/-- The ways the `try` block ends: the index is in range and the divisor positive. -/
theorem readCpuLoad_run (procStat : ProcStat) (hook : EdmmSchedulerHook) :
    readCpuLoad procStat hook = .ok ⟨⟩ { hook with cpuLoadCache := cpuLoadOf procStat } ∨
      (cpuLoadOf procStat = 0 ∧ ∃ e, (e = .osError ∨ e = .valueError) ∧
        readCpuLoad procStat hook = .error e hook) := by
  cases procStat with
  | none => exact Or.inr ⟨rfl, .osError, Or.inl rfl, rfl⟩
  | some parts =>
    unfold readCpuLoad cpuLoadOf
    by_cases hlength : parts.length ≥ 8
    · have hslice : Python.slice parts 1 8 = (parts.drop 1).take 7 :=
        (Python.slice_natCast parts 1 8).trans List.drop_take
      have hfield : parts[4]? = some (parts.getD 4 none) := by
        rw [List.getD_eq_getElem?_getD, List.getElem?_eq_getElem (by omega), Option.getD_some]
      simp only [if_pos hlength, hslice, hfield]
      cases parts.getD 4 none with
      | none => exact Or.inr ⟨rfl, .valueError, Or.inr rfl, rfl⟩
      | some idle =>
        rw [run_bind_ok (show float (some idle) hook = .ok idle hook from rfl)]
        have hmap := mapM_float ((parts.drop 1).take 7) hook
        cases hcounters : ((parts.drop 1).take 7).mapM id with
        | none =>
          rw [hcounters] at hmap
          rw [run_bind_error hmap]
          exact Or.inr ⟨rfl, .valueError, Or.inr rfl, rfl⟩
        | some counters =>
          rw [hcounters] at hmap
          rw [run_bind_ok hmap]
          left
          by_cases htotal : counters.sum > 0
          · simp only [if_pos htotal, divide, if_neg (ne_of_gt htotal)]
            rfl
          · simp only [if_neg htotal]
            rfl
    · simp only [if_neg hlength]
      exact Or.inl rfl

/-- **No call raises.** -/
theorem CpuReading.sample_run (reading : CpuReading) (hook : EdmmSchedulerHook) :
    reading.sample hook = .ok (hook.sampleCpuLoad reading.now reading.procStat).1
      (hook.sampleCpuLoad reading.now reading.procStat).2 := by
  unfold CpuReading.sample sampleCpuLoad
  rw [run_get_bind]
  by_cases hcached : reading.now - hook.cpuLoadCacheTime < 1 / 10
  · rw [if_pos hcached, if_pos hcached]
    rfl
  · rw [if_neg hcached, if_neg hcached]
    rcases readCpuLoad_run reading.procStat hook with hok | ⟨hzero, e, -, hraised⟩
    · rw [run_bind_ok (run_tryCatch_ok hok _)]
      rfl
    · rw [run_bind_ok (run_tryCatch_error hraised _), hzero]
      rfl

/-! ## 2. The range of a value -/

/-- The numbers on the line are counters. -/
def ProcStat.Counters (procStat : ProcStat) : Prop :=
  ∀ parts, procStat = some parts → ∀ value, some value ∈ parts → ∃ n : ℕ, value = n

theorem eq_map_some_of_mapM_id {fields : List (Option ℚ)} {counters : List ℚ}
    (h : fields.mapM id = some counters) : fields = counters.map some := by
  induction fields generalizing counters with
  | nil =>
    cases h
    rfl
  | cons field rest ih =>
    rw [List.mapM_cons] at h
    cases field with
    | none => cases h
    | some value =>
      cases hrest : rest.mapM id with
      | none =>
        rw [hrest] at h
        cases h
      | some values =>
        rw [hrest] at h
        cases h
        rw [ih hrest]
        rfl

/-- A share of a total, as a load. -/
theorem load_range {idle total : ℚ} (hidle : 0 ≤ idle) (hle : idle ≤ total) (htotal : 0 < total) :
    0 ≤ 100 * (1 - idle / total) ∧ 100 * (1 - idle / total) ≤ 100 := by
  have hlow : 0 ≤ idle / total := div_nonneg hidle htotal.le
  have hhigh : idle / total ≤ 1 := (div_le_one htotal).mpr hle
  constructor <;> linarith

/-- **The range.**  The idle time is one of the summed counters. -/
theorem cpuLoadOf_range {procStat : ProcStat} (h : ProcStat.Counters procStat) :
    0 ≤ cpuLoadOf procStat ∧ cpuLoadOf procStat ≤ 100 := by
  have hzero : (0 : ℚ) ≤ 0 ∧ (0 : ℚ) ≤ 100 := by norm_num
  cases procStat with
  | none => exact hzero
  | some parts =>
    unfold cpuLoadOf
    by_cases hlength : parts.length ≥ 8
    · simp only [if_pos hlength]
      cases hidle : parts.getD 4 none with
      | none => exact hzero
      | some idle =>
        cases hcounters : ((parts.drop 1).take 7).mapM id with
        | none => exact hzero
        | some counters =>
          have hfields := eq_map_some_of_mapM_id hcounters
          have hmem : ∀ value ∈ counters, some value ∈ parts := by
            intro value hvalue
            have hfield : some value ∈ (parts.drop 1).take 7 :=
              hfields ▸ List.mem_map_of_mem hvalue
            exact List.mem_of_mem_drop (List.mem_of_mem_take hfield)
          have hnonneg : ∀ value ∈ counters, 0 ≤ value := by
            intro value hvalue
            obtain ⟨n, rfl⟩ := h parts rfl value (hmem value hvalue)
            exact Nat.cast_nonneg n
          -- field 4 of the line is counter 3 of the slice
          have hcounted : idle ∈ counters := by
            have hfield : ((parts.drop 1).take 7)[3]? = some (some idle) := by
              rw [List.getElem?_take_of_lt (by omega), List.getElem?_drop, ← hidle,
                List.getD_eq_getElem?_getD, List.getElem?_eq_getElem (by omega), Option.getD_some]
            have hsome := List.mem_of_getElem? hfield
            rw [hfields] at hsome
            simpa using hsome
          by_cases htotal : counters.sum > 0
          · simp only [if_pos htotal]
            exact load_range (hnonneg idle hcounted)
              (List.single_le_sum hnonneg idle hcounted) htotal
          · simp only [if_neg htotal]
            exact hzero
    · simp only [if_neg hlength]
      exact hzero

/-! ## 3. Freshness over runs -/

abbrev CpuCall := Machine.Performed EdmmSchedulerHook CpuReading ℚ

/-- A run of `_sample_cpu_load` calls. -/
abbrev CpuRun (start : EdmmSchedulerHook) (history : List CpuCall) (hook : EdmmSchedulerHook) :
    Prop :=
  Machine.Run CpuReading.sample start history hook

/-- At this clock the cached value has expired, and the file is read. -/
def Reads (hook : EdmmSchedulerHook) (now : ℚ) : Prop :=
  ¬ now - hook.cpuLoadCacheTime < 1 / 10

/-- The cache holds what the last read computed, and when. -/
def CacheFilled (history : List CpuCall) (hook : EdmmSchedulerHook) : Prop :=
  ∃ read ∈ history, Reads read.before read.op.now ∧
    hook.cpuLoadCacheTime = read.op.now ∧ hook.cpuLoadCache = cpuLoadOf read.op.procStat

/-- The cache is filled, or nothing was called yet. -/
def CacheInv (history : List CpuCall) (hook : EdmmSchedulerHook) : Prop :=
  history = [] ∧ hook.cpuLoadCacheTime = 0 ∨ CacheFilled history hook

/-- **One call.**  After it the cache is filled, and its value is what the call
    returned. -/
theorem CacheInv.sample {history : List CpuCall} {hook hook' : EdmmSchedulerHook}
    {reading : CpuReading} {value : ℚ} (h : CacheInv history hook)
    (hcall : reading.sample hook = .ok value hook') (hclock : 1 / 10 ≤ reading.now) :
    CacheFilled (history ++ [⟨hook, reading, value, hook'⟩]) hook' ∧ hook'.cpuLoadCache = value ∧
      reading.now - hook'.cpuLoadCacheTime < 1 / 10 := by
  rw [reading.sample_run] at hcall
  cases hcall
  by_cases hreads : Reads hook reading.now
  · have hsampled : hook.sampleCpuLoad reading.now reading.procStat =
        (cpuLoadOf reading.procStat, { hook with
          cpuLoadCache := cpuLoadOf reading.procStat, cpuLoadCacheTime := reading.now }) :=
      if_neg hreads
    rw [hsampled]
    refine ⟨⟨_, List.mem_append_right _ (List.mem_singleton.mpr rfl), hreads, rfl, rfl⟩, rfl, ?_⟩
    simp
  · have hcached : reading.now - hook.cpuLoadCacheTime < 1 / 10 := not_not.mp hreads
    have hsampled : hook.sampleCpuLoad reading.now reading.procStat = (hook.cpuLoadCache, hook) :=
      if_pos hcached
    rw [hsampled]
    rcases h with ⟨-, hfirst⟩ | ⟨read, hmem, hread⟩
    · -- the first call finds the clock past 0.1 s
      rw [hfirst] at hcached
      linarith
    · exact ⟨⟨read, List.mem_append_left _ hmem, hread⟩, rfl, hcached⟩

/-- **Over runs.** -/
theorem CpuRun.cacheInv {allocatorImportable : Bool} {history : List CpuCall}
    {hook : EdmmSchedulerHook} (run : CpuRun (.init allocatorImportable) history hook)
    (hclock : ∀ call ∈ history, 1 / 10 ≤ call.op.now) : CacheInv history hook := by
  refine run.invariant_of_history (P := fun call => 1 / 10 ≤ call.op.now) ?_ hclock
    (Or.inl ⟨rfl, rfl⟩)
  intro history s s' reading value h hcall hpermitted
  exact Or.inr (h.sample hcall hpermitted).1

/-- **In range and fresh.**  In every run of calls at non-decreasing clocks from 0.1 s
    on, with counters, short lines, fields that are no numbers or I/O errors: no next
    call raises, and every value returned lies in [0, 100] and was computed from a
    read, or failed read, made by that call or less than 0.1 s before it. -/
theorem sampleCpuLoad_fresh (allocatorImportable : Bool) (history : List CpuCall)
    (hook : EdmmSchedulerHook) (run : CpuRun (.init allocatorImportable) history hook)
    (hclock : ∀ call ∈ history, 1 / 10 ≤ call.op.now)
    (hmonotone : history.Pairwise fun call next => call.op.now ≤ next.op.now)
    (hcounters : ∀ call ∈ history, ProcStat.Counters call.op.procStat) :
    (∀ reading : CpuReading, ∃ value hook', reading.sample hook = .ok value hook') ∧
    ∀ earlier call later, history = earlier ++ call :: later →
      (0 ≤ call.output ∧ call.output ≤ 100) ∧
      ∃ read ∈ earlier ++ [call], Reads read.before read.op.now ∧
        read.op.now ≤ call.op.now ∧ call.op.now - read.op.now < 1 / 10 ∧
        call.output = cpuLoadOf read.op.procStat := by
  refine ⟨fun reading => ⟨_, _, reading.sample_run hook⟩, ?_⟩
  rintro earlier call later rfl
  obtain ⟨hbefore, hcall, -⟩ := Machine.Run.split run rfl
  have hinv := CpuRun.cacheInv hbefore fun call hmem => hclock call (List.mem_append_left _ hmem)
  obtain ⟨⟨read, hmem, hread, htime, hvalue⟩, hreturned, hfresh⟩ :=
    hinv.sample hcall (hclock call (by simp))
  rw [htime] at hfresh
  rw [hreturned] at hvalue
  have hlisted : read ∈ earlier ++ call :: later := by
    rw [List.append_cons]
    exact List.mem_append_left _ hmem
  have horder : read.op.now ≤ call.op.now := by
    rcases List.mem_append.mp hmem with hearlier | hlast
    · exact (List.pairwise_append.mp hmonotone).2.2 read hearlier call List.mem_cons_self
    · rw [List.mem_singleton.mp hlast]
  exact ⟨hvalue ▸ cpuLoadOf_range (hcounters read hlisted),
    read, hmem, hread, horder, hfresh, hvalue⟩

/-- A read, and a call 50 ms later that is answered from the cache. -/
theorem sampleCpuLoad_fresh_two_calls :
    ∃ first second : CpuCall, ∃ hook, CpuRun (.init true) [first, second] hook ∧
      second.output = 600 / 7 ∧ 0 ≤ second.output ∧ second.output ≤ 100 := by
  let stat : ProcStat := some (none :: List.replicate 7 (some 10))
  have run := (Machine.Run.nil.snoc (CpuReading.sample_run ⟨1 / 10, stat⟩ (.init true))).snoc
    (CpuReading.sample_run ⟨3 / 20, none⟩ _)
  have hfresh := sampleCpuLoad_fresh true _ _ run (by norm_num) (by norm_num) (by
    intro call hcall
    simp only [List.nil_append, List.singleton_append, List.mem_cons, List.not_mem_nil,
      or_false] at hcall
    rcases hcall with rfl | rfl
    · intro parts hparts value hvalue
      cases hparts
      simp only [List.mem_cons, reduceCtorEq, false_or, List.mem_replicate, Option.some.injEq]
        at hvalue
      exact ⟨10, hvalue.2⟩
    · intro parts hparts
      cases hparts)
  have hrange := hfresh.2 _ _ _ rfl
  exact ⟨_, _, _, run, by decide +kernel, hrange.1⟩

/-! ## 4. Two reads, and the utilisation between them -/

/-- The first line of `/proc/stat`: time counted since boot. -/
structure CpuTimes where
  user : Nat
  nice : Nat
  system : Nat
  idle : Nat
  iowait : Nat
  irq : Nat
  softirq : Nat
  rest : List Nat
deriving DecidableEq, Repr

namespace CpuTimes

def counted (t : CpuTimes) : List Nat :=
  [t.user, t.nice, t.system, t.idle, t.iowait, t.irq, t.softirq]

def total (t : CpuTimes) : Nat := t.counted.sum

/-- The line, split: the name `cpu` and the counters. -/
def procStat (t : CpuTimes) : ProcStat :=
  some (none :: (t.counted ++ t.rest).map fun counter : Nat => some (counter : ℚ))

/-- No counter went back. -/
def NonDecreasing (s t : CpuTimes) : Prop := List.Forall₂ (· ≤ ·) s.counted t.counted

instance (s t : CpuTimes) : Decidable (NonDecreasing s t) :=
  inferInstanceAs (Decidable (List.Forall₂ _ _ _))

end CpuTimes

/-- What a read of these counters computes: the share of the time since boot. -/
theorem cpuLoadOf_procStat (t : CpuTimes) :
    cpuLoadOf t.procStat = if 0 < t.total then 100 * (1 - (t.idle : ℚ) / t.total) else 0 := by
  have hfields : cpuLoadOf t.procStat =
      let total := (t.counted.map fun counter : Nat => (counter : ℚ)).sum
      if total > 0 then 100 * (1 - (t.idle : ℚ) / total) else 0 := by
    have hlength : (none :: (t.counted ++ t.rest).map fun counter : Nat =>
        some (counter : ℚ)).length ≥ 8 := by simp [CpuTimes.counted]
    unfold cpuLoadOf CpuTimes.procStat
    simp only [if_pos hlength]
    rfl
  have htotal : (t.counted.map fun counter : Nat => (counter : ℚ)).sum = t.total := by
    simp [CpuTimes.total, CpuTimes.counted]
  rw [hfields, htotal]
  simp only [gt_iff_lt, Nat.cast_pos]

/-- The share of the whole is the share of the difference exactly if it was the share
    before. -/
theorem share_eq_share_sub_iff {idle idle' total total' : ℚ} (htotal : total < total')
    (hpos : 0 < total') :
    idle' / total' = (idle' - idle) / (total' - total) ↔ idle * total' = idle' * total := by
  rw [div_eq_div_iff hpos.ne' (sub_pos.mpr htotal).ne']
  constructor <;> intro h <;> linarith

/-- The load and the decision are those of the time between the two reads. -/
def CurrentLoad (s t : CpuTimes) (load : ℚ) (decision : SpeculationDecision) : Prop :=
  s.total < t.total →
    load = 100 * (1 - ((t.idle : ℚ) - s.idle) / ((t.total : ℚ) - s.total)) ∧
    (t.idle = s.idle → decision = .defer)

/-- The idle share of the time since boot did not change between the two reads, if
    any time was counted. -/
def SameIdleShare (s t : CpuTimes) : Prop :=
  s.total < t.total → s.idle * t.total = t.idle * s.total

/-- What the hook reads and decides at a read. -/
theorem onToolCallPause_decision {hook : EdmmSchedulerHook} {reading : PauseReading}
    (hreads : Reads hook reading.monotonic) (r : RequestId) :
    (hook.sampleCpuLoad reading.monotonic reading.procStat).1 = cpuLoadOf reading.procStat ∧
      (hook.onToolCallPause r reading).1 =
        if cpuLoadOf reading.procStat > 75 then .defer else .speculate := by
  have hsampled : (hook.sampleCpuLoad reading.monotonic reading.procStat).1 =
      cpuLoadOf reading.procStat := by
    unfold sampleCpuLoad
    rw [if_neg hreads]
  refine ⟨hsampled, ?_⟩
  unfold onToolCallPause cpuLoadThreshold
  simp only [hsampled]

/-- **One pair of reads.** -/
theorem currentLoad_iff {hook : EdmmSchedulerHook} {reading : PauseReading} {s t : CpuTimes}
    (hstat : reading.procStat = t.procStat) (hreads : Reads hook reading.monotonic)
    (r : RequestId) :
    CurrentLoad s t (hook.sampleCpuLoad reading.monotonic reading.procStat).1
        (hook.onToolCallPause r reading).1 ↔ SameIdleShare s t := by
  obtain ⟨hload, hdecision⟩ := onToolCallPause_decision hreads r
  unfold CurrentLoad SameIdleShare
  refine forall_congr' fun htotal => ?_
  have hpos : 0 < t.total := by omega
  have hlt : (s.total : ℚ) < t.total := by exact_mod_cast htotal
  have hcast : (0 : ℚ) < t.total := by exact_mod_cast hpos
  rw [hload, hdecision, hstat, cpuLoadOf_procStat, if_pos hpos]
  have hshare : 100 * (1 - (t.idle : ℚ) / t.total) =
      100 * (1 - ((t.idle : ℚ) - s.idle) / ((t.total : ℚ) - s.total)) ↔
        s.idle * t.total = t.idle * s.total := by
    rw [mul_right_inj' (by norm_num), sub_right_inj, share_eq_share_sub_iff hlt hcast]
    exact_mod_cast Iff.rfl
  constructor
  · exact fun h => hshare.mp h.1
  · refine fun h => ⟨hshare.mpr h, fun hidle => ?_⟩
    -- no idle time in between, at the same share, is no idle time at all
    have hnone : t.idle = 0 := by
      rw [← hidle] at h
      rcases Nat.eq_zero_or_pos t.idle with hzero | hidle
      · exact hzero
      · have := Nat.eq_of_mul_eq_mul_left hidle h
        omega
    rw [hnone]
    norm_num

/-- **When no idle time accrued**, the pause defers exactly if the machine was busy
    for more than three quarters of all the time since boot. -/
theorem defers_iff {hook : EdmmSchedulerHook} {reading : PauseReading} {t : CpuTimes}
    (hstat : reading.procStat = t.procStat) (hreads : Reads hook reading.monotonic)
    (r : RequestId) : (hook.onToolCallPause r reading).1 = .defer ↔ 4 * t.idle < t.total := by
  rw [(onToolCallPause_decision hreads r).2, hstat, cpuLoadOf_procStat]
  by_cases hpos : 0 < t.total
  · have hcast : (0 : ℚ) < t.total := by exact_mod_cast hpos
    have hload : 100 * (1 - (t.idle : ℚ) / t.total) > 75 ↔ 4 * t.idle < t.total := by
      have hquarter : 100 * (1 - (t.idle : ℚ) / t.total) > 75 ↔ (t.idle : ℚ) / t.total < 1 / 4 := by
        constructor <;> intro h <;> linarith
      rw [hquarter, div_lt_iff₀ hcast]
      constructor
      · intro h
        have hmul : (4 : ℚ) * t.idle < t.total := by linarith
        exact_mod_cast hmul
      · intro h
        have hmul : (4 : ℚ) * t.idle < t.total := by exact_mod_cast h
        linarith
    rw [if_pos hpos, ← hload]
    split <;> simp_all
  · have hnever : ¬ 4 * t.idle < t.total := by omega
    rw [if_neg hpos]
    simp [hnever]

/-! ## 5. Runs of the hook -/

/-- In the run `ops` the pause with `second`, made in state `hook`, reads
    `/proc/stat`, and the read before it was the one of the pause with `first`. -/
structure ConsecutiveReads (start : EdmmSchedulerHook) (ops : List HookOp)
    (first second : PauseReading) (hook : EdmmSchedulerHook) : Prop where
  split : ∃ before r between r' after,
    ops = before ++ .onToolCallPause r first :: (between ++ .onToolCallPause r' second :: after) ∧
    hook = runHook start (before ++ .onToolCallPause r first :: between) ∧
    Reads (runHook start before) first.monotonic ∧
    Reads hook second.monotonic ∧
    ∀ between₁ q reading between₂, between = between₁ ++ .onToolCallPause q reading :: between₂ →
      ¬ Reads (runHook start (before ++ .onToolCallPause r first :: between₁)) reading.monotonic

theorem ConsecutiveReads.reads {start hook : EdmmSchedulerHook} {ops : List HookOp}
    {first second : PauseReading} (h : ConsecutiveReads start ops first second hook) :
    Reads hook second.monotonic := by
  obtain ⟨-, -, -, -, -, -, -, -, hreads, -⟩ := h.split
  exact hreads

/-- Every two consecutive reads of the run give the load between them. -/
def CurrentThroughout (start : EdmmSchedulerHook) (ops : List HookOp) : Prop :=
  ∀ first second hook (s t : CpuTimes), ConsecutiveReads start ops first second hook →
    first.procStat = s.procStat → second.procStat = t.procStat → ∀ r,
      CurrentLoad s t (hook.sampleCpuLoad second.monotonic second.procStat).1
        (hook.onToolCallPause r second).1

/-- **When gating follows the current utilisation.**  In every run of the hook, the
    load of each read is the one since the read before it exactly if the idle share
    since boot was the same at both, for every two consecutive reads between which
    time was counted.  With no idle time in between, the pause defers exactly if less
    than a quarter of the time since boot was idle. -/
theorem cpuLoad_current_iff (allocatorImportable : Bool) (ops : List HookOp) :
    (CurrentThroughout (.init allocatorImportable) ops ↔
      ∀ first second hook (s t : CpuTimes),
        ConsecutiveReads (.init allocatorImportable) ops first second hook →
        first.procStat = s.procStat → second.procStat = t.procStat → SameIdleShare s t) ∧
    ∀ first second hook (s t : CpuTimes),
      ConsecutiveReads (.init allocatorImportable) ops first second hook →
      first.procStat = s.procStat → second.procStat = t.procStat → s.total < t.total →
      t.idle = s.idle → ∀ r,
        ((hook.onToolCallPause r second).1 = .defer ↔ 4 * t.idle < t.total) := by
  constructor
  · constructor
    · intro hcurrent first second hook s t hreads hfirst hsecond
      exact (currentLoad_iff hsecond hreads.reads "").mp
        (hcurrent first second hook s t hreads hfirst hsecond "")
    · intro hsame first second hook s t hreads hfirst hsecond r
      exact (currentLoad_iff hsecond hreads.reads r).mpr
        (hsame first second hook s t hreads hfirst hsecond)
  · intro first second hook s t hreads _ hsecond _ _ r
    exact defers_iff hsecond hreads.reads r

/-- **A busy second after an idle hour.**  No idle time is counted between the two
    reads, but the pause speculates: the load since boot is under 1 %. -/
theorem cpuLoad_not_current :
    ¬ ∀ (allocatorImportable : Bool) (ops : List HookOp)
      (first second : PauseReading) (hook : EdmmSchedulerHook) (s t : CpuTimes),
      ConsecutiveReads (.init allocatorImportable) ops first second hook →
      first.procStat = s.procStat → second.procStat = t.procStat →
      CpuTimes.NonDecreasing s t → first.monotonic + 1 / 10 ≤ second.monotonic → ∀ r,
        CurrentLoad s t (hook.sampleCpuLoad second.monotonic second.procStat).1
          (hook.onToolCallPause r second).1 := by
  intro hclaim
  let s : CpuTimes := ⟨0, 0, 0, 360000, 0, 0, 0, []⟩
  let t : CpuTimes := ⟨100, 0, 0, 360000, 0, 0, 0, []⟩
  let first : PauseReading := ⟨3600, s.procStat, 0⟩
  let second : PauseReading := ⟨3601, t.procStat, 0⟩
  have hreads : ConsecutiveReads (.init true)
      [.onToolCallPause "a" first, .onToolCallPause "b" second] first second
      (runHook (.init true) [.onToolCallPause "a" first]) := by
    refine ⟨[], "a", [], "b", [], rfl, rfl, ?_, ?_, ?_⟩
    · unfold Reads
      decide +kernel
    · unfold Reads
      decide +kernel
    · intro between₁ q reading between₂ h
      cases between₁ <;> cases h
  have hcurrent := hclaim true _ first second _ s t hreads rfl rfl (by decide)
    (by norm_num [first, second]) "b"
  have hdefers := (hcurrent (by decide)).2 rfl
  exact absurd hdefers (by decide +kernel)

end EdmmSchedulerHook

end Edmm
