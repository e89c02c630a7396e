/-
  Edmm/Lib/Threads.lean
  =====================
  **Threads that share a state, and calls that a lock serialises.**

  A thread is a local state; one step of a thread reads and writes the shared state
  and its own.  A run takes one step of some thread after another, so it ranges
  over every interleaving.

  `Serialization` collects what one has to know about the steps of calls that do
  their work under a lock: what a thread outside the lock does is invisible, and
  what the holder does adds up to its call running alone.  Then the calls of every
  run have the effect and the results of running one after another.
-/
import Edmm.Lib.Program
import Mathlib.Data.List.Nodup
import Mathlib.Data.List.Perm.Subperm

namespace Edmm

universe u

/-- Threads, numbered from 0, with what they share. -/
structure Threads (S P : Type u) where
  shared : S
  locals : List P

namespace Threads

variable {S P A R : Type u}

/-- One step of one thread; `step` is `none` when the thread cannot take one. -/
inductive Move (step : Nat → S → P → Option (S × P)) : Threads S P → Threads S P → Prop where
  | move {σ : Threads S P} {t : Nat} {p p' : P} {s' : S} (hlocal : σ.locals[t]? = some p)
      (hstep : step t σ.shared p = some (s', p')) :
      Move step σ ⟨s', σ.locals.set t p'⟩

/-- Every interleaving of the steps. -/
abbrev Moves (step : Nat → S → P → Option (S × P)) : Threads S P → Threads S P → Prop :=
  Relation.ReflTransGen (Move step)

/-! ### What the threads hold -/

theorem getElem?_set_of_local {ps : List P} {t : Nat} {p : P} (hlocal : ps[t]? = some p) (p' : P) :
    (ps.set t p')[t]? = some p' := by
  obtain ⟨hlt, _⟩ := List.getElem?_eq_some_iff.mp hlocal
  rw [List.getElem?_set_self hlt]

theorem getElem?_set_of_ne {ps : List P} {t t' : Nat} (hne : t' ≠ t) (p' : P) :
    (ps.set t p')[t']? = ps[t']? :=
  List.getElem?_set_ne (Ne.symm hne)

/-- A thread that moves and holds what it held. -/
theorem filterMap_set_of_eq {ps : List P} {t : Nat} {p p' : P} {holds : P → Option A}
    (hlocal : ps[t]? = some p) (hsame : holds p' = holds p) :
    (ps.set t p').filterMap holds = ps.filterMap holds := by
  induction ps generalizing t with
  | nil => rfl
  | cons q rest ih =>
    cases t with
    | zero =>
      obtain rfl := Option.some.inj hlocal
      simp [List.filterMap_cons, hsame]
    | succ t => simp [List.filterMap_cons, ih hlocal]

/-- A thread that moves and holds something from then on. -/
theorem filterMap_set_perm {ps : List P} {t : Nat} {p p' : P} {holds : P → Option A} {a : A}
    (hlocal : ps[t]? = some p) (hbefore : holds p = none) (hafter : holds p' = some a) :
    ((ps.set t p').filterMap holds).Perm (a :: ps.filterMap holds) := by
  induction ps generalizing t with
  | nil => cases hlocal
  | cons q rest ih =>
    cases t with
    | zero =>
      obtain rfl := Option.some.inj hlocal
      simp [hbefore, hafter]
    | succ t =>
      have hrest := ih hlocal
      simp only [List.set_cons_succ, List.filterMap_cons]
      cases holds q with
      | none => exact hrest
      | some b => exact (hrest.cons b).trans (List.Perm.swap a b _)

/-- A step that the guard admits for its thread. -/
inductive GuardedMove (step : Nat → S → P → Option (S × P)) (guard : Threads S P → Nat → Prop) :
    Threads S P → Threads S P → Prop where
  | move {σ : Threads S P} {t : Nat} {p p' : P} {s' : S} (hguard : guard σ t)
      (hlocal : σ.locals[t]? = some p) (hstep : step t σ.shared p = some (s', p')) :
      GuardedMove step guard σ ⟨s', σ.locals.set t p'⟩

/-- The interleavings whose steps the guard admits. -/
abbrev GuardedMoves (step : Nat → S → P → Option (S × P)) (guard : Threads S P → Nat → Prop) :
    Threads S P → Threads S P → Prop :=
  Relation.ReflTransGen (GuardedMove step guard)

/-- Without a guard every interleaving is admitted. -/
theorem Moves.guarded {step : Nat → S → P → Option (S × P)} {σ σ' : Threads S P}
    (h : Moves step σ σ') : GuardedMoves step (fun _ _ => True) σ σ' := by
  induction h with
  | refl => exact Relation.ReflTransGen.refl
  | tail _ last ih =>
    obtain ⟨hlocal, hstep⟩ := last
    exact ih.tail (.move trivial hlocal hstep)

/-- A step of thread `t`, if it can take one. -/
def turn (step : Nat → S → P → Option (S × P)) (σ : Threads S P) (t : Nat) : Threads S P :=
  match σ.locals[t]? with
  | none => σ
  | some p =>
      match step t σ.shared p with
      | none => σ
      | some (s', p') => ⟨s', σ.locals.set t p'⟩

/-- The run of a schedule. -/
def follow (step : Nat → S → P → Option (S × P)) (σ : Threads S P) (schedule : List Nat) :
    Threads S P :=
  schedule.foldl (turn step) σ

theorem moves_turn (step : Nat → S → P → Option (S × P)) (σ : Threads S P) (t : Nat) :
    Moves step σ (turn step σ t) := by
  unfold turn
  cases hlocal : σ.locals[t]? with
  | none => exact Relation.ReflTransGen.refl
  | some p =>
    cases hstep : step t σ.shared p with
    | none => simp only [hstep]; exact Relation.ReflTransGen.refl
    | some moved =>
      simp only [hstep]
      exact Relation.ReflTransGen.single (.move hlocal hstep)

theorem moves_follow (step : Nat → S → P → Option (S × P)) (σ : Threads S P)
    (schedule : List Nat) : Moves step σ (follow step σ schedule) := by
  induction schedule generalizing σ with
  | nil => exact Relation.ReflTransGen.refl
  | cons t rest ih => exact (moves_turn step σ t).trans (ih (turn step σ t))

/-- The calls of some threads, one after another: the last state and the results. -/
def serial (body : Nat → A → A × R) : List Nat → A → A × List (Nat × R)
  | [], a => (a, [])
  | t :: rest, a =>
      ((serial body rest (body t a).1).1, (t, (body t a).2) :: (serial body rest (body t a).1).2)

theorem serial_concat (body : Nat → A → A × R) (order : List Nat) (t : Nat) (a : A) :
    serial body (order ++ [t]) a =
      ((body t (serial body order a).1).1,
        (serial body order a).2 ++ [(t, (body t (serial body order a).1).2)]) := by
  induction order generalizing a with
  | nil => rfl
  | cons t' rest ih => simp [serial, ih]

theorem map_fst_serial (body : Nat → A → A × R) (order : List Nat) (a : A) :
    (serial body order a).2.map Prod.fst = order := by
  induction order generalizing a with
  | nil => rfl
  | cons t rest ih => simp [serial, ih]

theorem mem_of_mem_serial {body : Nat → A → A × R} {order : List Nat} {a : A} {t : Nat} {r : R}
    (h : (t, r) ∈ (serial body order a).2) : t ∈ order := by
  rw [← map_fst_serial body order a]
  exact List.mem_map_of_mem h

/-- A call has one result. -/
theorem serial_result_unique {body : Nat → A → A × R} {order : List Nat} {a : A} {t : Nat}
    {r r' : R} (hnodup : order.Nodup) (h : (t, r) ∈ (serial body order a).2)
    (h' : (t, r') ∈ (serial body order a).2) : r = r' := by
  rw [← map_fst_serial body order a] at hnodup
  exact congrArg Prod.snd (List.inj_on_of_nodup_map hnodup h h' rfl)

/-- What the steps of calls under a lock have to satisfy.  `a` is the state that the
    finished calls, one after another, lead to. -/
structure Serialization (step : Nat → S → P → Option (S × P)) (body : Nat → A → A × R)
    (result : P → Option R) where
  /-- The lock is free, and the shared state shows `a`. -/
  Free : A → S → Prop
  /-- The thread holds the lock since the shared state showed `a`. -/
  Held : Nat → A → P → S → Prop
  /-- The thread has not taken the lock yet. -/
  Outside : Nat → A → P → Prop
  unfinished : ∀ {t a p}, Outside t a p → result p = none
  held_unfinished : ∀ {t a p s}, Held t a p s → result p = none
  finished : ∀ {t s p r}, result p = some r → step t s p = none
  /-- What a thread saw stays true when another call is completed. -/
  stable : ∀ {t t' a p}, Outside t a p → Outside t (body t' a).1 p
  outside_free : ∀ {t a s s' p p'}, Free a s → Outside t a p → step t s p = some (s', p') →
    (s' = s ∧ Outside t a p') ∨ Held t a p' s' ∨
      (s' = s ∧ ∃ r, result p' = some r ∧ body t a = (a, r))
  outside_held : ∀ {t t' a s s' p p' q}, Held t' a q s → t ≠ t' → Outside t a p →
    step t s p = some (s', p') →
    (s' = s ∧ Outside t a p') ∨ (s' = s ∧ ∃ r, result p' = some r ∧ body t a = (a, r))
  held : ∀ {t a s s' p p'}, Held t a p s → step t s p = some (s', p') →
    Held t a p' s' ∨ ∃ a' r, body t a = (a', r) ∧ Free a' s' ∧ result p' = some r

variable {step : Nat → S → P → Option (S × P)} {body : Nat → A → A × R} {result : P → Option R}

/-- The threads `order` are finished, as if they had run one after another from `a₀`;
    the others have not taken the lock, or one of them holds it. -/
structure Serial (h : Serialization step body result) (a₀ : A) (order : List Nat)
    (σ : Threads S P) : Prop where
  nodup : order.Nodup
  finished : ∀ t ∈ order, ∃ p r, σ.locals[t]? = some p ∧ result p = some r ∧
    (t, r) ∈ (serial body order a₀).2
  lock : (h.Free (serial body order a₀).1 σ.shared ∧
      ∀ t p, σ.locals[t]? = some p → t ∉ order → h.Outside t (serial body order a₀).1 p) ∨
    ∃ t p, σ.locals[t]? = some p ∧ t ∉ order ∧
      h.Held t (serial body order a₀).1 p σ.shared ∧
      ∀ t' p', σ.locals[t']? = some p' → t' ∉ order → t' ≠ t →
        h.Outside t' (serial body order a₀).1 p'

variable {h : Serialization step body result} {a₀ : A} {order : List Nat} {σ : Threads S P}

theorem serial_init {s : S} {ps : List P} (hfree : h.Free a₀ s)
    (houtside : ∀ t p, ps[t]? = some p → h.Outside t a₀ p) : Serial h a₀ [] ⟨s, ps⟩ where
  nodup := List.nodup_nil
  finished := fun t ht => by cases ht
  lock := Or.inl ⟨hfree, fun t p hp _ => houtside t p hp⟩

/-- A thread that can take a step is not finished. -/
theorem Serial.not_mem (hs : Serial h a₀ order σ) {t : Nat} {p p' : P} {s' : S}
    (hlocal : σ.locals[t]? = some p) (hstep : step t σ.shared p = some (s', p')) : t ∉ order := by
  intro hmem
  obtain ⟨q, r, hq, hresult, _⟩ := hs.finished t hmem
  rw [hlocal, Option.some.injEq] at hq
  subst hq
  rw [h.finished hresult] at hstep
  cases hstep

/-- The finished threads stay finished when another one takes a step. -/
theorem Serial.finished_set (hs : Serial h a₀ order σ) {t : Nat} (ht : t ∉ order) (p' : P) :
    ∀ t' ∈ order, ∃ p r, (σ.locals.set t p')[t']? = some p ∧ result p = some r ∧
      (t', r) ∈ (serial body order a₀).2 := by
  intro t' hmem
  obtain ⟨p, r, hp, hresult, hin⟩ := hs.finished t' hmem
  have hne : t' ≠ t := fun heq => ht (heq ▸ hmem)
  exact ⟨p, r, by rw [getElem?_set_of_ne hne, hp], hresult, hin⟩

/-- The order after a thread finished with the result of its call. -/
theorem Serial.finish (hs : Serial h a₀ order σ) {t : Nat} {p p' : P} {r : R}
    (ht : t ∉ order) (hlocal : σ.locals[t]? = some p) (hresult : result p' = some r)
    (hbody : (body t (serial body order a₀).1).2 = r) :
    (order ++ [t]).Nodup ∧ ∀ t' ∈ order ++ [t], ∃ p r, (σ.locals.set t p')[t']? = some p ∧
      result p = some r ∧ (t', r) ∈ (serial body (order ++ [t]) a₀).2 := by
  constructor
  · rw [List.nodup_append]
    refine ⟨hs.nodup, List.nodup_singleton t, ?_⟩
    intro t' hmem q hq heq
    rw [List.mem_singleton] at hq
    exact ht (by rw [← hq, ← heq]; exact hmem)
  · intro t' hmem
    rw [serial_concat]
    rcases List.mem_append.mp hmem with hbefore | hnow
    · obtain ⟨q, r', hq, hr', hin⟩ := hs.finished_set ht p' t' hbefore
      exact ⟨q, r', hq, hr', List.mem_append_left _ hin⟩
    · rw [List.mem_singleton] at hnow
      subst hnow
      refine ⟨p', r, getElem?_set_of_local hlocal p', hresult, List.mem_append_right _ ?_⟩
      rw [List.mem_singleton, hbody]

/-- **Step lemma.** -/
theorem Serial.move (hs : Serial h a₀ order σ) {σ' : Threads S P} (hmove : Move step σ σ') :
    ∃ order', Serial h a₀ order' σ' := by
  obtain ⟨hlocal, hstep⟩ := hmove
  rename_i t p p' s'
  have ht := hs.not_mem hlocal hstep
  -- a thread that did not move is where it was
  have hothers : ∀ {t' q}, t' ≠ t → (σ.locals.set t p')[t']? = some q → σ.locals[t']? = some q := by
    intro t' q hne hq
    rwa [getElem?_set_of_ne hne] at hq
  have hself : ∀ {q}, (σ.locals.set t p')[t]? = some q → q = p' := by
    intro q hq
    rw [getElem?_set_of_local hlocal] at hq
    exact (Option.some.inj hq).symm
  rcases hs.lock with ⟨hfree, houtside⟩ | ⟨holder, q, hq, hholder, hheld, houtside⟩
  · have hout := houtside t p hlocal ht
    rcases h.outside_free hfree hout hstep with ⟨rfl, hstays⟩ | hholds | ⟨rfl, r, hresult, hbody⟩
    · refine ⟨order, hs.nodup, hs.finished_set ht p', Or.inl ⟨hfree, ?_⟩⟩
      intro t' q' hq' hmem
      by_cases heq : t' = t
      · subst heq
        rw [hself hq']
        exact hstays
      · exact houtside t' q' (hothers heq hq') hmem
    · refine ⟨order, hs.nodup, hs.finished_set ht p', Or.inr
        ⟨t, p', getElem?_set_of_local hlocal p', ht, hholds, ?_⟩⟩
      intro t' q' hq' hmem hne
      exact houtside t' q' (hothers hne hq') hmem
    · have hstate : (body t (serial body order a₀).1).1 = (serial body order a₀).1 := by rw [hbody]
      obtain ⟨hnodup, hfinished⟩ := hs.finish ht hlocal hresult (by rw [hbody])
      refine ⟨order ++ [t], hnodup, hfinished, Or.inl ?_⟩
      rw [serial_concat, hstate]
      refine ⟨hfree, fun t' q' hq' hmem => ?_⟩
      obtain ⟨hmem, hne⟩ : t' ∉ order ∧ t' ≠ t := by simpa using hmem
      exact houtside t' q' (hothers hne hq') hmem
  · by_cases hisHolder : t = holder
    · subst hisHolder
      rw [hlocal, Option.some.injEq] at hq
      subst hq
      rcases h.held hheld hstep with hholds | ⟨a', r, hbody, hfree, hresult⟩
      · refine ⟨order, hs.nodup, hs.finished_set ht p', Or.inr
          ⟨t, p', getElem?_set_of_local hlocal p', ht, hholds, ?_⟩⟩
        intro t' q' hq' hmem hne
        exact houtside t' q' (hothers hne hq') hmem hne
      · have hstate : (body t (serial body order a₀).1).1 = a' := by rw [hbody]
        obtain ⟨hnodup, hfinished⟩ := hs.finish ht hlocal hresult (by rw [hbody])
        refine ⟨order ++ [t], hnodup, hfinished, Or.inl ?_⟩
        rw [serial_concat]
        refine ⟨by rw [hstate]; exact hfree, fun t' q' hq' hmem => ?_⟩
        obtain ⟨hmem, hne⟩ : t' ∉ order ∧ t' ≠ t := by simpa using hmem
        exact h.stable (houtside t' q' (hothers hne hq') hmem hne)
    · have hout := houtside t p hlocal ht hisHolder
      have hholderNe : holder ≠ t := fun heq => hisHolder heq.symm
      have hholderLocal : (σ.locals.set t p')[holder]? = some q := by
        rw [getElem?_set_of_ne hholderNe, hq]
      rcases h.outside_held hheld hisHolder hout hstep with ⟨rfl, hstays⟩ | ⟨rfl, r, hresult, hbody⟩
      · refine ⟨order, hs.nodup, hs.finished_set ht p', Or.inr
          ⟨holder, q, hholderLocal, hholder, hheld, ?_⟩⟩
        intro t' q' hq' hmem hne
        by_cases heq : t' = t
        · subst heq
          rw [hself hq']
          exact hstays
        · exact houtside t' q' (hothers heq hq') hmem hne
      · have hstate : (body t (serial body order a₀).1).1 = (serial body order a₀).1 := by
          rw [hbody]
        obtain ⟨hnodup, hfinished⟩ := hs.finish ht hlocal hresult (by rw [hbody])
        refine ⟨order ++ [t], hnodup, hfinished, Or.inr
          ⟨holder, q, hholderLocal, by simp [hholder, hholderNe], ?_⟩⟩
        rw [serial_concat, hstate]
        refine ⟨hheld, fun t' q' hq' hmem hne => ?_⟩
        obtain ⟨hmem, hnotNow⟩ : t' ∉ order ∧ t' ≠ t := by simpa using hmem
        exact houtside t' q' (hothers hnotNow hq') hmem hne

theorem Serial.moves (hs : Serial h a₀ order σ) {σ' : Threads S P} (hmoves : Moves step σ σ') :
    ∃ order', Serial h a₀ order' σ' :=
  invariant_of_chain (I := fun σ => ∃ order, Serial h a₀ order σ)
    (fun _ _ hmove hserial => hserial.elim fun _ hs => hs.move hmove) hmoves ⟨order, hs⟩

theorem length_of_moves {σ' : Threads S P} (hmoves : Moves step σ σ') :
    σ'.locals.length = σ.locals.length := by
  induction hmoves with
  | refl => rfl
  | tail _ last ih =>
    obtain ⟨_, _⟩ := last
    rw [List.length_set, ih]

/-- **Serialisation.**  When all calls have ended, they have the effect and the results
    of running one after another, in some order. -/
theorem serialized {s s' : S} {ps ps' : List P} (hfree : h.Free a₀ s)
    (houtside : ∀ t p, ps[t]? = some p → h.Outside t a₀ p)
    (hmoves : Moves step ⟨s, ps⟩ ⟨s', ps'⟩)
    (hdone : ∀ p ∈ ps', (result p).isSome = true) :
    ∃ order, order.Perm (List.range ps.length) ∧ h.Free (serial body order a₀).1 s' ∧
      ∀ t r, (t, r) ∈ (serial body order a₀).2 ↔ ∃ p ∈ ps'[t]?, result p = some r := by
  obtain ⟨order, hserial⟩ := (serial_init hfree houtside).moves hmoves
  have hlength : ps'.length = ps.length := length_of_moves hmoves
  have hnone : ∀ t p, ps'[t]? = some p → t ∈ order := by
    intro t p hp
    by_contra hmem
    have hsome := hdone p (List.mem_of_getElem? hp)
    rcases hserial.lock with ⟨_, hout⟩ | ⟨holder, q, hq, hholder, hheld, hout⟩
    · rw [h.unfinished (hout t p hp hmem)] at hsome
      cases hsome
    · by_cases heq : t = holder
      · subst heq
        rw [hp, Option.some.injEq] at hq
        subst hq
        rw [h.held_unfinished hheld] at hsome
        cases hsome
      · rw [h.unfinished (hout t p hp hmem heq)] at hsome
        cases hsome
  have hmem : ∀ t, t ∈ order ↔ t < ps.length := by
    intro t
    constructor
    · intro ht
      obtain ⟨p, _, hp, _⟩ := hserial.finished t ht
      rw [← hlength]
      exact (List.getElem?_eq_some_iff.mp hp).1
    · intro ht
      exact hnone t _ (List.getElem?_eq_getElem (hlength ▸ ht))
  refine ⟨order, ?_, ?_, ?_⟩
  · apply (List.perm_ext_iff_of_nodup hserial.nodup List.nodup_range).mpr
    intro t
    rw [hmem, List.mem_range]
  · rcases hserial.lock with ⟨hfree', _⟩ | ⟨holder, q, hq, hholder, _⟩
    · exact hfree'
    · exact absurd (hnone holder q hq) hholder
  · intro t r
    constructor
    · intro hr
      obtain ⟨p, r', hp, hresult, hr'⟩ := hserial.finished t (mem_of_mem_serial hr)
      rw [serial_result_unique hserial.nodup hr hr']
      exact ⟨p, hp, hresult⟩
    · rintro ⟨p, hp, hresult⟩
      obtain ⟨p', r', hp', hresult', hr'⟩ := hserial.finished t (hnone t p hp)
      rw [hp, Option.some.injEq] at hp'
      subst hp'
      rw [hresult, Option.some.injEq] at hresult'
      rw [hresult']
      exact hr'

/-- The results of the calls, as the threads show them. -/
theorem serial_results_perm {ps : List P} (hperm : order.Perm (List.range ps.length))
    (hresults : ∀ t r, (t, r) ∈ (serial body order a₀).2 ↔ ∃ p ∈ ps[t]?, result p = some r) :
    ((serial body order a₀).2.map Prod.snd).Perm (ps.filterMap result) := by
  have hall : (List.range ps.length).map (fun t => ps[t]?) = ps.map some := by
    apply List.ext_getElem?
    intro t
    by_cases ht : t < ps.length
    · simp [ht]
    · simp [ht]
  have hserial : (serial body order a₀).2.map Prod.snd =
      order.filterMap fun t => ps[t]?.bind result := by
    calc (serial body order a₀).2.map Prod.snd
        = (serial body order a₀).2.filterMap (fun x => ps[x.1]?.bind result) := by
          rw [← List.filterMap_eq_map]
          apply List.filterMap_congr
          rintro ⟨t, r⟩ hin
          obtain ⟨p, hp, hr⟩ := (hresults t r).mp hin
          have hp : ps[t]? = some p := hp
          simp [hp, hr]
      _ = ((serial body order a₀).2.map Prod.fst).filterMap (fun t => ps[t]?.bind result) := by
          rw [List.filterMap_map]
          rfl
      _ = order.filterMap (fun t => ps[t]?.bind result) := by rw [map_fst_serial]
  rw [hserial]
  refine (hperm.filterMap _).trans (List.Perm.of_eq ?_)
  calc (List.range ps.length).filterMap (fun t => ps[t]?.bind result)
      = ((List.range ps.length).map fun t => ps[t]?).filterMap (fun p => p.bind result) := by
        rw [List.filterMap_map]
        rfl
    _ = ps.filterMap result := by
        rw [hall, List.filterMap_map]
        rfl

end Threads

end Edmm
