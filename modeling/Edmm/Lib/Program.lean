/-
  Edmm/Lib/Program.lean
  =====================
  **Stateful programs that may raise, and their weakest preconditions.**

  A program is an `EStateM ε σ α`: it returns a value or raises an exception, and
  either way it leaves a state behind (nothing is rolled back when it raises).
  `wp prog Q E s` says that a run from `s` returns into `Q` or raises into `E`.
  The simp set pushes `wp` through `pure`, `>>=`, `throw`, `get`, `modify` and
  conditionals, so that a straight-line program is executed symbolically by
  `simp`; a call of a named function is discharged with `wp_mono` and that
  function's own lemma.  A program without a state is an `Except ε α`.

  The last section is about machines that take one operation after another: the
  invariant rule, and the simulation rule for two machines that answer each
  operation with an output.
-/
import Mathlib.Data.List.Basic
import Mathlib.Logic.Relation

namespace Edmm

universe u v

namespace Program

variable {ε σ α β : Type u}

/-! ### Final states and weakest preconditions -/

/-- The state a run leaves behind, whichever way it ends. -/
def finalState : EStateM.Result ε σ α → σ
  | .ok _ s => s
  | .error _ s => s

/-- What a run returns, if it returns. -/
def returned : EStateM.Result ε σ α → Option α
  | .ok a _ => some a
  | .error _ _ => none

theorem returned_eq_some {result : EStateM.Result ε σ α} {a : α} :
    returned result = some a ↔ ∃ s, result = .ok a s := by
  cases result with
  | ok a' s => simp [returned]
  | error e s => simp [returned]

/-- What a run raised. -/
def raised : EStateM.Result ε σ α → Option ε
  | .ok _ _ => none
  | .error e _ => some e

theorem raised_eq_some {result : EStateM.Result ε σ α} {e : ε} :
    raised result = some e ↔ ∃ s, result = .error e s := by
  cases result with
  | ok a s => simp [raised]
  | error e' s => simp [raised]

theorem run_pure (a : α) (s : σ) : (pure a : EStateM ε σ α) s = .ok a s := rfl

theorem run_throw (e : ε) (s : σ) : (throw e : EStateM ε σ α) s = .error e s := rfl

theorem run_get_bind (rest : σ → EStateM ε σ α) (s : σ) : (get >>= rest) s = rest s s := rfl

theorem run_bind_ok {prog : EStateM ε σ α} {s s' : σ} {a : α} (h : prog s = .ok a s')
    (rest : α → EStateM ε σ β) : (prog >>= rest) s = rest a s' := by
  simp only [bind, EStateM.bind, h]

theorem run_bind_error {prog : EStateM ε σ α} {s s' : σ} {e : ε} (h : prog s = .error e s')
    (rest : α → EStateM ε σ β) : (prog >>= rest) s = .error e s' := by
  simp only [bind, EStateM.bind, h]

theorem run_tryCatch_ok {prog : EStateM ε σ α} {s s' : σ} {a : α} (h : prog s = .ok a s')
    (handler : ε → EStateM ε σ α) : (tryCatch prog handler) s = .ok a s' := by
  simp only [tryCatch, tryCatchThe, MonadExceptOf.tryCatch, EStateM.tryCatch, h]

/-- Nothing is rolled back: the handler starts where the program raised. -/
theorem run_tryCatch_error {prog : EStateM ε σ α} {s s' : σ} {e : ε} (h : prog s = .error e s')
    (handler : ε → EStateM ε σ α) : (tryCatch prog handler) s = handler e s' := by
  simp only [tryCatch, tryCatchThe, MonadExceptOf.tryCatch, EStateM.tryCatch, h]
  rfl

/-- A run from `s` returns into `Q` or raises into `E`. -/
def wp (prog : EStateM ε σ α) (Q : α → σ → Prop) (E : ε → σ → Prop) (s : σ) : Prop :=
  match prog s with
  | .ok a s' => Q a s'
  | .error e s' => E e s'

variable {Q Q' : α → σ → Prop} {E E' : ε → σ → Prop} {s : σ}

@[simp] theorem wp_pure (a : α) : wp (pure a : EStateM ε σ α) Q E s ↔ Q a s := Iff.rfl

@[simp] theorem wp_throw (e : ε) : wp (throw e : EStateM ε σ α) Q E s ↔ E e s := Iff.rfl

@[simp] theorem wp_get {Q : σ → σ → Prop} : wp (get : EStateM ε σ σ) Q E s ↔ Q s s := Iff.rfl

@[simp] theorem wp_modify {σ : Type} {ε : Type} {Q : PUnit → σ → Prop} {E : ε → σ → Prop}
    {s : σ} (f : σ → σ) : wp (modify f : EStateM ε σ PUnit) Q E s ↔ Q ⟨⟩ (f s) := Iff.rfl

@[simp] theorem wp_bind {Q : β → σ → Prop} (prog : EStateM ε σ α) (rest : α → EStateM ε σ β) :
    wp (prog >>= rest) Q E s ↔ wp prog (fun a s' => wp (rest a) Q E s') E s := by
  unfold wp
  cases h : prog s with
  | ok a s' => rw [run_bind_ok h]
  | error e s' => rw [run_bind_error h]

@[simp] theorem wp_ite {c : Prop} [Decidable c] (yes no : EStateM ε σ α) :
    wp (if c then yes else no) Q E s ↔ (c → wp yes Q E s) ∧ (¬ c → wp no Q E s) := by
  by_cases h : c <;> simp [h]

@[simp] theorem wp_dite {c : Prop} [Decidable c] (yes : c → EStateM ε σ α)
    (no : ¬ c → EStateM ε σ α) :
    wp (if h : c then yes h else no h) Q E s ↔
      (∀ h : c, wp (yes h) Q E s) ∧ (∀ h : ¬ c, wp (no h) Q E s) := by
  by_cases h : c <;> simp [h]

@[simp] theorem wp_adaptExcept {ε' : Type u} {E : ε' → σ → Prop} (f : ε → ε')
    (prog : EStateM ε σ α) :
    wp (EStateM.adaptExcept f prog) Q E s ↔ wp prog Q (fun e => E (f e)) s := by
  unfold wp EStateM.adaptExcept
  cases prog s with
  | ok a s' => exact Iff.rfl
  | error e s' => exact Iff.rfl

@[simp] theorem wp_ofExcept_ok (a : α) :
    wp (ofExcept (.ok a : Except ε α) : EStateM ε σ α) Q E s ↔ Q a s := Iff.rfl

theorem wp_mono {prog : EStateM ε σ α} (h : wp prog Q E s)
    (hQ : ∀ a s', Q a s' → Q' a s') (hE : ∀ e s', E e s' → E' e s') : wp prog Q' E' s := by
  unfold wp at h ⊢
  cases hrun : prog s with
  | ok a s' => rw [hrun] at h; exact hQ a s' h
  | error e s' => rw [hrun] at h; exact hE e s' h

/-- With the same exceptions, only what is returned is left to show. -/
theorem wp_mono_ok {prog : EStateM ε σ α} (h : wp prog Q E s)
    (hQ : ∀ a s', Q a s' → Q' a s') : wp prog Q' E s := wp_mono h hQ fun _ _ he => he

/-- The same for a program that cannot raise. -/
theorem wp_mono_of_returns {prog : EStateM ε σ α} (h : wp prog Q (fun _ _ => False) s)
    (hQ : ∀ a s', Q a s' → Q' a s') : wp prog Q' E s := wp_mono h hQ fun _ _ he => he.elim

/-- Two programs that run alike from `s` have the same `wp` there. -/
theorem wp_congr {prog prog' : EStateM ε σ α} (h : prog s = prog' s) :
    wp prog Q E s ↔ wp prog' Q E s := by
  unfold wp
  rw [h]

/-- What `wp` promises of a run that returned. -/
theorem wp_ok {prog : EStateM ε σ α} (h : wp prog Q E s) {a : α} {s' : σ}
    (hrun : prog s = .ok a s') : Q a s' := by
  unfold wp at h
  rwa [hrun] at h

/-- What `wp` promises of a run that raised. -/
theorem wp_error {prog : EStateM ε σ α} (h : wp prog Q E s) {e : ε} {s' : σ}
    (hrun : prog s = .error e s') : E e s' := by
  unfold wp at h
  rwa [hrun] at h

/-- A run that cannot raise keeps what `wp` promises of its return. -/
theorem wp_and_returns {prog : EStateM ε σ α} (h : wp prog Q E s)
    (hreturns : wp prog (fun _ _ => True) (fun _ _ => False) s) :
    wp prog Q (fun _ _ => False) s := by
  unfold wp at h hreturns ⊢
  cases hrun : prog s with
  | ok a s' => rw [hrun] at h; exact h
  | error e s' => rw [hrun] at hreturns; exact hreturns

/-- A run that cannot raise returns. -/
theorem returns_of_wp {prog : EStateM ε σ α} (h : wp prog Q (fun _ _ => False) s) :
    ∃ a s', prog s = .ok a s' ∧ Q a s' := by
  unfold wp at h
  cases hrun : prog s with
  | ok a s' => rw [hrun] at h; exact ⟨a, s', rfl, h⟩
  | error e s' => rw [hrun] at h; exact h.elim

/-- A property of the state that holds however the run ends. -/
theorem finalState_of_wp {prog : EStateM ε σ α} {I : σ → Prop}
    (h : wp prog (fun _ => I) (fun _ => I) s) : I (finalState (prog s)) := by
  unfold wp at h
  cases hrun : prog s with
  | ok a s' => rw [hrun] at h; exact h
  | error e s' => rw [hrun] at h; exact h

/-- To prove a `wp`, look at the two ways the run can end. -/
theorem wp_of_run {prog : EStateM ε σ α} (hok : ∀ a s', prog s = .ok a s' → Q a s')
    (herror : ∀ e s', prog s = .error e s' → E e s') : wp prog Q E s := by
  unfold wp
  cases hrun : prog s with
  | ok a s' => exact hok a s' hrun
  | error e s' => exact herror e s' hrun

theorem wp_and {prog : EStateM ε σ α} (h : wp prog Q E s) (h' : wp prog Q' E' s) :
    wp prog (fun a s' => Q a s' ∧ Q' a s') (fun e s' => E e s' ∧ E' e s') s := by
  unfold wp at h h' ⊢
  cases hrun : prog s with
  | ok a s' => rw [hrun] at h h'; exact ⟨h, h'⟩
  | error e s' => rw [hrun] at h h'; exact ⟨h, h'⟩

/-! ### Programs that keep a property of the state -/

/-- Every run of the program keeps the property, whether it returns or raises. -/
def Keeps (I : σ → Prop) (prog : EStateM ε σ α) : Prop :=
  ∀ s, I s → wp prog (fun _ s' => I s') (fun _ s' => I s') s

section Keeps

variable {I : σ → Prop}

theorem Keeps.pure (a : α) : Keeps I (pure a : EStateM ε σ α) := fun _ h => h

theorem Keeps.throw (e : ε) : Keeps I (throw e : EStateM ε σ α) := fun _ h => h

theorem Keeps.get : Keeps I (get : EStateM ε σ σ) := fun _ h => h

theorem Keeps.modify {σ : Type} {ε : Type} {I : σ → Prop} {f : σ → σ} (hf : ∀ s, I s → I (f s)) :
    Keeps I (modify f : EStateM ε σ PUnit) := fun s h => hf s h

theorem Keeps.bind {prog : EStateM ε σ α} {rest : α → EStateM ε σ β} (h : Keeps I prog)
    (hrest : ∀ a, Keeps I (rest a)) : Keeps I (prog >>= rest) := by
  intro s hs
  rw [wp_bind]
  exact wp_mono (h s hs) (fun a s' hs' => hrest a s' hs') (fun _ _ hs' => hs')

theorem Keeps.ite {c : Prop} [Decidable c] {yes no : EStateM ε σ α} (hyes : Keeps I yes)
    (hno : Keeps I no) : Keeps I (if c then yes else no) := by
  by_cases hc : c
  · rwa [if_pos hc]
  · rwa [if_neg hc]

theorem Keeps.finalState {prog : EStateM ε σ α} (h : Keeps I prog) {s : σ} (hs : I s) :
    I (finalState (prog s)) :=
  finalState_of_wp (h s hs)

end Keeps

/-! ### Loops over a list -/

/-- **Loop rule.**  The invariant may speak of the items that are left. -/
theorem wp_foldlM_remaining {step : β → α → EStateM ε σ β} {I : List α → β → σ → Prop}
    (hstep : ∀ a rest b s, I (a :: rest) b s → wp (step b a) (I rest) E s)
    {items : List α} {b : β} (h : I items b s) : wp (items.foldlM step b) (I []) E s := by
  induction items generalizing b s with
  | nil => rw [List.foldlM_nil, wp_pure]; exact h
  | cons a rest ih =>
    rw [List.foldlM_cons, wp_bind]
    exact wp_mono (hstep a rest b s h) (fun b' s' h' => ih h') (fun e s' he => he)

theorem wp_foldlM {step : β → α → EStateM ε σ β} {I : β → σ → Prop} {items : List α}
    (hstep : ∀ a ∈ items, ∀ b s, I b s → wp (step b a) I E s) {b : β} (h : I b s) :
    wp (items.foldlM step b) I E s := by
  have hloop : wp (items.foldlM step b)
      (fun b s => (∀ a ∈ ([] : List α), a ∈ items) ∧ I b s) E s := wp_foldlM_remaining (E := E)
    (I := fun rest b s => (∀ a ∈ rest, a ∈ items) ∧ I b s)
    (fun a rest b s hI => wp_mono (hstep a (hI.1 a List.mem_cons_self) b s hI.2)
      (fun b' s' h' => ⟨fun a' ha' => hI.1 a' (List.mem_cons_of_mem _ ha'), h'⟩)
      (fun e s' he => he))
    ⟨fun _ ha => ha, h⟩
  exact wp_mono hloop (fun b' s' h' => h'.2) (fun e s' he => he)

theorem wp_forM_remaining {body : α → EStateM ε σ PUnit} {I : List α → σ → Prop}
    (hbody : ∀ a rest s, I (a :: rest) s → wp (body a) (fun _ => I rest) E s)
    {items : List α} (h : I items s) : wp (items.forM body) (fun _ => I []) E s := by
  induction items generalizing s with
  | nil => exact h
  | cons a rest ih =>
    change wp (body a >>= fun _ => rest.forM body) (fun _ => I []) E s
    rw [wp_bind]
    exact wp_mono (hbody a rest s h) (fun _ s' h' => ih h') (fun e s' he => he)

theorem wp_forM {body : α → EStateM ε σ PUnit} {I : σ → Prop} {items : List α}
    (hbody : ∀ a ∈ items, ∀ s, I s → wp (body a) (fun _ => I) E s) (h : I s) :
    wp (items.forM body) (fun _ => I) E s := by
  have hloop : wp (items.forM body)
      (fun _ s => (∀ a ∈ ([] : List α), a ∈ items) ∧ I s) E s := wp_forM_remaining (E := E)
    (I := fun rest s => (∀ a ∈ rest, a ∈ items) ∧ I s)
    (fun a rest s hI => wp_mono (hbody a (hI.1 a List.mem_cons_self) s hI.2)
      (fun _ s' h' => ⟨fun a' ha' => hI.1 a' (List.mem_cons_of_mem _ ha'), h'⟩)
      (fun e s' he => he))
    ⟨fun _ ha => ha, h⟩
  exact wp_mono hloop (fun _ s' h' => h'.2) (fun e s' he => he)

/-! ### Loops with a bound on their turns -/

/-- What a turn of a `while` loop ends with. -/
inductive Turn (β γ : Type u) where
  | again (b : β)
  | done (c : γ)

/-- The `while` loop that takes these turns ends from `s`, with this result. -/
inductive LoopEnds {γ : Type u} (turn : β → EStateM ε σ (Turn β γ)) :
    β → σ → EStateM.Result ε σ γ → Prop where
  | done {b : β} {s s' : σ} {c : γ} (h : turn b s = .ok (.done c) s') : LoopEnds turn b s (.ok c s')
  | raise {b : β} {s s' : σ} {e : ε} (h : turn b s = .error e s') : LoopEnds turn b s (.error e s')
  | again {b b' : β} {s s' : σ} {result : EStateM.Result ε σ γ}
      (h : turn b s = .ok (.again b') s') (hrest : LoopEnds turn b' s' result) :
      LoopEnds turn b s result

/-- A bounded loop goes on after a turn. -/
def afterTurn {γ : Type u} (loop : β → EStateM ε σ γ) : Turn β γ → EStateM ε σ γ
  | .again b => loop b
  | .done c => pure c

/-- **Variant rule.**  A loop whose turns make a variant smaller ends, with the result of
    the bounded loop, whose bound has to cover the variant only. -/
theorem loopEnds_of_variant {γ : Type u} {turn : β → EStateM ε σ (Turn β γ)}
    (loop : Nat → β → EStateM ε σ γ) (I : β → σ → Prop) (variant : β → σ → Nat)
    (hloop : ∀ bound b, loop (bound + 1) b = turn b >>= afterTurn (loop bound))
    (hlast : ∀ b s, I b s → variant b s = 0 → loop 0 b s = loop 1 b s)
    (hturn : ∀ b s, I b s → wp (turn b)
      (fun t s' => ∀ b', t = .again b' → I b' s' ∧ variant b' s' < variant b s)
      (fun _ _ => True) s)
    {bound : Nat} {b : β} {s : σ} (h : I b s) (hbound : variant b s ≤ bound) :
    LoopEnds turn b s (loop bound b s) := by
  induction bound generalizing b s with
  | zero =>
    have hnone := Nat.le_zero.mp hbound
    rw [hlast b s h hnone, hloop]
    cases hrun : turn b s with
    | error e s' =>
      rw [run_bind_error hrun]
      exact .raise hrun
    | ok t s' =>
      rw [run_bind_ok hrun]
      cases t with
      | done c => exact .done hrun
      | again b' =>
        obtain ⟨_, hless⟩ := wp_ok (hturn b s h) hrun b' rfl
        omega
  | succ bound ih =>
    rw [hloop]
    cases hrun : turn b s with
    | error e s' =>
      rw [run_bind_error hrun]
      exact .raise hrun
    | ok t s' =>
      rw [run_bind_ok hrun]
      cases t with
      | done c => exact .done hrun
      | again b' =>
        obtain ⟨h', hless⟩ := wp_ok (hturn b s h) hrun b' rfl
        exact .again hrun (ih h' (by omega))

/-! ### Programs that raise only certain exceptions -/

/-- Whatever the program raises is one of these exceptions. -/
def RaisesOnly (P : ε → Prop) (prog : EStateM ε σ α) : Prop :=
  ∀ s, wp prog (fun _ _ => True) (fun e _ => P e) s

section RaisesOnly

variable {P P' : ε → Prop}

theorem RaisesOnly.pure (a : α) : RaisesOnly P (pure a : EStateM ε σ α) := fun _ => trivial

theorem RaisesOnly.throw {e : ε} (h : P e) : RaisesOnly P (throw e : EStateM ε σ α) := fun _ => h

theorem RaisesOnly.get_bind {rest : σ → EStateM ε σ α} (h : ∀ s, RaisesOnly P (rest s)) :
    RaisesOnly P (get >>= rest) := fun s => h s s

theorem RaisesOnly.bind {prog : EStateM ε σ α} {rest : α → EStateM ε σ β}
    (h : RaisesOnly P prog) (hrest : ∀ a, RaisesOnly P (rest a)) :
    RaisesOnly P (prog >>= rest) := by
  intro s
  rw [wp_bind]
  exact wp_mono_ok (h s) fun a s' _ => hrest a s'

theorem RaisesOnly.mono {prog : EStateM ε σ α} (h : RaisesOnly P prog)
    (hP : ∀ e, P e → P' e) : RaisesOnly P' prog :=
  fun s => wp_mono (h s) (fun _ _ _ => trivial) fun e _ he => hP e he

/-- Two facts about one program: what it returns, and what it raises. -/
theorem wp_and_raisesOnly {prog : EStateM ε σ α} (hwp : wp prog Q E s) (h : RaisesOnly P prog) :
    wp prog Q (fun e s' => E e s' ∧ P e) s :=
  wp_mono (wp_and hwp (h s)) (fun _ _ hQ => hQ.1) fun _ _ he => he

theorem RaisesOnly.forM {body : α → EStateM ε σ PUnit} (items : List α)
    (h : ∀ a ∈ items, RaisesOnly P (body a)) : RaisesOnly P (items.forM body) :=
  fun _ => wp_mono_ok
    (wp_forM (I := fun _ => True) (fun a ha s _ => h a ha s) trivial) fun _ _ _ => trivial

end RaisesOnly

/-! ### Programs without a state -/

theorem except_bind_eq_ok {prog : Except ε α} {rest : α → Except ε β} {b : β} :
    (prog >>= rest) = .ok b ↔ ∃ a, prog = .ok a ∧ rest a = .ok b := by
  cases prog with
  | ok a =>
    constructor
    · exact fun h => ⟨a, rfl, h⟩
    · rintro ⟨a', ha, h⟩
      cases ha
      exact h
  | error e =>
    constructor
    · exact fun h => by cases h
    · rintro ⟨a', ha, -⟩
      cases ha

theorem except_pure_eq_ok {a b : α} : (pure a : Except ε α) = .ok b ↔ a = b :=
  Except.ok.injEq a b ▸ Iff.rfl

/-- **Loop rule for a loop that returned.**  Its state is related to that of a plain
    loop over the same items. -/
theorem foldlM_related {γ : Type v} {step : β → α → Except ε β} (plain : γ → α → γ)
    {R : γ → β → Prop} {items : List α}
    (hstep : ∀ a ∈ items, ∀ c b b', R c b → step b a = .ok b' → R (plain c a) b')
    {c : γ} {b b' : β} (h : R c b) (hrun : items.foldlM step b = .ok b') :
    R (items.foldl plain c) b' := by
  induction items generalizing b c with
  | nil =>
    rw [List.foldlM_nil, except_pure_eq_ok] at hrun
    exact hrun ▸ h
  | cons a rest ih =>
    rw [List.foldlM_cons, except_bind_eq_ok] at hrun
    obtain ⟨b₁, hfirst, hrest⟩ := hrun
    exact ih (fun a' ha' => hstep a' (List.mem_cons_of_mem _ ha'))
      (hstep a List.mem_cons_self _ _ _ h hfirst) hrest

theorem foldlM_invariant {step : β → α → Except ε β} {I : β → Prop} {items : List α}
    (hstep : ∀ a ∈ items, ∀ b b', I b → step b a = .ok b' → I b')
    {b b' : β} (h : I b) (hrun : items.foldlM step b = .ok b') : I b' :=
  foldlM_related (fun (c : PUnit.{1}) _ => c) (R := fun _ b => I b)
    (fun a ha _ b b' => hstep a ha b b') (c := ⟨⟩) h hrun

end Program

/-! ### Machines -/

/-- What one step of a relation keeps, a chain of steps keeps. -/
theorem invariant_of_chain {S : Type u} {Step : S → S → Prop} {I : S → Prop}
    (hstep : ∀ s s', Step s s' → I s → I s') {s s' : S} (chain : Relation.ReflTransGen Step s s')
    (h : I s) : I s' := by
  induction chain with
  | refl => exact h
  | tail _ last ih => exact hstep _ _ last ih

namespace Machine

variable {S A O : Type u}

/-- The outputs of a machine that answers every operation. -/
def outputs (step : S → A → S × O) : S → List A → List O
  | _, [] => []
  | s, a :: rest => (step s a).2 :: outputs step (step s a).1 rest

/-- One operation that a machine performed. -/
structure Performed (S A O : Type u) where
  before : S
  op : A
  output : O
  after : S

/-- The runs of a machine whose operations may raise: every operation returned. -/
inductive Run {ε S A O : Type u} (exec : A → EStateM ε S O) (start : S) :
    List (Performed S A O) → S → Prop where
  | nil : Run exec start [] start
  | snoc {history : List (Performed S A O)} {s s' : S} {op : A} {output : O}
      (run : Run exec start history s) (step : exec op s = .ok output s') :
      Run exec start (history ++ [⟨s, op, output, s'⟩]) s'

/-- **Invariant rule, for a property of the state and of what was performed so far.** -/
theorem Run.invariant_of_history {ε S A O : Type u} {exec : A → EStateM ε S O} {start s : S}
    {history : List (Performed S A O)} {P : Performed S A O → Prop}
    {I : List (Performed S A O) → S → Prop}
    (hstep : ∀ (history : List (Performed S A O)) (s s' : S) (op : A) (output : O),
      I history s → exec op s = .ok output s' → P ⟨s, op, output, s'⟩ →
        I (history ++ [⟨s, op, output, s'⟩]) s')
    (run : Run exec start history s) (hpermitted : ∀ step ∈ history, P step)
    (hstart : I [] start) : I history s := by
  induction run with
  | nil => exact hstart
  | snoc run step ih =>
    have hbefore := ih fun performed h => hpermitted performed (List.mem_append_left _ h)
    exact hstep _ _ _ _ _ hbefore step
      (hpermitted _ (List.mem_append_right _ (List.mem_singleton.mpr rfl)))

/-- **Invariant rule.**  What one permitted operation keeps, a run of permitted
    operations keeps. -/
theorem Run.invariant {ε S A O : Type u} {exec : A → EStateM ε S O} {start s : S}
    {history : List (Performed S A O)} {P : Performed S A O → Prop} {I : S → Prop}
    (hstep : ∀ (s s' : S) (op : A) (output : O), I s → exec op s = .ok output s' →
      P ⟨s, op, output, s'⟩ → I s')
    (run : Run exec start history s) (hpermitted : ∀ step ∈ history, P step)
    (hstart : I start) : I s :=
  run.invariant_of_history (I := fun _ s => I s) (fun _ s s' op output => hstep s s' op output)
    hpermitted hstart

theorem Run.append {ε S A O : Type u} {exec : A → EStateM ε S O} {start s s' : S}
    {history history' : List (Performed S A O)} (run : Run exec start history s)
    (run' : Run exec s history' s') : Run exec start (history ++ history') s' := by
  induction run' with
  | nil =>
    rw [List.append_nil]
    exact run
  | snoc _ step ih =>
    rw [← List.append_assoc]
    exact ih.snoc step

/-- A run up to a step, the step itself, and the run after it. -/
theorem Run.split {ε S A O : Type u} {exec : A → EStateM ε S O} {start s : S}
    {history earlier later : List (Performed S A O)} {step : Performed S A O}
    (run : Run exec start history s) (h : history = earlier ++ step :: later) :
    Run exec start earlier step.before ∧
      exec step.op step.before = .ok step.output step.after ∧ Run exec step.after later s := by
  induction run generalizing later with
  | nil => cases earlier <;> cases h
  | @snoc history s s' op output run hstep ih =>
    rcases List.eq_nil_or_concat later with rfl | ⟨later', last, rfl⟩
    · obtain ⟨rfl, hlast⟩ := List.append_inj' h rfl
      cases hlast
      exact ⟨run, hstep, Run.nil⟩
    · rw [List.concat_eq_append, ← List.cons_append, ← List.append_assoc] at h
      obtain ⟨hfirst, hlast⟩ := List.append_inj' h rfl
      obtain ⟨hearlier, hexec, hlater⟩ := ih hfirst
      cases hlast
      rw [List.concat_eq_append]
      exact ⟨hearlier, hexec, hlater.snoc hstep⟩

/-- Perform one operation after another, as long as they return.  An operation may
    depend on what was performed before it. -/
def perform {ε S A O : Type u} (exec : A → EStateM ε S O) (history : List (Performed S A O))
    (s : S) : List (List (Performed S A O) → A) → Option (List (Performed S A O) × S)
  | [] => some (history, s)
  | choose :: rest =>
      match exec (choose history) s with
      | .error _ _ => none
      | .ok output s' => perform exec (history ++ [⟨s, choose history, output, s'⟩]) s' rest

theorem run_of_perform {ε S A O : Type u} {exec : A → EStateM ε S O} {start s s' : S}
    {history history' : List (Performed S A O)} {ops : List (List (Performed S A O) → A)}
    (run : Run exec start history s) (h : perform exec history s ops = some (history', s')) :
    Run exec start history' s' := by
  induction ops generalizing s history with
  | nil =>
    cases h
    exact run
  | cons choose rest ih =>
    unfold perform at h
    cases hstep : exec (choose history) s with
    | error e s'' =>
      rw [hstep] at h
      cases h
    | ok output s'' =>
      rw [hstep] at h
      exact ih (run.snoc hstep) h

end Machine

end Edmm
