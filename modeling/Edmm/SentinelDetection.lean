/-
  Edmm/SentinelDetection.lean
  ===========================
  **What `should_pause_for_tool_call` detects.**

  Each call decodes the last ten tokens of the output and looks for the sentinel;
  nothing is remembered between calls.  So a sentinel spread over the tokens
  `first` to `last` is found by the calls after `last + 1` up to `first + 10` tokens
  and by no other (`SentinelSpan.seenAt_iff`): by several calls in a row when it is
  short, and by none when it is longer than ten tokens or when a step adds too many
  tokens behind it.
-/
import Edmm.Lib.Occurrences
import Edmm.SchedulerHook
import Mathlib.Data.List.Infix

namespace Edmm

open EdmmSchedulerHook

/-! ## 1. Sentinels in the output -/

/-- The tokenizer decodes a concatenation of token lists to the concatenation of
    their texts. -/
def Concatenates (decode : List Int → String) : Prop :=
  ∀ xs ys, decode (xs ++ ys) = decode xs ++ decode ys

def decodedText (decode : List Int → String) (tokens : List Int) : List Char :=
  (decode tokens).toList

/-- The sentinel is in the decoded output at this position. -/
def SentinelAt (decode : List Int → String) (tokens : List Int) (position : Nat) : Prop :=
  OccursAt toolSentinelToken.toList (decodedText decode tokens) position

/-- The tokens that the call after `n` tokens decodes. -/
def examinedTokens (tokens : List Int) (n : Nat) : List Int := (tokens.take n).drop (n - 10)

/-- The call after `n` tokens decodes the sentinel at this position of the output. -/
def SeenAt (decode : List Int → String) (tokens : List Int) (n position : Nat) : Prop :=
  ∃ offset, SentinelAt decode (examinedTokens tokens n) offset ∧
    position = charsBefore (decodedText decode) tokens (n - 10) + offset

/-- The sentinel at this position is spread over the tokens `first` to `last`. -/
structure SentinelSpan (decode : List Int → String) (tokens : List Int)
    (position first last : Nat) : Prop where
  occurs : SentinelAt decode tokens position
  first : PieceAt (decodedText decode) tokens first position
  last : PieceAt (decodedText decode) tokens last (position + toolSentinelToken.toList.length - 1)

variable {decode : List Int → String} {tokens : List Int}

theorem length_toolSentinelToken : toolSentinelToken.toList.length = 13 := rfl

theorem toolSentinelToken_ne_nil : toolSentinelToken.toList ≠ [] := by decide

theorem Concatenates.decodedText (h : Concatenates decode) (xs ys : List Int) :
    decodedText decode (xs ++ ys) = decodedText decode xs ++ decodedText decode ys := by
  unfold Edmm.decodedText
  rw [h, String.toList_append]

theorem sentinel_infix_iff :
    toolSentinelToken.toList <:+: decodedText decode tokens ↔
      ∃ position, SentinelAt decode tokens position :=
  infix_iff_occursAt

/-! ## 2. What a call sees -/

/-- **A call returns `True`** exactly if it decodes some sentinel. -/
theorem shouldPauseForToolCall_iff (hdecode : Concatenates decode) {n : Nat}
    (hn : n ≤ tokens.length) :
    shouldPauseForToolCall decode (tokens.take n) = true ↔
      ∃ position, SeenAt decode tokens n position := by
  have hexamined : (tokens.take n).drop ((tokens.take n).length - min 10 (tokens.take n).length) =
      examinedTokens tokens n := by
    unfold examinedTokens
    rw [List.length_take_of_le hn]
    congr 1
    omega
  have hseen : toolSentinelToken.toList <:+: (decode (examinedTokens tokens n)).toList ↔
      ∃ position, SeenAt decode tokens n position := by
    refine sentinel_infix_iff.trans ?_
    constructor
    · rintro ⟨offset, h⟩
      exact ⟨_, offset, h, rfl⟩
    · rintro ⟨_, offset, h, _⟩
      exact ⟨offset, h⟩
  unfold shouldPauseForToolCall
  split
  · rename_i hnil
    -- no output, and nothing decoded
    rw [← hseen]
    have hempty : decodedText decode (examinedTokens tokens n) = [] := by
      unfold examinedTokens
      rw [hnil, List.drop_nil]
      exact decode_nil hdecode.decodedText
    constructor
    · intro h
      cases h
    · intro h
      exact absurd (List.infix_nil.mp (hempty ▸ h)) toolSentinelToken_ne_nil
  · dsimp only
    rw [hexamined, decide_eq_true_iff]
    exact hseen

theorem seenAt_iff (hdecode : Concatenates decode) (n position : Nat) :
    SeenAt decode tokens n position ↔ SentinelAt decode tokens position ∧
      charsBefore (decodedText decode) tokens (n - 10) ≤ position ∧
      position + toolSentinelToken.toList.length ≤ charsBefore (decodedText decode) tokens n := by
  have hwindow := occursAt_window hdecode.decodedText toolSentinelToken_ne_nil tokens
    (Nat.sub_le n 10)
  constructor
  · rintro ⟨offset, hoccurs, rfl⟩
    obtain ⟨hall, hends⟩ := (hwindow offset).mp hoccurs
    exact ⟨hall, Nat.le_add_right _ _, hends⟩
  · rintro ⟨hall, hbegins, hends⟩
    obtain ⟨offset, rfl⟩ := Nat.exists_eq_add_of_le hbegins
    exact ⟨offset, (hwindow offset).mpr ⟨hall, hends⟩, rfl⟩

/-- **The calls that see a sentinel.** -/
theorem SentinelSpan.seenAt_iff (hdecode : Concatenates decode) {position first last : Nat}
    (h : SentinelSpan decode tokens position first last) (n : Nat) :
    SeenAt decode tokens n position ↔ last < n ∧ n ≤ first + 10 := by
  have hbegins : charsBefore (decodedText decode) tokens (n - 10) ≤ position ↔ n - 10 ≤ first :=
    h.first.le_iff hdecode.decodedText
  have hends := h.last.lt_iff hdecode.decodedText (k := n)
  rw [Edmm.seenAt_iff hdecode, hbegins]
  rw [length_toolSentinelToken] at hends ⊢
  constructor
  · rintro ⟨_, hfirst, hlast⟩
    exact ⟨hends.mp (by omega), by omega⟩
  · rintro ⟨hlast, hfirst⟩
    have hlast := hends.mpr hlast
    exact ⟨h.occurs, by omega, by omega⟩

/-- Every sentinel is spread over some tokens. -/
theorem SentinelAt.span (hdecode : Concatenates decode) {position : Nat}
    (h : SentinelAt decode tokens position) :
    ∃ first last, SentinelSpan decode tokens position first last := by
  have hle := h.le_length toolSentinelToken_ne_nil
  have hlength := length_toolSentinelToken
  obtain ⟨first, _, hfirst⟩ := exists_pieceAt hdecode.decodedText
    (show position < (decodedText decode tokens).length by omega)
  obtain ⟨last, _, hlast⟩ := exists_pieceAt hdecode.decodedText
    (show position + toolSentinelToken.toList.length - 1 < (decodedText decode tokens).length by
      omega)
  exact ⟨first, last, h, hfirst, hlast⟩

theorem SentinelSpan.last_lt {position first last : Nat}
    (h : SentinelSpan decode tokens position first last) : last < tokens.length :=
  h.last.lt_length

/-! ## 3. One token per step -/

/-- In a stream of one token per step: each sentinel of the output is decoded by one
    call, and a call that returns `True` has a sentinel that ends in the new token. -/
structure OnePausePerSentinel (decode : List Int → String) (tokens : List Int) : Prop where
  once : ∀ position, SentinelAt decode tokens position →
    ∃! n, n ≤ tokens.length ∧ SeenAt decode tokens n position
  noneAgain : ∀ n < tokens.length, shouldPauseForToolCall decode (tokens.take (n + 1)) = true →
    ∃ position, SentinelAt decode tokens position ∧
      PieceAt (decodedText decode) tokens n (position + toolSentinelToken.toList.length - 1)

/-- **When there is one pause per sentinel.**  In every stream: exactly if every
    sentinel is spread over ten tokens, or over at most ten of which the last one
    ends the stream. -/
theorem onePausePerSentinel_iff (hdecode : Concatenates decode) (tokens : List Int) :
    OnePausePerSentinel decode tokens ↔
      ∀ position first last, SentinelSpan decode tokens position first last →
        last = first + 9 ∨ (last ≤ first + 9 ∧ tokens.length = last + 1) := by
  constructor
  · intro hone position first last hspan
    have hlast := hspan.last_lt
    obtain ⟨n, ⟨_, hseen⟩, hunique⟩ := hone.once position hspan.occurs
    obtain ⟨hafter, hbefore⟩ := (hspan.seenAt_iff hdecode n).mp hseen
    have hsees : ∀ m, m ≤ tokens.length → last < m → m ≤ first + 10 → m = n :=
      fun m hm hafter hbefore =>
        hunique m ⟨hm, (hspan.seenAt_iff hdecode m).mpr ⟨hafter, hbefore⟩⟩
    -- the next call sees it as well, unless there is none or the sentinel is too long
    by_cases hend : tokens.length = last + 1
    · exact Or.inr ⟨by omega, hend⟩
    · left
      by_contra hne
      have h₁ := hsees (last + 1) (by omega) (by omega) (by omega)
      have h₂ := hsees (last + 2) (by omega) (by omega) (by omega)
      omega
  · intro hspans
    constructor
    · intro position hposition
      obtain ⟨first, last, hspan⟩ := hposition.span hdecode
      have hlast := hspan.last_lt
      have hbound := hspans position first last hspan
      refine ⟨last + 1, ⟨by omega, (hspan.seenAt_iff hdecode _).mpr (by omega)⟩, ?_⟩
      rintro n ⟨hn, hseen⟩
      obtain ⟨hafter, hbefore⟩ := (hspan.seenAt_iff hdecode n).mp hseen
      omega
    · intro n hn hpauses
      obtain ⟨position, hseen⟩ := (shouldPauseForToolCall_iff hdecode (by omega)).mp hpauses
      have hposition := ((seenAt_iff hdecode _ _).mp hseen).1
      obtain ⟨first, last, hspan⟩ := hposition.span hdecode
      have hlast := hspan.last_lt
      have hbound := hspans position first last hspan
      obtain ⟨hafter, hbefore⟩ := (hspan.seenAt_iff hdecode _).mp hseen
      obtain rfl : n = last := by omega
      exact ⟨position, hposition, hspan.last⟩

/-- A tokenizer that spells out its tokens one after the other. -/
def spelled (text : Int → List Char) (tokens : List Int) : String :=
  String.ofList (tokens.flatMap text)

theorem concatenates_spelled (text : Int → List Char) : Concatenates (spelled text) := by
  intro xs ys
  unfold spelled
  rw [List.flatMap_append, String.ofList_append]

/-- Token 0 is the sentinel, every other token one letter. -/
def sentinelOrLetter (token : Int) : List Char :=
  if token = 0 then toolSentinelToken.toList else ['x']

theorem onePausePerSentinel_iff_last : OnePausePerSentinel (spelled sentinelOrLetter) [1, 0] := by
  refine (onePausePerSentinel_iff (concatenates_spelled _) [1, 0]).mpr ?_
  intro position first last hspan
  have hlast : last < 2 := hspan.last_lt
  have hposition : position < 15 := by
    have hle := hspan.occurs.le_length toolSentinelToken_ne_nil
    have hlength : (decodedText (spelled sentinelOrLetter) [1, 0]).length = 14 := by decide +kernel
    omega
  have hone : ∀ position < 15, OccursAt toolSentinelToken.toList
      (decodedText (spelled sentinelOrLetter) [1, 0]) position → position = 1 := by
    decide +kernel
  obtain rfl : position = 1 := hone position hposition hspan.occurs
  have hends := hspan.last.2
  have hfirst : charsBefore (decodedText (spelled sentinelOrLetter)) [1, 0] 1 = 1 := by
    decide +kernel
  rw [length_toolSentinelToken] at hends
  have hne : last ≠ 0 := by
    rintro rfl
    rw [hfirst] at hends
    omega
  exact Or.inr ⟨by omega, by change 2 = last + 1; omega⟩

/-- **One sentinel pauses twice.**  The call after the next token sees it again. -/
theorem sentinel_pauses_again : ¬ ∀ decode : List Int → String, Concatenates decode →
    ∀ tokens, OnePausePerSentinel decode tokens := by
  intro hclaim
  have hone := hclaim _ (concatenates_spelled sentinelOrLetter) [0, 1]
  have hseen : ∀ n, n = 1 ∨ n = 2 → SeenAt (spelled sentinelOrLetter) [0, 1] n 0 := by
    have hexamined : OccursAt toolSentinelToken.toList
          (decodedText (spelled sentinelOrLetter) (examinedTokens [0, 1] 1)) 0 ∧
        OccursAt toolSentinelToken.toList
          (decodedText (spelled sentinelOrLetter) (examinedTokens [0, 1] 2)) 0 := by
      decide +kernel
    rintro n (rfl | rfl)
    · exact ⟨0, hexamined.1, rfl⟩
    · exact ⟨0, hexamined.2, rfl⟩
  have hoccurs : OccursAt toolSentinelToken.toList
      (decodedText (spelled sentinelOrLetter) [0, 1]) 0 := by
    decide +kernel
  obtain ⟨n, _, hunique⟩ := hone.once 0 hoccurs
  have h₁ := hunique 1 ⟨by decide, hseen 1 (Or.inl rfl)⟩
  have h₂ := hunique 2 ⟨by decide, hseen 2 (Or.inr rfl)⟩
  omega

/-! ## 4. Several tokens per step -/

/-- Over these steps: some call returns `True` exactly if the decoded output has the
    sentinel in it. -/
def NoSentinelMissed (decode : List Int → String) (steps : List (List Int)) : Prop :=
  (∃ earlier, earlier <+: steps ∧ earlier ≠ [] ∧
      shouldPauseForToolCall decode earlier.flatten = true) ↔
    toolSentinelToken.toList <:+: decodedText decode steps.flatten

/-- Some step ends after the last token of a sentinel and within ten tokens from its
    first one on. -/
def StepEndsAt (decode : List Int → String) (steps : List (List Int)) : Prop :=
  ∃ position first last, SentinelSpan decode steps.flatten position first last ∧
    ∃ earlier, earlier <+: steps ∧ last < earlier.flatten.length ∧
      earlier.flatten.length ≤ first + 10

theorem shouldPauseForToolCall_flatten_iff (hdecode : Concatenates decode)
    {steps earlier : List (List Int)} (h : earlier <+: steps) :
    shouldPauseForToolCall decode earlier.flatten = true ↔
      ∃ position, SeenAt decode steps.flatten earlier.flatten.length position := by
  obtain ⟨later, rfl⟩ := h
  rw [← shouldPauseForToolCall_iff hdecode]
  · rw [List.flatten_append, List.take_left]
  · rw [List.flatten_append, List.length_append]
    exact Nat.le_add_right _ _

/-- **Which sentinels are found.** -/
theorem pauses_iff (hdecode : Concatenates decode) (steps : List (List Int)) :
    (∃ earlier, earlier <+: steps ∧ earlier ≠ [] ∧
      shouldPauseForToolCall decode earlier.flatten = true) ↔ StepEndsAt decode steps := by
  constructor
  · rintro ⟨earlier, hearlier, _, hpauses⟩
    obtain ⟨position, hseen⟩ := (shouldPauseForToolCall_flatten_iff hdecode hearlier).mp hpauses
    obtain ⟨first, last, hspan⟩ := ((seenAt_iff hdecode _ _).mp hseen).1.span hdecode
    exact ⟨position, first, last, hspan, earlier, hearlier,
      (hspan.seenAt_iff hdecode _).mp hseen⟩
  · rintro ⟨position, first, last, hspan, earlier, hearlier, hends⟩
    refine ⟨earlier, hearlier, ?_, (shouldPauseForToolCall_flatten_iff hdecode hearlier).mpr
      ⟨position, (hspan.seenAt_iff hdecode _).mpr hends⟩⟩
    rintro rfl
    exact absurd hends.1 (Nat.not_lt_zero _)

/-- A call that pauses has seen a sentinel. -/
theorem noSentinelMissed_of_stepEnds (hdecode : Concatenates decode) {steps : List (List Int)}
    (h : toolSentinelToken.toList <:+: decodedText decode steps.flatten →
      StepEndsAt decode steps) : NoSentinelMissed decode steps := by
  unfold NoSentinelMissed
  rw [pauses_iff hdecode]
  refine ⟨?_, h⟩
  rintro ⟨position, first, last, hspan, _⟩
  exact sentinel_infix_iff.mpr ⟨position, hspan.occurs⟩

/-- **When no sentinel is missed.**  For every output and every split of it into
    steps: exactly if, whenever there is a sentinel, a step ends close enough behind
    one. -/
theorem noSentinelMissed_iff (hdecode : Concatenates decode) (steps : List (List Int)) :
    NoSentinelMissed decode steps ↔
      (toolSentinelToken.toList <:+: decodedText decode steps.flatten →
        StepEndsAt decode steps) := by
  constructor
  · intro h hsentinel
    exact (pauses_iff hdecode steps).mp (h.mpr hsentinel)
  · exact noSentinelMissed_of_stepEnds hdecode

theorem noSentinelMissed_iff_step : NoSentinelMissed (spelled sentinelOrLetter) [[1, 0], [1, 1]] := by
  refine (noSentinelMissed_iff (concatenates_spelled _) [[1, 0], [1, 1]]).mpr fun _ => ?_
  have hspan : OccursAt toolSentinelToken.toList
        (decodedText (spelled sentinelOrLetter) [1, 0, 1, 1]) 1 ∧
      charsBefore (decodedText (spelled sentinelOrLetter)) [1, 0, 1, 1] 1 = 1 ∧
      charsBefore (decodedText (spelled sentinelOrLetter)) [1, 0, 1, 1] 2 = 14 := by
    decide +kernel
  obtain ⟨hoccurs, hbegins, hends⟩ := hspan
  refine ⟨1, 1, 1, ⟨hoccurs, ?_, ?_⟩, [[1, 0]], ⟨[[1, 1]], rfl⟩, by decide, by decide⟩
  · exact ⟨Nat.le_of_eq hbegins, by change 1 < charsBefore _ [1, 0, 1, 1] 2; omega⟩
  · rw [length_toolSentinelToken]
    exact ⟨by change charsBefore _ [1, 0, 1, 1] 1 ≤ 13; omega,
      by change 13 < charsBefore _ [1, 0, 1, 1] 2; omega⟩

/-- Every token is the letter with its code. -/
def letter (token : Int) : List Char := [Char.ofNat token.toNat]

/-- **A sentinel in thirteen tokens is missed**: a call sees ten of them at most. -/
theorem sentinel_missed : ¬ ∀ decode : List Int → String, Concatenates decode →
    (∀ token, decode [token] ≠ "") → ∀ steps : List (List Int), (∀ step ∈ steps, step ≠ []) →
      NoSentinelMissed decode steps := by
  intro hclaim
  let steps : List (List Int) := toolSentinelToken.toList.map fun c => [(c.toNat : Int)]
  have hletter : ∀ token, spelled letter [token] ≠ "" := by
    intro token hempty
    have htext := congrArg String.toList hempty
    rw [spelled, String.toList_ofList] at htext
    cases htext
  have hmissed := hclaim (spelled letter) (concatenates_spelled letter) hletter steps
    (by decide +kernel)
  obtain ⟨earlier, hearlier, _, hpauses⟩ := hmissed.mpr (by decide +kernel)
  have hnone : ∀ earlier ∈ steps.inits,
      shouldPauseForToolCall (spelled letter) earlier.flatten = false := by
    decide +kernel
  rw [hnone earlier ((List.mem_inits _ _).mpr hearlier)] at hpauses
  cases hpauses

/-- The first step that ends behind a token ends at most one step behind it. -/
theorem exists_step_end {steps : List (List Int)} {size last : Nat}
    (hsize : ∀ step ∈ steps, step.length ≤ size) (hlast : last < steps.flatten.length) :
    ∃ earlier, earlier <+: steps ∧ last < earlier.flatten.length ∧
      earlier.flatten.length ≤ last + size := by
  induction steps using List.reverseRecOn with
  | nil => exact absurd hlast (Nat.not_lt_zero _)
  | append_singleton steps step ih =>
    by_cases hbefore : last < steps.flatten.length
    · obtain ⟨earlier, hearlier, hends⟩ :=
        ih (fun other hother => hsize other (List.mem_append_left _ hother)) hbefore
      exact ⟨earlier, hearlier.trans (List.prefix_append _ _), hends⟩
    · refine ⟨steps ++ [step], List.prefix_refl _, hlast, ?_⟩
      have hstep := hsize step List.mem_concat_self
      rw [List.flatten_append, List.length_append, List.flatten_singleton]
      omega

/-- Steps of at most `size` tokens miss no sentinel, where the sentinels leave room
    for one step in ten tokens. -/
theorem noSentinelMissed_of_short (hdecode : Concatenates decode) {steps : List (List Int)}
    {size : Nat} (hsize : ∀ step ∈ steps, step.length ≤ size)
    (hshort : ∀ position first last, SentinelSpan decode steps.flatten position first last →
      last + size ≤ first + 10) : NoSentinelMissed decode steps := by
  apply noSentinelMissed_of_stepEnds hdecode
  intro hsentinel
  obtain ⟨position, hposition⟩ := sentinel_infix_iff.mp hsentinel
  obtain ⟨first, last, hspan⟩ := hposition.span hdecode
  obtain ⟨earlier, hearlier, hlast, hends⟩ := exists_step_end hsize hspan.last_lt
  exact ⟨position, first, last, hspan, earlier, hearlier, hlast,
    Nat.le_trans hends (hshort _ _ _ hspan)⟩

end Edmm
