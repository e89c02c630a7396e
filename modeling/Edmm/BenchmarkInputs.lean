/-
  Edmm/BenchmarkInputs.lean
  =========================
  **The benchmark's prompts** (`repeat_to_token_floor`, `build_benchmark_inputs`).

  A text block is repeated until the tokenizer makes enough tokens of it, and the prompt
  is cut to length after tokenization.  How many tokens a repetition adds is up to the
  tokenizer; the loop ends when the counts are unbounded, however they get there.  The
  suffix is encoded with a newline in front, which the floor was not checked for, so the
  builder checks again and raises if tokens are missing (`buildBenchmarkInputs_floors`).
-/
import Edmm.BenchmarkTexts
import Edmm.Lib.Python

namespace Edmm

open Python

variable {τ : Type}

/-! ## 1. The functions -/

/-- What `build_benchmark_inputs` returns; the ids are the one row of their tensor. -/
structure BenchmarkInputs (τ : Type) where
  baseText : String
  suffixText : String
  query : String
  baseIds : List τ
  suffixIds : List τ

section Builder

-- `tokenizer.encode(text, add_special_tokens=False)`
variable (encode : String → List τ)

/-- At least 1, so that it can be divided by. -/
def tokensPerBlock (block : String) : Int := max 1 (encode block).length

/-- The test of the `while` loop. -/
def belowFloor (numTokens : Int) (text : String) : Bool := (encode text).length < numTokens

def repeatToTokenFloor (fuel : Nat) (block : String) (numTokens : Int) : Option String :=
  let repetitions := numTokens / tokensPerBlock encode block + 2
  whileLoop (belowFloor encode numTokens) (fun text => text ++ block) fuel
    (repeated block repetitions.toNat)

def generateStaticContext (fuel : Nat) (numTokens : Int) : Option String :=
  repeatToTokenFloor encode fuel staticContextBlock numTokens

def generateSuffixBlock (fuel : Nat) (numTokens : Int) : Option String :=
  repeatToTokenFloor encode fuel suffixBlock numTokens

/-- The ids of the tensor's one row, on whatever device. -/
def tokenizeToDevice (text : String) : List τ := encode text

def query : String := "Summarize the key findings from the above context in one sentence."

def shortBase (tokens : Nat) : PyError :=
  .runtimeError s!"Generated base context has only {tokens} tokens"

def shortSuffix (tokens : Nat) : PyError :=
  .runtimeError s!"Generated suffix context has only {tokens} tokens"

/-- `fuel` bounds the repetitions of each text; without a value the call is still running. -/
def buildBenchmarkInputs (fuel : Nat) (baseContextTokens suffixTokens : Int) :
    Option (Except PyError (BenchmarkInputs τ)) := do
  let baseText ← generateStaticContext encode fuel baseContextTokens
  let suffixText ← generateSuffixBlock encode fuel suffixTokens
  let baseIds := tokenizeToDevice encode baseText
  let suffixBlockIds := tokenizeToDevice encode ("\n" ++ suffixText)
  let queryIds := tokenizeToDevice encode ("\n" ++ query)
  if baseIds.length < baseContextTokens then
    return .error (shortBase baseIds.length)
  if suffixBlockIds.length < suffixTokens then
    return .error (shortSuffix suffixBlockIds.length)
  let baseIds := slice baseIds 0 baseContextTokens
  let suffixIds := slice suffixBlockIds 0 suffixTokens ++ queryIds
  return .ok { baseText, suffixText, query, baseIds, suffixIds }

end Builder

/-! ## 2. Repeating to the floor -/

variable {encode : String → List τ}

/-- Repeated often enough, the block has any number of tokens. -/
def Unbounded (encode : String → List τ) (block : String) : Prop :=
  ∀ m : Nat, ∃ k, m ≤ (encode (repeated block k)).length

/-- The block repeated, at least two times more than the quotient, to `numTokens` tokens. -/
def RepeatsToFloor (encode : String → List τ) (block : String) (numTokens : Int)
    (text : String) : Prop :=
  ∃ k : Nat, numTokens / tokensPerBlock encode block + 2 ≤ k ∧ text = repeated block k ∧
    numTokens ≤ (encode text).length

theorem RepeatsToFloor.floor {block : String} {numTokens : Int} {text : String}
    (h : RepeatsToFloor encode block numTokens text) : numTokens ≤ (encode text).length := by
  obtain ⟨_, _, _, hfloor⟩ := h
  exact hfloor

/-- Unbounded counts are unbounded from any number of repetitions on. -/
theorem Unbounded.beyond {block : String} (h : Unbounded encode block) (start m : Nat) :
    ∃ k, start ≤ k ∧ m ≤ (encode (repeated block k)).length := by
  induction start generalizing m with
  | zero =>
    obtain ⟨k, hk⟩ := h m
    exact ⟨k, k.zero_le, hk⟩
  | succ start ih =>
    -- more tokens than `start` repetitions have need more repetitions
    obtain ⟨k, hstart, hk⟩ := ih (max m ((encode (repeated block start)).length + 1))
    have hne : k ≠ start := by
      rintro rfl
      omega
    exact ⟨k, by omega, by omega⟩

theorem repeated_iterate (block : String) (start n : Nat) :
    (fun text => text ++ block)^[n] (repeated block start) = repeated block (start + n) := by
  induction n with
  | zero => rfl
  | succ n ih =>
    rw [Function.iterate_succ_apply', ih]
    rfl

/-- **The loop reaches the floor.** -/
theorem repeatToTokenFloor_returns {block : String} (h : Unbounded encode block)
    (numTokens : Int) :
    ∃ text start, RepeatsToFloor encode block numTokens text ∧
      ∀ fuel, start ≤ fuel → repeatToTokenFloor encode fuel block numTokens = some text := by
  have hends : ∃ n, belowFloor encode numTokens ((fun text => text ++ block)^[n]
      (repeated block (numTokens / tokensPerBlock encode block + 2).toNat)) = false := by
    obtain ⟨k, hstart, hk⟩ :=
      h.beyond (numTokens / tokensPerBlock encode block + 2).toNat numTokens.toNat
    obtain ⟨n, rfl⟩ := Nat.exists_eq_add_of_le hstart
    refine ⟨n, ?_⟩
    rw [repeated_iterate, belowFloor, decide_eq_false_iff_not]
    omega
  obtain ⟨n, hstop, hruns⟩ := whileLoop_ends hends
  rw [repeated_iterate] at hstop hruns
  refine ⟨_, n + 1, ⟨_, ?_, rfl, ?_⟩, fun fuel hfuel => hruns fuel hfuel⟩
  · omega
  · simpa [belowFloor] using hstop

/-! ## 3. Building the inputs -/

/-- The inputs made of two texts. -/
def inputsOf (encode : String → List τ) (baseContextTokens suffixTokens : Int)
    (baseText suffixText : String) : BenchmarkInputs τ where
  baseText := baseText
  suffixText := suffixText
  query := query
  baseIds := slice (encode baseText) 0 baseContextTokens
  suffixIds := slice (encode ("\n" ++ suffixText)) 0 suffixTokens ++ encode ("\n" ++ query)

/-- **What the builder makes of its two texts.**  Only the second check can fail. -/
theorem buildBenchmarkInputs_of_texts {fuel : Nat} {baseContextTokens suffixTokens : Int}
    {baseText suffixText : String}
    (hbase : repeatToTokenFloor encode fuel staticContextBlock baseContextTokens = some baseText)
    (hsuffix : repeatToTokenFloor encode fuel suffixBlock suffixTokens = some suffixText)
    (hfloor : baseContextTokens ≤ (encode baseText).length) :
    buildBenchmarkInputs encode fuel baseContextTokens suffixTokens =
      some (if (encode ("\n" ++ suffixText)).length < suffixTokens then
        .error (shortSuffix (encode ("\n" ++ suffixText)).length)
      else .ok (inputsOf encode baseContextTokens suffixTokens baseText suffixText)) := by
  have hbaseMet : ¬ ((encode baseText).length : Int) < baseContextTokens := by omega
  simp only [buildBenchmarkInputs, generateStaticContext, generateSuffixBlock, tokenizeToDevice,
    hbase, hsuffix]
  by_cases hshort : ((encode ("\n" ++ suffixText)).length : Int) < suffixTokens
  · simp [hbaseMet, hshort]
  · simp [hbaseMet, hshort, inputsOf]

/-- The base of the inputs is a prefix of its text's encoding, cut to length. -/
theorem inputsOf_baseIds {baseContextTokens : Int} {baseText : String}
    (hfloor : baseContextTokens ≤ (encode baseText).length) (suffixTokens : Int)
    (suffixText : String) :
    (inputsOf encode baseContextTokens suffixTokens baseText suffixText).baseIds <+:
        encode baseText ∧
      (0 ≤ baseContextTokens →
        ((inputsOf encode baseContextTokens suffixTokens baseText suffixText).baseIds.length :
          Int) = baseContextTokens) :=
  ⟨slice_zero_isPrefix _ _, fun hcount => length_slice_zero hcount hfloor⟩

theorem inputsOf_suffixIds {suffixTokens : Int} {suffixText : String}
    (hfloor : suffixTokens ≤ (encode ("\n" ++ suffixText)).length) (hcount : 0 ≤ suffixTokens)
    (baseContextTokens : Int) (baseText : String) :
    ((inputsOf encode baseContextTokens suffixTokens baseText suffixText).suffixIds.length :
        Int) = suffixTokens + (encode ("\n" ++ query)).length := by
  have hslice := length_slice_zero hcount hfloor
  simp only [inputsOf, List.length_append]
  omega

/-- **The inputs meet their token floors, or the builder says that they do not.**  With
    unbounded token counts both texts are repeated to their floors and the builder ends.
    It raises exactly when the suffix has too few tokens with the newline in front; else
    the base and the suffix have the lengths asked for. -/
theorem buildBenchmarkInputs_floors (baseContextTokens suffixTokens : Int)
    (hstatic : Unbounded encode staticContextBlock) (hsuffix : Unbounded encode suffixBlock) :
    ∃ baseText suffixText start,
      RepeatsToFloor encode staticContextBlock baseContextTokens baseText ∧
      RepeatsToFloor encode suffixBlock suffixTokens suffixText ∧
      ∀ fuel, start ≤ fuel →
        repeatToTokenFloor encode fuel staticContextBlock baseContextTokens = some baseText ∧
        repeatToTokenFloor encode fuel suffixBlock suffixTokens = some suffixText ∧
        ((encode ("\n" ++ suffixText)).length < suffixTokens →
          buildBenchmarkInputs encode fuel baseContextTokens suffixTokens =
            some (.error (shortSuffix (encode ("\n" ++ suffixText)).length))) ∧
        (suffixTokens ≤ (encode ("\n" ++ suffixText)).length → ∃ inputs,
          buildBenchmarkInputs encode fuel baseContextTokens suffixTokens =
            some (.ok inputs) ∧
          inputs.baseText = baseText ∧ inputs.suffixText = suffixText ∧ inputs.query = query ∧
          inputs.baseIds <+: encode baseText ∧
          (0 ≤ baseContextTokens → (inputs.baseIds.length : Int) = baseContextTokens) ∧
          (0 ≤ suffixTokens → (inputs.suffixIds.length : Int) =
            suffixTokens + (encode ("\n" ++ query)).length)) := by
  obtain ⟨baseText, start, hbaseFloor, hbaseRuns⟩ :=
    repeatToTokenFloor_returns hstatic baseContextTokens
  obtain ⟨suffixText, start', hsuffixFloor, hsuffixRuns⟩ :=
    repeatToTokenFloor_returns hsuffix suffixTokens
  refine ⟨baseText, suffixText, max start start', hbaseFloor, hsuffixFloor, fun fuel hfuel => ?_⟩
  have hbase := hbaseRuns fuel (by omega)
  have hsuffix := hsuffixRuns fuel (by omega)
  have hfloor := hbaseFloor.floor
  have hbuild := buildBenchmarkInputs_of_texts hbase hsuffix hfloor
  refine ⟨hbase, hsuffix, fun hshort => ?_, fun henough => ?_⟩
  · rw [hbuild, if_pos hshort]
  · rw [if_neg (by omega)] at hbuild
    have hbaseIds := inputsOf_baseIds hfloor suffixTokens suffixText
    exact ⟨_, hbuild, rfl, rfl, rfl, hbaseIds.1, hbaseIds.2, fun hcount =>
      inputsOf_suffixIds henough hcount baseContextTokens baseText⟩

/-! ## 4. Two tokenizers -/

theorem le_length_repeated {block : String} (hblock : block.toList ≠ []) (k : Nat) :
    k ≤ (repeated block k).toList.length := by
  induction k with
  | zero => exact Nat.zero_le _
  | succ k ih =>
    have hpos := List.length_pos_of_ne_nil hblock
    rw [repeated, String.toList_append, List.length_append]
    omega

/-- With a token for each character any block will do. -/
theorem unbounded_of_characters {block : String} {first : Char}
    (h : block.toList.head? = some first)
    (hencode : ∀ k, (encode (repeated block k)).length = (repeated block k).toList.length) :
    Unbounded encode block := by
  intro m
  refine ⟨m, ?_⟩
  rw [hencode]
  exact le_length_repeated (List.isSome_head?.mp (Option.isSome_of_eq_some h)) m

theorem head_append {line : String} {first : Char} (h : line.toList.head? = some first)
    (rest : String) : (line ++ rest).toList.head? = some first := by
  rw [String.toList_append, List.head?_append, h, Option.some_or]

theorem head_staticContextBlock : staticContextBlock.toList.head? = some 'c' :=
  head_append (by decide) _

theorem head_suffixBlock : suffixBlock.toList.head? = some 'Y' := head_append (by decide) _

/-- A token for each character. -/
def charTokenizer (text : String) : List Nat := text.toList.map fun char => char.toNat % 251 + 1

theorem charTokenizer_unbounded {block : String} {first : Char}
    (h : block.toList.head? = some first) : Unbounded charTokenizer block :=
  unbounded_of_characters h fun k => by simp [charTokenizer]

/-- With a token for each character the inputs have their lengths. -/
theorem buildBenchmarkInputs_floors_characters :
    ∃ fuel inputs, buildBenchmarkInputs charTokenizer fuel 64 16 = some (.ok inputs) ∧
      inputs.baseIds.length = 64 ∧ inputs.suffixIds.length = 16 + 67 := by
  have hstatic := charTokenizer_unbounded head_staticContextBlock
  have hsuffix := charTokenizer_unbounded head_suffixBlock
  obtain ⟨baseText, suffixText, start, -, hfloor, hruns⟩ :=
    buildBenchmarkInputs_floors 64 16 hstatic hsuffix
  obtain ⟨-, -, -, hreturns⟩ := hruns start (le_refl start)
  have henough : (16 : Int) ≤ (charTokenizer ("\n" ++ suffixText)).length := by
    have hsuffixText := hfloor.floor
    simp only [charTokenizer, List.length_map, String.toList_append, List.length_append] at *
    omega
  have hquery : (charTokenizer ("\n" ++ query)).length = 67 := by decide +kernel
  obtain ⟨inputs, hinputs, -, -, -, -, hbase, hsuffixLength⟩ := hreturns henough
  have hbaseIds := hbase (by decide)
  have hsuffixIds := hsuffixLength (by decide)
  exact ⟨start, inputs, hinputs, by omega, by omega⟩

/-- A token for each character, but a text that begins with a newline is one token. -/
def lineTokenizer (text : String) : List (List Char) :=
  if text.toList.head? = some '\n' then [text.toList] else text.toList.map fun char => [char]

theorem head_repeated {block : String} {first : Char} (h : block.toList.head? = some first)
    {k : Nat} {char : Char} (hchar : (repeated block k).toList.head? = some char) :
    char = first := by
  induction k with
  | zero => cases hchar
  | succ k ih =>
    rw [repeated, String.toList_append, List.head?_append, h] at hchar
    cases hhead : (repeated block k).toList.head? with
    | none =>
      rw [hhead] at hchar
      simpa using hchar.symm
    | some found =>
      rw [hhead] at hchar
      exact ih (hhead.trans (by simpa using hchar))

theorem lineTokenizer_unbounded {block : String} {first : Char}
    (h : block.toList.head? = some first) (hfirst : first ≠ '\n') :
    Unbounded lineTokenizer block := by
  refine unbounded_of_characters h fun k => ?_
  have hhead : (repeated block k).toList.head? ≠ some '\n' := fun hnewline =>
    hfirst (head_repeated h hnewline).symm
  simp [lineTokenizer, hhead]

/-- **The floor does not survive the newline.**  The text has its 2048 tokens, but with a
    newline in front it is one token, and the builder raises. -/
theorem buildBenchmarkInputs_raises :
    Unbounded lineTokenizer staticContextBlock ∧ Unbounded lineTokenizer suffixBlock ∧
    ∃ start, ∀ fuel, start ≤ fuel →
      buildBenchmarkInputs lineTokenizer fuel 16384 2048 =
        some (.error (.runtimeError "Generated suffix context has only 1 tokens")) := by
  have hstatic := lineTokenizer_unbounded head_staticContextBlock (by decide)
  have hsuffix := lineTokenizer_unbounded head_suffixBlock (by decide)
  obtain ⟨baseText, start, hbaseFloor, hbaseRuns⟩ := repeatToTokenFloor_returns hstatic 16384
  obtain ⟨suffixText, start', -, hsuffixRuns⟩ := repeatToTokenFloor_returns hsuffix 2048
  refine ⟨hstatic, hsuffix, max start start', fun fuel hfuel => ?_⟩
  have hone : (lineTokenizer ("\n" ++ suffixText)).length = 1 := by
    simp [lineTokenizer, String.toList_append]
  have hbuild := buildBenchmarkInputs_of_texts (hbaseRuns fuel (by omega))
    (hsuffixRuns fuel (by omega)) hbaseFloor.floor
  rw [hone, if_pos (by decide)] at hbuild
  exact hbuild

end Edmm
