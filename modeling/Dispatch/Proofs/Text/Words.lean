import Dispatch.Text.Blank
import Mathlib.Data.List.TakeWhile

/-!
# Trimming and words

What trimming leaves of a text neither starts nor ends with a blank, and a text of that form is left as it
is. The words of a text are the only way to see the text as words with blanks between and around them.

## Main definitions

* `Text.Spaced` — a text is made of given words, with blanks between and around them

## Main results

* `Text.trim_trim` — a trimmed text is not trimmed any further
* `Text.words_eq_iff` — the words of a text are those that it is made of
-/

set_option autoImplicit false

namespace Dispatch.Text

variable {s t word gap : List Char} {ws : List (List Char)} {c : Char}

/-! ### Trimming -/

/-- Trimming leaves nothing of a text exactly if all of it is blank. -/
theorem trim_eq_nil_iff : trim s = [] ↔ ∀ c ∈ s, isBlank c = true := by
  rw [trim, List.reverse_eq_nil_iff, List.dropWhile_eq_nil_iff]
  constructor
  · intro blank
    rw [← List.dropWhile_eq_nil_iff]
    -- What is left at the front starts with a character that is not blank.
    cases left : s.dropWhile isBlank with
    | nil => rfl
    | cons c rest =>
      have solid := List.head?_dropWhile_not isBlank s
      rw [left, List.head?_cons] at solid
      rw [left] at blank
      simp [blank c (by simp)] at solid
  · intro blank c mem
    exact blank c ((List.dropWhile_suffix isBlank).subset (List.mem_reverse.mp mem))

/-- A text that neither starts nor ends with a blank is not trimmed. -/
theorem trim_of_ends (first : ∀ c, s.head? = some c → isBlank c = false)
    (last : ∀ c, s.getLast? = some c → isBlank c = false) : trim s = s := by
  have kept : ∀ t : List Char, (∀ c, t.head? = some c → isBlank c = false) →
      t.dropWhile isBlank = t := by
    intro t first
    cases t with
    | nil => rfl
    | cons c t => exact List.dropWhile_cons_of_neg (by simp [first c rfl])
  rw [trim, kept s first, kept s.reverse (by simpa using last), List.reverse_reverse]

/-- A text without blanks is not trimmed. -/
theorem trim_of_solid (solid : ∀ c ∈ s, isBlank c = false) : trim s = s :=
  trim_of_ends (fun c first => solid c (List.mem_of_mem_head? first))
    (fun c last => solid c (List.mem_of_getLast? last))

theorem isBlank_of_head?_trim (first : (trim s).head? = some c) : isBlank c = false := by
  -- Only the end of `s.dropWhile isBlank` is trimmed, so that its start is that of the trimmed text.
  have start : trim s <+: s.dropWhile isBlank := by
    have tail := List.dropWhile_suffix (l := (s.dropWhile isBlank).reverse) isBlank
    simpa [trim] using List.reverse_prefix.mpr tail
  obtain ⟨rest, whole⟩ := start
  have front : (s.dropWhile isBlank).head? = some c := by
    rw [← whole, List.head?_append, first, Option.some_or]
  have solid := List.head?_dropWhile_not isBlank s
  rw [front] at solid
  simpa using solid

theorem isBlank_of_getLast?_trim (last : (trim s).getLast? = some c) : isBlank c = false := by
  rw [trim, List.getLast?_reverse] at last
  have solid := List.head?_dropWhile_not isBlank (s.dropWhile isBlank).reverse
  rw [last] at solid
  simpa using solid

/-- A trimmed text is not trimmed any further. -/
@[simp] theorem trim_trim (s : List Char) : trim (trim s) = trim s :=
  trim_of_ends (fun _ => isBlank_of_head?_trim) (fun _ => isBlank_of_getLast?_trim)

/-! ### Words -/

theorem splitRun_of_solid (solid : ∀ c ∈ s, isBlank c = false) : splitRun s = (s, []) := by
  induction s with
  | nil => rfl
  | cons c s ih =>
    obtain ⟨first, others⟩ := List.forall_mem_cons.mp solid
    rw [splitRun, ih others]
    simp [first]

/-- A text without blanks is one word. -/
theorem words_of_solid (proper : s ≠ []) (solid : ∀ c ∈ s, isBlank c = false) : words s = [s] := by
  rw [words, splitRun_of_solid solid, consWord, if_neg (by simpa using proper)]

/-- The run up to the first blank has no blanks, and neither have the words behind it. -/
theorem solid_splitRun (s : List Char) : (∀ c ∈ (splitRun s).1, isBlank c = false) ∧
    ∀ word ∈ (splitRun s).2, word ≠ [] ∧ ∀ c ∈ word, isBlank c = false := by
  induction s with
  | nil => simp [splitRun]
  | cons c s ih =>
    obtain ⟨run, later⟩ := ih
    rw [splitRun]
    cases blank : isBlank c with
    | false => exact ⟨List.forall_mem_cons.mpr ⟨blank, run⟩, later⟩
    | true =>
      refine ⟨by simp, ?_⟩
      cases empty : (splitRun s).1 with
      | nil => simpa [consWord, empty] using later
      | cons d rest =>
        rw [empty] at run
        simpa [consWord, empty] using ⟨by simpa using run, later⟩

/-- A word is not empty and has no blanks. -/
theorem solid_of_mem_words (mem : word ∈ words s) : word ≠ [] ∧ ∀ c ∈ word, isBlank c = false := by
  obtain ⟨run, later⟩ := solid_splitRun s
  rw [words, consWord] at mem
  split at mem
  · exact later word mem
  · rename_i proper
    rcases List.mem_cons.mp mem with rfl | mem
    · exact ⟨by simpa using proper, run⟩
    · exact later word mem

/-- A text is made of the given words, in their order, with blanks around them and at least one blank
behind each word that others follow. -/
inductive Spaced : List (List Char) → List Char → Prop
  /-- no words, only blanks -/
  | blank {gap : List Char} (blank : ∀ c ∈ gap, isBlank c = true) : Spaced [] gap
  /-- blanks, a word, and a text with the other words, which is empty or starts with a blank -/
  | word {gap word rest : List Char} {others : List (List Char)}
      (blank : ∀ c ∈ gap, isBlank c = true) (ends : ∀ c, rest.head? = some c → isBlank c = true)
      (spaced : Spaced others rest) : Spaced (word :: others) (gap ++ word ++ rest)

theorem Spaced.cons (blank : isBlank c = true) (spaced : Spaced ws s) : Spaced ws (c :: s) := by
  cases spaced with
  | blank gap => exact .blank (List.forall_mem_cons.mpr ⟨blank, gap⟩)
  | word gap ends rest => exact .word (List.forall_mem_cons.mpr ⟨blank, gap⟩) ends rest

/-- Behind its first run a text is empty or starts with a blank, and it has the later words there. -/
theorem exists_spaced_splitRun (s : List Char) : ∃ rest, s = (splitRun s).1 ++ rest ∧
    (∀ c, rest.head? = some c → isBlank c = true) ∧ Spaced (splitRun s).2 rest := by
  induction s with
  | nil => exact ⟨[], rfl, by simp, .blank (by simp)⟩
  | cons c s ih =>
    obtain ⟨rest, whole, ends, spaced⟩ := ih
    rw [splitRun]
    cases blank : isBlank c with
    | false => exact ⟨rest, congrArg (c :: ·) whole, ends, spaced⟩
    | true =>
      refine ⟨c :: s, rfl, by simpa using blank, ?_⟩
      -- The run behind the blank is a word, unless another blank follows at once.
      by_cases empty : (splitRun s).1 = []
      · rw [empty, List.nil_append] at whole
        rw [← whole] at spaced
        simpa [consWord, empty] using spaced.cons blank
      · have run : Spaced ((splitRun s).1 :: (splitRun s).2) ([c] ++ (splitRun s).1 ++ rest) :=
          .word (by simpa using blank) ends spaced
        rw [List.append_assoc, ← whole] at run
        simpa [consWord, empty] using run

/-- A text is made of its words. -/
theorem spaced_words (s : List Char) : Spaced (words s) s := by
  obtain ⟨rest, whole, ends, spaced⟩ := exists_spaced_splitRun s
  rw [words, consWord]
  split
  · rename_i empty
    rw [List.isEmpty_iff.mp empty, List.nil_append] at whole
    exact whole ▸ spaced
  · have run : Spaced ((splitRun s).1 :: (splitRun s).2) ([] ++ (splitRun s).1 ++ rest) :=
      .word (by simp) ends spaced
    rwa [List.nil_append, ← whole] at run

theorem words_cons_blank (blank : isBlank c = true) (s : List Char) : words (c :: s) = words s := by
  simpa using words_append_blank blank [] s

theorem words_gap_append (blank : ∀ c ∈ gap, isBlank c = true) (s : List Char) :
    words (gap ++ s) = words s := by
  induction gap with
  | nil => rfl
  | cons c gap ih =>
    obtain ⟨first, others⟩ := List.forall_mem_cons.mp blank
    rw [List.cons_append, words_cons_blank first, ih others]

/-- A text is made of words in one way only. -/
theorem Spaced.words_eq (spaced : Spaced ws s)
    (solid : ∀ word ∈ ws, word ≠ [] ∧ ∀ c ∈ word, isBlank c = false) : words s = ws := by
  induction spaced with
  | blank gap => simpa using words_gap_append gap []
  | @word gap word rest others blank ends spaced ih =>
    obtain ⟨⟨proper, plain⟩, later⟩ := List.forall_mem_cons.mp solid
    rw [List.append_assoc, words_gap_append blank, ← ih later]
    cases rest with
    | nil => simpa using words_of_solid proper plain
    | cons c rest =>
      have divides : isBlank c = true := ends c rfl
      rw [words_append_blank divides, words_of_solid proper plain, words_cons_blank divides]
      rfl

/-- The words of a text are the texts without blanks that it is made of. -/
theorem words_eq_iff : words s = ws ↔
    Spaced ws s ∧ ∀ word ∈ ws, word ≠ [] ∧ ∀ c ∈ word, isBlank c = false := by
  constructor
  · rintro rfl
    exact ⟨spaced_words s, fun word mem => solid_of_mem_words mem⟩
  · rintro ⟨spaced, solid⟩
    exact spaced.words_eq solid

/-- A text without words is blank. -/
theorem words_eq_nil_iff : words s = [] ↔ ∀ c ∈ s, isBlank c = true := by
  rw [words_eq_iff]
  constructor
  · rintro ⟨spaced, -⟩
    cases spaced with
    | blank gap => exact gap
  · intro blank
    exact ⟨.blank blank, by simp⟩

end Dispatch.Text
