import Dispatch.Proofs.Argument.Grammar

/-!
# Patterns and what they are written as

An argument that was read is read again from what it is written as, and so are the arguments of a pattern,
however their written forms are spaced. Not everything is preserved on the way: other spellings of a kind
give way to its name. But nothing that an argument consists of is lost, so that two arguments that were
read are never written alike.

## Main results

* `Argument.parse_display_of_parse` — what was read is read back
* `Argument.parseAll_of_spaced` — the arguments of a pattern are read back, whatever the blanks
* `Argument.parseAll_eq_error_iff` — a pattern is refused for its first word that is no argument
* `Argument.patterns_round_trip` — all of it
-/

set_option autoImplicit false

namespace Dispatch.Argument

open Text

variable {a b : Argument} {s word : List Char} {text respaced : String} {arguments : List Argument}
  {error : ArgumentError}

/-! ### Single words -/

/-- No word has a description. -/
theorem Denotes.description?_eq_none (denotes : Denotes word a) : a.description? = none := by
  cases denotes <;> rfl

/-- An argument that some word denotes is also denoted by what it is written as. -/
theorem Denotes.display (denotes : Denotes word a) : Denotes a.display.toList a := by
  cases denotes with
  | literal proper free =>
    rw [Argument.display, String.toList_ofList]
    exact .literal proper free
  | @placeholder name spelling kind proper free known =>
    rw [toList_display_typed, String.toList_ofList]
    exact .placeholder proper free (Kind.parse_eq_ok_iff.mp kind.parse_name)

/-- Trimming does not change what an argument is written as if it does not change the word either. -/
theorem Denotes.trim_display (denotes : Denotes word a) (trimmed : trim word = word) :
    trim a.display.toList = a.display.toList := by
  cases denotes with
  | literal proper free => rwa [Argument.display, String.toList_ofList]
  | placeholder proper free known =>
    rw [toList_display_typed]
    refine trim_of_ends (fun c first => ?_) (fun c last => ?_)
    · obtain rfl : '<' = c := by simpa using first
      decide
    · obtain rfl : '>' = c := by simpa [List.getLast?_cons] using last
      decide

/-- An argument that was read is read back from what it is written as. -/
theorem parse_display_of_parse (read : parse text = .ok a) : parse a.display = .ok a := by
  have denotes := parse_eq_ok_iff_denotes.mp read
  rw [parse_eq_ok_iff_denotes, denotes.trim_display (trim_trim _)]
  exact denotes.display

/-! ### Patterns -/

theorem parseAll_eq_ok_iff : parseAll text = .ok arguments ↔
    List.Forall₂ (fun word a => parse (String.ofList word) = .ok a) (words text.toList) arguments :=
  mapM_eq_ok_iff

/-- A pattern is refused for its first word that is no argument. -/
theorem parseAll_eq_error_iff : parseAll text = .error error ↔
    ∃ before word after, words text.toList = before ++ word :: after ∧
      (∀ other ∈ before, ∃ a, parse (String.ofList other) = .ok a) ∧
      parse (String.ofList word) = .error error :=
  mapM_eq_error_iff

/-- A pattern has no arguments exactly if it is blank. -/
theorem parseAll_eq_nil_iff : parseAll text = .ok [] ↔ isBlankText text = true := by
  rw [parseAll_eq_ok_iff, List.forall₂_nil_right_iff, words_eq_nil_iff, isBlankText_iff]

/-- The arguments of a pattern are tokens. -/
theorem isToken_of_parseAll (read : parseAll text = .ok arguments) (mem : a ∈ arguments) :
    a.IsToken := by
  obtain ⟨word, among, accepted⟩ := exists_item_of_mapM read mem
  refine isToken_of_parse ?_ accepted
  rw [String.toList_ofList]
  exact (solid_of_mem_words among).2

/-- The arguments of a pattern are read back from any text that is made of what they are written as. -/
theorem parseAll_of_spaced (read : parseAll text = .ok arguments)
    (spaced : Spaced (arguments.map fun a => a.display.toList) respaced.toList) :
    parseAll respaced = .ok arguments := by
  have written : words respaced.toList = arguments.map fun a => a.display.toList := by
    refine spaced.words_eq fun word mem => ?_
    obtain ⟨a, among, rfl⟩ := List.mem_map.mp mem
    exact (isToken_of_parseAll read among).solid_display
  rw [parseAll_eq_ok_iff, written, List.forall₂_map_left_iff, List.forall₂_same]
  intro a mem
  obtain ⟨word, -, accepted⟩ := exists_item_of_mapM read mem
  rw [String.ofList_toList]
  exact parse_display_of_parse accepted

/-- A word of a pattern is refused for something else than being empty. -/
theorem ne_emptyToken_of_parseAll (refused : parseAll text = .error error) : error ≠ .emptyToken := by
  rintro rfl
  obtain ⟨before, word, after, split, -, failed⟩ := parseAll_eq_error_iff.mp refused
  obtain ⟨proper, solid⟩ : word ≠ [] ∧ ∀ c ∈ word, isBlank c = false :=
    solid_of_mem_words (s := text.toList) (by simp [split])
  rw [parse, String.toList_ofList, trim_of_solid solid] at failed
  exact proper (isFirst_of_parseTrimmed failed).1

theorem exists_error_iff : (∃ error, parseAll text = .error error) ↔
    ∃ word ∈ words text.toList, ∃ error, parse (String.ofList word) = .error error := by
  constructor
  · rintro ⟨error, refused⟩
    obtain ⟨before, word, after, split, -, failed⟩ := parseAll_eq_error_iff.mp refused
    exact ⟨word, by simp [split], error, failed⟩
  · rintro ⟨word, mem, error, failed⟩
    cases read : parseAll text with
    | error cause => exact ⟨cause, rfl⟩
    | ok arguments =>
      obtain ⟨a, accepted⟩ := exists_result_of_mapM read mem
      rw [failed] at accepted
      simp at accepted

/-- The arguments of a pattern are written without blanks and have no descriptions, and they are read back
from what they are written as, whatever blanks are put between and around. A single argument without a
description was read from some text exactly if it is read back from what it is written as, and two that
were read are never written alike. A pattern is refused exactly if one of its words is no argument, for
the reason of the first such word; it has no arguments exactly if it is blank. -/
theorem patterns_round_trip :
    (∀ text arguments, parseAll text = .ok arguments →
      (∀ a ∈ arguments, a.display.toList ≠ [] ∧ (∀ c ∈ a.display.toList, isBlank c = false) ∧
        a.description? = none) ∧
      ∀ respaced : String, Spaced (arguments.map fun a => a.display.toList) respaced.toList →
        parseAll respaced = .ok arguments) ∧
    (∀ a : Argument, a.description? = none →
      ((∃ text, parse text = .ok a) ↔ parse a.display = .ok a)) ∧
    (∀ text text' a b, parse text = .ok a → parse text' = .ok b → a.display = b.display → a = b) ∧
    (∀ text : String, (∃ error, parseAll text = .error error) ↔
      ∃ word ∈ words text.toList, ∃ error, parse (String.ofList word) = .error error) ∧
    (∀ text error, parseAll text = .error error → error ≠ .emptyToken ∧
      ∃ before word after, words text.toList = before ++ word :: after ∧
        (∀ other ∈ before, ∃ a, parse (String.ofList other) = .ok a) ∧
        parse (String.ofList word) = .error error) ∧
    (∀ text, parseAll text = .ok [] ↔ isBlankText text = true) ∧
    ∀ (s : List Char) (ws : List (List Char)), words s = ws ↔
      Spaced ws s ∧ ∀ word ∈ ws, word ≠ [] ∧ ∀ c ∈ word, isBlank c = false := by
  refine ⟨fun text arguments read => ⟨fun a mem => ?_, fun _ => parseAll_of_spaced read⟩,
    fun a _ => ⟨?_, fun read => ⟨_, read⟩⟩, ?_, fun _ => exists_error_iff,
    fun text error refused => ⟨ne_emptyToken_of_parseAll refused, parseAll_eq_error_iff.mp refused⟩,
    fun _ => parseAll_eq_nil_iff, fun _ _ => words_eq_iff⟩
  · obtain ⟨proper, solid⟩ := (isToken_of_parseAll read mem).solid_display
    obtain ⟨word, -, accepted⟩ := exists_item_of_mapM read mem
    exact ⟨proper, solid, (parse_eq_ok_iff_denotes.mp accepted).description?_eq_none⟩
  · rintro ⟨text, read⟩
    exact parse_display_of_parse read
  · intro text text' a b read read' same
    have back := parse_display_of_parse read
    rw [same, parse_display_of_parse read'] at back
    exact (Except.ok.inj back).symm

/-- An example: a pattern with a bracket in a name and a short spelling of a kind. -/
def gift : List Argument := [.literal "give", .typed "who<x>" .integer none, .literal "all"]

/-- The example is read back from what its arguments are written as, with wide blanks and line ends between
them, and a pattern of two bad words is refused for the first one. -/
theorem gift_respaced : parseAll " give <who<x>:INT>\u2003all" = .ok gift ∧
    parseAll "\tgive\u3000<who<x>:integer> \n all" = .ok gift ∧
    (∀ a ∈ gift, a.description? = none) ∧
    parse (Argument.typed "who<x>" .integer none).display = .ok (.typed "who<x>" .integer none) ∧
    (∀ text b, parse text = .ok b → b.display = "<who<x>:integer>" → b = .typed "who<x>" .integer none) ∧
    ∃ before word after, words "give <x:vector> a:b".toList = before ++ word :: after ∧
      parse (String.ofList word) = .error (.unknownKind "vector") ∧
      ArgumentError.unknownKind "vector" ≠ .emptyToken := by
  obtain ⟨back, image, injective, -, refused, -⟩ := patterns_round_trip
  have read : parseAll " give <who<x>:INT>\u2003all" = .ok gift := by decide
  have written : words "\tgive\u3000<who<x>:integer> \n all".toList =
      gift.map fun a => a.display.toList := by
    decide
  have placeholder : parse "<who<x>:Int>" = .ok (.typed "who<x>" .integer none) := by decide
  have failed : parseAll "give <x:vector> a:b" = .error (.unknownKind "vector") := by decide
  obtain ⟨plain, others⟩ := back _ _ read
  obtain ⟨nonempty, before, word, after, split, -, first⟩ := refused _ _ failed
  refine ⟨read, others _ (written ▸ spaced_words _), fun a mem => (plain a mem).2.2,
    (image _ rfl).mp ⟨_, placeholder⟩, ?_, before, word, after, split, first, nonempty⟩
  intro text b readB same
  exact injective _ _ _ _ readB placeholder same

end Dispatch.Argument
