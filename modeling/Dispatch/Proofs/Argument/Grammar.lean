import Dispatch.Failure
import Dispatch.Proofs.Text.Lowercase
import Dispatch.Proofs.Token

/-!
# The grammar of arguments

A word denotes a keyword if it has no reserved characters, and a placeholder if it is a name, a colon and
the spelling of a kind between angle brackets. The reader accepts exactly the words of this grammar. Of any
other word it makes the first objection that applies, in a fixed order.

## Main definitions

* `Kind.spellings` — how a kind may be spelled, in lowercase
* `Argument.Denotes` — the grammar
* `ArgumentError.Objects`, `ArgumentError.rank` — what is objected to in a word, and in which order

## Main results

* `Kind.parse_eq_ok_iff_fold` — a kind is spelled in any case of ASCII letters, and in no other way
* `Argument.Denotes.unique` — a word denotes one argument at most
* `Argument.parse_follows_grammar` — the reader follows the grammar
-/

set_option autoImplicit false

namespace Dispatch

open Text

/-! ### Kinds -/

namespace Kind

variable {kind : Kind} {spelling : List Char}

/-- How a kind may be spelled, in lowercase. -/
def spellings : Kind → List String
  | .word => ["word"]
  | .string => ["string"]
  | .greedy => ["greedy"]
  | .integer => ["integer", "int"]
  | .double => ["double", "float"]
  | .boolean => ["boolean", "bool"]
  | .entity => ["entity"]
  | .player => ["player"]

theorem ofSpelling?_eq_some_iff {text : String} :
    ofSpelling? text = some kind ↔ text ∈ kind.spellings := by
  constructor
  · intro known
    unfold ofSpelling? at known
    split at known <;> cases known <;> decide
  · intro mem
    cases kind <;> simp only [spellings, List.mem_cons, List.not_mem_nil, or_false] at mem
    case integer | double | boolean =>
      rcases mem with rfl | rfl <;> rfl
    all_goals
      subst mem
      rfl

theorem parse_eq_ok_iff :
    Kind.parse spelling = .ok kind ↔ String.ofList (lowercase spelling) ∈ kind.spellings := by
  rw [← ofSpelling?_eq_some_iff, Kind.parse]
  cases ofSpelling? (String.ofList (lowercase spelling)) <;> simp

theorem parse_eq_error_iff {error : ArgumentError} : Kind.parse spelling = .error error ↔
    (∀ kind : Kind, String.ofList (lowercase spelling) ∉ kind.spellings) ∧
      error = .unknownKind (String.ofList (lowercase spelling)) := by
  have unknown : ofSpelling? (String.ofList (lowercase spelling)) = none ↔
      ∀ kind : Kind, String.ofList (lowercase spelling) ∉ kind.spellings := by
    rw [Option.eq_none_iff_forall_ne_some]
    exact forall_congr' fun kind => not_congr ofSpelling?_eq_some_iff
  rw [← unknown, Kind.parse]
  cases ofSpelling? (String.ofList (lowercase spelling)) <;> simp [eq_comm]

/-- No spelling has other characters than lowercase letters, and none has a k. -/
theorem plain_of_mem_spellings {accepted : String} (mem : accepted ∈ kind.spellings) :
    ∀ c ∈ accepted.toList, isPlainLetter c = true := by
  have all : ∀ accepted ∈ kind.spellings, accepted.toList.all isPlainLetter = true := by
    cases kind <;> decide
  exact List.all_eq_true.mp (all accepted mem)

/-- A kind is spelled in any case of ASCII letters. -/
theorem parse_eq_ok_iff_fold : Kind.parse spelling = .ok kind ↔
    ∃ accepted ∈ kind.spellings, spelling.map Char.toLower = accepted.toList.map Char.toLower := by
  have lower : ∀ accepted ∈ kind.spellings, accepted.toList.map Char.toLower = accepted.toList := by
    cases kind <;> decide
  have spelled : ∀ accepted ∈ kind.spellings,
      (String.ofList (lowercase spelling) = accepted ↔
        spelling.map Char.toLower = accepted.toList.map Char.toLower) := by
    intro accepted mem
    rw [lower accepted mem, ← lowercase_eq_iff (plain_of_mem_spellings mem), ← String.toList_inj,
      String.toList_ofList]
  rw [parse_eq_ok_iff]
  constructor
  · intro mem
    exact ⟨_, mem, (spelled _ mem).mp rfl⟩
  · rintro ⟨accepted, mem, same⟩
    exact (spelled accepted mem).mpr same ▸ mem

/-- No other than an ASCII text spells a kind. -/
theorem ascii_of_parse (known : Kind.parse spelling = .ok kind) : ∀ c ∈ spelling, c.toNat < 128 := by
  refine ascii_of_lowercase ?_
  simpa using plain_of_mem_spellings (parse_eq_ok_iff.mp known)

end Kind

namespace Argument

variable {a b : Argument} {name name' spelling spelling' inner word : List Char}
  {error other : ArgumentError}

/-! ### What a word denotes -/

/-- The word of a placeholder. -/
def bracketed (name spelling : List Char) : List Char := '<' :: (name ++ ':' :: spelling ++ ['>'])

/-- The argument that a word denotes. -/
inductive Denotes : List Char → Argument → Prop
  /-- a keyword is any word without brackets and colons -/
  | literal {word : List Char} (proper : word ≠ [])
      (free : ∀ c ∈ word, c ≠ '<' ∧ c ≠ '>' ∧ c ≠ ':') :
      Denotes word (.literal (String.ofList word))
  /-- a placeholder has a name without colons, and its kind is spelled in lowercase once the whole
  spelling is lowercased -/
  | placeholder {name spelling : List Char} {kind : Kind} (proper : name ≠ []) (free : ':' ∉ name)
      (known : String.ofList (lowercase spelling) ∈ kind.spellings) :
      Denotes (bracketed name spelling) (.typed (String.ofList name) kind none)

/-- Name and spelling are divided by the first colon, so a word determines both. -/
theorem bracketed_inj (free : ':' ∉ name) (free' : ':' ∉ name')
    (same : bracketed name spelling = bracketed name' spelling') :
    name = name' ∧ spelling = spelling' := by
  have inside : name ++ ':' :: spelling = name' ++ ':' :: spelling' :=
    List.append_cancel_right (List.cons.inj same).2
  have divided := splitColon?_eq_some_iff.mpr ⟨inside, free'⟩
  rw [splitColon?_eq_some_iff.mpr ⟨rfl, free⟩] at divided
  obtain ⟨rfl, rfl⟩ := Prod.mk.inj (Option.some_inj.mp divided)
  exact ⟨rfl, rfl⟩

theorem any_isReserved_eq_false_iff :
    word.any isReserved = false ↔ ∀ c ∈ word, c ≠ '<' ∧ c ≠ '>' ∧ c ≠ ':' := by
  simp [isReserved, and_assoc]

theorem parseTrimmed_eq_ok_iff_denotes : parseTrimmed word = .ok a ↔ Denotes word a := by
  rw [parseTrimmed_eq_ok_iff, any_isReserved_eq_false_iff]
  constructor
  · rintro (⟨proper, free, rfl⟩ | ⟨name, spelling, kind, rfl, proper, free, known, rfl⟩)
    · exact .literal proper free
    · exact .placeholder proper free (Kind.parse_eq_ok_iff.mp known)
  · rintro (⟨proper, free⟩ | ⟨proper, free, known⟩)
    · exact .inl ⟨proper, free, rfl⟩
    · exact .inr ⟨_, _, _, rfl, proper, free, Kind.parse_eq_ok_iff.mpr known, rfl⟩

/-- A word denotes one argument at most. -/
theorem Denotes.unique (first : Denotes word a) (second : Denotes word b) : a = b :=
  Except.ok.inj ((parseTrimmed_eq_ok_iff_denotes.mpr first).symm.trans
    (parseTrimmed_eq_ok_iff_denotes.mpr second))

/-! ### What is objected to -/

end Argument

namespace ArgumentError

open Argument

/-- An objection applies to a word. Several may apply to the same word. -/
def Objects (word : List Char) : ArgumentError → Prop
  | .emptyToken => word = []
  | .malformedLiteral token => token.toList = word ∧ ¬ ∃ inner, word = '<' :: inner
  | .unterminatedPlaceholder token => token.toList = word ∧ ¬ ∃ inner, word = '<' :: (inner ++ ['>'])
  | .missingKind token => token.toList = word ∧ ':' ∉ word
  | .missingName token => token.toList = word ∧ ∃ rest, word = '<' :: ':' :: rest
  | .unknownKind lowered => ∃ name spelling, word = bracketed name spelling ∧ ':' ∉ name ∧
      lowered = String.ofList (lowercase spelling) ∧ ∀ kind : Kind, lowered ∉ kind.spellings

/-- The place of an objection in the order in which they are made. -/
def rank : ArgumentError → Nat
  | .emptyToken => 0
  | .malformedLiteral _ => 1
  | .unterminatedPlaceholder _ => 2
  | .missingKind _ => 3
  | .missingName _ => 4
  | .unknownKind _ => 5

/-- An objection applies, and none that comes before it. -/
def IsFirst (word : List Char) (error : ArgumentError) : Prop :=
  error.Objects word ∧ ∀ other : ArgumentError, other.rank < error.rank → ¬ other.Objects word

variable {word : List Char} {error other : ArgumentError}

/-- Of each rank at most one objection applies. -/
theorem Objects.eq_of_rank (first : error.Objects word) (second : other.Objects word)
    (same : error.rank = other.rank) : error = other := by
  cases error <;> cases other <;> simp only [rank, Nat.reduceEqDiff, reduceCtorEq] at same
  case emptyToken.emptyToken => rfl
  case unknownKind.unknownKind =>
    obtain ⟨name, spelling, rfl, free, rfl, -⟩ := first
    obtain ⟨name', spelling', whole, free', rfl, -⟩ := second
    rw [(bracketed_inj free free' whole).2]
  all_goals
    -- The other objections quote the word.
    rw [String.toList_inj.mp (first.1.trans second.1.symm)]

theorem IsFirst.unique (first : error.IsFirst word) (second : other.IsFirst word) : error = other := by
  refine first.1.eq_of_rank second.1 (Nat.le_antisymm ?_ ?_)
  · exact Nat.not_lt.mp fun before => first.2 other before second.1
  · exact Nat.not_lt.mp fun before => second.2 error before first.1

end ArgumentError

namespace Argument

variable {a b : Argument} {name name' spelling spelling' inner word : List Char}
  {error other : ArgumentError}

theorem splitColon?_eq_none_iff : splitColon? word = none ↔ ':' ∉ word := by
  induction word with
  | nil => simp [splitColon?]
  | cons c word ih =>
    rw [splitColon?]
    by_cases colon : c = ':'
    · simp [colon]
    · simp [colon, ih, Ne.symm colon]

/-- A word in brackets is not empty, and it lacks neither of the brackets. -/
theorem not_objects_of_closed {body : List Char} (before : other.rank < 3) :
    ¬ other.Objects ('<' :: (body ++ ['>'])) := by
  cases other with
  | emptyToken => exact List.cons_ne_nil _ _
  | malformedLiteral token => exact fun applies => applies.2 ⟨_, rfl⟩
  | unterminatedPlaceholder token => exact fun applies => applies.2 ⟨body, rfl⟩
  | _ => simp [ArgumentError.rank] at before

/-- The error behind an opening bracket is the first objection to the whole word. -/
theorem isFirst_of_parsePlaceholder
    (failed : parsePlaceholder (String.ofList ('<' :: inner)) inner = .error error) :
    error.IsFirst ('<' :: inner) := by
  rw [parsePlaceholder] at failed
  split at failed
  · rename_i body closed
    obtain rfl := splitLast?_eq_some_iff.mp closed
    split at failed
    · rename_i undivided
      obtain rfl := Except.error.inj failed
      rw [splitColon?_eq_none_iff] at undivided
      exact ⟨⟨String.toList_ofList, by simpa using undivided⟩, fun other => not_objects_of_closed⟩
    · rename_i spelling divided
      obtain rfl := Except.error.inj failed
      obtain ⟨rfl, -⟩ := splitColon?_eq_some_iff.mp divided
      refine ⟨⟨String.toList_ofList, _, rfl⟩, ?_⟩
      intro other before
      rcases Nat.lt_or_ge other.rank 3 with early | late
      · exact not_objects_of_closed early
      · cases other with
        | missingKind token => simp [ArgumentError.Objects]
        | _ => simp [ArgumentError.rank] at before late
    · rename_i name spelling proper divided
      obtain ⟨rfl, free⟩ := splitColon?_eq_some_iff.mp divided
      have unknown : Kind.parse spelling = .error error := by
        cases read : Kind.parse spelling with
        | error cause => simpa [read, bind, Except.bind] using failed
        | ok kind => simp [read, bind, Except.bind, pure, Except.pure] at failed
      obtain ⟨foreign, rfl⟩ := Kind.parse_eq_error_iff.mp unknown
      refine ⟨⟨name, spelling, rfl, free, rfl, foreign⟩, ?_⟩
      intro other before
      rcases Nat.lt_or_ge other.rank 3 with early | late
      · exact not_objects_of_closed early
      · cases other with
        | missingKind token => simp [ArgumentError.Objects]
        | missingName token =>
          -- A name that is not empty would start with the colon.
          rintro ⟨-, rest, whole⟩
          obtain ⟨c, others, rfl⟩ := List.exists_cons_of_ne_nil proper
          obtain rfl : c = ':' := by simpa using (List.cons.inj (List.cons.inj whole).2).1
          exact free List.mem_cons_self
        | _ => simp [ArgumentError.rank] at before late
  · rename_i unended
    obtain rfl := Except.error.inj failed
    have unclosed : ¬ ∃ body, '<' :: inner = '<' :: (body ++ ['>']) := by
      rintro ⟨body, whole⟩
      exact unended body (splitLast?_eq_some_iff.mpr (List.cons.inj whole).2)
    refine ⟨⟨String.toList_ofList, unclosed⟩, ?_⟩
    intro other before
    cases other with
    | emptyToken => exact List.cons_ne_nil _ _
    | malformedLiteral token => exact fun applies => applies.2 ⟨_, rfl⟩
    | _ => simp [ArgumentError.rank] at before

/-- The error of a word that is not read is the first objection to it. -/
theorem isFirst_of_parseTrimmed (failed : parseTrimmed word = .error error) : error.IsFirst word := by
  unfold parseTrimmed at failed
  split at failed
  · obtain rfl := Except.error.inj failed
    exact ⟨rfl, fun other before => absurd before (Nat.not_lt_zero _)⟩
  · exact isFirst_of_parsePlaceholder failed
  · rename_i proper bare
    split at failed
    · obtain rfl := Except.error.inj failed
      refine ⟨⟨String.toList_ofList, fun ⟨inner, opened⟩ => bare inner opened⟩, ?_⟩
      intro other before applies
      cases other with
      | emptyToken => exact proper applies
      | _ => simp [ArgumentError.rank] at before
    · simp at failed

theorem parseTrimmed_eq_error_iff : parseTrimmed word = .error error ↔
    (∀ argument, ¬ Denotes word argument) ∧ error.IsFirst word := by
  constructor
  · intro failed
    refine ⟨fun argument denotes => ?_, isFirst_of_parseTrimmed failed⟩
    rw [parseTrimmed_eq_ok_iff_denotes.mpr denotes] at failed
    simp at failed
  · rintro ⟨foreign, first⟩
    cases read : parseTrimmed word with
    | ok argument => exact absurd (parseTrimmed_eq_ok_iff_denotes.mp read) (foreign argument)
    | error cause => rw [(isFirst_of_parseTrimmed read).unique first]

/-! ### Reading -/

theorem parse_eq_ok_iff_denotes {text : String} :
    parse text = .ok a ↔ Denotes (trim text.toList) a :=
  parseTrimmed_eq_ok_iff_denotes

/-- Trimming a text first makes no difference to what is read, nor to what is objected to. -/
theorem parse_trim (text : String) : parse (String.ofList (trim text.toList)) = parse text := by
  rw [parse, parse, String.toList_ofList, trim_trim]

/-- Reading accepts exactly the texts that denote an argument once they are trimmed, and answers with what
they denote; to any other text it makes the first objection that applies. A word denotes one argument at
most and is divided in one way. A kind may be spelled in any case of ASCII letters, and no text with other
characters spells one. -/
theorem parse_follows_grammar :
    (∀ (text : String) (a : Argument), parse text = .ok a ↔ Denotes (trim text.toList) a) ∧
    (∀ (text : String) (error : ArgumentError), parse text = .error error ↔
      (∀ a, ¬ Denotes (trim text.toList) a) ∧ error.Objects (trim text.toList) ∧
        ∀ other : ArgumentError, other.rank < error.rank → ¬ other.Objects (trim text.toList)) ∧
    (∀ text : String, (∀ a, ¬ Denotes (trim text.toList) a) →
      ∃ error, parse text = .error error ∧ (Failure.argument error).category = .invalidArgument) ∧
    (∀ text : String, parse (String.ofList (trim text.toList)) = parse text) ∧
    (∀ word a b, Denotes word a → Denotes word b → a = b) ∧
    (∀ name spelling name' spelling', ':' ∉ name → ':' ∉ name' →
      bracketed name spelling = bracketed name' spelling' → name = name' ∧ spelling = spelling') ∧
    (∀ (spelling : List Char) (kind : Kind), Kind.parse spelling = .ok kind ↔
      ∃ accepted ∈ kind.spellings, spelling.map Char.toLower = accepted.toList.map Char.toLower) ∧
    ∀ (spelling : List Char) (kind : Kind), String.ofList (lowercase spelling) ∈ kind.spellings →
      ∀ c ∈ spelling, c.toNat < 128 := by
  refine ⟨fun text a => parse_eq_ok_iff_denotes, fun text error => parseTrimmed_eq_error_iff, ?_,
    parse_trim, fun word a b => Denotes.unique, fun _ _ _ _ => bracketed_inj,
    fun spelling kind => Kind.parse_eq_ok_iff_fold, ?_⟩
  · intro text foreign
    cases read : parse text with
    | ok a => exact absurd (parse_eq_ok_iff_denotes.mp read) (foreign a)
    | error error => exact ⟨error, rfl, rfl⟩
  · intro spelling kind mem
    exact Kind.ascii_of_parse (Kind.parse_eq_ok_iff.mpr mem)

/-- A placeholder is read whose name has brackets and whose kind has a capital letter, and its word denotes
nothing else and is divided nowhere else. To a word that is not closed it is not objected that it has no
name, although that applies too. -/
theorem parse_bracketed_name :
    parse "\u3000<a<b>:Int>\n" = .ok (.typed "a<b>" .integer none) ∧
    ¬ Denotes "<a<b>:Int>".toList (.literal "<a<b>:Int>") ∧
    (¬ ∃ spelling, bracketed "a<b".toList spelling = "<a<b>:Int>".toList) ∧
    (∀ c ∈ "Int".toList, c.toNat < 128) ∧
    (∃ error, parse "<:x" = .error error ∧ (Failure.argument error).category = .invalidArgument ∧
      error.message = "unterminated placeholder '<:x'") ∧
    (ArgumentError.missingName "<:x").Objects "<:x".toList := by
  obtain ⟨read, refused, failed, -, unique, divided, -, ascii⟩ := parse_follows_grammar
  have word : trim "\u3000<a<b>:Int>\n".toList = "<a<b>:Int>".toList := by decide
  have denotes : Denotes "<a<b>:Int>".toList (.typed "a<b>" .integer none) :=
    @Denotes.placeholder "a<b>".toList "Int".toList .integer (by decide) (by decide) (by decide)
  have unclosed : parse "<:x" = .error (.unterminatedPlaceholder "<:x") := by decide
  obtain ⟨error, answer, invalid⟩ := failed "<:x" ((refused _ _).mp unclosed).1
  refine ⟨(read _ _).mpr (word ▸ denotes), fun keyword => ?_, ?_, ?_, ⟨error, answer, invalid, ?_⟩,
    rfl, ⟨['x'], rfl⟩⟩
  · have same := unique _ _ _ keyword denotes
    simp at same
  · rintro ⟨spelling, whole⟩
    have names := (divided _ _ "a<b>".toList "Int".toList (by decide) (by decide) whole).1
    exact absurd names (by decide)
  · exact ascii "Int".toList .integer (by decide)
  · rw [Except.error.inj (answer.symm.trans unclosed)]
    decide

end Argument

end Dispatch
