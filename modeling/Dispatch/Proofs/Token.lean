import Dispatch.Argument.Token
import Dispatch.Proofs.Sequence
import Dispatch.Proofs.Text.Words

/-!
# The arguments that patterns hold

An argument that was read from a pattern is a keyword without blanks, brackets and colons, or a placeholder
whose name has neither blanks nor colons, and nothing of it is empty. Every such argument is read back from
the way in which it is written, its description aside.

## Main definitions

* `Argument.Position.argument` — the argument of a position that has no description
* `Argument.IsToken` — an argument of the kind that patterns hold
* `Argument.InPatterns` — an argument that some pattern holds, its description aside

## Main results

* `Argument.parseTrimmed_eq_ok_iff` — which texts without blanks at their ends are read, and as what
* `Argument.IsToken.parse_display` — a token is read back from what it is written as
* `Argument.inPatterns_iff` — patterns hold the tokens
-/

set_option autoImplicit false

namespace Dispatch

/-- The canonical name of a kind is one of its spellings. -/
theorem Kind.ofSpelling?_name (kind : Kind) : Kind.ofSpelling? kind.name = some kind := by
  cases kind <;> rfl

/-- A kind is read from its canonical name. -/
@[simp] theorem Kind.parse_name (kind : Kind) : Kind.parse kind.name.toList = .ok kind := by
  cases kind <;> rfl

open Text

namespace Argument

/-! ### Dividing a text -/

variable {a b : Argument} {s start name spelling inner token : List Char} {c : Char}

theorem splitLast?_eq_some_iff : splitLast? s = some (start, c) ↔ s = start ++ [c] := by
  induction s using splitLast?.induct generalizing start with
  | case1 => simp [splitLast?]
  | case2 d =>
    cases start <;> simp [splitLast?]
  | case3 d e rest ih =>
    rw [splitLast?, Option.map_eq_some_iff]
    constructor
    · rintro ⟨⟨init, last⟩, found, same⟩
      obtain ⟨rfl, rfl⟩ := Prod.mk.inj same
      rw [ih.mp found, List.cons_append]
    · intro whole
      cases start with
      | nil => simp at whole
      | cons f init =>
        obtain ⟨rfl, rest⟩ := List.cons.inj whole
        exact ⟨(init, c), ih.mpr rest, rfl⟩

theorem splitColon?_eq_some_iff :
    splitColon? s = some (name, spelling) ↔ s = name ++ ':' :: spelling ∧ ':' ∉ name := by
  induction s generalizing name with
  | nil => simp [splitColon?]
  | cons d s ih =>
    rw [splitColon?]
    split
    · rename_i colon
      subst colon
      cases name with
      | nil => simp [eq_comm]
      | cons e before =>
        -- A name cannot start with the colon that was found.
        refine ⟨fun found => by simp at found, fun ⟨whole, free⟩ => ?_⟩
        obtain ⟨rfl, -⟩ := List.cons.inj whole
        simp at free
    · rename_i other
      rw [Option.map_eq_some_iff]
      constructor
      · rintro ⟨⟨before, behind⟩, found, same⟩
        obtain ⟨rfl, rfl⟩ := Prod.mk.inj same
        obtain ⟨rfl, free⟩ := ih.mp found
        exact ⟨rfl, by simp [free, Ne.symm other]⟩
      · rintro ⟨whole, free⟩
        cases name with
        | nil => exact absurd (List.cons.inj whole).1 other
        | cons e before =>
          obtain ⟨rfl, rest⟩ := List.cons.inj whole
          have free' : ':' ∉ before := fun mem => free (List.mem_cons_of_mem _ mem)
          exact ⟨(before, spelling), ih.mpr ⟨rest, free'⟩, rfl⟩

/-! ### Reading -/

/-- What follows an opening bracket is read if a name that is not empty, the first colon, the spelling of a
kind and the closing bracket follow one another. -/
theorem parsePlaceholder_eq_ok_iff {text : String} : parsePlaceholder text inner = .ok a ↔
    ∃ name spelling kind, inner = name ++ ':' :: spelling ++ ['>'] ∧ name ≠ [] ∧ ':' ∉ name ∧
      Kind.parse spelling = .ok kind ∧ a = typed (String.ofList name) kind none := by
  constructor
  · intro parsed
    rw [parsePlaceholder] at parsed
    split at parsed
    · rename_i body closed
      split at parsed
      · simp at parsed
      · simp at parsed
      · rename_i name spelling proper divided
        obtain ⟨rfl, free⟩ := splitColon?_eq_some_iff.mp divided
        cases known : Kind.parse spelling with
        | error error => simp [known, bind, Except.bind] at parsed
        | ok kind =>
          have read : a = typed (String.ofList name) kind none := by
            simpa [known, bind, Except.bind, pure, Except.pure, eq_comm] using parsed
          exact ⟨name, spelling, kind, splitLast?_eq_some_iff.mp closed, proper, free, known, read⟩
    · simp at parsed
  · rintro ⟨name, spelling, kind, rfl, proper, free, known, rfl⟩
    have closed : splitLast? (name ++ ':' :: spelling ++ ['>']) = some (name ++ ':' :: spelling, '>') :=
      splitLast?_eq_some_iff.mpr rfl
    have divided : splitColon? (name ++ ':' :: spelling) = some (name, spelling) :=
      splitColon?_eq_some_iff.mpr ⟨rfl, free⟩
    obtain ⟨d, rest, rfl⟩ := List.exists_cons_of_ne_nil proper
    simp only [parsePlaceholder, closed, divided, known]
    rfl

/-- A text without blanks at its ends is read as itself if it has no reserved characters, and as a
placeholder if it is one. -/
theorem parseTrimmed_eq_ok_iff : parseTrimmed token = .ok a ↔
    token ≠ [] ∧ token.any isReserved = false ∧ a = literal (String.ofList token) ∨
    ∃ name spelling kind, token = '<' :: (name ++ ':' :: spelling ++ ['>']) ∧ name ≠ [] ∧
      ':' ∉ name ∧ Kind.parse spelling = .ok kind ∧ a = typed (String.ofList name) kind none := by
  unfold parseTrimmed
  split
  · simp
  · rename_i inner
    rw [parsePlaceholder_eq_ok_iff]
    simp [isReserved]
  · rename_i proper keyword
    have bare : ∀ rest, token ≠ '<' :: rest := keyword
    have nonempty : token ≠ [] := proper
    split
    · rename_i reserved
      simp [reserved, bare]
    · rename_i free
      simp [free, bare, nonempty, eq_comm]

/-! ### Tokens -/

/-- The argument of a position that has no description. -/
def Position.argument : Position → Argument
  | .keyword text => literal text
  | .placeholder name kind => typed name kind none

@[simp] theorem Position.position_argument (p : Position) : p.argument.position = p := by
  cases p <;> rfl

theorem display_argument_position (a : Argument) : a.position.argument.display = a.display := by
  cases a <;> rfl

/-- An argument of the kind that patterns hold: a keyword without blanks, brackets and colons, or a
placeholder whose name has neither blanks nor colons. The keyword and the name are not empty. -/
def IsToken : Argument → Prop
  | literal text => text.toList ≠ [] ∧ ∀ c ∈ text.toList, isBlank c = false ∧ isReserved c = false
  | typed name _ _ => name.toList ≠ [] ∧ ∀ c ∈ name.toList, isBlank c = false ∧ c ≠ ':'

instance : DecidablePred IsToken
  | literal text =>
    decidable_of_iff (text.toList ≠ [] ∧ text.toList.all fun c => !isBlank c && !isReserved c)
      (by simp [IsToken])
  | typed name _ _ =>
    decidable_of_iff (name.toList ≠ [] ∧ name.toList.all fun c => !isBlank c && c ≠ ':')
      (by simp [IsToken])

theorem IsToken.congr (same : a.SamePosition b) : a.IsToken ↔ b.IsToken := by
  cases a <;> cases b <;> simp [SamePosition, position] at same
  · rw [same]
  · rw [same.1]
    exact Iff.rfl

theorem toList_display_typed (text : String) (kind : Kind) (description : Option String) :
    (typed text kind description).display.toList =
      '<' :: (text.toList ++ ':' :: kind.name.toList ++ ['>']) := by
  simp [display]

/-- What a token is written as is not empty and has no blanks. -/
theorem IsToken.solid_display (token : a.IsToken) :
    a.display.toList ≠ [] ∧ ∀ c ∈ a.display.toList, isBlank c = false := by
  cases a with
  | literal text => exact ⟨token.1, fun c mem => (token.2 c mem).1⟩
  | typed text kind description =>
    have solidKind : kind.name.toList.all (!isBlank ·) := by
      cases kind <;> decide
    have solidName : ∀ c ∈ text.toList, isBlank c = false := fun c mem => (token.2 c mem).1
    rw [toList_display_typed]
    refine ⟨List.cons_ne_nil _ _, ?_⟩
    simp only [List.forall_mem_cons, List.forall_mem_append]
    exact ⟨by decide, ⟨solidName, by decide, by simpa using solidKind⟩, by decide, List.forall_mem_nil _⟩

/-- A token is read back from what it is written as, without a description. -/
theorem IsToken.parse_display (token : a.IsToken) : parse a.display = .ok a.position.argument := by
  obtain ⟨proper, solid⟩ := token.solid_display
  rw [parse, trim_of_solid solid, parseTrimmed_eq_ok_iff]
  cases a with
  | literal text =>
    refine Or.inl ⟨proper, ?_, by simp [position, Position.argument, display]⟩
    rw [List.any_eq_false]
    intro c mem
    simp [(token.2 c mem).2]
  | typed text kind description =>
    refine Or.inr ⟨text.toList, kind.name.toList, kind, toList_display_typed text kind description,
      token.1, fun mem => (token.2 ':' mem).2 rfl, kind.parse_name, ?_⟩
    simp [position, Position.argument]

/-- Whatever is read from a text without blanks is a token. -/
theorem isToken_of_parse {text : String} (solid : ∀ c ∈ text.toList, isBlank c = false)
    (parsed : parse text = .ok a) : a.IsToken := by
  rw [parse, trim_of_solid solid, parseTrimmed_eq_ok_iff] at parsed
  rcases parsed with ⟨proper, free, rfl⟩ | ⟨name, spelling, kind, whole, proper, free, -, rfl⟩
  · rw [IsToken, String.toList_ofList]
    rw [List.any_eq_false] at free
    exact ⟨proper, fun c mem => ⟨solid c mem, by simpa using free c mem⟩⟩
  · rw [IsToken, String.toList_ofList]
    refine ⟨proper, fun c mem => ⟨solid c ?_, fun colon => free (colon ▸ mem)⟩⟩
    rw [whole]
    simp [mem]

/-- An argument that some pattern holds, its description aside. -/
def InPatterns (a : Argument) : Prop :=
  ∃ text arguments, parseAll text = .ok arguments ∧ ∃ b ∈ arguments, b.SamePosition a

/-- Patterns hold the tokens and nothing else. -/
theorem inPatterns_iff : a.InPatterns ↔ a.IsToken := by
  constructor
  · rintro ⟨text, arguments, parsed, b, mem, same⟩
    -- The argument was read from a word, and words have no blanks.
    obtain ⟨word, among, read⟩ := exists_item_of_mapM parsed mem
    refine (IsToken.congr same).mp (isToken_of_parse ?_ read)
    rw [String.toList_ofList]
    exact (solid_of_mem_words among).2
  · intro token
    obtain ⟨proper, solid⟩ := token.solid_display
    refine ⟨a.display, [a.position.argument], ?_, a.position.argument, List.mem_singleton_self _,
      a.position.position_argument⟩
    rw [parseAll, words_of_solid proper solid, mapM_eq_ok_iff]
    refine .cons ?_ .nil
    rw [String.ofList_toList]
    exact token.parse_display

end Argument

end Dispatch
