import Dispatch.Json.Basic
import Mathlib.Data.List.Forall2

/-!
# JSON values and what they are written as

Nothing is lost when a value is written. Every value is written so that its text tells where it ends, whatever
follows: a quoted text ends at the first quote that is not escaped, and an item of an array or of an object is
followed by a comma or by a new line. So the text of a whole is taken apart into the texts of its parts.

## Main definitions

* `SelfDelimiting` — the code of a value tells the value and where the code ends
* `Json.unescape?` — the character that stands first in a quoted text
* `Json.Alike` — values that are equal but for the order of the members of objects

## Main results

* `Json.induct` — what holds of a value if it holds of those directly inside holds of all values
* `Json.Alike.refl`, `Json.Alike.of_perm` — every value is like itself, whatever the order of its members
* `Json.selfDelimiting_prettyAt` — whatever follows the text of a value, its end can be told
* `Json.pretty_injective` — a value can be told from its text
-/

set_option autoImplicit false

namespace Dispatch

/-- Whatever follows the code of a value, the value and the end of its code can be told. -/
def SelfDelimiting {α : Type} (code : α → List Char) (a : α) : Prop :=
  ∀ b rest rest', code a ++ rest = code b ++ rest' → a = b ∧ rest = rest'

section Delimiting

variable {α : Type} {code : α → List Char}

theorem SelfDelimiting.prepend {a : α} (delimited : SelfDelimiting code a) (start : List Char) :
    SelfDelimiting (fun a => start ++ code a) a := by
  intro b rest rest' same
  rw [List.append_assoc, List.append_assoc, List.append_cancel_left_eq] at same
  exact delimited b rest rest' same

/-- Several codes in a row, up to a character with which no code starts. -/
theorem flatMap_inj {stop : Char} (stops : ∀ a rest rest', code a ++ rest ≠ stop :: rest') {s t : List α}
    {rest rest' : List Char} (delimited : ∀ a ∈ s, SelfDelimiting code a)
    (same : s.flatMap code ++ stop :: rest = t.flatMap code ++ stop :: rest') : s = t ∧ rest = rest' := by
  induction s generalizing t with
  | nil =>
    cases t with
    | nil => exact ⟨rfl, List.tail_eq_of_cons_eq same⟩
    | cons b t =>
      rw [List.flatMap_cons, List.append_assoc] at same
      exact absurd same.symm (stops _ _ _)
  | cons a s ih =>
    cases t with
    | nil =>
      rw [List.flatMap_cons, List.append_assoc] at same
      exact absurd same (stops _ _ _)
    | cons b t =>
      rw [List.flatMap_cons, List.flatMap_cons, List.append_assoc, List.append_assoc] at same
      obtain ⟨rfl, behind⟩ := delimited a List.mem_cons_self _ _ _ same
      obtain ⟨rfl, last⟩ := ih (fun c mem => delimited c (List.mem_cons_of_mem _ mem)) behind
      exact ⟨rfl, last⟩

end Delimiting

namespace Json

variable {α : Type}

/-! ### Recursion -/

/-- What holds of a value if it holds of those directly inside it holds of every value. -/
@[elab_as_elim, induction_eliminator]
theorem induct {motive : Json → Prop} (boolean : ∀ value, motive (boolean value))
    (text : ∀ value, motive (text value))
    (array : ∀ elements, (∀ element ∈ elements, motive element) → motive (array elements))
    (object : ∀ members, (∀ member ∈ members, motive member.2) → motive (object members))
    (json : Json) : motive json :=
  match json with
  | .boolean value => boolean value
  | .text value => text value
  | .array elements => array elements fun element _ => induct boolean text array object element
  | .object members => object members fun member _ => induct boolean text array object member.2
decreasing_by
  all_goals simp_wf
  · have := List.sizeOf_lt_of_mem ‹_›
    omega
  · have inside := List.sizeOf_lt_of_mem ‹_›
    have : sizeOf member = 1 + sizeOf member.1 + sizeOf member.2 := rfl
    omega

theorem prettyElements_eq (depth : Nat) (elements : List Json) :
    prettyElements depth elements = elements.map (prettyAt depth) := by
  induction elements with
  | nil => rfl
  | cons element elements ih => rw [prettyElements, ih, List.map_cons]

theorem prettyMembers_eq (depth : Nat) (members : List (String × Json)) :
    prettyMembers depth members =
      members.map fun member => string member.1 ++ ": " ++ member.2.prettyAt depth := by
  induction members with
  | nil => rfl
  | cons member members ih => rw [prettyMembers, ih, List.map_cons]

/-! ### The order of members -/

/-- Two values are equal but for the order of the members of objects: what is found under a name in the one is
like what is found under it in the other. -/
inductive Alike : Json → Json → Prop where
  | boolean (value : Bool) : Alike (.boolean value) (.boolean value)
  | text (value : String) : Alike (.text value) (.text value)
  | array {elements elements' : List Json} (each : List.Forall₂ Alike elements elements') :
      Alike (.array elements) (.array elements')
  | object {members members' : List (String × Json)}
      (each : ∀ name, Option.Rel Alike (members.lookup name) (members'.lookup name)) :
      Alike (.object members) (.object members')

theorem mem_of_lookup {name : String} {value : Json} {members : List (String × Json)}
    (found : members.lookup name = some value) : (name, value) ∈ members := by
  obtain ⟨before, behind, rfl, -⟩ := List.lookup_eq_some_iff.mp found
  simp

theorem Alike.refl (json : Json) : json.Alike json := by
  induction json with
  | boolean value => exact .boolean value
  | text value => exact .text value
  | array elements ih => exact .array (List.forall₂_same.mpr ih)
  | object members ih =>
    refine .object fun name => ?_
    cases found : members.lookup name with
    | none => exact .none
    | some value => exact .some (ih _ (mem_of_lookup found))

theorem lookup_eq_of_perm {members members' : List (String × Json)} (perm : members.Perm members')
    (distinct : (members.map Prod.fst).Nodup) (name : String) : members.lookup name = members'.lookup name := by
  induction perm with
  | nil => rfl
  | cons member _ ih => rw [List.lookup_cons, List.lookup_cons, ih (List.nodup_cons.mp distinct).2]
  | swap a b rest =>
    have differ : b.1 ≠ a.1 := by
      have := (List.nodup_cons.mp distinct).1
      simp_all
    grind
  | trans first _ ih ih' => exact (ih distinct).trans (ih' ((first.map _).nodup distinct))

/-- An object is like every other one with the same members in another order, as long as no name stands twice. -/
theorem Alike.of_perm {members members' : List (String × Json)} (perm : members.Perm members')
    (distinct : (members.map Prod.fst).Nodup) : (Json.object members).Alike (.object members') := by
  refine .object fun name => ?_
  rw [lookup_eq_of_perm perm distinct]
  cases members'.lookup name with
  | none => exact .none
  | some value => exact .some (refl value)

/-! ### Quoted texts -/

/-- The character that stands first in a quoted text, and what follows it. -/
def unescape? : List Char → Option (Char × List Char)
  | '\\' :: 'u' :: _ :: _ :: high :: low :: rest =>
    some (Char.ofNat (16 * "0123456789abcdef".toList.idxOf high + "0123456789abcdef".toList.idxOf low), rest)
  | '\\' :: 'b' :: rest => some ('\x08', rest)
  | '\\' :: 'f' :: rest => some ('\x0c', rest)
  | '\\' :: 'n' :: rest => some ('\n', rest)
  | '\\' :: 'r' :: rest => some ('\r', rest)
  | '\\' :: 't' :: rest => some ('\t', rest)
  | '\\' :: c :: rest => some (c, rest)
  | '"' :: _ => none
  | c :: rest => some (c, rest)
  | [] => none

/-- The digits of a control character. -/
theorem leftpad_hexDigits : ∀ n < 0x20, List.leftpad 4 '0' (Text.hexDigits n) =
    ['0', '0', Nat.digitChar (n / 16), Nat.digitChar (n % 16)] := by
  decide

theorem idxOf_digitChar : ∀ n < 16, "0123456789abcdef".toList.idxOf (Nat.digitChar n) = n := by
  decide

theorem unescape?_escapedChar (c : Char) (rest : List Char) :
    unescape? (escapedChar c ++ rest) = some (c, rest) := by
  unfold escapedChar
  split_ifs with quote backslash backspace feed line carriage tab control
  · subst quote; rfl
  · subst backslash; rfl
  · subst backspace; rfl
  · subst feed; rfl
  · subst line; rfl
  · subst carriage; rfl
  · subst tab; rfl
  · rw [leftpad_hexDigits _ control]
    simp only [List.cons_append, List.nil_append, unescape?]
    rw [idxOf_digitChar _ (by omega), idxOf_digitChar _ (by omega), Nat.div_add_mod, Char.ofNat_toNat]
  · simp [unescape?, backslash]

theorem selfDelimiting_escapedChar (c : Char) : SelfDelimiting escapedChar c := by
  intro d rest rest' same
  have read := unescape?_escapedChar c rest
  rw [same, unescape?_escapedChar, Option.some_inj, Prod.mk.injEq] at read
  exact ⟨read.1.symm, read.2.symm⟩

/-- No character is written as one that starts with a quote. -/
theorem escapedChar_append_ne (c : Char) (rest rest' : List Char) :
    escapedChar c ++ rest ≠ '"' :: rest' := by
  intro same
  have read := unescape?_escapedChar c rest
  rw [same] at read
  simp [unescape?] at read

theorem toList_string (s : String) : (string s).toList = '"' :: s.toList.flatMap escapedChar ++ ['"'] :=
  String.toList_ofList

/-- A quoted text ends at the first quote that is not escaped. -/
theorem selfDelimiting_string (s : String) : SelfDelimiting (fun s => (string s).toList) s := by
  intro t rest rest' same
  simp only [toList_string, List.cons_append, List.append_assoc, List.cons.injEq, true_and,
    List.nil_append] at same
  obtain ⟨chars, behind⟩ :=
    flatMap_inj escapedChar_append_ne (fun c _ => selfDelimiting_escapedChar c) same
  exact ⟨String.toList_inj.mp chars, behind⟩

/-! ### Blocks -/

theorem toList_newline (depth : Nat) :
    (newline depth).toList = '\n' :: List.replicate (2 * depth) ' ' :=
  String.toList_ofList

/-- The items of a block with a comma in front of each. -/
theorem comma_intercalate {f : α → List Char} {items : List α} (nonempty : items ≠ []) (rest : List Char) :
    ',' :: ([','].intercalate (items.map f) ++ rest) = (items.flatMap fun item => ',' :: f item) ++ rest := by
  induction items with
  | nil => exact absurd rfl nonempty
  | cons item items ih =>
    cases items with
    | nil => simp
    | cons second items =>
      rw [List.flatMap_cons, List.append_assoc, ← ih (List.cons_ne_nil _ _), List.map_cons, List.map_cons,
        List.intercalate_cons_cons]
      simp only [List.append_assoc, List.cons_append, List.nil_append]

theorem toList_block {code : α → String} {items : List α} (nonempty : items ≠ []) (opening closing : String)
    (depth : Nat) :
    (block opening closing depth (items.map code)).toList =
      opening.toList ++
        [','].intercalate (items.map fun item => (newline (depth + 1)).toList ++ (code item).toList) ++
          '\n' :: (List.replicate (2 * depth) ' ' ++ closing.toList) := by
  have lines : (items.map code).isEmpty = false := by simpa using nonempty
  rw [block, lines]
  simp [toList_newline, String.toList_intercalate, Function.comp_def]

section Block

variable {code : α → String} {items : List α} {opening closing : String} {bracket : Char} {depth : Nat}

/-- The first bracket is followed by the second one in a block without items only. -/
theorem block_nil_ne (closes : closing.toList = [bracket]) (visible : bracket ≠ '\n') (nonempty : items ≠ [])
    (rest rest' : List Char) :
    (block opening closing depth []).toList ++ rest ≠
      (block opening closing depth (items.map code)).toList ++ rest' := by
  intro same
  obtain ⟨item, items, rfl⟩ := List.exists_cons_of_ne_nil nonempty
  have brackets : block opening closing depth [] = opening ++ closing := rfl
  simp only [brackets, toList_block nonempty, String.toList_append, closes, List.append_assoc,
    List.append_cancel_left_eq] at same
  have lines := congrArg (List.cons ',') same
  rw [comma_intercalate nonempty, List.flatMap_cons, toList_newline] at lines
  simp only [List.cons_append, List.nil_append, List.cons.injEq, true_and] at lines
  exact visible lines.1

/-- An item of a block ends with a comma or with a line that is followed by the closing bracket. -/
theorem selfDelimiting_block (each : ∀ item ∈ items, SelfDelimiting (fun item => (code item).toList) item)
    (closes : closing.toList = [bracket]) (visible : bracket ≠ '\n') :
    SelfDelimiting (fun items => (block opening closing depth (items.map code)).toList) items := by
  intro items' rest rest' same
  by_cases empty : items = []
  · subst empty
    by_cases empty' : items' = []
    · subst empty'
      exact ⟨rfl, List.append_cancel_left same⟩
    · exact absurd same (block_nil_ne closes visible empty' _ _)
  · by_cases empty' : items' = []
    · subst empty'
      exact absurd same.symm (block_nil_ne closes visible empty _ _)
    · simp only [toList_block empty, toList_block empty', List.append_assoc, List.cons_append,
        List.append_cancel_left_eq] at same
      have lines := congrArg (List.cons ',') same
      rw [comma_intercalate empty, comma_intercalate empty'] at lines
      obtain ⟨rfl, behind⟩ := flatMap_inj (by simp)
        (fun item mem => (each item mem).prepend (',' :: (newline (depth + 1)).toList)) lines
      exact ⟨rfl, List.append_cancel_left (List.append_cancel_left behind)⟩

end Block

/-! ### Values -/

theorem selfDelimiting_member {depth : Nat} {member : String × Json}
    (value : SelfDelimiting (fun json => (prettyAt depth json).toList) member.2) :
    SelfDelimiting (fun member : String × Json =>
      (string member.1 ++ ": " ++ member.2.prettyAt depth).toList) member := by
  intro other rest rest' same
  simp only [String.toList_append, List.append_assoc] at same
  obtain ⟨name, behind⟩ := selfDelimiting_string _ _ _ _ same
  obtain ⟨content, last⟩ := value _ _ _ (List.append_cancel_left behind)
  exact ⟨Prod.ext name content, last⟩

/-- The character with which the text of a value starts. -/
def initial : Json → Char
  | boolean value => if value then 't' else 'f'
  | text _ => '"'
  | array _ => '['
  | object _ => '\x7b'

theorem exists_toList_prettyAt (depth : Nat) (json : Json) :
    ∃ tail, (prettyAt depth json).toList = json.initial :: tail := by
  have bracketed : ∀ opening closing items, ∃ tail,
      (block opening closing depth items).toList = opening.toList ++ tail := by
    intro opening closing items
    rw [block]
    split
    · exact ⟨_, String.toList_append⟩
    · rw [String.append_assoc, String.append_assoc]
      exact ⟨_, String.toList_append⟩
  cases json with
  | boolean value =>
    cases value with
    | false => exact ⟨"alse".toList, by simp [prettyAt, initial]⟩
    | true => exact ⟨"rue".toList, by simp [prettyAt, initial]⟩
  | text value => exact ⟨_, toList_string value⟩
  | array elements => exact bracketed "[" "]" _
  | object members => exact bracketed "\x7b" "\x7d" _

theorem initial_eq {depth : Nat} {json other : Json} {rest rest' : List Char}
    (same : (prettyAt depth json).toList ++ rest = (prettyAt depth other).toList ++ rest') :
    json.initial = other.initial := by
  obtain ⟨tail, text⟩ := exists_toList_prettyAt depth json
  obtain ⟨tail', text'⟩ := exists_toList_prettyAt depth other
  rw [text, text'] at same
  exact List.head_eq_of_cons_eq same

/-- Whatever follows the text of a value, the value and the end of its text can be told. -/
theorem selfDelimiting_prettyAt (depth : Nat) (json : Json) :
    SelfDelimiting (fun json => (prettyAt depth json).toList) json := by
  induction json generalizing depth with
  | boolean value =>
    intro other rest rest' same
    have first := initial_eq same
    cases other with
    | boolean value' =>
      obtain rfl : value = value' := by
        cases value <;> cases value' <;> simp_all [initial]
      exact ⟨rfl, List.append_cancel_left same⟩
    | _ => cases value <;> simp [initial] at first
  | text value =>
    intro other rest rest' same
    have first := initial_eq same
    cases other with
    | boolean value' => cases value' <;> simp [initial] at first
    | text value' =>
      obtain ⟨rfl, behind⟩ := selfDelimiting_string value value' _ _ same
      exact ⟨rfl, behind⟩
    | _ => simp [initial] at first
  | array elements ih =>
    intro other rest rest' same
    have first := initial_eq same
    cases other with
    | boolean value' => cases value' <;> simp [initial] at first
    | array elements' =>
      simp only [prettyAt, prettyElements_eq] at same
      obtain ⟨rfl, behind⟩ := selfDelimiting_block (fun item mem => ih item mem (depth + 1)) rfl (by decide)
        _ _ _ same
      exact ⟨rfl, behind⟩
    | _ => simp [initial] at first
  | object members ih =>
    intro other rest rest' same
    have first := initial_eq same
    cases other with
    | boolean value' => cases value' <;> simp [initial] at first
    | object members' =>
      simp only [prettyAt, prettyMembers_eq] at same
      obtain ⟨rfl, behind⟩ := selfDelimiting_block
        (fun member mem => selfDelimiting_member (ih member mem (depth + 1))) rfl (by decide) _ _ _ same
      exact ⟨rfl, behind⟩
    | _ => simp [initial] at first

/-- A value can be told from its text. -/
theorem pretty_injective : Function.Injective pretty := by
  intro json other same
  exact (selfDelimiting_prettyAt 0 json other [] [] (by simpa [pretty] using congrArg String.toList same)).1

end Json

end Dispatch
