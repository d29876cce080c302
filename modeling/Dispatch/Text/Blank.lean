import Dispatch.Text.CodePoints

/-!
# Blank characters, trimming and words

A character is blank when it has the Unicode property `White_Space`. Names are trimmed of blanks
before they are judged, and a pattern is read word by word, a word being a longest run of
characters that are not blank.

## Main definitions

* `isBlank` — the property
* `trim` — a text without the blanks at its two ends
* `words` — the words of a text, in order
* `isBlankText` — nothing but blanks

## Main results

* `words_append_blank` — a blank divides the words before it from those behind it
-/

set_option autoImplicit false

namespace Dispatch.Text

/-- The code points with the property `White_Space`. -/
def blanks : CodePoints :=
  [(0x9, 0xd), (0x20, 0x20), (0x85, 0x85), (0xa0, 0xa0), (0x1680, 0x1680), (0x2000, 0x200a),
   (0x2028, 0x2029), (0x202f, 0x202f), (0x205f, 0x205f), (0x3000, 0x3000)]

/-- Whether a character is white space. -/
def isBlank (c : Char) : Bool := blanks.contains c

/-- A text without the blanks at its two ends. -/
def trim (s : List Char) : List Char :=
  ((s.dropWhile isBlank).reverse.dropWhile isBlank).reverse

/-- Whether a text is empty or holds only blanks. -/
def isBlankText (s : String) : Bool := s.toList.all isBlank

/-- Puts a word in front of a list of words, the empty word being no word. -/
def consWord (word : List Char) (rest : List (List Char)) : List (List Char) :=
  if word.isEmpty then rest else word :: rest

/-- The run of characters up to the first blank, and the words after it. -/
def splitRun : List Char → List Char × List (List Char)
  | [] => ([], [])
  | c :: rest =>
    let (run, later) := splitRun rest
    if isBlank c then ([], consWord run later) else (c :: run, later)

/-- The longest runs of characters that are not blank, in order. -/
def words (s : List Char) : List (List Char) :=
  consWord (splitRun s).1 (splitRun s).2

@[simp] theorem words_nil : words [] = [] := rfl

theorem splitRun_append_blank {c : Char} (h : isBlank c = true) (s t : List Char) :
    splitRun (s ++ c :: t) = ((splitRun s).1, (splitRun s).2 ++ words t) := by
  induction s with
  | nil => simp [splitRun, h, words]
  | cons d s ih =>
    simp only [List.cons_append, splitRun, ih]
    split
    · cases (splitRun s).1 <;> simp [consWord]
    · rfl

/-- A blank divides the words before it from those behind it. -/
theorem words_append_blank {c : Char} (h : isBlank c = true) (s t : List Char) :
    words (s ++ c :: t) = words s ++ words t := by
  simp only [words, splitRun_append_blank h]
  cases (splitRun s).1 <;> simp [consWord]

theorem isBlankText_iff {s : String} : isBlankText s = true ↔ ∀ c ∈ s.toList, isBlank c = true := by
  simp [isBlankText]

end Dispatch.Text
