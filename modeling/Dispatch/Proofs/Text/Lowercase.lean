import Dispatch.Text.Lowercase

/-!
# Lowercase and ASCII

Of the ASCII characters only the letters from A to Z have another lowercase form. Of the other characters
only the Kelvin sign has a lowercase form within ASCII, which is the letter k. So a text whose lowercase is
spelled with letters other than k is ASCII, and differs from its lowercase only by the case of its letters.

## Main definitions

* `Text.isPlainLetter` — a lowercase letter that no other character than an ASCII letter becomes

## Main results

* `Text.lowercase_of_ascii` — the lowercase of an ASCII text
* `Text.lowercase_eq_iff` — which texts have a lowercase of plain letters
-/

set_option autoImplicit false

namespace Dispatch.Text

variable {s word : List Char} {c : Char}

/-- A letter from a to z, but not the k. -/
def isPlainLetter (c : Char) : Bool := 'a' ≤ c && c ≤ 'z' && c != 'k'

theorem isPlainLetter_iff : isPlainLetter c = true ↔ (97 ≤ c.toNat ∧ c.toNat ≤ 122) ∧ c ≠ 'k' := by
  rw [isPlainLetter, Bool.and_eq_true, Bool.and_eq_true, bne_iff_ne, decide_eq_true_iff,
    decide_eq_true_iff]
  exact Iff.rfl

/-! ### One character -/

theorem lowercaseChar_of_ascii (ascii : c.toNat < 128) : lowercaseChar c = [c.toLower] := by
  have table : ∀ code < 128, lowercaseChar (Char.ofNat code) = [(Char.ofNat code).toLower] := by
    decide +kernel
  have same := table c.toNat ascii
  rwa [Char.ofNat_toNat] at same

theorem exists_row_of_caseShift? {rows : List CaseRow} {code : Nat} {shift : Int}
    (found : caseShift? code rows = some shift) :
    ∃ row ∈ rows, row.first ≤ code ∧ code ≤ row.last ∧ row.shift = shift := by
  induction rows with
  | nil => simp [caseShift?] at found
  | cons row rows ih =>
    rw [caseShift?] at found
    split at found
    · simp at found
    · rename_i above
      split at found
      · rename_i inside
        simp only [Bool.and_eq_true, decide_eq_true_eq] at inside
        exact ⟨row, List.mem_cons_self, Nat.not_lt.mp above, inside.1, Option.some_inj.mp found⟩
      · obtain ⟨other, mem, covers⟩ := ih found
        exact ⟨other, List.mem_cons_of_mem _ mem, covers⟩

/-- The rows beyond ASCII lead to characters beyond ASCII, but for the row of the Kelvin sign. -/
theorem lowercaseRows_apart : ∀ row ∈ lowercaseRows, row.last < 128 ∨
    (row.first = 0x212a ∧ row.last = 0x212a ∧ row.shift = -8383) ∨
    128 ≤ (row.first : Int) + row.shift := by
  decide +kernel

/-- A code point above the letters is not that of a plain letter, valid or not. -/
theorem not_isPlainLetter_ofNat {code : Nat} (above : 122 < code) :
    isPlainLetter (Char.ofNat code) = false := by
  rw [Bool.eq_false_iff, Ne, isPlainLetter_iff]
  by_cases valid : code.isValidChar
  · have same : (Char.ofNat code).toNat = code := by
      rw [Char.ofNat, dif_pos valid]
      rfl
    omega
  · have zero : Char.ofNat code = '\x00' := by
      rw [Char.ofNat, dif_neg valid]
      rfl
    rw [zero]
    decide

/-- Only ASCII characters become plain letters. -/
theorem ascii_of_lowercaseChar (letters : ∀ d ∈ lowercaseChar c, isPlainLetter d = true) :
    c.toNat < 128 := by
  rw [lowercaseChar] at letters
  split at letters
  · -- The dotted capital I has a lowercase of two characters, of which the second is no letter.
    exact absurd (letters '\u0307' (by simp)) (by decide)
  · split at letters
    · rename_i shift found
      obtain ⟨row, mem, first, last, rfl⟩ := exists_row_of_caseShift? found
      have letter := letters _ (List.mem_singleton_self _)
      rcases lowercaseRows_apart row mem with ascii | ⟨lower, upper, shift⟩ | beyond
      · omega
      · have kelvin : ((c.toNat : Int) + row.shift).toNat = 'k'.toNat := by
          rw [show 'k'.toNat = 107 from rfl]
          omega
        rw [kelvin, Char.ofNat_toNat] at letter
        exact absurd letter (by decide)
      · have above : 122 < ((c.toNat : Int) + row.shift).toNat := by omega
        rw [not_isPlainLetter_ofNat above] at letter
        simp at letter
    · have letter := isPlainLetter_iff.mp (letters c (List.mem_singleton_self c))
      omega

theorem ascii_of_toLower (letter : isPlainLetter c.toLower = true) : c.toNat < 128 := by
  delta Char.toLower at letter
  split at letter
  · rename_i upper
    have bound : c.toNat ≤ 90 := upper.2
    omega
  · have bounds := isPlainLetter_iff.mp letter
    omega

/-! ### Texts -/

theorem lowercaseAfter_of_ascii (before : List Char) (ascii : ∀ c ∈ s, c.toNat < 128) :
    lowercaseAfter before s = s.map Char.toLower := by
  induction s generalizing before with
  | nil => rfl
  | cons c s ih =>
    obtain ⟨first, others⟩ := List.forall_mem_cons.mp ascii
    have noSigma : c ≠ 'Σ' := by
      rintro rfl
      exact absurd first (by decide)
    rw [lowercaseAfter, if_neg noSigma, lowercaseChar_of_ascii first, ih _ others]
    rfl

/-- In an ASCII text lowercasing changes the letters from A to Z. -/
theorem lowercase_of_ascii (ascii : ∀ c ∈ s, c.toNat < 128) : lowercase s = s.map Char.toLower :=
  lowercaseAfter_of_ascii [] ascii

theorem ascii_of_lowercaseAfter {before : List Char}
    (letters : ∀ d ∈ lowercaseAfter before s, isPlainLetter d = true) : ∀ c ∈ s, c.toNat < 128 := by
  induction s generalizing before with
  | nil => simp
  | cons c s ih =>
    rw [lowercaseAfter, List.forall_mem_append] at letters
    obtain ⟨first, others⟩ := letters
    refine List.forall_mem_cons.mpr ⟨?_, ih others⟩
    split at first
    · -- Neither form of the small sigma is a plain letter.
      exfalso
      split at first
      · exact absurd (first 'ς' (List.mem_singleton_self _)) (by decide)
      · exact absurd (first 'σ' (List.mem_singleton_self _)) (by decide)
    · exact ascii_of_lowercaseChar first

/-- A text whose lowercase consists of plain letters is ASCII. -/
theorem ascii_of_lowercase (letters : ∀ d ∈ lowercase s, isPlainLetter d = true) :
    ∀ c ∈ s, c.toNat < 128 :=
  ascii_of_lowercaseAfter letters

/-- A word of plain letters is the lowercase of those texts that differ from it by the case of ASCII
letters. -/
theorem lowercase_eq_iff (letters : ∀ d ∈ word, isPlainLetter d = true) :
    lowercase s = word ↔ s.map Char.toLower = word := by
  constructor
  · intro same
    rw [← same]
    exact (lowercase_of_ascii (ascii_of_lowercase (same ▸ letters))).symm
  · intro same
    rw [← same]
    refine lowercase_of_ascii fun c mem => ascii_of_toLower (letters _ ?_)
    rw [← same]
    exact List.mem_map_of_mem mem

end Dispatch.Text
