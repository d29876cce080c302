import Dispatch.Text.Hidden

/-!
# Quoted text

A text between double quotes, on one line and without hidden characters: the quote and the backslash
are escaped, the four usual control characters have letters, and any other hidden character is
written by its code point in hexadecimal.

## Main definitions

* `quotedChar` — one character inside the quotes
* `quoted` — the whole text with its quotes
-/

set_option autoImplicit false

namespace Dispatch.Text

/-- The lowercase hexadecimal digits of a number, without leading zeros. -/
def hexDigits (n : Nat) : List Char := Nat.toDigits 16 n

/-- A character as it stands between the quotes. -/
def quotedChar (c : Char) : List Char :=
  if c = '"' then ['\\', '"']
  else if c = '\\' then ['\\', '\\']
  else if c = '\n' then ['\\', 'n']
  else if c = '\t' then ['\\', 't']
  else if c = '\r' then ['\\', 'r']
  else if c = '\x00' then ['\\', '0']
  else if hidden.contains c then ['\\', 'u', '\x7b'] ++ hexDigits c.toNat ++ ['\x7d']
  else [c]

/-- A text in double quotes. -/
def quoted (s : String) : String :=
  String.ofList ('"' :: s.toList.flatMap quotedChar ++ ['"'])

end Dispatch.Text
