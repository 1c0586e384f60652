import CallAdapter.Text.ExtendingMark
import CallAdapter.Text.Printable

/-!
# Quoted texts

A quoted text stands between double quotes. Quotes, backslashes and the usual control
characters have short escapes, and every other character that could not be read on its own
is written by its code point in hexadecimal.
-/

namespace CallAdapter.Text

def codePointEscape (c : Char) : List Char :=
  ['\\', 'u', '\x7b'] ++ Nat.toDigits 16 c.toNat ++ ['\x7d']

/-- How a character is written inside quotes. -/
def escape (c : Char) : List Char :=
  match c with
  | '"' => ['\\', '"']
  | '\\' => ['\\', '\\']
  | '\n' => ['\\', 'n']
  | '\r' => ['\\', 'r']
  | '\t' => ['\\', 't']
  | '\x00' => ['\\', '0']
  | c => if isExtendingMark c || !isPrintable c then codePointEscape c else [c]

/-- The text between double quotes. -/
def quote (s : String) : String :=
  String.ofList ('"' :: s.toList.flatMap escape ++ ['"'])

end CallAdapter.Text
