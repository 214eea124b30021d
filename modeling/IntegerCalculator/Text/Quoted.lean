import IntegerCalculator.Text.Printable

/-!
# Quoted text

The log quotes the line it reports in the usual form for debugging: the text stands between double quotes, the quote and the
backslash are escaped by a backslash, and the tab, the line feed, the carriage return and the null character have a letter or
digit after a backslash. Every other character that is not printable, or that extends the one before it, is written by its
number in hexadecimal, as the Unicode Character Database says (`isPrintable`, `extendsGrapheme`). The apostrophe stays.
-/

namespace IntegerCalculator

/-- A character by its number, in hexadecimal without leading zeros. -/
def numbered (c : Char) : List Char := ['\\', 'u', '\x7b'] ++ Nat.toDigits 16 c.toNat ++ ['\x7d']

/-- How a character is written between the quotes. -/
def escaped (c : Char) : List Char :=
  match c with
  | '"' => ['\\', '"']
  | '\\' => ['\\', '\\']
  | '\t' => ['\\', 't']
  | '\n' => ['\\', 'n']
  | '\r' => ['\\', 'r']
  | '\x00' => ['\\', '0']
  | c => if extendsGrapheme c || !isPrintable c then numbered c else [c]

/-- The text between double quotes, escaped. -/
def quoted (s : List Char) : List Char := '"' :: s.flatMap escaped ++ ['"']

end IntegerCalculator
