/-!
# Lines of a byte stream

A line ends with a line feed, and a carriage return directly before the line feed belongs to the line end. The last line may
lack its line end; nothing stands after a last line feed. A line is text when its bytes are UTF-8 by themselves.
-/

namespace IntegerCalculator

/-- The byte that ends a line. -/
def lineFeed : UInt8 := 10

/-- The byte that may stand before the line feed. -/
def carriageReturn : UInt8 := 13

/-- The line without a carriage return at its end. -/
def dropCarriageReturn (line : List UInt8) : List UInt8 :=
  if line.getLast? = some carriageReturn then line.dropLast else line

/-- Puts the lines before a last piece together: each piece that a line feed ends is a line, and the last piece is one
unless it is empty. -/
def linesOfPieces : List (List UInt8) → List (List UInt8)
  | [] => []
  | [last] => if last.isEmpty then [] else [last]
  | piece :: pieces => dropCarriageReturn piece :: linesOfPieces pieces

/-- The lines of a byte stream, without their line ends. -/
def byteLines (bytes : List UInt8) : List (List UInt8) := linesOfPieces (bytes.splitOn lineFeed)

/-- The text that the bytes encode in UTF-8; `none` when they encode none. -/
def decodeText (bytes : List UInt8) : Option (List Char) :=
  (String.fromUTF8? ⟨bytes.toArray⟩).map String.toList

/-- An empty stream has no lines. -/
theorem byteLines_nil : byteLines [] = [] := rfl

end IntegerCalculator
