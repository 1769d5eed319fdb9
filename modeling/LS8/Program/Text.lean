import LS8.LoadError
import LS8.Program.Line

/-!
# Program text

Program text is a sequence of bytes.  It is cut into lines at line feeds, every
line is decoded on its own, and the lines that denote bytes give the program's
image in order.  One line that is not UTF-8 makes the whole text unreadable.
-/

namespace LS8
namespace Program

/-- The byte that ends a line. -/
def lineFeed : UInt8 := 10

/-- The byte that may stand before a line feed and belongs to the line end. -/
def carriageReturn : UInt8 := 13

/-- A line without the carriage return at its end, if there is one. -/
def dropCarriageReturn (line : List UInt8) : List UInt8 :=
  if line.getLast? = some carriageReturn then line.dropLast else line

/-- Remove the carriage returns that stood before line feeds.  No line feed
followed the last piece, which stays as it is. -/
def trimLineEnds : List (List UInt8) → List (List UInt8)
  | [] => []
  | [last] => [last]
  | line :: next :: rest => dropCarriageReturn line :: trimLineEnds (next :: rest)

/-- The lines of a text, without their line ends. -/
def lines (text : List UInt8) : List (List UInt8) :=
  trimLineEnds (text.splitOn lineFeed)

/-- The characters that a line encodes in UTF-8. -/
def decodeLine? (line : List UInt8) : Option String :=
  String.fromUTF8? line.toByteArray

/-- The image that a program text describes. -/
def parse (text : List UInt8) : Except LoadError (List UInt8) :=
  match (lines text).mapM decodeLine? with
  | some decoded => .ok (decoded.filterMap lineByte?)
  | none => .error (.unreadable .invalidUtf8)

end Program
end LS8
