import LS8.Text.WhiteSpace

/-!
# Lines of program text

A line denotes a byte if it starts, after white space, with a run of binary
digits: the low eight bits of the number that the whole run writes.  Whatever
follows the run is a comment, and a line without a run denotes nothing.
-/

namespace LS8
namespace Program

/-- A character is a binary digit. -/
def isBinaryDigit (character : Char) : Bool :=
  character == '0' || character == '1'

/-- The value of a binary digit. -/
def binaryDigitValue (digit : Char) : UInt8 :=
  if digit == '1' then 1 else 0

/-- The longest run of binary digits that starts a line after white space. -/
def binaryDigits (line : List Char) : List Char :=
  (line.dropWhile WhiteSpace.contains).takeWhile isBinaryDigit

/-- The low eight bits of the number that binary digits write, most significant
digit first. -/
def binaryByte (digits : List Char) : UInt8 :=
  digits.foldl (fun value digit => 2 * value + binaryDigitValue digit) 0

/-- The byte that a line denotes, if it denotes one. -/
def lineByte? (line : String) : Option UInt8 :=
  match binaryDigits line.toList with
  | [] => none
  | digits => some (binaryByte digits)

end Program
end LS8
