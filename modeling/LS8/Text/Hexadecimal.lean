/-!
# Hexadecimal text

A byte is written as exactly two digits, high half first, with the letters of
either case.
-/

namespace LS8

/-- The case of the letters among hexadecimal digits. -/
inductive LetterCase where
  | lower
  | upper
  deriving DecidableEq, Repr

namespace Hexadecimal

/-- One hexadecimal digit of a number below sixteen. -/
def digit (letters : LetterCase) (value : Nat) : Char :=
  match letters with
  | .lower => Nat.digitChar value
  | .upper => (Nat.digitChar value).toUpper

/-- The two hexadecimal digits of a byte. -/
def digits (letters : LetterCase) (byte : UInt8) : List Char :=
  [digit letters (byte.toNat / 16), digit letters (byte.toNat % 16)]

/-- The two-digit hexadecimal text of a byte. -/
def text (letters : LetterCase) (byte : UInt8) : String :=
  String.ofList (digits letters byte)

@[simp] theorem toList_text (letters : LetterCase) (byte : UInt8) :
    (text letters byte).toList = digits letters byte := by
  simp [text]

@[simp] theorem length_digits (letters : LetterCase) (byte : UInt8) :
    (digits letters byte).length = 2 :=
  rfl

end Hexadecimal
end LS8
