import LS8.Text.Decimal

/-!
# Reasons why a program is not loaded

Each reason is a constructor, and its wording is one function.
-/

namespace LS8

/-- Why the bytes of a program text could not be read as text. -/
inductive ReadFailure where
  /-- Some line is not well-formed UTF-8. -/
  | invalidUtf8
  /-- The path names a directory. -/
  | isDirectory
  deriving DecidableEq, Repr

/-- The wording of a read failure. -/
def ReadFailure.message : ReadFailure → String
  | .invalidUtf8 => "stream did not contain valid UTF-8"
  | .isDirectory => "Is a directory (os error 21)"

/-- Why a program is not loaded. -/
inductive LoadError where
  /-- Nothing is found at the path. -/
  | notFound (path : String)
  /-- Something is found, but no program text. -/
  | unreadable (cause : ReadFailure)
  /-- The image has more bytes than the memory has cells. -/
  | imageTooLarge (size : Nat)
  deriving DecidableEq, Repr

/-- The wording of a load error. -/
def LoadError.message : LoadError → String
  | .notFound path => "error opening file " ++ path
  | .unreadable _ => "failed to read program text"
  | .imageTooLarge size =>
      "program is " ++ Decimal.text size ++ " bytes, larger than memory"

end LS8
