/-!
# Decimal text

Canonical decimal writing of natural numbers and bytes: ASCII digits, no sign
and no leading zero.  The written digits determine the number.
-/

namespace LS8
namespace Decimal

/-- The decimal digits of a number, most significant first. -/
def digits (number : Nat) : List Char :=
  Nat.toDigits 10 number

/-- The decimal text of a number. -/
def text (number : Nat) : String :=
  String.ofList (digits number)

/-- The decimal text of a byte. -/
def ofByte (byte : UInt8) : String :=
  text byte.toNat

@[simp] theorem toList_text (number : Nat) :
    (text number).toList = digits number := by
  simp [text]

@[simp] theorem toList_ofByte (byte : UInt8) :
    (ofByte byte).toList = digits byte.toNat := by
  simp [ofByte]

theorem digits_ne_nil (number : Nat) : digits number ≠ [] :=
  Nat.toDigits_ne_nil

/-- Decimal writing uses the ten ASCII digits only. -/
theorem isDigit_of_mem_digits
    {number : Nat}
    {character : Char}
    (written : character ∈ digits number) :
    character.isDigit = true :=
  Nat.isDigit_of_mem_toDigits (by omega) (by omega) written

/-- Two numbers with the same digits are equal. -/
theorem digits_injective
    {left right : Nat}
    (equal : digits left = digits right) :
    left = right := by
  have values := congrArg (fun characters => Nat.ofDigitChars 10 characters 0) equal
  simpa [digits] using values

/-- Text whose characters take one byte each has as many bytes as characters. -/
theorem utf8ByteSize_ofList
    {characters : List Char}
    (narrow : ∀ character ∈ characters, character.utf8Size = 1) :
    (String.ofList characters).utf8ByteSize = characters.length := by
  induction characters with
  | nil => simp
  | cons first rest ih =>
      have rest_size := ih fun character member =>
        narrow character (List.mem_cons_of_mem first member)
      have first_size := narrow first List.mem_cons_self
      rw [← List.singleton_append, String.ofList_append,
        String.utf8ByteSize_append, rest_size, ← String.singleton_eq_ofList,
        String.utf8ByteSize_singleton, first_size, List.length_append,
        List.length_singleton]

/-- A decimal digit takes one byte. -/
theorem utf8Size_of_isDigit
    {character : Char}
    (digit : character.isDigit = true) :
    character.utf8Size = 1 := by
  rw [Char.utf8Size_eq_one_iff]
  simp only [Char.isDigit, Bool.and_eq_true, decide_eq_true_eq] at digit
  exact UInt32.le_trans digit.2 (by decide)

/-- Decimal text has as many bytes as characters. -/
theorem utf8ByteSize_text (number : Nat) :
    (text number).utf8ByteSize = (text number).length := by
  rw [text, utf8ByteSize_ofList, String.length_ofList]
  intro character written
  exact utf8Size_of_isDigit (isDigit_of_mem_digits written)

end Decimal
end LS8
