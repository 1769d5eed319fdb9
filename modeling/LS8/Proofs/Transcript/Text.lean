import Mathlib.Data.List.Basic
import LS8.Text.Decimal

/-!
# Transcripts

A transcript says what a program has written: the values that it has printed,
and whether the message of a division by zero stands behind them.  Its text has
one line for each of these.  The text of a transcript determines the transcript:
cutting it at the line feeds gives the lines back, a line of digits determines
its value, and the message is no line of digits.
-/

namespace LS8

namespace Decimal

/-- Some characters write a number in decimal, without a leading zero. -/
structure Canonical (characters : List Char) (number : Nat) : Prop where
  nonempty : characters ≠ []
  digits : ∀ character ∈ characters, character.isDigit = true
  value : Nat.ofDigitChars 10 characters 0 = number
  noLeadingZero : characters.head? = some '0' → characters = ['0']

/-- A positive number does not start with a zero. -/
theorem head?_digits_of_pos
    {number : Nat}
    (positive : 0 < number) :
    (digits number).head? ≠ some '0' := by
  induction number using Nat.strongRecOn with
  | ind number inductionHypothesis =>
      rcases Nat.lt_or_ge number 10 with small | large
      · have nonzero : ∀ digit : Fin 10, 0 < digit.val →
            Nat.digitChar digit.val ≠ '0' := by
          decide
        rw [digits, Nat.toDigits_of_lt_base small, List.head?_cons, ne_eq,
          Option.some.injEq]
        exact nonzero ⟨number, small⟩ positive
      · rw [digits, Nat.toDigits_of_base_le (by decide) large, List.head?_append,
          Option.or_of_isSome (by simp [Nat.toDigits_ne_nil])]
        exact inductionHypothesis (number / 10) (by omega) (by omega)

/-- Decimal writing is canonical. -/
theorem canonical_digits (number : Nat) : Canonical (digits number) number where
  nonempty := digits_ne_nil number
  digits := fun _ written => isDigit_of_mem_digits written
  value := Nat.ofDigitChars_ten_toDigits
  noLeadingZero := by
    intro startsWithZero
    rcases Nat.eq_zero_or_pos number with rfl | positive
    · rfl
    · exact absurd startsWithZero (head?_digits_of_pos positive)

/-- Characters other than digits do not occur. -/
theorem not_mem_digits
    {character : Char}
    (noDigit : character.isDigit = false)
    (number : Nat) :
    character ∉ digits number := by
  intro written
  rw [isDigit_of_mem_digits written] at noDigit
  contradiction

end Decimal

/-- What a program has written. -/
structure Transcript where
  /-- The printed values, in order. -/
  values : List UInt8
  /-- The message of a division by zero follows. -/
  zeroDivision : Bool
  deriving DecidableEq, Repr

namespace Transcript

/-- The message of a division by zero, without its line feed. -/
def message : List Char := "Divide by Zero Error!".toList

/-- The line of a printed value, without its line feed. -/
def valueLine (value : UInt8) : List Char := Decimal.digits value.toNat

/-- The lines of a transcript: the values in decimal, and then the message if
there was a division by zero. -/
def lines (transcript : Transcript) : List (List Char) :=
  transcript.values.map valueLine ++
    if transcript.zeroDivision then [message] else []

/-- The text of a transcript: its lines, each with a line feed behind it. -/
def text (transcript : Transcript) : List Char :=
  transcript.lines.flatMap (· ++ ['\n'])

@[simp] theorem text_nil : (⟨[], false⟩ : Transcript).text = [] := rfl

/-- What is written after some values is appended to their text. -/
theorem text_append (front back : List UInt8) (zeroDivision : Bool) :
    (⟨front ++ back, zeroDivision⟩ : Transcript).text =
      (⟨front, false⟩ : Transcript).text ++
        (⟨back, zeroDivision⟩ : Transcript).text := by
  simp [text, lines]

theorem message_ne_nil : message ≠ [] := by decide

/-- No value is written like the message. -/
theorem message_ne_valueLine (value : UInt8) : message ≠ valueLine value := by
  intro equal
  have written : 'D' ∈ valueLine value := by
    rw [← equal]
    decide
  exact Decimal.not_mem_digits rfl _ written

theorem valueLine_injective
    {left right : UInt8}
    (equal : valueLine left = valueLine right) :
    left = right :=
  UInt8.toNat_inj.mp (Decimal.digits_injective equal)

theorem lineFeed_not_mem_lines
    {transcript : Transcript}
    {line : List Char}
    (member : line ∈ transcript.lines) :
    '\n' ∉ line := by
  rcases List.mem_append.mp member with printed | failed
  · obtain ⟨value, _, rfl⟩ := List.mem_map.mp printed
    exact Decimal.not_mem_digits rfl _
  · split at failed
    · rw [List.mem_singleton.mp failed]
      decide
    · contradiction

/-- Cutting lines with line feeds behind them at the line feeds gives the lines
back, and an empty piece behind the last one. -/
theorem splitOn_flatMap_lineFeed
    {lines : List (List Char)}
    (whole : ∀ line ∈ lines, '\n' ∉ line) :
    (lines.flatMap (· ++ ['\n'])).splitOn '\n' = lines ++ [[]] := by
  induction lines with
  | nil => rfl
  | cons line rest inductionHypothesis =>
      have rest_eq := inductionHypothesis fun other member =>
        whole other (List.mem_cons_of_mem line member)
      rw [List.flatMap_cons, List.append_assoc, List.singleton_append,
        List.splitOn_append_cons_self_of_not_mem (whole line List.mem_cons_self),
        rest_eq, List.cons_append]

theorem splitOn_text (transcript : Transcript) :
    transcript.text.splitOn '\n' = transcript.lines ++ [[]] :=
  splitOn_flatMap_lineFeed fun _ member => lineFeed_not_mem_lines member

theorem message_not_mem_valueLines (values : List UInt8) :
    message ∉ values.map valueLine := by
  intro member
  obtain ⟨value, _, equal⟩ := List.mem_map.mp member
  exact message_ne_valueLine value equal.symm

theorem message_mem_lines_iff {transcript : Transcript} :
    message ∈ transcript.lines ↔ transcript.zeroDivision = true := by
  have unprinted := message_not_mem_valueLines transcript.values
  rw [lines, List.mem_append]
  cases transcript.zeroDivision <;> simp [unprinted]

/-- The message stands behind everything else. -/
theorem eq_nil_of_message_mem
    {transcript : Transcript}
    {front back : List (List Char)}
    (split : transcript.text.splitOn '\n' = front ++ message :: back) :
    back = [[]] := by
  rw [splitOn_text] at split
  have member : message ∈ transcript.lines := by
    have among : message ∈ transcript.lines ++ [[]] := by
      rw [split]
      exact List.mem_append_right front List.mem_cons_self
    simpa [message_ne_nil] using among
  have unended : message ∉ [([] : List Char)] := by
    rw [List.mem_singleton]
    exact message_ne_nil
  rw [lines, message_mem_lines_iff.mp member, if_pos rfl, List.append_assoc] at split
  obtain ⟨_, _, back_eq⟩ :=
    (List.append_cons_inj_of_notMem (message_not_mem_valueLines _) unended).mp split
  exact back_eq.symm

/-- Transcripts with the same lines are equal. -/
theorem lines_injective
    {left right : Transcript}
    (equal : left.lines = right.lines) :
    left = right := by
  have zeroDivision_eq : left.zeroDivision = right.zeroDivision := by
    rw [Bool.eq_iff_iff, ← message_mem_lines_iff, equal, message_mem_lines_iff]
  obtain ⟨leftValues, leftDivision⟩ := left
  obtain ⟨rightValues, rightDivision⟩ := right
  obtain rfl : leftDivision = rightDivision := zeroDivision_eq
  have valueLines_eq : leftValues.map valueLine = rightValues.map valueLine :=
    List.append_cancel_right equal
  rw [List.map_injective_iff.mpr (fun _ _ => valueLine_injective) valueLines_eq]

/-- Transcripts with the same text are equal. -/
theorem text_injective
    {left right : Transcript}
    (equal : left.text = right.text) :
    left = right := by
  have pieces_eq := congrArg (List.splitOn '\n') equal
  rw [splitOn_text, splitOn_text] at pieces_eq
  exact lines_injective (List.append_cancel_right pieces_eq)

end Transcript
end LS8
