import Mathlib.Data.List.Induction
import Mathlib.Data.Nat.Digits.Defs
import LS8.CommandLine.Arguments

/-!
# Texts of limits

The text of a limit is read exactly: it is accepted when it consists of decimal digits,
perhaps behind a plus sign, whose number fits into 64 bits, however many zeros stand in
front, and the limit is that number.
-/

namespace LS8
namespace CommandLine

/-- The number that decimal digits write, the last of them being the units. -/
def decimalNumber (digits : List Char) : Nat :=
  Nat.ofDigits 10 (digits.reverse.map fun digit => digit.toNat - '0'.toNat)

/-- A digit behind the others makes these count ten times as much. -/
theorem decimalNumber_concat (digits : List Char) (last : Char) :
    decimalNumber (digits ++ [last]) =
      10 * decimalNumber digits + (last.toNat - '0'.toNat) := by
  rw [decimalNumber, List.reverse_concat, List.map_cons, Nat.ofDigits_cons, Nat.add_comm]
  rfl

theorem ofDigitChars_eq_decimalNumber (digits : List Char) :
    Nat.ofDigitChars 10 digits 0 = decimalNumber digits := by
  induction digits using List.reverseRecOn with
  | nil => rfl
  | append_singleton digits last inductionHypothesis =>
      rw [Nat.ofDigitChars_append, inductionHypothesis, decimalNumber_concat]
      rfl

/-- A text writes a number: with one decimal digit or more, perhaps behind a plus
sign. -/
def WritesNumber (text : String) (number : Nat) : Prop :=
  ∃ digits,
    (text.toList = digits ∨ text.toList = '+' :: digits) ∧
      digits ≠ [] ∧
      (∀ digit ∈ digits, '0' ≤ digit ∧ digit ≤ '9') ∧
      decimalNumber digits = number

theorem isDigit_iff {character : Char} :
    character.isDigit = true ↔ '0' ≤ character ∧ character ≤ '9' := by
  rw [Char.isDigit, Bool.and_eq_true, decide_eq_true_eq, decide_eq_true_eq]
  rfl

/-- No sign but a plus sign is dropped, and no more than one. -/
theorem eq_limitDigits_or (characters : List Char) :
    characters = limitDigits characters ∨
      characters = '+' :: limitDigits characters := by
  unfold limitDigits
  split
  · exact .inr rfl
  · exact .inl rfl

/-- A text without a plus sign in front is the digits as it stands. -/
theorem limitDigits_of_digits
    {digits : List Char}
    (decimal : ∀ digit ∈ digits, '0' ≤ digit ∧ digit ≤ '9') :
    limitDigits digits = digits := by
  unfold limitDigits
  split
  case h_1 rest =>
    exact absurd (decimal '+' List.mem_cons_self) (by decide)
  case h_2 => rfl

/-- Texts are read as limits exactly when they write a number of 64 bits, and then as
this number. -/
theorem limitOfText?_eq_some_iff {text : String} {limit : Nat} :
    limitOfText? text = some limit ↔
      WritesNumber text limit ∧ limit ≤ 2 ^ 64 - 1 := by
  simp only [limitOfText?, ofDigitChars_eq_decimalNumber, Option.ite_none_right_eq_some,
    Option.some.injEq, Bool.and_eq_true, Bool.not_eq_true', List.isEmpty_eq_false_iff,
    List.all_eq_true, decide_eq_true_eq, isDigit_iff, largestLimit, UInt64.size]
  constructor
  · rintro ⟨⟨⟨nonempty, decimal⟩, bounded⟩, rfl⟩
    exact ⟨⟨_, eq_limitDigits_or text.toList, nonempty, decimal, rfl⟩, bounded⟩
  · rintro ⟨⟨digits, signed, nonempty, decimal, rfl⟩, bounded⟩
    have digits_eq : limitDigits text.toList = digits := by
      rcases signed with unsigned | signed
      · rw [unsigned, limitDigits_of_digits decimal]
      · rw [signed, limitDigits]
    rw [digits_eq]
    exact ⟨⟨⟨nonempty, decimal⟩, bounded⟩, rfl⟩

/-- The limit that arguments give, for the text of it that is among them. -/
inductive GivesLimit : Option String → Option Nat → Prop
  | unlimited : GivesLimit none none
  | limited {text : String} {limit : Nat} :
      WritesNumber text limit →
      limit ≤ 2 ^ 64 - 1 →
      GivesLimit (some text) (some limit)

/-- A limit is given unless there is a text for it that cannot be read. -/
theorem givesLimit_iff {text : Option String} {limit : Option Nat} :
    GivesLimit text limit ↔
      (∀ given ∈ text, (limitOfText? given).isSome) ∧
        limit = text.bind limitOfText? := by
  constructor
  · rintro (_ | ⟨writes, bounded⟩)
    · exact ⟨nofun, rfl⟩
    case limited given number =>
      have read_eq : limitOfText? given = some number :=
        limitOfText?_eq_some_iff.mpr ⟨writes, bounded⟩
      refine ⟨?_, read_eq.symm⟩
      intro other other_eq
      obtain rfl := Option.mem_some_iff.mp other_eq
      exact Option.isSome_of_eq_some read_eq
  · rintro ⟨readable, rfl⟩
    cases text with
    | none => exact .unlimited
    | some given =>
        obtain ⟨number, read_eq⟩ := Option.isSome_iff_exists.mp (readable given rfl)
        obtain ⟨writes, bounded⟩ := limitOfText?_eq_some_iff.mp read_eq
        rw [Option.bind_some, read_eq]
        exact .limited writes bounded

/-- There is no limit to give exactly when there is a text that cannot be read. -/
theorem not_exists_givesLimit_iff {text : Option String} :
    (¬∃ limit, GivesLimit text limit) ↔
      ∃ given, text = some given ∧ limitOfText? given = none := by
  simp only [givesLimit_iff, exists_and_left, exists_eq, and_true, Option.mem_def,
    not_forall, Option.not_isSome_iff_eq_none, exists_prop]

end CommandLine
end LS8
