import LS8.Program.Line

/-!
# The byte of a line

White space and binary digits are different characters, so what a line denotes
is read off its three parts: white space, a run of binary digits, and a tail that
does not go on with the run.  The byte is the number that the whole run writes in
base two, modulo 256, and white space at the end of the line makes no difference.
-/

namespace LS8
namespace Program

theorem isBinaryDigit_iff {character : Char} :
    isBinaryDigit character = true ↔ character = '0' ∨ character = '1' := by
  rw [isBinaryDigit, Bool.or_eq_true, beq_iff_eq, beq_iff_eq]

/-- White space is no binary digit. -/
theorem isBinaryDigit_of_whiteSpace
    {character : Char}
    (whiteSpace : WhiteSpace.contains character = true) :
    isBinaryDigit character = false := by
  rw [Bool.eq_false_iff]
  intro digit
  rcases isBinaryDigit_iff.mp digit with rfl | rfl
  · exact absurd whiteSpace (by decide)
  · exact absurd whiteSpace (by decide)

theorem takeWhile_eq_nil_of_head?
    {test : Char → Bool}
    {characters : List Char}
    (refused : characters.head?.any test = false) :
    characters.takeWhile test = [] := by
  cases characters with
  | nil => rfl
  | cons first rest =>
      rw [List.head?_cons, Option.any_some] at refused
      rw [List.takeWhile_cons_of_neg (by simp [refused])]

theorem dropWhile_eq_self_of_head?
    {test : Char → Bool}
    {characters : List Char}
    (refused : characters.head?.any test = false) :
    characters.dropWhile test = characters := by
  cases characters with
  | nil => rfl
  | cons first rest =>
      rw [List.head?_cons, Option.any_some] at refused
      rw [List.dropWhile_cons_of_neg (by simp [refused])]

theorem head?_dropWhile_refused
    (test : Char → Bool)
    (characters : List Char) :
    (characters.dropWhile test).head?.any test = false := by
  have refused := List.head?_dropWhile_not test characters
  cases head_eq : (characters.dropWhile test).head? with
  | none => rfl
  | some first =>
      rw [head_eq] at refused
      exact refused

/-- Behind white space, digits are looked for where no more white space
follows. -/
theorem binaryDigits_indent
    {indent rest : List Char}
    (indented : indent.all WhiteSpace.contains = true)
    (visible : rest.head?.any WhiteSpace.contains = false) :
    binaryDigits (indent ++ rest) = rest.takeWhile isBinaryDigit := by
  rw [binaryDigits, List.dropWhile_append_of_pos (List.all_eq_true.mp indented),
    dropWhile_eq_self_of_head? visible]

/-- A run of binary digits ends where another character follows, or nothing. -/
theorem binaryDigits_run
    {indent digits tail : List Char}
    (indented : indent.all WhiteSpace.contains = true)
    (nonempty : digits ≠ [])
    (binary : digits.all isBinaryDigit = true)
    (ended : tail.head?.any isBinaryDigit = false) :
    binaryDigits (indent ++ (digits ++ tail)) = digits := by
  have visible : (digits ++ tail).head?.any WhiteSpace.contains = false := by
    obtain ⟨digit, rest, rfl⟩ := List.exists_cons_of_ne_nil nonempty
    rw [List.all_cons, Bool.and_eq_true] at binary
    rw [List.cons_append, List.head?_cons, Option.any_some, Bool.eq_false_iff]
    intro whiteSpace
    have noDigit := isBinaryDigit_of_whiteSpace whiteSpace
    rw [binary.1] at noDigit
    contradiction
  rw [binaryDigits_indent indented visible,
    List.takeWhile_append_of_pos (List.all_eq_true.mp binary),
    takeWhile_eq_nil_of_head? ended, List.append_nil]

/-- Behind a line that is not blank, text that starts with no digit makes no
difference. -/
theorem binaryDigits_append_of_visible
    {line tail : List Char}
    (visible : line.dropWhile WhiteSpace.contains ≠ [])
    (ended : tail.head?.any isBinaryDigit = false) :
    binaryDigits (line ++ tail) = binaryDigits line := by
  rw [binaryDigits, binaryDigits, List.dropWhile_append,
    if_neg (by rwa [List.isEmpty_iff]), List.takeWhile_append]
  split
  case isTrue whole =>
    rw [takeWhile_eq_nil_of_head? ended, List.append_nil]
    exact ((List.takeWhile_prefix _).eq_of_length whole).symm
  case isFalse => rfl

/-- White space at the end of a line makes no difference. -/
theorem binaryDigits_concat_whiteSpace
    {character : Char}
    (whiteSpace : WhiteSpace.contains character = true)
    (line : List Char) :
    binaryDigits (line ++ [character]) = binaryDigits line := by
  rcases Decidable.em (line.dropWhile WhiteSpace.contains = []) with blank | visible
  · rw [binaryDigits, binaryDigits, List.dropWhile_append, blank]
    simp [whiteSpace]
  · exact binaryDigits_append_of_visible visible
      (isBinaryDigit_of_whiteSpace whiteSpace)

/-- A line without a run of binary digits denotes nothing. -/
theorem lineByte?_of_digits_eq_nil
    {line : List Char}
    (silent : binaryDigits line = []) :
    lineByte? (String.ofList line) = none := by
  rw [lineByte?, String.toList_ofList, silent]

/-- A line with a run of binary digits denotes the byte of the run. -/
theorem lineByte?_of_digits_ne_nil
    {line : List Char}
    (nonempty : binaryDigits line ≠ []) :
    lineByte? (String.ofList line) = some (binaryByte (binaryDigits line)) := by
  obtain ⟨digit, rest, digits_eq⟩ := List.exists_cons_of_ne_nil nonempty
  rw [lineByte?, String.toList_ofList, digits_eq]

/-- A line denotes the same with white space at its end. -/
theorem lineByte?_concat_whiteSpace
    {character : Char}
    (whiteSpace : WhiteSpace.contains character = true)
    (line : List Char) :
    lineByte? (String.ofList (line ++ [character])) =
      lineByte? (String.ofList line) := by
  rw [lineByte?, lineByte?, String.toList_ofList, String.toList_ofList,
    binaryDigits_concat_whiteSpace whiteSpace]

theorem toNat_binaryDigitValue
    {digit : Char}
    (binary : isBinaryDigit digit = true) :
    (binaryDigitValue digit).toNat = digit.toNat - '0'.toNat := by
  rcases isBinaryDigit_iff.mp binary with rfl | rfl <;> decide

/-- The byte of a run of binary digits is the number that it writes in base two,
modulo 256. -/
theorem toNat_binaryByte
    {digits : List Char}
    (binary : digits.all isBinaryDigit = true) :
    (binaryByte digits).toNat = Nat.ofDigitChars 2 digits 0 % 256 := by
  -- The fold agrees with the number at every accumulator, modulo 256.
  have agree : ∀ (value : UInt8) (number : Nat),
      value.toNat = number % 256 →
        (digits.foldl (fun value digit => 2 * value + binaryDigitValue digit)
            value).toNat =
          Nat.ofDigitChars 2 digits number % 256 := by
    induction digits with
    | nil =>
        intro value number value_eq
        rw [List.foldl_nil, Nat.ofDigitChars_nil]
        exact value_eq
    | cons digit rest inductionHypothesis =>
        intro value number value_eq
        rw [List.all_cons, Bool.and_eq_true] at binary
        rw [List.foldl_cons, Nat.ofDigitChars_cons]
        apply inductionHypothesis binary.2
        rw [UInt8.toNat_add, UInt8.toNat_mul, ← toNat_binaryDigitValue binary.1,
          value_eq]
        change (2 * (number % 256) % 256 + _) % 256 = _
        omega
  exact agree 0 0 rfl

end Program
end LS8
