import Mathlib.Tactic.IntervalCases
import Mathlib.Tactic.Ring
import LS8.Proofs.Program.Line

/-!
# The grammar of a line

A line is cut at the end of its longest prefix of white space, and again at the end
of the longest run of binary digits behind it.  It denotes a byte exactly when there is
such a digit: the number that the whole run writes in base two, modulo 256, which is
the number that the last eight digits write.  White space in front of the line makes
no difference, nor does any other text that starts behind the digits with another
character.
-/

namespace LS8

/-- The 25 characters that are white space. -/
def WhiteSpace.characters : List Char :=
  ['\t', '\n', '\u000B', '\u000C', '\r', ' ', '\u0085', '\u00A0', '\u1680',
    '\u2000', '\u2001', '\u2002', '\u2003', '\u2004', '\u2005', '\u2006',
    '\u2007', '\u2008', '\u2009', '\u200A', '\u2028', '\u2029', '\u202F',
    '\u205F', '\u3000']

/-- The ranges of white space hold just these characters. -/
theorem WhiteSpace.contains_iff {character : Char} :
    contains character = true ↔ character ∈ characters := by
  constructor
  · intro inside
    obtain ⟨range, listed, within⟩ := List.any_eq_true.mp inside
    rw [Bool.and_eq_true, decide_eq_true_eq, decide_eq_true_eq] at within
    rw [← Char.ofNat_toNat character]
    generalize character.toNat = code at within
    simp only [ranges, List.mem_cons, List.not_mem_nil, or_false] at listed
    rcases listed with
      rfl | rfl | rfl | rfl | rfl | rfl | rfl | rfl | rfl | rfl
    all_goals
      obtain ⟨from_first, to_last⟩ := within
      interval_cases code <;> decide
  · exact List.all_eq_true.mp (by decide) character

namespace Program

/-- A text starts with a run of characters of one kind, and has no longer prefix of
such characters. -/
structure StartsWithRun (kind : Char → Prop) (text run : List Char) : Prop where
  starts : run <+: text
  uniform : ∀ character ∈ run, kind character
  longest : ∀ other, other <+: text →
    (∀ character ∈ other, kind character) → other.length ≤ run.length

theorem startsWithRun_takeWhile
    {kind : Char → Prop}
    {test : Char → Bool}
    (test_iff : ∀ character, test character = true ↔ kind character)
    (text : List Char) :
    StartsWithRun kind text (text.takeWhile test) where
  starts := List.takeWhile_prefix test
  uniform := by
    intro character taken
    exact (test_iff character).mp
      (List.all_eq_true.mp List.all_takeWhile character taken)
  longest := by
    rintro other ⟨rest, rfl⟩ uniform
    rw [List.takeWhile_append_of_pos fun character member =>
      (test_iff character).mpr (uniform character member)]
    simp

/-- Digits shift what stands in front of them. -/
theorem ofDigitChars_behind (digits : List Char) (front : Nat) :
    Nat.ofDigitChars 2 digits front =
      2 ^ digits.length * front + Nat.ofDigitChars 2 digits 0 := by
  induction digits generalizing front with
  | nil => simp
  | cons digit rest inductionHypothesis =>
      rw [Nat.ofDigitChars_cons, Nat.ofDigitChars_cons, inductionHypothesis,
        inductionHypothesis (2 * 0 + _), List.length_cons]
      ring

/-- Fewer digits write smaller numbers. -/
theorem ofDigitChars_lt
    {digits : List Char}
    (binary : ∀ digit ∈ digits, digit = '0' ∨ digit = '1') :
    Nat.ofDigitChars 2 digits 0 < 2 ^ digits.length := by
  induction digits with
  | nil => decide
  | cons digit rest inductionHypothesis =>
      rw [List.forall_mem_cons] at binary
      have rest_lt := inductionHypothesis binary.2
      rw [Nat.ofDigitChars_cons, List.length_cons, Nat.pow_succ]
      rcases binary.1 with rfl | rfl
      · change Nat.ofDigitChars 2 rest 0 < _
        omega
      · change Nat.ofDigitChars 2 rest 1 < _
        rw [ofDigitChars_behind]
        omega

/-- Modulo 256 a number is what its last eight digits write. -/
theorem ofDigitChars_append_mod
    (front : List Char)
    {last : List Char}
    (binary : ∀ digit ∈ last, digit = '0' ∨ digit = '1')
    (eight : last.length = 8) :
    Nat.ofDigitChars 2 (front ++ last) 0 % 256 = Nat.ofDigitChars 2 last 0 := by
  have last_lt := ofDigitChars_lt binary
  rw [eight] at last_lt
  rw [Nat.ofDigitChars_append, ofDigitChars_behind, eight]
  omega

theorem lineByte?_eq_none_iff {line : List Char} :
    lineByte? (String.ofList line) = none ↔ binaryDigits line = [] := by
  constructor
  · intro silent
    by_contra nonempty
    rw [lineByte?_of_digits_ne_nil nonempty] at silent
    contradiction
  · exact lineByte?_of_digits_eq_nil

theorem lineByte?_eq_some_iff {line : List Char} {byte : UInt8} :
    lineByte? (String.ofList line) = some byte ↔
      binaryDigits line ≠ [] ∧
        byte.toNat = Nat.ofDigitChars 2 (binaryDigits line) 0 % 256 := by
  rcases Decidable.em (binaryDigits line = []) with silent | nonempty
  · rw [lineByte?_of_digits_eq_nil silent]
    simp [silent]
  · have value_eq : (binaryByte (binaryDigits line)).toNat = _ :=
      toNat_binaryByte List.all_takeWhile
    rw [lineByte?_of_digits_ne_nil nonempty, Option.some.injEq,
      ← UInt8.toNat_inj, value_eq, eq_comm]
    exact (and_iff_right nonempty).symm

/-- White space in front of a line makes no difference. -/
theorem binaryDigits_whiteSpace_append
    {indent : List Char}
    (indented : ∀ character ∈ indent, WhiteSpace.contains character = true)
    (line : List Char) :
    binaryDigits (indent ++ line) = binaryDigits line := by
  rw [binaryDigits, List.dropWhile_append_of_pos indented, binaryDigits]

/-- Behind a line with digits, text that starts with another character makes no
difference. -/
theorem binaryDigits_append_of_digits
    {line tail : List Char}
    (nonempty : binaryDigits line ≠ [])
    (ended : tail.head?.any isBinaryDigit = false) :
    binaryDigits (line ++ tail) = binaryDigits line := by
  refine binaryDigits_append_of_visible ?_ ended
  intro blank
  rw [binaryDigits, blank] at nonempty
  exact nonempty List.takeWhile_nil

/-- A line is white space, digits and a tail, where no white space follows the first
part and no digit the second. -/
theorem exists_runs (line : List Char) :
    ∃ indent tail,
      line = indent ++ (binaryDigits line ++ tail) ∧
        StartsWithRun (· ∈ WhiteSpace.characters) line indent ∧
        StartsWithRun (fun digit => digit = '0' ∨ digit = '1')
          (binaryDigits line ++ tail) (binaryDigits line) := by
  let rest := line.dropWhile WhiteSpace.contains
  have line_eq : line.takeWhile WhiteSpace.contains ++ rest = line :=
    List.takeWhile_append_dropWhile
  have rest_eq : binaryDigits line ++ rest.dropWhile isBinaryDigit = rest :=
    List.takeWhile_append_dropWhile
  refine ⟨line.takeWhile WhiteSpace.contains, rest.dropWhile isBinaryDigit, ?_, ?_, ?_⟩
  · rw [rest_eq, line_eq]
  · exact startsWithRun_takeWhile (fun _ => WhiteSpace.contains_iff) line
  · rw [rest_eq]
    exact startsWithRun_takeWhile (fun _ => isBinaryDigit_iff) rest

/-- The last eight of the digits decide the byte. -/
theorem lineByte?_of_eight
    {line front last : List Char}
    (digits_eq : binaryDigits line = front ++ last)
    (eight : last.length = 8) :
    ∃ byte,
      lineByte? (String.ofList line) = some byte ∧
        byte.toNat = Nat.ofDigitChars 2 last 0 := by
  have binary : ∀ digit ∈ last, digit = '0' ∨ digit = '1' := by
    intro digit member
    have taken : digit ∈ binaryDigits line := by
      rw [digits_eq]
      exact List.mem_append_right front member
    exact isBinaryDigit_iff.mp
      (List.all_eq_true.mp List.all_takeWhile digit taken)
  have nonempty : binaryDigits line ≠ [] := by
    rw [digits_eq]
    exact List.append_ne_nil_of_right_ne_nil front
      (List.ne_nil_of_length_pos (by omega))
  have number_eq := ofDigitChars_append_mod front binary eight
  rw [← digits_eq] at number_eq
  refine ⟨UInt8.ofNat (Nat.ofDigitChars 2 (binaryDigits line) 0), ?_, ?_⟩
  · exact lineByte?_eq_some_iff.mpr ⟨nonempty, UInt8.toNat_ofNat'⟩
  · exact UInt8.toNat_ofNat'.trans number_eq

/-- A line denotes the number of the first run of binary digits behind its white space,
modulo 256; other text around the run changes nothing. -/
theorem line_denotes_first_run (line : String) :
    (∀ character ∈ ['\n', '\r', '\u0085', '\u00A0', '\u3000'],
        character ∈ WhiteSpace.characters) ∧
      (∀ character ∈ ['\uFEFF', '\u200B'],
        character ∉ WhiteSpace.characters) ∧
      (∃ indent digits tail,
        line.toList = indent ++ (digits ++ tail) ∧
          StartsWithRun (· ∈ WhiteSpace.characters) line.toList indent ∧
          StartsWithRun (fun digit => digit = '0' ∨ digit = '1') (digits ++ tail)
            digits ∧
          (lineByte? line = none ↔ digits = []) ∧
          (∀ byte,
            lineByte? line = some byte ↔
              digits ≠ [] ∧ byte.toNat = Nat.ofDigitChars 2 digits 0 % 256) ∧
          ∀ front last, digits = front ++ last → last.length = 8 →
            ∃ byte,
              lineByte? line = some byte ∧
                byte.toNat = Nat.ofDigitChars 2 last 0) ∧
      (∀ indent : String,
        (∀ character ∈ indent.toList, character ∈ WhiteSpace.characters) →
          lineByte? (indent ++ line) = lineByte? line) ∧
      ∀ byte, lineByte? line = some byte →
        ∀ first rest, first ≠ '0' → first ≠ '1' →
          lineByte? (line ++ String.ofList (first :: rest)) = some byte := by
  obtain ⟨characters, rfl⟩ : ∃ characters, line = String.ofList characters :=
    ⟨line.toList, String.ofList_toList.symm⟩
  refine ⟨by simp [WhiteSpace.characters], by simp [WhiteSpace.characters],
    ?_, ?_, ?_⟩
  · obtain ⟨indent, tail, line_eq, whiteSpace, binary⟩ := exists_runs characters
    rw [String.toList_ofList]
    refine ⟨indent, binaryDigits characters, tail, line_eq, whiteSpace, binary,
      lineByte?_eq_none_iff, fun _ => lineByte?_eq_some_iff, ?_⟩
    intro front last digits_eq eight
    exact lineByte?_of_eight digits_eq eight
  · intro indent indented
    rw [lineByte?, lineByte?, String.toList_append,
      binaryDigits_whiteSpace_append fun character member =>
        WhiteSpace.contains_iff.mpr (indented character member)]
  · intro byte line_eq first rest notZero notOne
    have ended : (first :: rest).head?.any isBinaryDigit = false := by
      rw [List.head?_cons, Option.any_some, Bool.eq_false_iff, ne_eq,
        isBinaryDigit_iff, not_or]
      exact ⟨notZero, notOne⟩
    rw [lineByte?_eq_some_iff] at line_eq
    rw [← String.ofList_append, lineByte?_eq_some_iff,
      binaryDigits_append_of_digits line_eq.1 ended]
    exact line_eq

/-- Ten digits behind white space, and a comment that has digits of its own. -/
theorem line_denotes_first_run_behindIdeographicSpace :
    let line := "\u3000\t1100000101 # 11"
    let front := "\u0085\r\n"
    (∀ character ∈ front.toList, character ∈ WhiteSpace.characters) ∧
      lineByte? line = some 0x05 ∧
      lineByte? (front ++ line) = some 0x05 ∧
      lineByte? (line ++ "é0") = some 0x05 := by
  intro line front
  have line_eq : lineByte? line = some 0x05 := by decide
  have whiteSpace :
      ∀ character ∈ front.toList, character ∈ WhiteSpace.characters := by
    simp [front, WhiteSpace.characters]
  obtain ⟨_, _, _, prepended, appended⟩ := line_denotes_first_run line
  exact ⟨whiteSpace, line_eq, (prepended front whiteSpace).trans line_eq,
    appended 0x05 line_eq 'é' ['0'] (by decide) (by decide)⟩

end Program
end LS8
