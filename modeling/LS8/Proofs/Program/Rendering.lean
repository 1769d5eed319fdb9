import Mathlib.Data.List.GetD
import LS8.Proofs.Operations
import LS8.Proofs.Program.WholeText

/-!
# Renderings of images

An image can be written as text in many ways: with any white space in front of
the digits, with more digits than a byte has, with comments behind the digits,
with lines in between that denote nothing, and with either line end.  The texts
that are read as an image are exactly these renderings of it, so each of them
loads the image, provided that it fits into memory.
-/

namespace LS8
namespace Program

open Utf8

/-- How a line shows a byte, or shows none. -/
inductive Shows : Option UInt8 → List Char → Prop
  /-- White space, digits that write the byte modulo 256 in base two, and a tail
  that does not go on with the digits. -/
  | byte
      {value : UInt8}
      {indent digits tail : List Char}
      (indented : indent.all WhiteSpace.contains = true)
      (nonempty : digits ≠ [])
      (binary : digits.all isBinaryDigit = true)
      (writes : Nat.ofDigitChars 2 digits 0 % 256 = value.toNat)
      (ended : tail.head?.any isBinaryDigit = false) :
      Shows (some value) (indent ++ (digits ++ tail))
  /-- White space, and then nothing or another character. -/
  | nothing
      {indent rest : List Char}
      (indented : indent.all WhiteSpace.contains = true)
      (visible : rest.head?.any WhiteSpace.contains = false)
      (other : rest.head?.any isBinaryDigit = false) :
      Shows none (indent ++ rest)

/-- A text shows an image line by line.  Only the last line may be without a
line end. -/
inductive Renders : List UInt8 → List Char → Prop
  | empty : Renders [] []
  | unended
      {shown : Option UInt8}
      {line : List Char}
      (shows_line : Shows shown line)
      (whole : '\n' ∉ line) :
      Renders shown.toList line
  | ended
      {shown : Option UInt8}
      {line ending text : List Char}
      {image : List UInt8}
      (shows_line : Shows shown line)
      (whole : '\n' ∉ line)
      (ends : ending = ['\n'] ∨ ending = ['\r', '\n'])
      (others : Renders image text) :
      Renders (shown.toList ++ image) (line ++ (ending ++ text))

/-- A line denotes the byte that it shows. -/
theorem Shows.lineByte?_eq
    {shown : Option UInt8}
    {line : List Char}
    (shows_line : Shows shown line) :
    lineByte? (String.ofList line) = shown := by
  cases shows_line with
  | byte indented nonempty binary writes ended =>
      have digits_eq := binaryDigits_run indented nonempty binary ended
      rw [lineByte?_of_digits_ne_nil (by rw [digits_eq]; exact nonempty), digits_eq,
        ← UInt8.toNat_inj.mp ((toNat_binaryByte binary).trans writes)]
  | nothing indented visible other =>
      apply lineByte?_of_digits_eq_nil
      rw [binaryDigits_indent indented visible, takeWhile_eq_nil_of_head? other]

/-- Every line shows the byte that it denotes. -/
theorem shows_lineByte? (line : List Char) :
    Shows (lineByte? (String.ofList line)) line := by
  let indent := line.takeWhile WhiteSpace.contains
  let rest := line.dropWhile WhiteSpace.contains
  let tail := rest.dropWhile isBinaryDigit
  have indented : indent.all WhiteSpace.contains = true := List.all_takeWhile
  have visible : rest.head?.any WhiteSpace.contains = false :=
    head?_dropWhile_refused _ _
  have ended : tail.head?.any isBinaryDigit = false := head?_dropWhile_refused _ _
  have line_eq : indent ++ rest = line := List.takeWhile_append_dropWhile
  have rest_eq : binaryDigits line ++ tail = rest :=
    List.takeWhile_append_dropWhile
  rcases Decidable.em (binaryDigits line = []) with silent | nonempty
  · rw [silent, List.nil_append] at rest_eq
    have shows_line : Shows none (indent ++ rest) :=
      .nothing indented visible (rest_eq ▸ ended)
    rwa [line_eq, ← lineByte?_of_digits_eq_nil silent] at shows_line
  · have binary : (binaryDigits line).all isBinaryDigit = true :=
      List.all_takeWhile
    have shows_line :
        Shows (some (binaryByte (binaryDigits line)))
          (indent ++ (binaryDigits line ++ tail)) :=
      .byte indented nonempty binary (toNat_binaryByte binary).symm ended
    rwa [rest_eq, line_eq, ← lineByte?_of_digits_ne_nil nonempty] at shows_line

/-- The byte of the first line comes first. -/
theorem denoted_line_append
    {line : List Char}
    (whole : '\n' ∉ line)
    (text : List Char) :
    denoted (line ++ '\n' :: text) =
      (lineByte? (String.ofList line)).toList ++ denoted text := by
  rw [denoted_append, denoted_of_whole whole]

/-- A rendering of an image denotes the image. -/
theorem Renders.denoted_eq
    {image : List UInt8}
    {text : List Char}
    (renders : Renders image text) :
    denoted text = image := by
  induction renders with
  | empty => rfl
  | unended shows_line whole =>
      rw [denoted_of_whole whole, shows_line.lineByte?_eq]
  | @ended shown line ending text image shows_line whole ends others
      inductionHypothesis =>
      rcases ends with rfl | rfl
      · rw [List.singleton_append, denoted_line_append whole,
          shows_line.lineByte?_eq, inductionHypothesis]
      · -- The carriage return is white space at the end of the line.
        have whole_line : '\n' ∉ line ++ ['\r'] := by simpa using whole
        have regrouped :
            line ++ (['\r', '\n'] ++ text) = (line ++ ['\r']) ++ '\n' :: text := by
          simp
        rw [regrouped, denoted_line_append whole_line,
          lineByte?_concat_whiteSpace (by decide), shows_line.lineByte?_eq,
          inductionHypothesis]

/-- Every text is a rendering of what it denotes. -/
theorem renders_denoted (text : List Char) : Renders (denoted text) text := by
  rcases Decidable.em ('\n' ∈ text) with several | whole
  · obtain ⟨line, rest, text_eq, whole⟩ := List.eq_append_cons_of_mem several
    have shorter : rest.length < text.length := by
      rw [text_eq, List.length_append, List.length_cons]
      omega
    have renders :=
      Renders.ended (shows_lineByte? line) whole (.inl rfl) (renders_denoted rest)
    rw [List.singleton_append, ← denoted_line_append whole, ← text_eq] at renders
    exact renders
  · rw [denoted_of_whole whole]
    exact .unended (shows_lineByte? text) whole
termination_by text.length

/-- The texts that are read as an image are exactly its renderings. -/
theorem parse_encode_eq_ok_iff
    {image : List UInt8}
    {text : List Char} :
    parse (encode text) = .ok image ↔ Renders image text := by
  rw [parse_encode]
  constructor
  · intro denoted_eq
    rw [← Except.ok.inj denoted_eq]
    exact renders_denoted text
  · intro renders
    rw [renders.denoted_eq]

end Program

/-! ## Loading renderings -/

namespace Session

open Program Utf8

/-- Every rendering of an image is read as that image, and is loaded exactly when it has
no more bytes than memory has cells. -/
theorem rendering_loads_image
    (configuration : Configuration)
    (sink : Sink)
    {image : List UInt8}
    {text : List Char}
    (renders : Renders image text) :
    let session := start configuration sink
    let operation := Operation.loadText (encode text)
    parse (encode text) = .ok image ∧
      ((session.perform operation).2 = .done ↔ image.length ≤ 256) ∧
      (image.length ≤ 256 →
        ∃ memory : Memory,
          (session.perform operation).1 =
              session.withMachine { session.machine with memory } ∧
            (∀ address (inside : address.toNat < image.length),
              memory.read address = image[address.toNat]) ∧
            ∀ address,
              image.length ≤ address.toNat → memory.read address = 0) ∧
      (256 < image.length →
        session.perform operation =
          (session, .refused (.imageTooLarge image.length))) := by
  intro session operation
  have parse_eq : parse (encode text) = .ok image :=
    parse_encode_eq_ok_iff.mpr renders
  have performed :
      session.perform operation = session.answerLoad (session.load image) :=
    session.perform_loadText_of_parse parse_eq
  refine ⟨parse_eq, ?_⟩
  rcases Nat.lt_or_ge 256 image.length with tooLarge | fits
  · rw [performed, session.answerLoad_of_tooLarge tooLarge]
    refine ⟨?_, ?_, ?_⟩
    · simp [Nat.not_le.mpr tooLarge]
    · intro fits
      exact absurd tooLarge (Nat.not_lt.mpr fits)
    · intro _
      rfl
  · rw [performed, session.answerLoad_of_fits fits]
    refine ⟨?_, ?_, ?_⟩
    · simp [fits]
    · intro _
      refine ⟨_, rfl, ?_, ?_⟩
      · intro address inside
        rw [Memory.read_overlay]
        exact List.getD_eq_getElem _ _ inside
      · intro address behind
        rw [Memory.read_overlay, List.getD_eq_default _ _ behind]
        exact Memory.read_zeroed address
    · intro tooLarge
      exact absurd tooLarge (Nat.not_lt.mpr fits)

/-- A rendering of two bytes: ten digits behind a no-break space, a blank line, a
comment with a digit in it, and eight digits without a line end. -/
def roundaboutListing : List Char :=
  "\u00A0 1100000101 é\r\n\r\n# 1\n\u008510000000".toList

theorem renders_roundaboutListing : Renders [0x05, 0x80] roundaboutListing := by
  have last :=
    @Shows.byte 0x80 ['\u0085'] "10000000".toList [] (by decide) (by decide)
      (by decide) (by decide) (by decide)
  have comment :=
    @Shows.nothing [] "# 1".toList (by decide) (by decide) (by decide)
  have blank := @Shows.nothing [] [] (by decide) (by decide) (by decide)
  have first :=
    @Shows.byte 0x05 "\u00A0 ".toList "1100000101".toList " é".toList (by decide)
      (by decide) (by decide) (by decide) (by decide)
  have behind_comment := Renders.unended last (by decide)
  have behind_blank := Renders.ended comment (by decide) (.inl rfl) behind_comment
  have behind_first := Renders.ended blank (by decide) (.inr rfl) behind_blank
  have renders := Renders.ended first (by decide) (.inr rfl) behind_first
  refine (congrArg (Renders [0x05, 0x80]) ?_).mp renders
  decide

theorem rendering_loads_image_roundaboutListing :
    Renders [0x05, 0x80] roundaboutListing ∧
      ∃ memory : Memory,
        ((start .standard .unbounded).perform
            (.loadText (encode roundaboutListing))).1 =
          (start .standard .unbounded).withMachine
            { Machine.initial with memory } ∧
          memory.read 0 = 0x05 ∧ memory.read 1 = 0x80 ∧ memory.read 2 = 0 := by
  obtain ⟨_, _, loads, _⟩ :=
    rendering_loads_image .standard .unbounded renders_roundaboutListing
  obtain ⟨memory, loaded, inside, behind⟩ := loads (by decide)
  exact ⟨renders_roundaboutListing, memory, loaded, inside 0 (by decide),
    inside 1 (by decide), behind 2 (by decide)⟩

end Session
end LS8
