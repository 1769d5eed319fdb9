import LS8.Proofs.Program.WholeText

/-!
# Composing program texts

A line feed separates what stands before it from what follows: two texts with a
line feed between them are read exactly when both are, and the image is the one
image followed by the other.  As a carriage return at the end of a text denotes
nothing, it follows that carriage returns can be put in front of any of the line
feeds of a text, whatever the text holds there.
-/

namespace LS8
namespace Program

open Utf8

/-- Two texts with a line feed between them are well-formed UTF-8 exactly when
both are. -/
theorem isValidUTF8_append_lineFeed_iff {first second : List UInt8} :
    (first ++ lineFeed :: second).toByteArray.IsValidUTF8 ↔
      first.toByteArray.IsValidUTF8 ∧ second.toByteArray.IsValidUTF8 := by
  simp only [isValidUTF8_iff, exists_encode_iff_pieces,
    List.splitOn_append_cons_self]
  constructor
  · rintro ⟨texts, pieces_eq⟩
    obtain ⟨front, back, -, front_eq, back_eq⟩ :=
      List.map_eq_append_iff.mp pieces_eq.symm
    exact ⟨⟨front, front_eq.symm⟩, ⟨back, back_eq.symm⟩⟩
  · rintro ⟨⟨front, front_eq⟩, ⟨back, back_eq⟩⟩
    exact ⟨front ++ back, by rw [front_eq, back_eq, List.map_append]⟩

/-- The image of two texts with a line feed between them is the image of the
first followed by the image of the second, if both have one. -/
theorem parse_append_lineFeed (first second : List UInt8) :
    parse (first ++ lineFeed :: second) =
      (do
        let front ← parse first
        let back ← parse second
        return front ++ back) := by
  rcases Decidable.em first.toByteArray.IsValidUTF8 with firstValid | firstInvalid
  · rcases Decidable.em second.toByteArray.IsValidUTF8 with
      secondValid | secondInvalid
    · obtain ⟨front, rfl⟩ := isValidUTF8_iff.mp firstValid
      obtain ⟨back, rfl⟩ := isValidUTF8_iff.mp secondValid
      have joined :
          encode front ++ lineFeed :: encode back =
            encode (front ++ '\n' :: back) := by
        rw [encode_append, encode_cons]
        rfl
      rw [joined, parse_encode, parse_encode, parse_encode, denoted_append]
      rfl
    · have invalid : ¬(first ++ lineFeed :: second).toByteArray.IsValidUTF8 :=
        fun valid => secondInvalid (isValidUTF8_append_lineFeed_iff.mp valid).2
      obtain ⟨front, rfl⟩ := isValidUTF8_iff.mp firstValid
      rw [parse_of_not_isValidUTF8 invalid, parse_of_not_isValidUTF8 secondInvalid,
        parse_encode]
      rfl
  · have invalid : ¬(first ++ lineFeed :: second).toByteArray.IsValidUTF8 :=
      fun valid => firstInvalid (isValidUTF8_append_lineFeed_iff.mp valid).1
    rw [parse_of_not_isValidUTF8 invalid, parse_of_not_isValidUTF8 firstInvalid]
    rfl

/-- A carriage return at the end of a text denotes nothing. -/
theorem denoted_concat_return (text : List Char) :
    denoted (text ++ ['\r']) = denoted text := by
  rcases Decidable.em ('\n' ∈ text) with several | whole
  · obtain ⟨line, rest, text_eq, -⟩ := List.eq_append_cons_of_mem several
    have shorter : rest.length < text.length := by
      rw [text_eq, List.length_append, List.length_cons]
      omega
    rw [text_eq, List.append_assoc, List.cons_append, denoted_append, denoted_append,
      denoted_concat_return rest]
  · have whole_return : '\n' ∉ text ++ ['\r'] := by simpa using whole
    rw [denoted_of_whole whole_return, denoted_of_whole whole,
      lineByte?_concat_whiteSpace (by decide)]
termination_by text.length

theorem isValidUTF8_concat_return_iff {text : List UInt8} :
    (text ++ [carriageReturn]).toByteArray.IsValidUTF8 ↔
      text.toByteArray.IsValidUTF8 := by
  have dropped : dropCarriageReturn (text ++ [carriageReturn]) = text := by
    rw [dropCarriageReturn, List.getLast?_concat, if_pos rfl, List.dropLast_concat]
  rw [isValidUTF8_iff, isValidUTF8_iff]
  constructor
  · rintro ⟨characters, text_eq⟩
    rw [text_eq, dropCarriageReturn_encode] at dropped
    exact ⟨_, dropped.symm⟩
  · rintro ⟨characters, text_eq⟩
    exact exists_encode_of_dropCarriageReturn (dropped.trans text_eq)

/-- A text is read the same with a carriage return at its end. -/
theorem parse_concat_return (text : List UInt8) :
    parse (text ++ [carriageReturn]) = parse text := by
  rcases Decidable.em text.toByteArray.IsValidUTF8 with valid | invalid
  · obtain ⟨characters, rfl⟩ := isValidUTF8_iff.mp valid
    rw [← encode_carriageReturn, ← encode_append, parse_encode, parse_encode,
      denoted_concat_return]
  · rw [parse_of_not_isValidUTF8 invalid,
      parse_of_not_isValidUTF8 (isValidUTF8_concat_return_iff.not.mpr invalid)]

/-- A text whose first byte has a given position, with a carriage return in front
of each line feed at a chosen position. -/
def addReturnsFrom (chosen : Nat → Bool) : (position : Nat) → List UInt8 → List UInt8
  | _, [] => []
  | position, byte :: rest =>
      if byte = lineFeed ∧ chosen position then
        carriageReturn :: byte :: addReturnsFrom chosen (position + 1) rest
      else
        byte :: addReturnsFrom chosen (position + 1) rest

/-- A text with a carriage return in front of each line feed at a chosen
position. -/
def addReturns (chosen : Nat → Bool) (text : List UInt8) : List UInt8 :=
  addReturnsFrom chosen 0 text

/-- Behind any text, carriage returns in front of line feeds make no
difference. -/
theorem parse_append_addReturnsFrom
    (chosen : Nat → Bool)
    (position : Nat)
    (front text : List UInt8) :
    parse (front ++ addReturnsFrom chosen position text) = parse (front ++ text) := by
  induction text generalizing position front with
  | nil => rfl
  | cons byte rest inductionHypothesis =>
      rw [addReturnsFrom]
      split
      case isTrue added =>
        have rest_eq := inductionHypothesis (position + 1) []
        rw [List.nil_append, List.nil_append] at rest_eq
        rw [added.1, List.append_cons, parse_append_lineFeed, parse_concat_return,
          rest_eq, ← parse_append_lineFeed]
      case isFalse =>
        rw [List.append_cons, List.append_cons front byte rest]
        exact inductionHypothesis (position + 1) (front ++ [byte])

/-- The image of two texts with a line feed between them is the two images one behind the
other, and carriage returns in front of line feeds change nothing. -/
theorem texts_compose (first second text : List UInt8) (chosen : Nat → Bool) :
    ((∃ image, parse (first ++ [lineFeed] ++ second) = .ok image) ↔
        (∃ image, parse first = .ok image) ∧ ∃ image, parse second = .ok image) ∧
      (∀ firstImage secondImage,
        parse first = .ok firstImage →
          parse second = .ok secondImage →
            parse (first ++ [lineFeed] ++ second) =
              .ok (firstImage ++ secondImage)) ∧
      parse (addReturns chosen text) = parse text := by
  rw [List.append_assoc, List.singleton_append, parse_append_lineFeed]
  refine ⟨?_, ?_, parse_append_addReturnsFrom chosen 0 [] text⟩
  · rcases parse first with error | firstImage
    · simp [bind, Except.bind]
    · rcases parse second with error | secondImage
      · simp [bind, Except.bind]
      · simp [bind, Except.bind, pure, Except.pure]
  · intro firstImage secondImage first_eq second_eq
    rw [first_eq, second_eq]
    rfl

/-- A choice of a line that ends in a carriage return already, and of one that
ends between the two bytes of a character. -/
def awkwardLines (position : Nat) : Bool :=
  position = 5 ∨ position = 16

theorem texts_compose_commentedListing :
    parse commentedListing = .ok [0x01, 0x05] ∧
      parse (commentedListing ++ [lineFeed] ++ commentedListing) =
        .ok [0x01, 0x05, 0x01, 0x05] ∧
      (¬∃ image,
        parse (commentedListing ++ [lineFeed] ++ brokenBehindListing) =
          .ok image) ∧
      (addReturns awkwardLines brokenBehindListing).length =
        brokenBehindListing.length + 2 ∧
      parse (addReturns awkwardLines brokenBehindListing) =
        .error (.unreadable .invalidUtf8) := by
  have image_eq : parse commentedListing = .ok [0x01, 0x05] := by decide
  have broken_eq :
      parse brokenBehindListing = .error (.unreadable .invalidUtf8) := by
    decide
  obtain ⟨_, composes, returns_eq⟩ :=
    texts_compose commentedListing commentedListing brokenBehindListing
      awkwardLines
  obtain ⟨reads, _, _⟩ :=
    texts_compose commentedListing brokenBehindListing [] awkwardLines
  refine ⟨image_eq, composes _ _ image_eq image_eq, ?_, by decide, ?_⟩
  · intro read
    obtain ⟨image, second_eq⟩ := (reads.mp read).2
    rw [broken_eq] at second_eq
    contradiction
  · rw [returns_eq, broken_eq]

end Program
end LS8
