import Mathlib.Data.List.Basic
import LS8.Proofs.Program.Line
import LS8.Proofs.Program.Utf8

/-!
# Whole program texts

Lines are decoded one at a time, after the carriage return in front of a line
feed has been removed.  Nevertheless a text is read exactly when it is well-formed
UTF-8 as a whole, and its image consists of what the pieces between its line feeds
denote, carriage returns included.
-/

namespace LS8
namespace Program

open Utf8

/-- A line of characters without the carriage return at its end, if there is
one. -/
def withoutReturn (line : List Char) : List Char :=
  if line.getLast? = some '\r' then line.dropLast else line

/-- The carriage return at the end of a line denotes nothing. -/
theorem lineByte?_withoutReturn (line : List Char) :
    lineByte? (String.ofList (withoutReturn line)) =
      lineByte? (String.ofList line) := by
  rcases List.eq_nil_or_concat' line with rfl | ⟨front, last, rfl⟩
  · rfl
  · rw [withoutReturn, List.getLast?_concat, List.dropLast_concat]
    split
    case isTrue returned =>
      rw [Option.some.inj returned, lineByte?_concat_whiteSpace (by decide)]
    case isFalse => rfl

/-- The last byte of an encoded line is a carriage return exactly when its last
character is. -/
theorem dropCarriageReturn_encode (line : List Char) :
    dropCarriageReturn (encode line) = encode (withoutReturn line) := by
  rcases List.eq_nil_or_concat' line with rfl | ⟨front, last, rfl⟩
  · rfl
  · rcases Decidable.em (last = '\r') with rfl | different
    · rw [encode_append, encode_carriageReturn, dropCarriageReturn,
        List.getLast?_concat, if_pos rfl, List.dropLast_concat, withoutReturn,
        List.getLast?_concat, if_pos rfl, List.dropLast_concat]
    · have kept : (encode (front ++ [last])).getLast? ≠ some carriageReturn := by
        rw [encode_append, encode_cons, encode_nil, List.append_nil,
          List.getLast?_append_of_ne_nil _ String.utf8EncodeChar_ne_nil]
        intro returned
        exact different (carriageReturn_mem_utf8EncodeChar_iff.mp
          (List.mem_of_getLast? returned))
      rw [dropCarriageReturn, if_neg kept, withoutReturn, List.getLast?_concat,
        if_neg (by simpa using different)]

/-- A line is encoded text if it is without a carriage return at its end. -/
theorem exists_encode_of_dropCarriageReturn
    {line : List UInt8}
    {characters : List Char}
    (encoded : dropCarriageReturn line = encode characters) :
    ∃ whole, line = encode whole := by
  rw [dropCarriageReturn] at encoded
  split at encoded
  case isTrue returned =>
    obtain ⟨front, rfl⟩ := List.getLast?_eq_some_iff.mp returned
    rw [List.dropLast_concat] at encoded
    refine ⟨characters ++ ['\r'], ?_⟩
    rw [encoded, encode_append, encode_carriageReturn]
  case isFalse => exact ⟨characters, encoded⟩

theorem decodeLine?_encode (line : List Char) :
    decodeLine? (encode line) = some (String.ofList line) := by
  rw [decodeLine?_eq_some_iff, String.toList_ofList]

/-- Encoded pieces are decoded, and denote what the pieces denote. -/
theorem decode_trimLineEnds (pieces : List (List Char)) :
    ∃ decoded,
      (trimLineEnds (pieces.map encode)).mapM decodeLine? = some decoded ∧
        decoded.filterMap lineByte? =
          (pieces.map String.ofList).filterMap lineByte? := by
  induction pieces with
  | nil => exact ⟨[], rfl, rfl⟩
  | cons line rest inductionHypothesis =>
      cases rest with
      | nil =>
          refine ⟨[String.ofList line], ?_, rfl⟩
          simp [trimLineEnds, decodeLine?_encode]
      | cons next others =>
          obtain ⟨decoded, decoded_eq, bytes_eq⟩ := inductionHypothesis
          rw [List.map_cons] at decoded_eq
          refine ⟨String.ofList (withoutReturn line) :: decoded, ?_, ?_⟩
          · rw [List.map_cons, List.map_cons, trimLineEnds, List.mapM_cons,
              dropCarriageReturn_encode, decodeLine?_encode, decoded_eq]
            rfl
          · rw [List.filterMap_cons, lineByte?_withoutReturn, bytes_eq]
            rfl

/-- Pieces that can be decoded are encoded. -/
theorem exists_map_encode_of_decode
    {pieces : List (List UInt8)}
    {decoded : List String}
    (decoded_eq : (trimLineEnds pieces).mapM decodeLine? = some decoded) :
    ∃ texts : List (List Char), pieces = texts.map encode := by
  induction pieces generalizing decoded with
  | nil => exact ⟨[], rfl⟩
  | cons line rest inductionHypothesis =>
      cases rest with
      | nil =>
          rw [trimLineEnds, List.mapM_cons] at decoded_eq
          obtain ⟨text, text_eq, _⟩ := Option.bind_eq_some_iff.mp decoded_eq
          exact ⟨[text.toList], by
            rw [decodeLine?_eq_some_iff.mp text_eq, List.map_singleton]⟩
      | cons next others =>
          rw [trimLineEnds, List.mapM_cons] at decoded_eq
          obtain ⟨text, text_eq, rest_eq⟩ := Option.bind_eq_some_iff.mp decoded_eq
          obtain ⟨tail, tail_eq, _⟩ := Option.bind_eq_some_iff.mp rest_eq
          obtain ⟨texts, texts_eq⟩ := inductionHypothesis tail_eq
          obtain ⟨whole, whole_eq⟩ :=
            exists_encode_of_dropCarriageReturn (decodeLine?_eq_some_iff.mp text_eq)
          exact ⟨whole :: texts, by rw [whole_eq, texts_eq, List.map_cons]⟩

/-! ## Whole texts -/

/-- The bytes that the pieces between the line feeds of a text denote, in
order. -/
def denoted (characters : List Char) : List UInt8 :=
  ((characters.splitOn '\n').map String.ofList).filterMap lineByte?

/-- A text of one line denotes what the line denotes. -/
theorem denoted_of_whole
    {line : List Char}
    (whole : '\n' ∉ line) :
    denoted line = (lineByte? (String.ofList line)).toList := by
  rw [denoted, List.splitOn_eq_singleton whole, List.map_singleton,
    List.filterMap_cons]
  cases lineByte? (String.ofList line) <;> rfl

/-- Two texts with a line feed between them denote what the first and then what
the second denotes. -/
theorem denoted_append (front back : List Char) :
    denoted (front ++ '\n' :: back) = denoted front ++ denoted back := by
  rw [denoted, List.splitOn_append_cons_self, List.map_append,
    List.filterMap_append, denoted, denoted]

/-- The image of an encoded text consists of what its pieces denote. -/
theorem parse_encode (characters : List Char) :
    parse (encode characters) = .ok (denoted characters) := by
  obtain ⟨decoded, decoded_eq, bytes_eq⟩ :=
    decode_trimLineEnds (characters.splitOn '\n')
  rw [parse, lines, splitOn_encode, decoded_eq, denoted, ← bytes_eq]

/-- Bytes that encode no text are not read. -/
theorem parse_of_not_isValidUTF8
    {text : List UInt8}
    (invalid : ¬text.toByteArray.IsValidUTF8) :
    parse text = .error (.unreadable .invalidUtf8) := by
  rw [parse]
  split
  case h_1 decoded decoded_eq =>
    obtain ⟨texts, texts_eq⟩ := exists_map_encode_of_decode decoded_eq
    exact absurd
      (isValidUTF8_iff.mpr (exists_encode_iff_pieces.mpr ⟨texts, texts_eq⟩)) invalid
  case h_2 => rfl

/-- Bytes that encode a text are read. -/
theorem exists_parse_of_isValidUTF8
    {text : List UInt8}
    (valid : text.toByteArray.IsValidUTF8) :
    ∃ image, parse text = .ok image := by
  obtain ⟨characters, rfl⟩ := isValidUTF8_iff.mp valid
  exact ⟨denoted characters, parse_encode characters⟩

/-- Reading a program text fails exactly when the text as a whole is not well-formed
UTF-8; otherwise its lines denote the image in order. -/
theorem parse_reads_whole_text (text : List UInt8) :
    ((∃ error, parse text = .error error) ↔ ¬text.toByteArray.IsValidUTF8) ∧
      (∀ error,
        parse text = .error error → error = .unreadable .invalidUtf8) ∧
      (text.toByteArray.IsValidUTF8 →
        ∃ pieces : List String,
          (pieces.map fun piece => encode piece.toList) =
              text.splitOn lineFeed ∧
            parse text = .ok (pieces.filterMap lineByte?)) := by
  rcases Decidable.em text.toByteArray.IsValidUTF8 with valid | invalid
  · obtain ⟨characters, rfl⟩ := isValidUTF8_iff.mp valid
    have parse_eq := parse_encode characters
    refine ⟨?_, ?_, ?_⟩
    · simp [parse_eq, valid]
    · intro error failed
      rw [parse_eq] at failed
      contradiction
    · intro _
      refine ⟨(characters.splitOn '\n').map String.ofList, ?_, parse_eq⟩
      rw [splitOn_encode, List.map_map]
      apply List.map_congr_left
      intro piece _
      rw [Function.comp_apply, String.toList_ofList]
  · have parse_eq := parse_of_not_isValidUTF8 invalid
    refine ⟨?_, ?_, ?_⟩
    · simp [parse_eq, invalid]
    · intro error failed
      rw [parse_eq] at failed
      exact (Except.error.inj failed).symm
    · intro valid
      contradiction

/-- A listing of two bytes with a comment beyond ASCII, two carriage returns,
white space of two bytes, and nothing behind its last line. -/
def commentedListing : List UInt8 :=
  [0x31, 0x20, 0xC3, 0xA9, 0x0D, 0x0A, 0x0D, 0x0A, 0xC2, 0x85, 0x31, 0x30, 0x31]

/-- The listing followed by a comment in which a line feed stands between the two
bytes of a character. -/
def brokenBehindListing : List UInt8 :=
  commentedListing ++ [0x0A, 0x23, 0xC3, 0x0A, 0xA9]

theorem parse_reads_whole_text_commentedListing :
    commentedListing.toByteArray.IsValidUTF8 ∧
      parse commentedListing = .ok [0x01, 0x05] ∧
      (∃ pieces : List String,
        (pieces.map fun piece => encode piece.toList) =
            commentedListing.splitOn lineFeed ∧
          pieces.filterMap lineByte? = [0x01, 0x05]) ∧
      parse brokenBehindListing = .error (.unreadable .invalidUtf8) := by
  have valid : commentedListing.toByteArray.IsValidUTF8 := by decide
  have image_eq : parse commentedListing = .ok [0x01, 0x05] := by decide
  obtain ⟨pieces, pieces_eq, parse_eq⟩ :=
    (parse_reads_whole_text commentedListing).2.2 valid
  obtain ⟨fails, reason, _⟩ := parse_reads_whole_text brokenBehindListing
  obtain ⟨error, failed⟩ := fails.mpr (by decide)
  refine ⟨valid, image_eq, ⟨pieces, pieces_eq, ?_⟩, ?_⟩
  · rw [image_eq] at parse_eq
    exact (Except.ok.inj parse_eq).symm
  · rw [failed, reason error failed]

end Program
end LS8
