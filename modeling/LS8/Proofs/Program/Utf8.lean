import LS8.Program.Text

/-!
# Lines of encoded text

The bytes of an ASCII character occur in UTF-8 only as that character.  Cutting
an encoded text at the bytes of its line feeds is therefore cutting the text at
its line feeds and encoding the pieces, and a sequence of bytes is an encoded
text exactly when all pieces between its line feeds are.
-/

namespace LS8
namespace Utf8

/-- The bytes of some characters in UTF-8. -/
def encode (characters : List Char) : List UInt8 :=
  characters.flatMap String.utf8EncodeChar

@[simp] theorem encode_nil : encode [] = [] := rfl

theorem encode_cons (character : Char) (rest : List Char) :
    encode (character :: rest) = String.utf8EncodeChar character ++ encode rest :=
  List.flatMap_cons

theorem encode_append (front back : List Char) :
    encode (front ++ back) = encode front ++ encode back :=
  List.flatMap_append

/-- Bytes are well-formed UTF-8 exactly when they encode some characters. -/
theorem isValidUTF8_iff {bytes : List UInt8} :
    bytes.toByteArray.IsValidUTF8 ↔ ∃ characters, bytes = encode characters := by
  constructor
  · rintro ⟨characters, bytes_eq⟩
    exact ⟨characters, List.toByteArray_inj.mp bytes_eq⟩
  · rintro ⟨characters, rfl⟩
    exact ⟨characters, rfl⟩

/-- A line decodes to exactly the text that it encodes. -/
theorem decodeLine?_eq_some_iff {line : List UInt8} {decoded : String} :
    Program.decodeLine? line = some decoded ↔ line = encode decoded.toList := by
  have encoded : (encode decoded.toList).toByteArray = decoded.toByteArray :=
    String.utf8Encode_toList
  unfold Program.decodeLine? String.fromUTF8?
  constructor
  · intro some_eq
    split at some_eq
    · have bytes_eq : line.toByteArray = decoded.toByteArray :=
        congrArg String.toByteArray (Option.some.inj some_eq)
      exact List.toByteArray_inj.mp (bytes_eq.trans encoded.symm)
    · contradiction
  · rintro rfl
    have valid : (encode decoded.toList).toByteArray.IsValidUTF8 :=
      isValidUTF8_iff.mpr ⟨_, rfl⟩
    rw [dif_pos valid]
    exact congrArg some (String.toByteArray_inj.mp encoded)

/-- All bytes of a character beyond ASCII are at least 128. -/
theorem mem_utf8EncodeChar_iff
    {byte : UInt8}
    {character : Char}
    (ascii : byte.toNat < 128) :
    byte ∈ String.utf8EncodeChar character ↔
      character.toNat = byte.toNat := by
  have code_eq : character.toNat = character.val.toNat := rfl
  unfold String.utf8EncodeChar
  dsimp only
  -- One case for each number of bytes.
  repeat' split
  all_goals
    simp only [List.mem_cons, List.not_mem_nil, or_false, ← UInt8.toNat_inj,
      UInt8.toNat_ofNat']
    omega

theorem lineFeed_mem_utf8EncodeChar_iff {character : Char} :
    Program.lineFeed ∈ String.utf8EncodeChar character ↔ character = '\n' := by
  rw [mem_utf8EncodeChar_iff (by decide), ← Char.toNat_inj]
  rfl

theorem carriageReturn_mem_utf8EncodeChar_iff {character : Char} :
    Program.carriageReturn ∈ String.utf8EncodeChar character ↔
      character = '\r' := by
  rw [mem_utf8EncodeChar_iff (by decide), ← Char.toNat_inj]
  rfl

theorem encode_lineFeed : encode ['\n'] = [Program.lineFeed] := by decide

theorem encode_carriageReturn : encode ['\r'] = [Program.carriageReturn] := by
  decide

/-- Bytes in front of the first line feed belong to the first piece. -/
theorem splitOn_append_of_not_mem
    {front : List UInt8}
    (whole : Program.lineFeed ∉ front)
    (back : List UInt8) :
    (front ++ back).splitOn Program.lineFeed =
      (back.splitOn Program.lineFeed).modifyHead (front ++ ·) := by
  induction front with
  | nil =>
      rw [List.nil_append]
      cases List.splitOn Program.lineFeed back <;> rfl
  | cons byte rest inductionHypothesis =>
      rw [List.mem_cons, not_or] at whole
      have different : (byte == Program.lineFeed) = false := by
        simpa using Ne.symm whole.1
      rw [List.cons_append, List.splitOn_cons_eq_if_modifyHead, different,
        inductionHypothesis whole.2, List.modifyHead_modifyHead]
      rfl

/-- Cutting the bytes of a text at their line feeds gives the bytes of the pieces
between its line feeds. -/
theorem splitOn_encode (characters : List Char) :
    (encode characters).splitOn Program.lineFeed =
      (characters.splitOn '\n').map encode := by
  induction characters with
  | nil => rfl
  | cons character rest inductionHypothesis =>
      rw [encode_cons, List.splitOn_cons_eq_if_modifyHead]
      rcases Decidable.em (character = '\n') with rfl | different
      · rw [if_pos (beq_self_eq_true _), List.map_cons, ← inductionHypothesis]
        exact List.splitOn_append_cons_self_of_not_mem List.not_mem_nil _
      · have whole : Program.lineFeed ∉ String.utf8EncodeChar character :=
          fun member => different (lineFeed_mem_utf8EncodeChar_iff.mp member)
        rw [splitOn_append_of_not_mem whole, inductionHypothesis,
          if_neg (by simpa using different)]
        cases rest.splitOn '\n' with
        | nil => rfl
        | cons piece pieces =>
            rw [List.map_cons, List.modifyHead_cons, List.modifyHead_cons,
              List.map_cons, encode_cons]

/-- Encoded pieces with line feeds between them encode the pieces with line feeds
between them. -/
theorem encode_intercalate (pieces : List (List Char)) :
    encode (['\n'].intercalate pieces) =
      [Program.lineFeed].intercalate (pieces.map encode) := by
  induction pieces with
  | nil => rfl
  | cons piece rest inductionHypothesis =>
      cases rest with
      | nil => simp
      | cons next others =>
          rw [List.intercalate_cons_cons, encode_append, encode_append,
            inductionHypothesis, encode_lineFeed]
          simp only [List.map_cons, List.intercalate_cons_cons]

/-- Bytes are an encoded text exactly when the pieces between their line feeds
are encoded texts. -/
theorem exists_encode_iff_pieces {bytes : List UInt8} :
    (∃ characters, bytes = encode characters) ↔
      ∃ pieces : List (List Char),
        bytes.splitOn Program.lineFeed = pieces.map encode := by
  constructor
  · rintro ⟨characters, rfl⟩
    exact ⟨_, splitOn_encode characters⟩
  · rintro ⟨pieces, pieces_eq⟩
    refine ⟨['\n'].intercalate pieces, ?_⟩
    rw [encode_intercalate, ← pieces_eq, List.intercalate_splitOn]

end Utf8
end LS8
