import LS8.Text.Decimal

/-!
# Program output

A program writes whole lines of ASCII text, so that one character is one byte.
A sink with limited room keeps as much of a line as fits and refuses the rest.
-/

namespace LS8

/-- A line that a program writes. -/
inductive OutputLine where
  /-- A printed value. -/
  | number (value : UInt8)
  /-- The message of a division by zero. -/
  | zeroDivision
  deriving DecidableEq, Repr

/-- The text of an output line, with its line feed. -/
def OutputLine.text : OutputLine → String
  | .number value => Decimal.ofByte value ++ "\n"
  | .zeroDivision => "Divide by Zero Error!\n"

/-- An output line has as many bytes as characters. -/
theorem OutputLine.utf8ByteSize_text (line : OutputLine) :
    line.text.utf8ByteSize = line.text.length := by
  cases line with
  | number value =>
      rw [text, String.utf8ByteSize_append, String.length_append,
        Decimal.ofByte, Decimal.utf8ByteSize_text]
      rfl
  | zeroDivision => decide

/-- Where a program's output goes. -/
structure Sink where
  /-- Everything kept so far. -/
  written : String
  /-- How many more characters are kept; without a number, all of them. -/
  room : Option Nat
  deriving DecidableEq, Repr

namespace Sink

/-- A sink that keeps everything. -/
def unbounded : Sink := ⟨"", none⟩

/-- A sink that keeps a given number of characters. -/
def bounded (capacity : Nat) : Sink := ⟨"", some capacity⟩

/-- A text fits into the room that is left. -/
def accepts (sink : Sink) (text : String) : Bool :=
  match sink.room with
  | none => true
  | some room => text.length ≤ room

/-- Keep as much of a text as there is room for. -/
def write (sink : Sink) (text : String) : Sink :=
  match sink.room with
  | none => { sink with written := sink.written ++ text }
  | some room =>
      { written := sink.written ++ String.ofList (text.toList.take room)
        room := some (room - text.length) }

@[simp] theorem accepts_of_room_none
    {sink : Sink}
    (noLimit : sink.room = none)
    (text : String) :
    sink.accepts text = true := by
  simp [accepts, noLimit]

/-- An accepted text is kept as a whole. -/
theorem written_write_of_accepts
    {sink : Sink}
    {text : String}
    (accepted : sink.accepts text = true) :
    (sink.write text).written = sink.written ++ text := by
  cases room_eq : sink.room with
  | none => simp [write, room_eq]
  | some room =>
      have fits : text.length ≤ room := by
        simpa [accepts, room_eq] using accepted
      have whole : text.toList.take room = text.toList :=
        List.take_of_length_le (by rwa [String.length_toList])
      simp [write, room_eq, whole]

/-- A bounded sink never keeps more than its room. -/
theorem room_write
    {sink : Sink}
    {room : Nat}
    (limited : sink.room = some room)
    (text : String) :
    (sink.write text).room = some (room - text.length) := by
  simp [write, limited]

end Sink
end LS8
