import LS8.Proofs.RegisterArithmetic

/-!
# Straight-line code

Statements are the instructions that always go on to the one behind them,
written with arbitrary operand bytes.  A list of statements is interpreted
directly, one statement after the other, on registers, flags, memory and output:
there is no program counter, and nothing is decoded.  The interpretation stops
early only where a divisor is zero.
-/

namespace LS8
namespace StraightLine

/-- What statements work on. -/
structure Data where
  registers : Registers
  /-- The bits of the flag register. -/
  flags : Nat
  memory : Memory
  /-- Everything written so far. -/
  output : String
  deriving DecidableEq

/-- An instruction that goes on to the one behind it, with its operand bytes. -/
inductive Statement where
  | ldi (target value : UInt8)
  | prn (source : UInt8)
  | push (source : UInt8)
  | pop (target : UInt8)
  | alu (op : AluOp) (first second : UInt8)
  deriving DecidableEq, Repr

/-- The data of a machine after a reset, with an image in memory and an output
to begin with. -/
def Data.loaded (image : List UInt8) (output : String) : Data where
  registers := .initial
  flags := 0
  memory := Memory.zeroed.overlay image
  output

/-- The data after a text has been written. -/
def Data.write (data : Data) (text : String) : Data :=
  { data with output := data.output ++ text }

/-- The bits of the flag register that are set when two numbers are compared: equal,
greater or less. -/
def comparisonBits (x y : Nat) : Nat :=
  if x = y then 1 else if y < x then 2 else 4

/-- What is written where a divisor is zero. -/
def zeroDivisionText : String := "Divide by Zero Error!\n"

namespace Statement

def opcode : Statement → Opcode
  | .ldi _ _ => .ldi
  | .prn _ => .prn
  | .push _ => .push
  | .pop _ => .pop
  | .alu op _ _ => .alu op

/-- The first operand byte. -/
def first : Statement → UInt8
  | .ldi target _ => target
  | .prn source => source
  | .push source => source
  | .pop target => target
  | .alu _ first _ => first

/-- The second operand byte, which is zero for statements with one operand. -/
def second : Statement → UInt8
  | .ldi _ value => value
  | .alu _ _ second => second
  | _ => 0

/-- The opcode byte with exactly as many operand bytes behind it as its two top
bits count. -/
def bytes (statement : Statement) : List UInt8 :=
  statement.opcode.byte ::
    [statement.first, statement.second].take
      (operandCount statement.opcode.byte).toNat

/-- The instruction that a statement is decoded to. -/
def instruction (statement : Statement) : Instruction :=
  .ofOpcode statement.opcode statement.first statement.second

/-- No opcode counts more than two operands. -/
theorem operandCount_le (opcode : Opcode) :
    (operandCount opcode.byte).toNat ≤ 2 := by
  cases opcode with
  | alu op => cases op <;> decide
  | _ => decide

theorem length_bytes (statement : Statement) :
    statement.bytes.length = (operandCount statement.opcode.byte).toNat + 1 := by
  have count_le := operandCount_le statement.opcode
  rw [bytes, List.length_cons, List.length_take_of_le]
  exact count_le

/-- The machine's length of an instruction is the number of its bytes. -/
theorem length_instruction (statement : Statement) :
    statement.instruction.length = UInt8.ofNat statement.bytes.length := by
  rw [instruction, Instruction.length, Instruction.opcode_ofOpcode, length_bytes,
    UInt8.ofNat_add, UInt8.ofNat_toNat]
  rfl

/-- The counted operands lie behind the opcode byte. -/
theorem getElem?_bytes
    (statement : Statement)
    {index : Nat}
    (counted : index < (operandCount statement.opcode.byte).toNat) :
    statement.bytes[index + 1]? = [statement.first, statement.second][index]? := by
  rw [bytes, List.getElem?_cons_succ, List.getElem?_take_of_lt counted]

/-- The statement divides by a register that is zero. -/
def DividesByZero (statement : Statement) (data : Data) : Prop :=
  match statement with
  | .alu op _ second =>
      (op = .div ∨ op = .mod) ∧ data.registers.get (.ofOperand second) = 0
  | _ => False

instance (statement : Statement) (data : Data) :
    Decidable (statement.DividesByZero data) :=
  match statement with
  | .alu op _ second =>
      inferInstanceAs (Decidable
        ((op = .div ∨ op = .mod) ∧ data.registers.get (.ofOperand second) = 0))
  | .ldi _ _ | .prn _ | .push _ | .pop _ => inferInstanceAs (Decidable False)

/-- Carry out a statement that does not divide by zero. -/
def apply (statement : Statement) (data : Data) : Data :=
  match statement with
  | .ldi target value =>
      { data with registers := data.registers.set (.ofOperand target) value }
  | .prn source =>
      data.write (Nat.repr (data.registers.get (.ofOperand source)).toNat ++ "\n")
  | .push source =>
      let top := data.registers.stackPointer - 1
      { data with
        memory := data.memory.write top (data.registers.get (.ofOperand source))
        registers := data.registers.setStackPointer top }
  | .pop target =>
      let top := data.registers.stackPointer
      { data with
        registers :=
          (data.registers.setStackPointer (top + 1)).set (.ofOperand target)
            (data.memory.read top) }
  | .alu op first second =>
      let x := (data.registers.get (.ofOperand first)).toNat
      let y := (data.registers.get (.ofOperand second)).toNat
      if op = .cmp then
        { data with flags := comparisonBits x y }
      else
        { data with
          registers :=
            data.registers.set (.ofOperand first) (.ofNat (op.number x y)) }

/-- The addresses that a statement writes: a push writes right below the stack
pointer. -/
def writes (statement : Statement) (data : Data) : List UInt8 :=
  match statement with
  | .push _ => [data.registers.stackPointer - 1]
  | _ => []

end Statement

/-- The bytes of statements, one behind the other. -/
def code (program : List Statement) : List UInt8 :=
  program.flatMap Statement.bytes

/-- The bytes of a program that halts behind its last statement. -/
def image (program : List Statement) : List UInt8 :=
  code program ++ [Opcode.hlt.byte]

/-- How the interpretation of a program ends. -/
structure Interpretation where
  data : Data
  /-- The position of the statement that divides by zero, counted from zero, if
  there is one. -/
  stop : Option Nat
  deriving DecidableEq

/-- Carry out statements one after the other, up to a division by zero, which
writes a message and changes nothing else. -/
def interpret : List Statement → Data → Interpretation
  | [], data => ⟨data, none⟩
  | statement :: rest, data =>
      if statement.DividesByZero data then
        ⟨data.write zeroDivisionText, some 0⟩
      else
        let tail := interpret rest (statement.apply data)
        ⟨tail.data, tail.stop.map (· + 1)⟩

/-- The addresses that the statements of a program write, in order. -/
def writes : List Statement → Data → List UInt8
  | [], _ => []
  | statement :: rest, data =>
      if statement.DividesByZero data then
        []
      else
        statement.writes data ++ writes rest (statement.apply data)

/-- The statements of a program in front of the one that divides by zero, or all
of them. -/
def Interpretation.completed
    (interpretation : Interpretation)
    (program : List Statement) :
    List Statement :=
  match interpretation.stop with
  | none => program
  | some position => program.take position

section Completed

variable {interpretation : Interpretation}

theorem Interpretation.completed_of_stop_eq_none
    (stop_eq : interpretation.stop = none)
    (program : List Statement) :
    interpretation.completed program = program := by
  rw [completed, stop_eq]

theorem Interpretation.completed_of_stop_eq_some
    {position : Nat}
    (stop_eq : interpretation.stop = some position)
    (program : List Statement) :
    interpretation.completed program = program.take position := by
  rw [completed, stop_eq]

/-- The completed statements are the first ones. -/
theorem Interpretation.exists_completed_append
    (interpretation : Interpretation)
    (program : List Statement) :
    ∃ rest, interpretation.completed program ++ rest = program := by
  cases stop_eq : interpretation.stop with
  | none =>
      rw [completed_of_stop_eq_none stop_eq]
      exact ⟨[], List.append_nil program⟩
  | some position =>
      rw [completed_of_stop_eq_some stop_eq]
      exact ⟨program.drop position, List.take_append_drop position program⟩

end Completed

@[simp] theorem code_nil : code [] = [] := rfl

theorem code_cons (statement : Statement) (rest : List Statement) :
    code (statement :: rest) = statement.bytes ++ code rest :=
  List.flatMap_cons

theorem code_append (front rest : List Statement) :
    code (front ++ rest) = code front ++ code rest :=
  List.flatMap_append

/-- The bytes of a statement inside an image. -/
theorem image_append_cons
    (front : List Statement)
    (statement : Statement)
    (rest : List Statement) :
    image (front ++ statement :: rest) =
      code front ++ (statement.bytes ++ image rest) := by
  rw [image, image, code_append, code_cons, List.append_assoc,
    List.append_assoc]

section Interpret

variable {statement : Statement} {rest : List Statement} {data : Data}

/-- A division by zero ends the interpretation. -/
theorem interpret_cons_of_divides
    (divides : statement.DividesByZero data) :
    interpret (statement :: rest) data =
      ⟨data.write zeroDivisionText, some 0⟩ := by
  rw [interpret, if_pos divides]

theorem interpret_cons
    (proceeds : ¬statement.DividesByZero data) :
    interpret (statement :: rest) data =
      ⟨(interpret rest (statement.apply data)).data,
        (interpret rest (statement.apply data)).stop.map (· + 1)⟩ := by
  rw [interpret, if_neg proceeds]

/-- A statement in front is completed first. -/
theorem completed_cons
    (proceeds : ¬statement.DividesByZero data) :
    (interpret (statement :: rest) data).completed (statement :: rest) =
      statement ::
        (interpret rest (statement.apply data)).completed rest := by
  rw [interpret_cons proceeds]
  unfold Interpretation.completed
  cases (interpret rest (statement.apply data)).stop <;> rfl

theorem writes_cons
    (proceeds : ¬statement.DividesByZero data) :
    writes (statement :: rest) data =
      statement.writes data ++ writes rest (statement.apply data) := by
  rw [writes, if_neg proceeds]

/-- The statement that divides by zero is one of the program. -/
theorem stop_lt
    {program : List Statement}
    {position : Nat}
    (stopped : (interpret program data).stop = some position) :
    position < program.length := by
  induction program generalizing data position with
  | nil => contradiction
  | cons statement rest inductionHypothesis =>
      rcases Decidable.em (statement.DividesByZero data) with divides | proceeds
      · rw [interpret_cons_of_divides divides] at stopped
        rw [← Option.some.inj stopped, List.length_cons]
        exact Nat.succ_pos rest.length
      · rw [interpret_cons proceeds, Option.map_eq_some_iff] at stopped
        obtain ⟨tail, tail_eq, rfl⟩ := stopped
        rw [List.length_cons]
        exact Nat.succ_lt_succ (inductionHypothesis tail_eq)

end Interpret

end StraightLine
end LS8
