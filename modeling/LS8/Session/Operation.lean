import LS8.Program.Text
import LS8.Session

/-!
# Host operations

Everything that a host can do with a session, as data: each operation gives an
answer and the session that follows.  An operation that fails leaves the
machine as it was, except that a failing run keeps the steps it has made.
-/

namespace LS8

/-- Something that a host does with a session. -/
inductive Operation where
  /-- Load an image. -/
  | load (image : List UInt8)
  /-- Read a program text and load its image. -/
  | loadText (text : List UInt8)
  /-- Set the program counter. -/
  | setPc (address : UInt8)
  /-- Set a register. -/
  | setRegister (register : Register) (value : UInt8)
  /-- Set the stack pointer. -/
  | setStackPointer (address : UInt8)
  /-- Ask for the value of a register. -/
  | getRegister (register : Register)
  /-- Set a memory cell. -/
  | write (address value : UInt8)
  /-- Ask for the value of a memory cell. -/
  | read (address : UInt8)
  /-- Push a value on the stack. -/
  | push (value : UInt8)
  /-- Pop a value off the stack. -/
  | pop
  /-- Execute one instruction. -/
  | step
  /-- Execute instructions until something stops the run. -/
  | run
  /-- Put the machine back to its state after a reset. -/
  | reset
  /-- Ask for the trace line. -/
  | traceLine
  /-- Ask for all memory cells. -/
  | dump
  /-- Ask for the text that lists the used memory cells. -/
  | summary
  deriving DecidableEq, Repr

/-- What a host is told after an operation. -/
inductive Answer where
  | done
  | byte (value : UInt8)
  | bytes (values : List UInt8)
  | text (line : String)
  | status (status : Status)
  | outcome (outcome : Outcome)
  | refused (error : LoadError)
  | failed (error : ExecutionError)
  deriving DecidableEq, Repr

/-- An operation was answered by an error. -/
def Answer.isError : Answer → Bool
  | .refused _ => true
  | .failed _ => true
  | .outcome (.failed _) => true
  | _ => false

namespace Session

/-- A session with another machine. -/
def withMachine (session : Session) (machine : Machine) : Session :=
  { session with machine }

/-- Answer an attempt to load an image. -/
def answerLoad (session : Session) (loaded : Except LoadError Session) :
    Session × Answer :=
  match loaded with
  | .ok loaded => (loaded, .done)
  | .error error => (session, .refused error)

/-- Carry out an operation. -/
def perform (session : Session) (operation : Operation) : Session × Answer :=
  let machine := session.machine
  match operation with
  | .load image => session.answerLoad (session.load image)
  | .loadText text => session.answerLoad (Program.parse text >>= session.load)
  | .setPc address => (session.withMachine { machine with pc := address }, .done)
  | .setRegister register value =>
      (session.withMachine (machine.set register value), .done)
  | .setStackPointer address =>
      (session.withMachine (machine.set .stackPointer address), .done)
  | .getRegister register => (session, .byte (machine.get register))
  | .write address value =>
      (session.withMachine
        { machine with memory := machine.memory.write address value }, .done)
  | .read address => (session, .byte (machine.memory.read address))
  | .push value => (session.withMachine (machine.push value), .done)
  | .pop => (session.withMachine machine.pop.2, .byte machine.pop.1)
  | .step =>
      match session.step with
      | (session, .ok status) => (session, .status status)
      | (session, .error error) => (session, .failed error)
  | .run =>
      let (session, outcome) := session.run
      (session, .outcome outcome)
  | .reset => (session.reset, .done)
  | .traceLine => (session, .text machine.traceLine)
  | .dump => (session, .bytes machine.memory.toList)
  | .summary => (session, .text machine.memory.summary)

end Session
end LS8
