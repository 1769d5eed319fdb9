import LS8.Session

/-!
# Command-line arguments

Arguments are read from left to right, and the first one that cannot be
accepted decides the error.  They are first cut into items: an option with its
value is one item, whether the value is a part of the argument or the next
argument.  The items are then taken one after another.  Two dashes alone end
the options, and one dash alone is a path.
-/

namespace LS8
namespace CommandLine

/-- What the arguments ask to be run. -/
structure Request where
  /-- The path of the program text. -/
  path : String
  configuration : Configuration
  deriving DecidableEq, Repr

/-- What the arguments ask for. -/
inductive Command where
  /-- Show the help text. -/
  | help
  /-- Run a program. -/
  | execute (request : Request)
  deriving DecidableEq, Repr

/-- Why the arguments are not accepted. -/
inductive UsageError where
  | unknownOption (argument : String)
  | repeatedOption (option : String)
  | unexpectedValue (option : String)
  | missingValue (option : String)
  | invalidLimit (text : String)
  | emptyPath
  | extraArgument (argument : String)
  | missingPath
  deriving DecidableEq, Repr

/-- The wording of a usage error. -/
def UsageError.message : UsageError → String
  | .unknownOption argument => "unexpected argument '" ++ argument ++ "'"
  | .repeatedOption option => option ++ " is given more than once"
  | .unexpectedValue option => option ++ " takes no value"
  | .missingValue option => option ++ " needs a value"
  | .invalidLimit text => "'" ++ text ++ "' is not a number of instructions"
  | .emptyPath => "the path of the program is empty"
  | .extraArgument argument => "unexpected argument '" ++ argument ++ "'"
  | .missingPath => "the path of a program is required"

/-- The largest limit that can be asked for. -/
def largestLimit : Nat := UInt64.size - 1

/-- The digits of a limit, without the plus sign that may stand before them. -/
def limitDigits (text : List Char) : List Char :=
  match text with
  | '+' :: digits => digits
  | digits => digits

/-- The limit that a text writes: decimal digits, perhaps behind a plus sign,
of a value up to the largest limit. -/
def limitOfText? (text : String) : Option Nat :=
  let digits := limitDigits text.toList
  let value := Nat.ofDigitChars 10 digits 0
  if !digits.isEmpty && digits.all Char.isDigit && value ≤ largestLimit then
    some value
  else
    none

/-- What one option, or one other argument, asks for. -/
inductive Item where
  /-- The path of the program. -/
  | path (text : String)
  /-- Record a trace. -/
  | trace
  /-- Treat unknown opcodes as errors. -/
  | strict
  /-- Limit the number of steps. -/
  | limit (text : String)
  /-- Show the help text. -/
  | help
  /-- Nothing that could be understood. -/
  | refused (error : UsageError)
  deriving DecidableEq, Repr

/-- What a single argument is. -/
inductive Argument where
  /-- A whole item. -/
  | item (item : Item)
  /-- The option for the limit, whose value is the next argument. -/
  | limitOption
  /-- Two dashes alone: only paths follow. -/
  | endOfOptions
  deriving DecidableEq, Repr

/-- An argument has the form of an option: a dash with something behind it. -/
def isOptionLike (text : String) : Bool :=
  match text.toList with
  | '-' :: _ :: _ => true
  | _ => false

namespace Argument

/-- The argument that asks for a flag, which takes no value. -/
def flag (item : Item) (option : String) (value : Option String) : Argument :=
  match value with
  | none => .item item
  | some _ => .item (.refused (.unexpectedValue option))

/-- The argument with a long option name, and with a value if an equals sign
follows the name. -/
def longOption (text name : String) (value : Option String) : Argument :=
  match name with
  | "trace" => flag .trace "--trace" value
  | "strict" => flag .strict "--strict" value
  | "help" => flag .help "--help" value
  | "max-steps" =>
      match value with
      | none => .limitOption
      | some limit => .item (.limit limit)
  | _ => .item (.refused (.unknownOption text))

/-- What the characters behind the first equals sign are, if there is one. -/
def valueOf (option : List Char) : Option String :=
  match option.dropWhile (· != '=') with
  | [] => none
  | _ :: value => some (String.ofList value)

/-- What the characters before the first equals sign are. -/
def nameOf (option : List Char) : String :=
  String.ofList (option.takeWhile (· != '='))

/-- Understand a single argument. -/
def ofText (text : String) : Argument :=
  match text.toList with
  | ['-', '-'] => .endOfOptions
  | '-' :: '-' :: option => longOption text (nameOf option) (valueOf option)
  | '-' :: 'h' :: _ => .item .help
  | '-' :: _ :: _ => .item (.refused (.unknownOption text))
  | _ => .item (.path text)

/-- An argument that has not the form of an option is a path. -/
theorem ofText_of_not_optionLike
    {text : String}
    (plain : isOptionLike text = false) :
    ofText text = .item (.path text) := by
  unfold isOptionLike at plain
  unfold ofText
  split at plain <;> simp_all

@[simp] theorem ofText_trace : ofText "--trace" = .item .trace := by
  decide

@[simp] theorem ofText_strict : ofText "--strict" = .item .strict := by
  decide

@[simp] theorem ofText_limitOption : ofText "--max-steps" = .limitOption := by
  decide

@[simp] theorem ofText_endOfOptions : ofText "--" = .endOfOptions := by
  decide

@[simp] theorem ofText_limit (limit : String) :
    ofText ("--max-steps=" ++ limit) = .item (.limit limit) := by
  simp [ofText, nameOf, valueOf, longOption]

end Argument

/-- The items of the arguments, when the last argument before them may have been
the option for the limit and still await its value. -/
def itemsFrom : (awaitingLimit : Bool) → List String → List Item
  | false, [] => []
  | true, [] => [.refused (.missingValue "--max-steps")]
  | true, text :: rest =>
      if isOptionLike text then
        [.refused (.missingValue "--max-steps")]
      else
        .limit text :: itemsFrom false rest
  | false, text :: rest =>
      match Argument.ofText text with
      | .item item => item :: itemsFrom false rest
      | .limitOption => itemsFrom true rest
      | .endOfOptions => rest.map .path

/-- The items of the arguments. -/
def items (arguments : List String) : List Item :=
  itemsFrom false arguments

/-! ## Taking items -/

/-- What the items so far ask for. -/
structure Draft where
  path : Option String
  tracing : Bool
  strict : Bool
  limit : Option Nat
  deriving DecidableEq, Repr

namespace Draft

/-- Nothing has been asked for. -/
def blank : Draft := ⟨none, false, false, none⟩

/-- Take the path of the program. -/
def takePath (draft : Draft) (text : String) : Except UsageError Draft :=
  match draft.path with
  | some _ => .error (.extraArgument text)
  | none =>
      if text = "" then
        .error .emptyPath
      else
        .ok { draft with path := some text }

/-- Ask for a trace. -/
def takeTrace (draft : Draft) : Except UsageError Draft :=
  if draft.tracing then
    .error (.repeatedOption "--trace")
  else
    .ok { draft with tracing := true }

/-- Ask for unknown opcodes to be errors. -/
def takeStrict (draft : Draft) : Except UsageError Draft :=
  if draft.strict then
    .error (.repeatedOption "--strict")
  else
    .ok { draft with strict := true }

/-- Take the text of a limit. -/
def takeLimit (draft : Draft) (text : String) : Except UsageError Draft :=
  match draft.limit, limitOfText? text with
  | some _, _ => .error (.repeatedOption "--max-steps")
  | none, none => .error (.invalidLimit text)
  | none, some limit => .ok { draft with limit := some limit }

/-- The request of a draft to which nothing is added. -/
def finish (draft : Draft) : Except UsageError Command :=
  match draft.path with
  | none => .error .missingPath
  | some path =>
      .ok (.execute {
        path
        configuration := {
          policy := if draft.strict then .fault else .stall
          limit := draft.limit
          tracing := draft.tracing } })

/-- Take items until they end, or until one of them decides the command. -/
def take (draft : Draft) : List Item → Except UsageError Command
  | [] => draft.finish
  | .help :: _ => .ok .help
  | .refused error :: _ => .error error
  | .path text :: rest => do take (← draft.takePath text) rest
  | .trace :: rest => do take (← draft.takeTrace) rest
  | .strict :: rest => do take (← draft.takeStrict) rest
  | .limit text :: rest => do take (← draft.takeLimit text) rest

end Draft

/-- The command that arguments ask for. -/
def read (arguments : List String) : Except UsageError Command :=
  Draft.blank.take (items arguments)

end CommandLine
end LS8
