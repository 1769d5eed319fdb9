import LS8.CommandLine.Host

/-!
# The program

The command on the files and the output streams of the operating system.
-/

namespace LS8
namespace CommandLine

/-- What the operating system finds at a path.  A directory can be opened, and
then fails to be read with its own error code. -/
def findFile (path : String) : IO Finding := do
  try
    return .file (← IO.FS.readBinFile path).toList
  catch
    | .inappropriateType _ 21 _ => return .directory
    | _ => return .missing

/-- Print texts on the output streams of the process. -/
def display (stdout stderr : String) : IO Unit := do
  IO.print stdout
  (← IO.getStdout).flush
  IO.eprint stderr

/-- The operating system as a host. -/
def operatingSystem : Host IO where
  find := findFile
  display := display

end CommandLine
end LS8

open LS8.CommandLine in
/-- Run the command with the arguments of the process. -/
def main (arguments : List String) : IO UInt32 :=
  operatingSystem.command arguments
