import Dispatch.CommandLine

/-!
# The program

Reads the file that the command line names and prints the answer. Everything that is decided is
decided in `Dispatch.CommandLine`.
-/

set_option autoImplicit false

namespace Dispatch

/-- The bytes of a file, if it can be read. -/
def readFile? (path : String) : IO (Option ByteArray) := do
  try
    return some (← IO.FS.readBinFile path)
  catch _ =>
    return none

/-- The time since the program was started, as the log shows it. -/
def timeStamp : IO String := do
  let milliseconds ← IO.monoMsNow
  let fraction := String.ofList (List.leftpad 3 '0' (Nat.toDigits 10 (milliseconds % 1000)))
  return toString (milliseconds / 1000) ++ "." ++ fraction ++ "s"

/-- Prints a report and gives its exit code. -/
def Report.print (report : Report) : IO UInt32 := do
  let time ← timeStamp
  (← IO.getStdout).putStr (report.text fun _ event => event.line time)
  if let some failure := report.failure then
    (← IO.getStderr).putStr ("Error: " ++ failure.inspect ++ "\n")
  return report.exitCode

/-- Answers a command line. -/
def answer (words : List String) : IO UInt32 := do
  match Options.parse words with
  | .error refusal => (Report.ofRefusal refusal).print
  | .ok options => (options.run (← readFile? options.path)).print

end Dispatch

/-- The program. -/
def main (words : List String) : IO UInt32 := Dispatch.answer words
