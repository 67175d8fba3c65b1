import Payroll.Program.Exchange
/-!
The command line. The settings file is read from disk; calls come as lines on standard input and are
answered as lines on standard output. Records are kept for as long as the program runs.
-/

namespace Payroll.Program

/-- The variables of the process that the program knows. -/
def readVariables : IO Variables := do
  let names := Settings.pathVariable :: Task.filterVariable :: Settings.variableNames
  let values ← names.mapM fun name => do return (name, ← IO.getEnv name)
  return fun name => (values.lookup name).join

/-- The file at the path, if it is there. What cannot be read counts as a directory. -/
def readFiles (path : String) : IO Files := do
  try
    let bytes ← IO.FS.readBinFile path
    return Files.ofTexts [(path, Text.Source.ofBytes bytes.toList)]
  catch
    | .noFileOrDirectory .. => return .empty
    | _ => return (Files.empty.makeDirectories (.start path) (Path.names path)).2

/-- Answers lines until there are no more. -/
partial def answerLines (input output : IO.FS.Stream) (e : Exchange) : IO Unit := do
  let line ← input.getLine
  if line.isEmpty then return
  let (text, e) := e.answer line
  output.putStrLn text
  output.flush
  answerLines input output e

/-- Writes what has been logged, and what failed; gives the exit code. -/
def report (o : Outcome) : IO UInt32 := do
  for text in o.log do
    IO.eprintln text
  if let some line := o.error then
    IO.eprintln line
  return o.code.toUInt32

/-- Runs an invocation. -/
def runInvocation (vars : Variables) (i : Invocation) : IO UInt32 := do
  let files ← readFiles (i.config.getD (Settings.path vars))
  let start := begin vars i
  let code ← report (Outcome.ofTask start files)
  match start.run (.start files) with
  | (.ok (some running), w) =>
    let seed ← IO.rand 0 UInt32.size
    answerLines (← IO.getStdin) (← IO.getStdout) (.ofRunning running seed)
    let (_, last) := running.stop.run { w with log := [] }
    for text in last.log do
      IO.eprintln text
    return code
  | _ => return code

/-- Does what the arguments ask for; gives the exit code. -/
def runArguments (args : List String) : IO UInt32 := do
  let vars ← readVariables
  match Demand.read vars args with
  | .misuse =>
    IO.eprintln "error: unexpected arguments; for more information, try '--help'."
    return Outcome.misuseCode.toUInt32
  | .tell page =>
    IO.print (page.text vars)
    return 0
  | .run i => runInvocation vars i

end Payroll.Program

/-- The program. -/
def main (args : List String) : IO UInt32 :=
  Payroll.Program.runArguments args
