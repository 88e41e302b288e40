import SymbolBridge.CommandLine.Run

/-!
# The program

Gathers what surrounds a run, runs it, and shows how it ends. A script's standard input is read before the script runs.
-/

namespace SymbolBridge.CommandLine

/-- The file at a path. -/
def fileAt (path : String) : IO Text.File := do
  match ← (IO.FS.readBinFile path).toBaseIO with
  | .ok content => return .ok content
  | .error (.noFileOrDirectory ..) => return .error Text.noSuchFile
  | .error e => return .error (toString e)

/-- The paths that a request reads. -/
def paths : Request → List String
  | .perform (.run file) options => file :: options.config.toList
  | .perform _ options => options.config.toList
  | _ => []

/-- What surrounds the run of a request. -/
def environment (request : Option Request) : IO Environment := do
  let files ← (request.toList.flatMap paths).mapM fun path => return (path, ← fileAt path)
  let input ← match request with
    | some (.perform (.run _) _) => (← IO.getStdin).readBinToEnd
    | _ => pure .empty
  return {
    files := fun path => (files.lookup path).getD (.error Text.noSuchFile)
    input := input.toList
    logFilter := ← IO.getEnv "SYMCALL_LOG" }

end SymbolBridge.CommandLine

open SymbolBridge.CommandLine in
def main (args : List String) : IO UInt32 := do
  let outcome := run (← environment (Request.ofArguments? args)) args
  (← IO.getStdout).putStr outcome.output
  for notice in outcome.notices do
    (← IO.getStderr).putStrLn notice.toText
  return outcome.code
