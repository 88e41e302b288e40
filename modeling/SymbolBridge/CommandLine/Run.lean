import SymbolBridge.CommandLine.Console
import SymbolBridge.CommandLine.Request
import SymbolBridge.Config.Reader
import SymbolBridge.Journal.Filter
import SymbolBridge.Journal.Line
import SymbolBridge.Script.Engine

/-!
# Runs of the command line

A run reads its request, its log filter and its configuration, in this order, and then carries out its command against
the running program's own symbols. It ends with 0 when all went well, with 1 when the command failed, and with 2 when
the command line or the configuration is wrong. A filter that would be cut inside a character ends it with 101.
-/

namespace SymbolBridge.CommandLine

open Script (Diagnostic Engine)

/-- What surrounds a run. -/
structure Environment where
  files : String → Text.File
  input : List UInt8 := []
  /-- The text of a log filter. -/
  logFilter : Option String := none

/-- What goes to the error output. -/
inductive Notice where
  | usage
  | failure (text : String)
  | logged (e : Event)
  | report (d : Diagnostic)
  deriving Repr

/-- How a run ends. -/
structure Outcome where
  code : UInt32 := 0
  output : String := ""
  notices : List Notice := []
  deriving Repr

/-- The program's name and version. -/
def versionText : String := "symcall 0.1.0"

def helpText : String :=
  "Call native functions and globals by name\n\n" ++
  "Usage: symcall [OPTIONS] <COMMAND>\n\n" ++
  "Commands:\n" ++
  "  run <FILE>            Run a script\n" ++
  "  call <NAME> [ARGS]... Call a native function\n" ++
  "  get <NAME>            Read a native global\n" ++
  "  set <NAME> <VALUE>    Write a native global\n" ++
  "  help [COMMAND]        Print this help\n\n" ++
  "Options:\n" ++
  "      --config <CONFIG> Bridge configuration file (TOML)\n" ++
  "  -v, --verbose...      More log output (-v info, -vv debug)\n" ++
  "  -h, --help            Print this help\n" ++
  "  -V, --version         Print the version\n"

namespace Notice

def toText : Notice → String
  | usage => "wrong usage; try --help"
  | failure text => text
  | logged e => e.line
  | report d =>
    d.headline ++ "\n  " ++ d.label ++
      (match d.help with
        | some help => "\n  help: " ++ help
        | none => "")

end Notice

/-- What carrying out a command gives: text for the output, or a notice of why it failed. -/
abbrev Result := Except Notice String

/-- Carries out a command with a bridge. -/
def Command.perform (files : String → Text.File) (bridge : Bridge Console) : Command → StateM (World Console) Result
  | .run file =>
    match Text.ofFile (files file) with
    | .error reason => return .error (.failure ("Error reading file: " ++ reason))
    | .ok src => do
      let engine ← Engine.start bridge
      let (result, engine) ← engine.run Console.host file src
      let _ ← engine.stop Console.host
      match result with
      | .ok () => return .ok ""
      | .error e =>
        match e.report?.bind (·.diagnostic? src) with
        | some shown => return .error (.report shown)
        | none => return .error (.failure ("Error: " ++ e.message))
  | .call name args => do
    let result ← bridge.invoke Console.host name (args.map Value.ofArgument)
    return shown result fun n => toString n.toInt ++ "\n"
  | .get name => do
    let result ← bridge.getVariable name
    return shown result fun n => toString n.toInt ++ "\n"
  | .set name value => do
    let result ← bridge.setVariable name (Value.ofArgument value)
    return shown result fun () => ""
where
  /-- The result as it is shown. -/
  shown {α : Type} (result : Except BridgeError α) (text : α → String) : Result :=
    match result with
    | .ok a => .ok (text a)
    | .error e => .error (.failure ("Error: " ++ e.message))

/-- The configuration to work with. -/
def Environment.config (env : Environment) : Option String → Except Notice Config
  | none => .ok {}
  | some path => (Config.ofFile (env.files path)).mapError fun e => .failure ("Error: " ++ e.message path)

/-- The filter of the log: that of the environment if it makes sense, else by the options. -/
def Environment.filter (env : Environment) (options : Options) : Except Notice LogFilter :=
  let other := LogFilter.ofVerbosity options.verbosity
  match env.logFilter with
  | none => .ok other
  | some text =>
    match LogFilter.ofText text with
    | .ok filter => .ok filter
    | .error .malformed => .ok other
    | .error .insideCharacter => .error (.failure "the log filter would be cut inside a character")

/-- The events of a journal that reach the log. -/
def logged (filter : LogFilter) (journal : Array Action) : List Notice :=
  journal.toList.filterMap fun
    | .logged e => if filter.passes e then some (.logged e) else none
    | _ => none

/-- Runs a request. -/
def Request.run (env : Environment) : Request → Outcome
  | .help => { output := helpText }
  | .version => { output := versionText ++ "\n" }
  | .perform command options =>
    match env.filter options, env.config options.config with
    | .error notice, _ => { code := 101, notices := [notice] }
    | _, .error notice => { code := 2, notices := [notice] }
    | .ok filter, .ok config =>
      let bridge : Bridge Console := { symbols := fun _ => Library.table, config }
      let (result, world) := command.perform env.files bridge (Console.start env.input)
      let log := logged filter world.journal
      match result with
      | .ok text => { output := world.host.output ++ text, notices := log }
      | .error notice => { code := 1, output := world.host.output, notices := log ++ [notice] }

/-- Runs a command line without the program's name. -/
def run (env : Environment) (args : List String) : Outcome :=
  match Request.ofArguments? args with
  | some request => request.run env
  | none => { code := 2, notices := [.usage] }

end SymbolBridge.CommandLine
