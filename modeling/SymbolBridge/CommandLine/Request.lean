import SymbolBridge.Text.Lines

/-!
# Requests on the command line

A command line is options, the name of a command, and values and more options for the command. Two hyphens alone end
the options; a value may look like an option only where its command says so. `Request.ofArguments?` gives nothing for a
command line that is used wrongly.
-/

namespace SymbolBridge.CommandLine

/-- What to do. -/
inductive Command where
  | run (file : String)
  | call (name : String) (args : List String)
  | get (name : String)
  | set (name value : String)
  deriving DecidableEq, Repr

structure Options where
  /-- The path of the configuration. -/
  config : Option String := none
  /-- How often more log output was asked for. -/
  verbosity : Nat := 0
  deriving DecidableEq, Repr

inductive Request where
  | perform (command : Command) (options : Options)
  | help
  | version
  deriving DecidableEq, Repr

/-! ## Arguments -/

/-- The shape of an argument. -/
inductive Token where
  /-- Two hyphens alone. -/
  | escape
  | long (name : String) (attached : Option String)
  | short (letters : List Char)
  | plain
  deriving DecidableEq, Repr

namespace Token

def ofChars : List Char → Token
  | ['-', '-'] => escape
  | '-' :: '-' :: cs =>
    match Text.splitAtFirst '=' cs with
    | some (name, value) => long (String.ofList name) (some (String.ofList value))
    | none => long (String.ofList cs) none
  | '-' :: c :: cs => short (c :: cs)
  | _ => plain

def ofText (s : String) : Token := ofChars s.toList

end Token

/-- The name of a command. -/
inductive Verb where
  | run
  | call
  | get
  | set
  deriving DecidableEq, Repr

namespace Verb

def ofName? : String → Option Verb
  | "run" => some run
  | "call" => some call
  | "get" => some get
  | "set" => some set
  | _ => none

/-- Whether there is a value at a place. -/
def hasPlace : Verb → Nat → Bool
  | run, place | get, place => place < 1
  | set, place => place < 2
  | call, _ => true

/-- Whether the value at a place may look like an option. -/
def allowsHyphen : Verb → Nat → Bool
  | run, _ | get, _ => false
  | call, place => 1 ≤ place
  | set, place => place = 1

/-- Whether everything from a place on is a value: arguments of a call go on once they have begun. -/
def takesAll : Verb → Nat → Bool
  | call, place => 2 ≤ place
  | _, _ => false

/-- Whether a text can be the value at a place: a path is not empty. -/
def accepts (v : Verb) (place : Nat) (value : String) : Bool := v.hasPlace place && !(v = run && value.isEmpty)

/-- The command with all its values. -/
def command? : Verb → List String → Option Command
  | run, [file] => some (.run file)
  | call, name :: args => some (.call name args)
  | get, [name] => some (.get name)
  | set, [name, value] => some (.set name value)
  | _, _ => none

end Verb

/-! ## After the name of a command -/

/-- What short options ask for. -/
inductive ShortOptions where
  | verbosity (n : Nat)
  | help
  | version

/-- The short options of a cluster in order; help and version end it. Only `letters` are known. -/
def ShortOptions.ofLetters? (letters : List Char) : List Char → Option ShortOptions
  | [] => some (.verbosity 0)
  | c :: cs =>
    if !letters.contains c then none
    else if c = 'h' then some .help
    else if c = 'V' then some .version
    else
      match ofLetters? letters cs with
      | some (.verbosity n) => some (.verbosity (n + 1))
      | other => other

/-- The letters of a command's short options. -/
def commandLetters : List Char := ['v', 'h']

/-- The letters of the short options before a command. -/
def globalLetters : List Char := ['v', 'h', 'V']

/-- The configuration's path may be given once, and is not empty. -/
def Options.withConfig? (o : Options) (path : String) : Option Options :=
  if o.config.isSome || path.isEmpty then none else some { o with config := some path }

/-- Whether an argument after `--config` is its value, at a place where values may look like options or not. -/
def isConfigValue (hyphen : Bool) (arg : String) : Bool :=
  match Token.ofText arg with
  | .plain => true
  | .escape => false
  | .long name _ => hyphen && !(["config", "verbose", "help"].contains name)
  | .short letters => hyphen && letters.any (!commandLetters.contains ·)

namespace Verb

/-- Reads the arguments of a command. `values` are those read so far, and after an escape everything is a value. -/
def request? (v : Verb) (escaped : Bool) (options : Options) (values : List String) : List String → Option Request
  | [] => (v.command? values).map (.perform · options)
  | arg :: rest =>
    let place := values.length
    let asValue := if v.accepts place arg then v.request? escaped options (values ++ [arg]) rest else none
    if escaped || v.takesAll place then asValue
    else
      match Token.ofText arg with
      | .plain => asValue
      | .escape => v.request? true options values rest
      | .long "config" (some path) => do v.request? escaped (← options.withConfig? path) values rest
      | .long "config" none =>
        match rest with
        | path :: rest =>
          if isConfigValue (v.allowsHyphen place) path then do
            v.request? escaped (← options.withConfig? path) values rest
          else none
        | [] => none
      | .long "verbose" none => v.request? escaped { options with verbosity := options.verbosity + 1 } values rest
      | .long "help" none => some .help
      | .long "verbose" (some _) | .long "help" (some _) => none
      | .long _ _ => if v.allowsHyphen place then asValue else none
      | .short letters =>
        if v.allowsHyphen place && letters.any (!commandLetters.contains ·) then asValue
        else
          match ShortOptions.ofLetters? commandLetters letters with
          | some (.verbosity n) =>
            v.request? escaped { options with verbosity := options.verbosity + n } values rest
          | some .help => some .help
          | some .version => some .version
          | none => none

end Verb

/-! ## The whole line -/

namespace Request

/-- The request with options from before the command, which those after it override. -/
def under (global : Options) : Request → Request
  | perform command options =>
    perform command
      { config := options.config <|> global.config
        verbosity := if options.verbosity = 0 then global.verbosity else options.verbosity }
  | other => other

/-- Help about a command, or about all. -/
def helpAbout? : List String → Option Request
  | [] | ["help"] => some help
  | [name] => (Verb.ofName? name).map fun _ => help
  | _ => none

/-- Reads a line from its start. A path for the configuration that stands before the command is judged when the next
option is met or the command has been read, so that help on the command comes first: `fault` tells that the latest path
is wrong. -/
def read? (options : Options) (fault : Bool) : List String → Option Request
  | [] => none
  | arg :: rest =>
    match Token.ofText arg with
    | .plain =>
      if arg = "help" then helpAbout? rest
      else do
        let verb ← Verb.ofName? arg
        match ← verb.request? false {} [] rest with
        | perform command inner => if fault then none else some (under options (perform command inner))
        | other => some other
    | .escape => none
    | .long name attached =>
      if fault then none
      else
        match name, attached with
        | "config", some path => do read? (← options.withConfig? path) false rest
        | "config", none =>
          match rest with
          | path :: rest =>
            if isConfigValue false path then
              match options.withConfig? path with
              | some options => read? options false rest
              | none => read? options true rest
            else none
          | [] => none
        | "verbose", none => read? { options with verbosity := options.verbosity + 1 } false rest
        | "help", none => some help
        | "version", none => some version
        | _, _ => none
    | .short letters =>
      if fault then none
      else
        match ShortOptions.ofLetters? globalLetters letters with
        | some (.verbosity n) => read? { options with verbosity := options.verbosity + n } false rest
        | some .help => some help
        | some .version => some version
        | none => none

/-- The request of a command line without the program's name, if it is used rightly. -/
def ofArguments? (args : List String) : Option Request := read? {} false args

end Request

end SymbolBridge.CommandLine
