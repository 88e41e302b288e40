import SymbolBridge.Invoke.ParamKind
import SymbolBridge.Symbol.Entry

/-!
# Why an operation of the bridge fails
-/

namespace SymbolBridge

/-- Why no line can be read. -/
inductive LineError where
  /-- The buffer has no room for text before its terminator. -/
  | bufferTooSmall (bytes : Nat)
  /-- The source of lines fails. -/
  | source (reason : String)
  deriving DecidableEq, Repr

def LineError.message : LineError → String
  | bufferTooSmall bytes => "line buffer of " ++ toString bytes ++ " bytes cannot hold any text"
  | source reason => reason

/-- What is wrong between a signature and a call or a declaration. -/
inductive SignatureFault where
  | tooManyArguments (arity supplied : Nat)
  /-- The value at a place, counted from one, is of a type that the parameter does not accept. -/
  | unacceptable (place : Nat) (typeName : String) (expected : ParamKind)
  | tooManyParameters (arity limit : Nat)
  | noRoom (supplied slots : Nat)
  deriving DecidableEq, Repr

def SignatureFault.message : SignatureFault → String
  | tooManyArguments arity supplied =>
    "expects at most " ++ toString arity ++ " arguments, got " ++ toString supplied
  | unacceptable place typeName expected =>
    "argument " ++ toString place ++ " is a " ++ typeName ++ ", expected " ++ expected.name
  | tooManyParameters arity limit =>
    "declares " ++ toString arity ++ " parameters, at most " ++ toString limit ++ " are supported"
  | noRoom supplied slots =>
    toString supplied ++ " arguments do not fit in " ++ toString slots ++ " argument slots"

/-- What an entry point needs from a script. -/
inductive Argument where
  | functionName
  | variableName
  | value
  | prompt
  deriving DecidableEq, Repr

def Argument.name : Argument → String
  | functionName => "function name"
  | variableName => "variable name"
  | value => "value"
  | prompt => "prompt"

inductive BridgeError where
  | functionNotFound (name : String)
  | symbolNotFound (name : String)
  | missingArgument (what : Argument)
  /-- Nothing is left of the name. -/
  | invalidName
  | signatureMismatch (name : String) (fault : SignatureFault)
  | lineInput (cause : LineError)
  deriving DecidableEq, Repr

namespace BridgeError

/-- No symbol of a category under a name. -/
def notFound (name : String) : SymbolKind → BridgeError
  | .code => functionNotFound name
  | .data => symbolNotFound name

def isNotFound : BridgeError → Bool
  | functionNotFound _ | symbolNotFound _ => true
  | _ => false

def message : BridgeError → String
  | functionNotFound name => "function " ++ name ++ " not found"
  | symbolNotFound name => "symbol " ++ name ++ " not found"
  | missingArgument what => "missing " ++ what.name
  | invalidName => "invalid symbol name: name is empty"
  | signatureMismatch name fault => "signature mismatch for " ++ name ++ ": " ++ fault.message
  | lineInput cause => "line input failed: " ++ cause.message

end BridgeError

end SymbolBridge
