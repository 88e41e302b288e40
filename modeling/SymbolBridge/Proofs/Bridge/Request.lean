import SymbolBridge.Proofs.Native.Effects
import SymbolBridge.Bridge.Basic

/-!
# What entry points are asked for

The arguments of an entry point either ask for something, a `Request`, or are an error (`Request.ofArguments`). An entry
point does nothing but serve its request (`tryDispatch_run`; `tryDispatch_call`, `tryDispatch_getGlobal` and
`tryDispatch_setGlobal` where the first argument has the name), and passes on what comes of it; a failure becomes one
logged event and gives no value (`dispatch_run`).
-/

namespace SymbolBridge

variable {σ ε : Type}

namespace Bridge

/-- What a bridge is asked for. -/
inductive Request where
  | call (name : String) (args : List Value)
  | get (name : String)
  | set (name : String) (value : Value)
  | line (prompt : String)

namespace Request

/-- What some arguments ask an entry point for. -/
def ofArguments : EntryPoint → List Value → Except BridgeError Request
  | .call, args => (takeText .functionName args).map fun (name, rest) => .call name rest
  | .getGlobal, args => (takeText .variableName args).map fun (name, _) => .get name
  | .setGlobal, args =>
    match takeText .variableName args with
    | .error e => .error e
    | .ok (_, []) => .error (.missingArgument .value)
    | .ok (name, value :: _) => .ok (.set name value)
  | .readLine, args => (takeText .prompt args).map fun (prompt, _) => .line prompt

/-- Gives a bridge's answer to a request. -/
def serve (b : Bridge σ) (host : Host σ) : Request → Op σ BridgeError (Option Value)
  | .call name args => do return some (.number (.int (← b.invoke host name args)))
  | .get name => do return some (.number (.int (← b.getVariable name)))
  | .set name value => do
    b.setVariable name value
    return none
  | .line prompt => do return some (.str (← b.readLine host prompt))

end Request

variable {b : Bridge σ} {host : Host σ}

/-- An entry point serves the request that its arguments make. -/
theorem tryDispatch_run (entry : EntryPoint) (args : List Value) (w : World σ) :
    b.tryDispatch host entry args w = match Request.ofArguments entry args with
      | .ok r => r.serve b host w
      | .error e => (.error e, w) := by
  cases entry with
  | call =>
    rw [tryDispatch, Op.ofExcept_bind_run, Request.ofArguments]
    cases takeText .functionName args with
    | error e => rfl
    | ok r => rfl
  | getGlobal =>
    rw [tryDispatch, Op.ofExcept_bind_run, Request.ofArguments]
    cases takeText .variableName args with
    | error e => rfl
    | ok r => rfl
  | setGlobal =>
    rw [tryDispatch, Op.ofExcept_bind_run, Request.ofArguments]
    cases takeText .variableName args with
    | error e => rfl
    | ok r =>
      obtain ⟨name, rest⟩ := r
      cases rest with
      | nil => rfl
      | cons value rest => rfl
  | readLine =>
    rw [tryDispatch, Op.ofExcept_bind_run, Request.ofArguments]
    cases takeText .prompt args with
    | error e => rfl
    | ok r => rfl

section

variable {raw : String} {v : Value}

theorem takeText_of_text? (h : v.text? = some raw) (what : Argument) (rest : List Value) :
    takeText what (v :: rest) = .ok (raw, rest) := by
  rw [takeText, h]

/-- The entry point for calls makes the call that its first argument names. -/
theorem tryDispatch_call (host : Host σ) (hv : v.text? = some raw) (args : List Value) (w : World σ) :
    b.tryDispatch host .call (v :: args) w =
      ((b.invoke host raw args w).1.map fun n => some (.number (.int n)), (b.invoke host raw args w).2) := by
  have hr : Request.ofArguments .call (v :: args) = .ok (.call raw args) := by
    rw [Request.ofArguments, takeText_of_text? hv]
    rfl
  rw [tryDispatch_run, hr]
  exact Op.bind_pure_run _ _ w

theorem tryDispatch_getGlobal (host : Host σ) (hv : v.text? = some raw) (rest : List Value) (w : World σ) :
    b.tryDispatch host .getGlobal (v :: rest) w =
      ((b.getVariable raw w).1.map fun n => some (.number (.int n)), (b.getVariable raw w).2) := by
  have hr : Request.ofArguments .getGlobal (v :: rest) = .ok (.get raw) := by
    rw [Request.ofArguments, takeText_of_text? hv]
    rfl
  rw [tryDispatch_run, hr]
  exact Op.bind_pure_run _ _ w

theorem tryDispatch_setGlobal (host : Host σ) (hv : v.text? = some raw) (value : Value) (rest : List Value)
    (w : World σ) : b.tryDispatch host .setGlobal (v :: value :: rest) w =
      ((b.setVariable raw value w).1.map fun _ => none, (b.setVariable raw value w).2) := by
  have hr : Request.ofArguments .setGlobal (v :: value :: rest) = .ok (.set raw value) := by
    rw [Request.ofArguments, takeText_of_text? hv]
  rw [tryDispatch_run, hr]
  exact Op.bind_pure_run _ _ w

end

/-- An entry point that a script calls never fails: its failure is logged and gives no value. -/
theorem dispatch_run (entry : EntryPoint) (args : List Value) (w : World σ) :
    (b.dispatch host entry args : Op σ ε (Option Value)) w = match b.tryDispatch host entry args w with
      | (.ok value, w') => (.ok value, w')
      | (.error cause, w') => (.ok none, w'.logged [.entryFailed entry cause]) := by
  rw [dispatch, Op.bind_run, Op.outcome]
  rcases b.tryDispatch host entry args w with ⟨cause | value, w'⟩
  · show (Op.log (.entryFailed entry cause) >>= fun _ => pure none : Op σ ε (Option Value)) w' = _
    rw [Op.bind_run, Op.log_run]
    rfl
  · rfl

end Bridge

end SymbolBridge
