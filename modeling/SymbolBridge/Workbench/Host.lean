import SymbolBridge.Native.Library
import SymbolBridge.Native.World
import SymbolBridge.Workbench.Function

/-!
# A host for experiments

The native side of a workbench: the arena's functions, whose calls are recorded, and those of the running program;
queued lines; and a sink that may refuse text after a number of lines.
-/

namespace SymbolBridge.Workbench

/-- A recorded call. -/
structure Call where
  function : Function
  slots : List Slot
  deriving DecidableEq, Repr

/-- How a host behaves. -/
structure Behaviour where
  /-- Every attempt to read a line fails. -/
  readerFails : Bool := false
  /-- The lines after which the sink refuses text. -/
  outputLines : Option Nat := none
  flushFails : Bool := false
  deriving Repr

structure State where
  ticks : Nat := 0
  heap : Nat := 0
  calls : Array Call := #[]
  input : LineQueue := {}
  output : String := ""
  /-- The line feeds printed so far. -/
  feeds : Nat := 0
  deriving Repr

/-- The bytes of the arena at the start. -/
def arena (chunks : List (Nat × List UInt8)) : Region :=
  chunks.foldl
    (fun r (at?, bytes) =>
      { r with bytes := (bytes.zipIdx at?).foldl (fun a (b, i) => a.setIfInBounds i b) r.bytes })
    ⟨arenaBase, Array.replicate arenaSize 0⟩

def callAt (address : Word) (slots : Slots) (m : Memory) (s : State) : Word × Memory × State :=
  match Function.ofAddress? address with
  | some f =>
    let call : Call := ⟨f, (f.arguments slots).map (slot m)⟩
    let (w, m, ticks) := f.run slots m s.ticks
    (w, m, { s with ticks, calls := s.calls.push call })
  | none =>
    match Library.callAt? address slots m s.heap with
    | some o => (o.word, o.memory, { s with heap := o.heap })
    | none => (0, m, s)

def host (b : Behaviour) : Host State where
  call := callAt
  allocator _ := .spaced
  readLine prompt s :=
    let read := if b.readerFails then LineQueue.failing "reader closed" else LineQueue.read
    let (r, input) := read prompt s.input
    (r, { s with input })
  print piece s :=
    match b.outputLines with
    | some limit =>
      if limit ≤ s.feeds then (.error "sink closed", s)
      else (.ok (), { s with output := s.output ++ piece, feeds := s.feeds + piece.toList.count '\n' })
    | none => (.ok (), { s with output := s.output ++ piece })
  flush s := (if b.flushFails then .error "flush refused" else .ok (), s)

end SymbolBridge.Workbench
