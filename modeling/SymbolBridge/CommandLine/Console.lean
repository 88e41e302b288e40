import SymbolBridge.Native.Library
import SymbolBridge.Native.World
import SymbolBridge.Text.Decode

/-!
# The console

The host of the command line: native code is that of the running program, lines come from the standard input, and
prompts and printed text go to the standard output.
-/

namespace SymbolBridge.CommandLine

structure Console where
  /-- The bytes of the input not read yet. -/
  input : List UInt8
  output : String := ""
  /-- The bytes of the heap in use. -/
  heap : Nat := 0

namespace Console

/-- The bytes up to and with the first line feed, and the rest. -/
def splitLine : List UInt8 → List UInt8 × List UInt8
  | [] => ([], [])
  | b :: bs => if b = 10 then ([b], bs) else ((b :: (splitLine bs).1), (splitLine bs).2)

/-- Shows a prompt and reads a line. A line that is no text is read all the same. -/
def readLine : LineSource Console := fun prompt c =>
  let (line, input) := splitLine c.input
  let result :=
    if line.isEmpty then .ok none
    else
      match String.fromUTF8? ⟨line.toArray⟩ with
      | some text => .ok (some text)
      | none => .error (.source Text.notUtf8)
  (result, { c with input, output := c.output ++ prompt })

def host : Host Console where
  call address slots m c :=
    match Library.callAt? address slots m c.heap with
    | some o => (o.word, o.memory, { c with heap := o.heap })
    | none => (0, m, c)
  allocator _ := .spaced
  readLine := readLine
  print piece c := (.ok (), { c with output := c.output ++ piece })
  flush c := (.ok (), c)

/-- A world with nothing done, on an input. -/
def start (input : List UInt8) : World Console :=
  { memory := { regions := Library.regions }, host := { input } }

end Console

end SymbolBridge.CommandLine
