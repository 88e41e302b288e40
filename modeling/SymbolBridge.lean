import SymbolBridge.Main
import SymbolBridge.Symbol.Mapping
import SymbolBridge.Workbench.Session
import SymbolBridge.Proofs.Bridge.Invoke
import SymbolBridge.Proofs.Script.Lexeme
import SymbolBridge.Proofs.Script.Token
import SymbolBridge.Proofs.Script.Grammar
import SymbolBridge.Proofs.Script.Tree
import SymbolBridge.Proofs.Value.Numeral
import SymbolBridge.Proofs.Script.Render
import SymbolBridge.Proofs.Script.Locality
import SymbolBridge.Proofs.Script.Spans
import SymbolBridge.Proofs.Script.Run
import SymbolBridge.Proofs.Bridge.Request
import SymbolBridge.Proofs.Bridge.Variables
import SymbolBridge.Proofs.Bridge.Targets
import SymbolBridge.Proofs.Embedding.Declarations
import SymbolBridge.Proofs.Embedding.Reach
import SymbolBridge.Proofs.Script.Faults
import SymbolBridge.Proofs.Script.Diagnostic
import SymbolBridge.Proofs.Script.Zone
import SymbolBridge.Proofs.Script.Crossing
import SymbolBridge.Proofs.Script.Extension
import SymbolBridge.Proofs.Script.Joining
import SymbolBridge.Proofs.Script.Separation
import SymbolBridge.Proofs.Symbol.Chain
import SymbolBridge.Proofs.Bridge.Declared
import SymbolBridge.Proofs.Script.Alike
import SymbolBridge.Proofs.Script.Bindings
import SymbolBridge.Proofs.Script.Callee
import SymbolBridge.Proofs.Script.LegacyNames
import SymbolBridge.Proofs.Text.Cut
import SymbolBridge.Proofs.LineInput
import SymbolBridge.Proofs.Config.Accepted
import SymbolBridge.Proofs.Bridge.Words
import SymbolBridge.Proofs.Symbol.Precedence
import SymbolBridge.Proofs.Value.Notation
import SymbolBridge.Proofs.Script.Numeral
import SymbolBridge.Proofs.Script.Regrouping
import SymbolBridge.Proofs.Value.Digits
import SymbolBridge.Proofs.Script.Chains
import SymbolBridge.Proofs.Bridge.KeptNames
import SymbolBridge.Proofs.Text.Lines
import SymbolBridge.Proofs.Script.Position
import SymbolBridge.Proofs.Symbol.Mapping
import SymbolBridge.Proofs.Script.StringLiteral
import SymbolBridge.Proofs.Text.Truncate
import SymbolBridge.Proofs.Script.Progress
import SymbolBridge.Proofs.Script.Depth
import SymbolBridge.Proofs.Toml.Scalar
import SymbolBridge.Proofs.Toml.Assignment
import SymbolBridge.Proofs.Config.Document
