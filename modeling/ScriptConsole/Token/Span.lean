import ScriptConsole.Text.Utf8
import ScriptConsole.Token.Scan

/-!
# Spans

Where tokens lie in the encoded source, in bytes.
-/

namespace ScriptConsole

/-- The first byte of a token and the byte after its last. -/
structure Span where
  start : Nat
  stop : Nat
  deriving DecidableEq, Repr

namespace Token

/-- The spans of tokens whose first gap begins at byte `offset`. -/
def spans (offset : Nat) : List Token → List Span
  | [] => []
  | token :: tokens =>
      let start := offset + Text.byteLength token.gap
      let stop := start + Text.byteLength token.text
      ⟨start, stop⟩ :: spans stop tokens

end Token

end ScriptConsole
