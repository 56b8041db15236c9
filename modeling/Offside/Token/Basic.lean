import Offside.Source.Cursor
import Offside.Token.Keyword
import Offside.Token.Punct
import Offside.Value.Basic

/-!
# Tokens

A `Token` is what it stands for, the characters that spell it and the place of the first of them.
-/

namespace Offside

/-- What a token stands for. -/
inductive Token.Kind where
  | endMarker
  | newline
  | indent
  | dedent
  | identifier (name : String)
  | keyword (word : Keyword)
  | number (value : Value)
  | str (text : String)
  | bytes (data : List UInt8)
  | punct (mark : Punct)
  deriving DecidableEq

structure Token where
  kind : Token.Kind
  /-- The spelling in the source; empty for an indent, a dedent and the end marker. -/
  text : String := ""
  pos : Position
  deriving DecidableEq

/-- The operator that the token spells between two operands. -/
def Token.Kind.binaryOp? : Token.Kind → Option BinaryOp
  | .punct mark => mark.binaryOp?
  | _ => none

end Offside
