import Offside.Token.Basic
import Offside.Tree.Outline

/-!
# The text of a token

`Token.listing` is a token's line in a token listing, `Token.describe` its mention in an error.
-/

namespace Offside

def Token.Kind.listing : Token.Kind → String
  | .endMarker => "ENDMARKER"
  | .newline => "NEWLINE"
  | .indent => "INDENT"
  | .dedent => "DEDENT"
  | .identifier name => "NAME " ++ Text.dump name
  | .keyword word => "KEYWORD " ++ Text.dump word.spelling
  | .number value => "NUMBER " ++ value.outline.inline
  | .str text => "STRING " ++ Text.dump text
  | .bytes data => "BYTES [" ++ ", ".intercalate (data.map fun byte => toString byte.toNat) ++ "]"
  | .punct mark => (if mark.isOperator then "OP " else "DELIMITER ") ++ Text.dump mark.spelling

def Token.listing (t : Token) : String :=
  toString t.pos.line ++ ":" ++ toString t.pos.column ++ "\t" ++ t.kind.listing

def Token.describe (t : Token) : String :=
  match t.kind with
  | .endMarker => "end of input"
  | .newline => "NEWLINE"
  | .indent => "INDENT"
  | .dedent => "DEDENT"
  | _ => "'" ++ t.text ++ "'"

end Offside
