import Offside.Lexer.Error
import Offside.Token.Text

/-!
# Errors in a source

`ParseError` is a token sequence that fits no rule of the grammar, and `SourceError` whatever keeps
a source from becoming a tree.
-/

namespace Offside

/-- What the grammar asks for at some place. -/
inductive Expected where
  | expression
  | name
  | newline
  | block
  | dedent
  | punct (mark : Punct)
  | commaOr (closing : Punct)
  deriving DecidableEq

def Expected.text : Expected → String
  | .expression => "an expression"
  | .name => "a name"
  | .newline => "NEWLINE"
  | .block => "an indented block"
  | .dedent => "DEDENT"
  | .punct mark => "'" ++ mark.spelling ++ "'"
  | .commaOr closing => "',' or '" ++ closing.spelling ++ "'"

inductive ParseError where
  | unexpectedToken (found : Token) (expected : Option Expected)
  | unexpectedEnd (expected : Option Expected) (line : Nat)
  | unexpectedIndent (line : Nat)
  | unexpectedDedent (line : Nat)
  | unsupportedStatement (word : Keyword) (pos : Position)
  | invalidTarget (line : Nat)
  | mixedLiterals (pos : Position)
  deriving DecidableEq

namespace ParseError

def line : ParseError → Nat
  | .unexpectedToken found _ => found.pos.line
  | .unsupportedStatement _ pos | .mixedLiterals pos => pos.line
  | .unexpectedEnd _ line | .unexpectedIndent line | .unexpectedDedent line
  | .invalidTarget line => line

def message (e : ParseError) : String :=
  match e with
  | .unexpectedToken found expected =>
    s!"{place found.pos}: Unexpected token {found.describe}{wanted expected}."
  | .unexpectedEnd expected line =>
    s!"Error on line {line}: Unexpected end of input{wanted expected}."
  | .unexpectedIndent line => s!"Error on line {line}: Unexpected indent."
  | .unexpectedDedent line => s!"Error on line {line}: Unexpected dedent."
  | .unsupportedStatement word pos =>
    s!"{place pos}: '{word.spelling}' statements are not supported."
  | .invalidTarget line =>
    s!"Error on line {line}: Cannot assign to expression, only to a name."
  | .mixedLiterals pos => s!"{place pos}: Cannot mix bytes and nonbytes literals."
where
  place (pos : Position) : String := s!"Error on line {pos.line}, column {pos.column}"
  wanted : Option Expected → String
    | some expected => ", expected " ++ expected.text
    | none => ""

end ParseError

inductive SourceError where
  | lex (e : LexError)
  | parse (e : ParseError)
  /-- The parser was given too few steps. -/
  | exhausted
  deriving DecidableEq

def SourceError.message : SourceError → String
  | .lex e => e.message
  | .parse e => e.message
  | .exhausted => "Parsing was given too few steps."

end Offside
