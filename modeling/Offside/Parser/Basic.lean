import Offside.Parser.Error
import Offside.Token.Stream
import Offside.Tree.Node

/-!
# The parser's moves on tokens

A `Parser` is a stream of tokens and the number of blocks open. Its programs keep their state when
they fail, so a parser may be used again after an error.
-/

namespace Offside

structure Parser where
  stream : Stream
  /-- The number of indented blocks that are open. -/
  depth : Nat := 0

abbrev ParseM := EStateM SourceError Parser

namespace Parser

def ofText (source : String) (tabSize : UInt64 := Lexer.defaultTabSize) : Parser :=
  { stream := .ofText source tabSize }

/-- Enough steps for every rule of the grammar: each consumes a token or goes down one of the twelve
levels of expressions. -/
def budget (p : Parser) : Nat := 16 * (p.stream.buffer.length + p.stream.lexer.bound + 2)

end Parser

namespace ParseM

/-- Runs a program with the steps that its state allows. -/
def budgeted (program : Nat → ParseM α) : ParseM α := fun p => program p.budget p

/-- A move of the token stream. -/
def onStream (move : Stream → Stream.Outcome α) : ParseM α := fun p =>
  match move p.stream with
  | .ok a stream => .ok a { p with stream }
  | .error e stream => .error (.lex e) { p with stream }

/-- The token `ahead` places after the next one. -/
def peek (ahead : Nat := 0) : ParseM Token := onStream (·.peek ahead)

def advance : ParseM Token := onStream (·.advance)

def fail (e : ParseError) : ParseM α := throw (.parse e)

/-- The error for a token that fits no rule. -/
def unexpected (found : Token) (expected : Option Expected := none) : ParseM α :=
  fail (match found.kind with
    | .endMarker => .unexpectedEnd expected found.pos.line
    | _ => .unexpectedToken found expected)

/-- Consumes the next token, which has to be `mark`. -/
def expect (mark : Punct) : ParseM Token := do
  let token ← advance
  if token.kind = .punct mark then return token
  else unexpected token (some (.punct mark))

def eat (kind : Token.Kind) : ParseM Bool := do
  let token ← peek
  if token.kind = kind then
    let _ ← advance
    return true
  else return false

def name : ParseM String := do
  let token ← advance
  match token.kind with
  | .identifier name => return name
  | _ => unexpected token (some .name)

/-- Items up to and including `closing`, a comma after each but the last, where it may stand. -/
def commaSeparated (closing : Punct) (item : ParseM α) : Nat → ParseM (List α)
  | 0 => throw .exhausted
  | steps + 1 => do
    if ← eat (.punct closing) then return []
    let first ← item
    let token ← advance
    if token.kind = .punct .comma then
      let rest ← commaSeparated closing item steps
      return first :: rest
    else if token.kind = .punct closing then return [first]
    else unexpected token (some (.commaOr closing))

end ParseM

end Offside
