import Offside.Lexer.Basic

/-!
# Token streams

A `Stream` looks ahead in the tokens of a lexer without consuming them. Tokens are read only when
asked for, and those read before an error stay available after it.
-/

namespace Offside

structure Stream where
  lexer : Lexer
  /-- Tokens that were read and not yet consumed. -/
  buffer : List Token := []

namespace Stream

def ofText (source : String) (tabSize : UInt64 := Lexer.defaultTabSize) : Stream :=
  { lexer := .ofText source tabSize }

abbrev Outcome (α : Type) := EStateM.Result LexError Stream α

def read (s : Stream) : Nat → Outcome Unit
  | 0 => .ok () s
  | count + 1 =>
    match s.lexer.next with
    | .error e lexer => .error e { s with lexer }
    | .ok token lexer => read { lexer, buffer := s.buffer ++ [token] } count

/-- The token `ahead` places after the next one. -/
def peek (s : Stream) (ahead : Nat) : Outcome Token :=
  match s.read (ahead + 1 - s.buffer.length) with
  | .error e s => .error e s
  | .ok _ s => .ok (s.buffer.getD ahead s.lexer.endMarker) s

def advance (s : Stream) : Outcome Token :=
  match s.buffer with
  | token :: later => .ok token { s with buffer := later }
  | [] =>
    match s.lexer.next with
    | .error e lexer => .error e { s with lexer }
    | .ok token lexer => .ok token { s with lexer }

end Stream

end Offside
