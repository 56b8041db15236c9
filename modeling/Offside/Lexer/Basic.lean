import Offside.Lexer.Progress

/-!
# The lexer

`Lexer.next` hands out a source token by token, and may be asked again after an error. `tokenize`
collects the tokens up to the end marker.
-/

namespace Offside

namespace Lexer

/-- Moves until a token is ready, and hands it out. -/
def scan (s : Lexer) : Outcome Token :=
  match _h : s.step with
  | .error e s' => .error e s'
  | .ok _ s' =>
    match _hp : s'.pending with
    | [] => scan s'
    | token :: later => .ok token { s' with pending := later }
termination_by s.measure
decreasing_by exact measure_step _h _hp

/-- The next token. After the end marker there are only end markers. -/
def next (s : Lexer) : Outcome Token :=
  match s.pending with
  | token :: later => .ok token { s with pending := later }
  | [] => if s.finished then .ok s.endMarker s else s.scan

/-- More than the tokens that are left, the end marker included. -/
def bound (s : Lexer) : Nat :=
  3 * s.cursor.lines.flatten.length + s.levels.length + s.pending.length + 2

/-- The tokens up to the end marker or the first error, `limit` of them at most. -/
def trace (s : Lexer) : Nat → List Token × Option LexError
  | 0 => ([], none)
  | limit + 1 =>
    match s.next with
    | .error e _ => ([], some e)
    | .ok token s' =>
      if token.kind = .endMarker then ([token], none)
      else
        let (tokens, e) := s'.trace limit
        (token :: tokens, e)

end Lexer

/-- All tokens of a source, or its first lexical error. -/
def tokenize (source : String) (tabSize : UInt64 := Lexer.defaultTabSize) :
    Except LexError (List Token) :=
  let s := Lexer.ofText source tabSize
  match s.trace s.bound with
  | (tokens, none) => .ok tokens
  | (_, some e) => .error e

end Offside
