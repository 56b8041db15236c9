import Offside.Lexer.Indentation
import Offside.Lexer.Name
import Offside.Lexer.Number
import Offside.Lexer.StringLiteral

/-!
# Moves of the lexer

A `Lexer` is a place in a source together with the open indentation levels and brackets.
`Lexer.step` is one move: over the indentation of a line, past its end, or past one token. After an
error the lexer stands where the reading stopped.
-/

namespace Offside

structure OpenBracket where
  bracket : Char
  line : Nat
  deriving DecidableEq

structure Lexer where
  cursor : Cursor
  /-- Tabs go to the next multiple of this; it is not zero. -/
  tabSize : UInt64
  /-- The widths of the open indentation levels, the innermost first. -/
  levels : List UInt64 := []
  brackets : List OpenBracket := []
  /-- Whether the cursor is at the start of a logical line whose indentation is not settled. -/
  lineStart : Bool := true
  /-- Tokens that are ready to be handed out. -/
  pending : List Token := []
  /-- Whether the end marker has been made ready. -/
  finished : Bool := false

namespace Lexer

/-- The columns between tab stops unless a program is run otherwise. -/
def defaultTabSize : UInt64 := 8

/-- A tab size of zero acts as one. -/
def ofText (source : String) (tabSize : UInt64 := defaultTabSize) : Lexer :=
  { cursor := .ofText source, tabSize := max tabSize 1 }

abbrev Outcome (α : Type) := EStateM.Result LexError Lexer α

def queue (s : Lexer) (tokens : List Token) : Lexer := { s with pending := s.pending ++ tokens }

/-- The end marker stands at the start of the line after the last. -/
def endMarker (s : Lexer) : Token :=
  { kind := .endMarker, pos := ⟨Position.coordinate s.cursor.row, 1⟩ }

def enterLine (s : Lexer) : Outcome Unit :=
  let spaces := s.cursor.rest.takeWhile Indentation.isSpace
  let width := Indentation.width s.tabSize spaces
  let cursor := s.cursor.advance spaces.length
  let settled := Indentation.settle s.levels width cursor.position
  let entered := { s with cursor, levels := settled.levels }.queue settled.tokens
  match settled.mismatch with
  | none => .ok () entered
  | some outer => .error (.inconsistentDedent width outer cursor.position.line) entered

/-- Goes to the next line that is not empty, and settles its indentation. -/
def openLine (s : Lexer) : Outcome Unit :=
  let empty := s.cursor.lines.takeWhile Indentation.isEmptyLine
  let opened := { s with cursor := s.cursor.skipLines empty.length, lineStart := false }
  if opened.cursor.atEnd then .ok () opened else opened.enterLine

/-- Ends the source: closes every level, and makes the end marker ready. -/
def finish (s : Lexer) : Outcome Unit :=
  match s.brackets with
  | opened :: _ => .error (.unclosedBracket opened.bracket opened.line) s
  | [] =>
    let dedents := s.levels.map fun _ : UInt64 => { s.endMarker with kind := .dedent }
    .ok () ({ s with levels := [], finished := true }.queue (dedents ++ [s.endMarker]))

/-- Ends the physical line, which ends the logical line too unless a bracket is open. -/
def endLine (s : Lexer) : Lexer :=
  let newline : Token := { kind := .newline, text := "\n", pos := s.cursor.position }
  let s := if s.brackets.isEmpty then { s.queue [newline] with lineStart := true } else s
  { s with cursor := s.cursor.nextLine }

def take (s : Lexer) (reading : Reading Token.Kind) : Outcome Unit :=
  let passed := { s with cursor := s.cursor.advance reading.taken }
  match reading.outcome with
  | .error e => .error e passed
  | .ok kind =>
    let text := String.ofList (s.cursor.rest.take reading.taken)
    .ok () (passed.queue [{ kind, text, pos := s.cursor.position }])

/-- Opens or closes a bracket; nothing else changes the open brackets. -/
def bracket (s : Lexer) (mark : Punct) : Except LexError (List OpenBracket) :=
  match mark.opens?, mark.closes? with
  | some opening, _ => .ok (⟨opening, s.cursor.position.line⟩ :: s.brackets)
  | none, none => .ok s.brackets
  | none, some found =>
    let expected := s.brackets.head?.map (·.bracket)
    if expected.bind Punct.closingFor? = some found then .ok s.brackets.tail
    else .error (.mismatchedBracket expected found s.cursor.position)

def readPunct (s : Lexer) (c : Char) : Outcome Unit :=
  match Punct.longestMatch? s.cursor.rest with
  | none => .error (.invalidCharacter c s.cursor.position) s
  | some mark =>
    match s.bracket mark with
    | .error e => .error e s
    | .ok brackets => { s with brackets }.take (.ok mark.spelling.length (.punct mark))

def readToken (s : Lexer) (c : Char) : Outcome Unit :=
  let pos := s.cursor.position
  let rest := s.cursor.rest
  match ((StringLiteral.read? pos rest).or (Name.read? pos rest)).or (Number.read? pos rest) with
  | some reading => s.take reading
  | none => s.readPunct c

/-- The lexer past the spaces, or past the characters for which `p` holds. -/
def skip (s : Lexer) (p : Char → Bool) : Lexer :=
  { s with cursor := s.cursor.advance (s.cursor.rest.takeWhile p).length }

def step (s : Lexer) : Outcome Unit :=
  if s.lineStart then s.openLine
  else if s.cursor.atEnd then s.finish
  else
    let s := s.skip Indentation.isSpace
    match s.cursor.rest with
    | [] | '\n' :: _ => .ok () s.endLine
    | '#' :: _ => .ok () (s.skip (· ≠ '\n')).endLine
    | '\\' :: '\n' :: _ => .ok () { s with cursor := s.cursor.nextLine }
    | '\\' :: _ => .error (.invalidCharacter '\\' s.cursor.position) s
    | c :: _ => s.readToken c

end Lexer

end Offside
