import Offside.Source.Cursor

/-!
# Lexical errors

What stops the reading of tokens, with the place it points at. `LexError.message` is the text for a
user.
-/

namespace Offside

inductive LexError where
  | invalidCharacter (ch : Char) (pos : Position)
  | inconsistentDedent (width expected : UInt64) (line : Nat)
  | unterminatedString (pos : Position)
  | tripleQuotedString (pos : Position)
  | unsupportedPrefix (letters : String) (pos : Position)
  | invalidEscape (sequence : String) (pos : Position)
  | nonAsciiBytes (pos : Position)
  | mismatchedBracket (expected : Option Char) (found : Char) (pos : Position)
  | unclosedBracket (bracket : Char) (line : Nat)
  | invalidNumber (text : String) (pos : Position)
  | numberTooLarge (text : String) (pos : Position)
  | unsupportedKeyword (word : String) (pos : Position)
  deriving DecidableEq

namespace LexError

def line : LexError → Nat
  | .inconsistentDedent _ _ line | .unclosedBracket _ line => line
  | .invalidCharacter _ pos | .unterminatedString pos | .tripleQuotedString pos
  | .unsupportedPrefix _ pos | .invalidEscape _ pos | .nonAsciiBytes pos
  | .mismatchedBracket _ _ pos | .invalidNumber _ pos | .numberTooLarge _ pos
  | .unsupportedKeyword _ pos => pos.line

/-- The bracket that a closing one was compared with. -/
def opening : Option Char → String
  | some bracket => s!"'{bracket}'"
  | none => "any open bracket"

def message : LexError → String
  | .invalidCharacter ch pos => s!"{place pos}: Invalid character '{ch}'."
  | .inconsistentDedent width expected line =>
    s!"Error on line {line}: Unindent to width {width} does not match any outer indentation "
      ++ s!"level (expected {expected})."
  | .unterminatedString pos => s!"{place pos}: Unterminated string literal."
  | .tripleQuotedString pos => s!"{place pos}: Triple-quoted strings are not supported."
  | .unsupportedPrefix letters pos => s!"{place pos}: Unsupported string prefix '{letters}'."
  | .invalidEscape sequence pos => s!"{place pos}: Truncated or invalid escape '{sequence}'."
  | .nonAsciiBytes pos => s!"{place pos}: Bytes can only contain ASCII literal characters."
  | .mismatchedBracket expected found pos =>
    s!"{place pos}: Closing bracket '{found}' does not match {opening expected}."
  | .unclosedBracket bracket line =>
    s!"Error on line {line}: Unexpected end of input, bracket '{bracket}' was never closed."
  | .invalidNumber text pos => s!"{place pos}: Invalid number literal '{text}'."
  | .numberTooLarge text pos => s!"{place pos}: Number literal '{text}' is too large."
  | .unsupportedKeyword word pos => s!"{place pos}: Keyword '{word}' is not supported."
where
  place (pos : Position) : String := s!"Error on line {pos.line}, column {pos.column}"

end LexError

end Offside
