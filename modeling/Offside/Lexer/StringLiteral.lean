import Offside.Decimal.Digits
import Offside.Lexer.Reading
import Offside.Token.Basic

/-!
# String and bytes literals

`StringLiteral.read?` reads a literal on one line: prefix letters, a quote, the body and the same
quote. A cooked body decodes escapes; in a raw one a backslash keeps its next character, so that a
quote after it does not end the literal.
-/

namespace Offside.StringLiteral

structure Form where
  raw : Bool := false
  bytes : Bool := false
  deriving DecidableEq

def isPrefixLetter (c : Char) : Bool :=
  ['r', 'R', 'b', 'B', 'u', 'U', 'f', 'F'].contains c

/-- The form that prefix letters in lower case choose. -/
def Form.ofLetters? : List Char → Option Form
  | [] | ['u'] => some {}
  | ['r'] => some { raw := true }
  | ['b'] => some { bytes := true }
  | ['r', 'b'] | ['b', 'r'] => some { raw := true, bytes := true }
  | _ => none

def isAscii (c : Char) : Bool := c.toNat < 128

def simpleEscape? : Char → Option Char
  | '\\' => some '\\'
  | '\'' => some '\''
  | '"' => some '"'
  | 'a' => some '\x07'
  | 'b' => some '\x08'
  | 'f' => some '\x0c'
  | 'n' => some '\n'
  | 'r' => some '\r'
  | 't' => some '\t'
  | 'v' => some '\x0b'
  | _ => none

/-- The number of hexadecimal digits after an escape letter. Only text has the longer forms. -/
def hexLength? (bytes : Bool) : Char → Option Nat
  | 'x' => some 2
  | 'u' => if bytes then none else some 4
  | 'U' => if bytes then none else some 8
  | _ => none

/-- Reads what follows the backslash at `pos`. A character that is no escape keeps its backslash. -/
def escape (bytes : Bool) (pos : Position) : List Char → Reading (List Char)
  | [] | '\n' :: _ => .error 0 (.unterminatedString pos)
  | c :: rest =>
    match simpleEscape? c with
    | some plain => .ok 1 [plain]
    | none =>
      if Decimal.isDigit 8 c then
        let digits := c :: (rest.take 2).takeWhile (Decimal.isDigit 8)
        let value := Decimal.natOf 8 digits
        .ok digits.length [Char.ofNat (if bytes then value % 256 else value)]
      else match hexLength? bytes c with
        | some length =>
          let digits := (rest.take length).takeWhile (Decimal.isDigit 16)
          let value := Decimal.natOf 16 digits
          if digits.length = length ∧ value.isValidChar then .ok (1 + length) [Char.ofNat value]
          else .error (1 + digits.length)
            (.invalidEscape (String.ofList ('\\' :: c :: digits)) pos)
        | none =>
          if bytes && !isAscii c then .error 1 (.nonAsciiBytes (pos.right 2))
          else .ok 1 ['\\', c]

/-- Reads a body up to and including its quote. The literal starts at `start`, and `taken` of its
characters come before the body. -/
def body (form : Form) (quote : Char) (start : Position) (taken : Nat) :
    List Char → Reading (List Char)
  | [] => .error taken (.unterminatedString start)
  | c :: rest =>
    if c = '\n' then .error taken (.unterminatedString start)
    else if c = quote then .ok (taken + 1) []
    else if c = '\\' then
      if form.raw then
        match rest with
        | next :: after =>
          if next = '\n' then .error (taken + 1) (.unterminatedString start)
          else if form.bytes && !isAscii next then
            .error (taken + 1) (.nonAsciiBytes (start.right (taken + 1)))
          else (body form quote start (taken + 2) after).map (c :: next :: ·)
        | [] => .error (taken + 1) (.unterminatedString start)
      else
        match escape form.bytes (start.right taken) rest with
        | ⟨count, .error e⟩ => .error (taken + 1 + count) e
        | ⟨count, .ok decoded⟩ =>
          (body form quote start (taken + 1 + count) (rest.drop count)).map (decoded ++ ·)
    else if form.bytes && !isAscii c then .error taken (.nonAsciiBytes (start.right taken))
    else (body form quote start (taken + 1) rest).map (c :: ·)
termination_by cs => cs.length
decreasing_by all_goals simp_all; try omega

/-- The token of a decoded body. In a bytes literal every character is the byte with its number. -/
def Form.kind (form : Form) (decoded : List Char) : Token.Kind :=
  if form.bytes then .bytes (decoded.map fun c => UInt8.ofNat c.toNat)
  else .str (String.ofList decoded)

/-- Reads a literal, or nothing if `cs` does not start one. A prefix that is none leaves its letters
to a name. -/
def read? (start : Position) (cs : List Char) : Option (Reading Token.Kind) :=
  let letters := (cs.take 2).takeWhile isPrefixLetter
  let lowered := letters.map Char.toLower
  match cs.drop letters.length with
  | quote :: rest =>
    if quote ≠ '\'' ∧ quote ≠ '"' then none
    else if lowered.contains 'f' then
      some (.error 0 (.unsupportedPrefix (String.ofList letters) start))
    else (Form.ofLetters? lowered).map fun form =>
      if rest.take 2 = [quote, quote] then .error 0 (.tripleQuotedString start)
      else (body form quote start (letters.length + 1) rest).map form.kind
  | [] => none

end Offside.StringLiteral
