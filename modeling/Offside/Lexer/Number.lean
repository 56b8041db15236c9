import Offside.Decimal.Digits
import Offside.Lexer.Reading
import Offside.Token.Basic

/-!
# Number literals

`Number.follow` takes characters as long as `Number.step` has a state for them, and the state it
ends in says what kind of number they spell, if any. An integer that starts with a zero has no other
digits, unless a base is marked; a float or an imaginary number may start with zeros.
-/

namespace Offside.Number

inductive Radix where
  | binary | octal | hexadecimal
  deriving DecidableEq

def Radix.base : Radix → Nat
  | .binary => 2
  | .octal => 8
  | .hexadecimal => 16

def Radix.ofMark? : Char → Option Radix
  | 'b' | 'B' => some .binary
  | 'o' | 'O' => some .octal
  | 'x' | 'X' => some .hexadecimal
  | _ => none

/-- What the characters so far are. -/
inductive State where
  | start
  | integer
  | zero
  | zeros
  /-- A zero and digits that are not all zero. -/
  | padded
  /-- A point with no digit yet. -/
  | point
  | fraction
  | exponentMark
  | exponentSign
  | exponent
  | imaginary
  | radixMark (radix : Radix)
  | radixDigits (radix : Radix)
  deriving DecidableEq

/-- The ways on from decimal digits other than a digit: a point, an exponent or the imaginary
unit. -/
def afterDigits (c : Char) : Option State :=
  if c = '.' then some .fraction
  else if c = 'e' ∨ c = 'E' then some .exponentMark
  else if c = 'j' ∨ c = 'J' then some .imaginary
  else none

def step : State → Char → Option State
  | .start, c =>
    if c = '0' then some .zero
    else if c.isDigit then some .integer
    else if c = '.' then some .point
    else none
  | .integer, c => if c.isDigit then some .integer else afterDigits c
  | .zero, c =>
    if c = '0' then some .zeros
    else if c.isDigit then some .padded
    else (afterDigits c).or ((Radix.ofMark? c).map .radixMark)
  | .zeros, c =>
    if c = '0' then some .zeros
    else if c.isDigit then some .padded
    else afterDigits c
  | .padded, c => if c.isDigit then some .padded else afterDigits c
  | .point, c => if c.isDigit then some .fraction else none
  | .fraction, c =>
    if c.isDigit then some .fraction else if c = '.' then none else afterDigits c
  | .exponentMark, c =>
    if c.isDigit then some .exponent
    else if c = '+' ∨ c = '-' then some .exponentSign
    else none
  | .exponentSign, c => if c.isDigit then some .exponent else none
  | .exponent, c =>
    if c.isDigit then some .exponent
    else if c = 'j' ∨ c = 'J' then some .imaginary
    else none
  | .imaginary, _ => none
  | .radixMark radix, c | .radixDigits radix, c =>
    if Decimal.isDigit radix.base c then some (.radixDigits radix) else none

/-- The characters that lead on from a state, and the state they lead to. -/
def follow (state : State) : List Char → List Char × State
  | [] => ([], state)
  | c :: rest =>
    match step state c with
    | none => ([], state)
    | some next =>
      let (taken, final) := follow next rest
      (c :: taken, final)

/-- The integer that digits spell, if sixty-four bits hold it. -/
def integer (text : String) (pos : Position) (value : Nat) : Except LexError Value :=
  if value < 0x8000000000000000 then .ok (.int (Int64.ofNat value)) else .error (.numberTooLarge text pos)

/-- The number that `chars` spell when they end in `state`. -/
def value (state : State) (chars : List Char) (pos : Position) : Except LexError Value :=
  let text := String.ofList chars
  let float (chars : List Char) (make : Float → Value) :=
    match Decimal.unsignedFloat? chars with
    | some x => .ok (make x)
    | none => .error (.invalidNumber text pos)
  match state with
  | .integer | .zero | .zeros => integer text pos (Decimal.natOf 10 chars)
  | .radixDigits radix => integer text pos (Decimal.natOf radix.base (chars.drop 2))
  | .fraction | .exponent => float chars .float
  | .imaginary => float chars.dropLast fun x => .complex ⟨0.0, x⟩
  | _ => .error (.invalidNumber text pos)

def starts : List Char → Bool
  | '.' :: c :: _ => c.isDigit
  | c :: _ => c.isDigit
  | [] => false

/-- Reads a number, or nothing if `cs` does not start one. -/
def read? (pos : Position) (cs : List Char) : Option (Reading Token.Kind) :=
  if starts cs then
    let (chars, state) := follow .start cs
    some ⟨chars.length, (value state chars pos).map .number⟩
  else none

end Offside.Number
