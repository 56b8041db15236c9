import Offside.Parser.Basic

/-!
# Expressions

`Level` orders the operators from the loosest to the tightest, and `expressionAt` parses one level.
Every binary level folds to the left but the power, which takes an atom on its left and a unary
expression on its right.
-/

namespace Offside

/-- The levels of expressions, the loosest first. -/
inductive Level where
  | or | and | comparison | bitOr | bitXor | bitAnd | shift | additive | multiplicative
  | unary | power | atom
  deriving DecidableEq

namespace Level

/-- The next tighter level, which the operands of a level belong to. -/
def tighter : Level → Level
  | .or => .and
  | .and => .comparison
  | .comparison => .bitOr
  | .bitOr => .bitXor
  | .bitXor => .bitAnd
  | .bitAnd => .shift
  | .shift => .additive
  | .additive => .multiplicative
  | .multiplicative => .unary
  | .unary => .power
  | .power | .atom => .atom

def ofBinary : BinaryOp → Level
  | .or => .or
  | .and => .and
  | .less | .greater | .lessEqual | .greaterEqual | .equal | .notEqual
  | .contained | .notContained | .identical | .notIdentical => .comparison
  | .bitOr => .bitOr
  | .bitXor => .bitXor
  | .bitAnd => .bitAnd
  | .shiftLeft | .shiftRight => .shift
  | .add | .sub => .additive
  | .mul | .div | .floorDiv | .mod => .multiplicative
  | .pow => .power

end Level

/-- The operator that a token spells before an operand. -/
def Token.Kind.unaryOp? : Token.Kind → Option UnaryOp
  | .punct .plus => some .plus
  | .punct .minus => some .negate
  | .punct .tilde => some .invert
  | .keyword .notWord => some .not
  | _ => none

/-- The operator between two operands that one token spells. -/
def Token.Kind.operator? : Token.Kind → Option BinaryOp
  | .keyword .orWord => some .or
  | .keyword .andWord => some .and
  | .keyword .inWord => some .contained
  | kind => kind.binaryOp?

namespace ParseM

/-- Consumes `is`, `is not` or `not in` at the next token, which is `token`, if one of them is
there. -/
def wordOperator (token : Token) : ParseM (Option BinaryOp) := do
  if token.kind = .keyword .isWord then
    let next ← peek 1
    let _ ← advance
    if next.kind = .keyword .notWord then
      let _ ← advance
      return some .notIdentical
    else return some .identical
  else if token.kind = .keyword .notWord then
    let next ← peek 1
    if next.kind = .keyword .inWord then
      let _ ← advance
      let _ ← advance
      return some .notContained
    else return none
  else return none

/-- Consumes an operator of the level if one follows, and gives it with its line. -/
def operatorAt (level : Level) : ParseM (Option (BinaryOp × Nat)) := do
  let token ← peek
  match token.kind.operator? with
  | some op =>
    if Level.ofBinary op = level then
      let _ ← advance
      return some (op, token.pos.line)
    else return none
  | none =>
    if level = .comparison then
      let op ← wordOperator token
      return op.map (·, token.pos.line)
    else return none

/-- Folds operands to the left as long as an operator follows. -/
def chain (operator : ParseM (Option (BinaryOp × Nat))) (operand : ParseM Node) :
    Nat → Node → ParseM Node
  | 0, _ => throw .exhausted
  | steps + 1, left => do
    match ← operator with
    | none => return left
    | some (op, line) =>
      let right ← operand
      chain operator operand steps (.binary op left right line)

/-- Appends the literals of the same type that follow `first`. -/
def adjacent : Nat → Value → ParseM Value
  | 0, _ => throw .exhausted
  | steps + 1, first => do
    let token ← peek
    match first, token.kind with
    | .str text, .str more =>
      let _ ← advance
      adjacent steps (.str (text ++ more))
    | .bytes data, .bytes more =>
      let _ ← advance
      adjacent steps (.bytes (data ++ more))
    | _, .str _ | _, .bytes _ => fail (.mixedLiterals token.pos)
    | _, _ => return first

/-- A name, a call, a literal or an expression in parentheses. -/
def atom (expression : ParseM Node) (steps : Nat) : ParseM Node := do
  let token ← advance
  let line := token.pos.line
  match token.kind with
  | .identifier name =>
    if ← eat (.punct .leftParen) then
      let arguments ← commaSeparated .rightParen expression steps
      return .call name arguments line
    else return .identifier name line
  | .number value => return .literal value line
  | .str text => return .literal (← adjacent steps (.str text)) line
  | .bytes data => return .literal (← adjacent steps (.bytes data)) line
  | .keyword .trueWord => return .literal (.bool true) line
  | .keyword .falseWord => return .literal (.bool false) line
  | .keyword .noneWord => return .literal .none line
  | .punct .leftParen =>
    let inner ← expression
    let _ ← expect .rightParen
    return inner
  | _ => unexpected token (some .expression)

/-- An expression of the level or a tighter one. -/
def expressionAt : Nat → Level → ParseM Node
  | 0, _ => throw .exhausted
  | steps + 1, .atom => atom (expressionAt steps .or) steps
  | steps + 1, .power => do
    let base ← expressionAt steps .atom
    let token ← peek
    if token.kind = .punct .doubleStar then
      let _ ← advance
      let exponent ← expressionAt steps .unary
      return .binary .pow base exponent token.pos.line
    else return base
  | steps + 1, .unary => do
    let token ← peek
    match token.kind.unaryOp? with
    | some op =>
      let _ ← advance
      let operand ← expressionAt steps .unary
      return .unary op operand token.pos.line
    | none => expressionAt steps .power
  | steps + 1, level => do
    let first ← expressionAt steps level.tighter
    chain (operatorAt level) (expressionAt steps level.tighter) steps first

end ParseM

/-- An expression, from the loosest level on. -/
def Parser.expression : ParseM Node := .budgeted fun steps => ParseM.expressionAt steps .or

end Offside
