/-!
# Operators

The unary and binary operators, with their spelling in programs.
-/

namespace Offside

inductive UnaryOp where
  | plus | negate | invert | not
  deriving DecidableEq

def UnaryOp.spelling : UnaryOp → String
  | .plus => "+"
  | .negate => "-"
  | .invert => "~"
  | .not => "not"

inductive BinaryOp where
  | add | sub | mul | div | floorDiv | mod | pow
  | shiftLeft | shiftRight | bitAnd | bitOr | bitXor
  | less | greater | lessEqual | greaterEqual | equal | notEqual
  | contained | notContained | identical | notIdentical
  | and | or
  deriving DecidableEq

namespace BinaryOp

def spelling : BinaryOp → String
  | .add => "+"
  | .sub => "-"
  | .mul => "*"
  | .div => "/"
  | .floorDiv => "//"
  | .mod => "%"
  | .pow => "**"
  | .shiftLeft => "<<"
  | .shiftRight => ">>"
  | .bitAnd => "&"
  | .bitOr => "|"
  | .bitXor => "^"
  | .less => "<"
  | .greater => ">"
  | .lessEqual => "<="
  | .greaterEqual => ">="
  | .equal => "=="
  | .notEqual => "!="
  | .contained => "in"
  | .notContained => "not in"
  | .identical => "is"
  | .notIdentical => "is not"
  | .and => "and"
  | .or => "or"

def all : List BinaryOp := [
  .add, .sub, .mul, .div, .floorDiv, .mod, .pow, .shiftLeft, .shiftRight, .bitAnd, .bitOr,
  .bitXor, .less, .greater, .lessEqual, .greaterEqual, .equal, .notEqual, .contained,
  .notContained, .identical, .notIdentical, .and, .or]

/-- The operator with this spelling. -/
def ofSpelling? (text : String) : Option BinaryOp := all.find? (·.spelling == text)

end BinaryOp

def UnaryOp.all : List UnaryOp := [.plus, .negate, .invert, .not]

/-- The operator with this spelling. -/
def UnaryOp.ofSpelling? (text : String) : Option UnaryOp := UnaryOp.all.find? (·.spelling == text)

end Offside
