import Offside.Tree.Operator

/-!
# Operators and delimiters

The tokens made of punctuation. `Punct.longestMatch?` takes the longest spelling at the start of a
text, so `**=` is one token.
-/

namespace Offside

inductive Punct where
  | plus | minus | star | doubleStar | slash | doubleSlash | percent | leftShift | rightShift
  | ampersand | pipe | caret | tilde | less | greater | lessEqual | greaterEqual | equalEqual
  | notEqual
  | leftParen | rightParen | leftBracket | rightBracket | leftBrace | rightBrace
  | comma | colon | dot | semicolon | atSign | assign | arrow
  | plusAssign | minusAssign | starAssign | slashAssign | doubleSlashAssign | percentAssign
  | ampersandAssign | pipeAssign | caretAssign | rightShiftAssign | leftShiftAssign
  | doubleStarAssign
  deriving DecidableEq

namespace Punct

def spelling : Punct → String
  | .plus => "+"
  | .minus => "-"
  | .star => "*"
  | .doubleStar => "**"
  | .slash => "/"
  | .doubleSlash => "//"
  | .percent => "%"
  | .leftShift => "<<"
  | .rightShift => ">>"
  | .ampersand => "&"
  | .pipe => "|"
  | .caret => "^"
  | .tilde => "~"
  | .less => "<"
  | .greater => ">"
  | .lessEqual => "<="
  | .greaterEqual => ">="
  | .equalEqual => "=="
  | .notEqual => "!="
  | .leftParen => "("
  | .rightParen => ")"
  | .leftBracket => "["
  | .rightBracket => "]"
  | .leftBrace => "\x7b"
  | .rightBrace => "\x7d"
  | .comma => ","
  | .colon => ":"
  | .dot => "."
  | .semicolon => ";"
  | .atSign => "@"
  | .assign => "="
  | .arrow => "->"
  | .plusAssign => "+="
  | .minusAssign => "-="
  | .starAssign => "*="
  | .slashAssign => "/="
  | .doubleSlashAssign => "//="
  | .percentAssign => "%="
  | .ampersandAssign => "&="
  | .pipeAssign => "|="
  | .caretAssign => "^="
  | .rightShiftAssign => ">>="
  | .leftShiftAssign => "<<="
  | .doubleStarAssign => "**="

def all : List Punct := [
  .plus, .minus, .star, .doubleStar, .slash, .doubleSlash, .percent, .leftShift, .rightShift,
  .ampersand, .pipe, .caret, .tilde, .less, .greater, .lessEqual, .greaterEqual, .equalEqual,
  .notEqual, .leftParen, .rightParen, .leftBracket, .rightBracket, .leftBrace, .rightBrace,
  .comma, .colon, .dot, .semicolon, .atSign, .assign, .arrow, .plusAssign, .minusAssign,
  .starAssign, .slashAssign, .doubleSlashAssign, .percentAssign, .ampersandAssign, .pipeAssign,
  .caretAssign, .rightShiftAssign, .leftShiftAssign, .doubleStarAssign]

def ofChars? (text : List Char) : Option Punct := all.find? (·.spelling.toList == text)

/-- The punctuation with the longest spelling, at most three characters, that `text` starts with. -/
def longestMatch? (text : List Char) : Option Punct :=
  [3, 2, 1].findSome? fun length => ofChars? (text.take length)

def binaryOp? : Punct → Option BinaryOp
  | .plus => some .add
  | .minus => some .sub
  | .star => some .mul
  | .slash => some .div
  | .doubleSlash => some .floorDiv
  | .percent => some .mod
  | .doubleStar => some .pow
  | .leftShift => some .shiftLeft
  | .rightShift => some .shiftRight
  | .ampersand => some .bitAnd
  | .pipe => some .bitOr
  | .caret => some .bitXor
  | .less => some .less
  | .greater => some .greater
  | .lessEqual => some .lessEqual
  | .greaterEqual => some .greaterEqual
  | .equalEqual => some .equal
  | .notEqual => some .notEqual
  | _ => none

/-- Operators form expressions; all other punctuation delimits. -/
def isOperator (p : Punct) : Bool := p = .tilde || p.binaryOp?.isSome

def augmented? : Punct → Option BinaryOp
  | .plusAssign => some .add
  | .minusAssign => some .sub
  | .starAssign => some .mul
  | .slashAssign => some .div
  | .doubleSlashAssign => some .floorDiv
  | .percentAssign => some .mod
  | .ampersandAssign => some .bitAnd
  | .pipeAssign => some .bitOr
  | .caretAssign => some .bitXor
  | .rightShiftAssign => some .shiftRight
  | .leftShiftAssign => some .shiftLeft
  | .doubleStarAssign => some .pow
  | _ => none

/-- The bracket that an opening one writes. -/
def opens? : Punct → Option Char
  | .leftParen => some '('
  | .leftBracket => some '['
  | .leftBrace => some '{'
  | _ => none

/-- The bracket that a closing one writes. -/
def closes? : Punct → Option Char
  | .rightParen => some ')'
  | .rightBracket => some ']'
  | .rightBrace => some '}'
  | _ => none

/-- The closing bracket that goes with an opening one. -/
def closingFor? : Char → Option Char
  | '(' => some ')'
  | '[' => some ']'
  | '{' => some '}'
  | _ => none

end Punct

end Offside
