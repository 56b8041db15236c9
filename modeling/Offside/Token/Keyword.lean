/-!
# Keywords

Words that are not names: `Keyword` lists those of the grammar, and `reservedWords` those that no
program may use.
-/

namespace Offside

inductive Keyword where
  | ifWord | elifWord | elseWord | whileWord | defWord | returnWord | forWord | inWord | isWord
  | notWord | andWord | orWord | fromWord | importWord | raiseWord | passWord
  | trueWord | falseWord | noneWord
  deriving DecidableEq

namespace Keyword

def spelling : Keyword → String
  | .ifWord => "if"
  | .elifWord => "elif"
  | .elseWord => "else"
  | .whileWord => "while"
  | .defWord => "def"
  | .returnWord => "return"
  | .forWord => "for"
  | .inWord => "in"
  | .isWord => "is"
  | .notWord => "not"
  | .andWord => "and"
  | .orWord => "or"
  | .fromWord => "from"
  | .importWord => "import"
  | .raiseWord => "raise"
  | .passWord => "pass"
  | .trueWord => "True"
  | .falseWord => "False"
  | .noneWord => "None"

def all : List Keyword := [
  .ifWord, .elifWord, .elseWord, .whileWord, .defWord, .returnWord, .forWord, .inWord, .isWord,
  .notWord, .andWord, .orWord, .fromWord, .importWord, .raiseWord, .passWord, .trueWord,
  .falseWord, .noneWord]

/-- The keyword with this spelling. -/
def ofWord? (word : String) : Option Keyword := all.find? (·.spelling == word)

end Keyword

def reservedWords : List String := [
  "class", "lambda", "try", "except", "finally", "with", "as", "global", "nonlocal", "yield",
  "assert", "del", "break", "continue", "async", "await"]

end Offside
