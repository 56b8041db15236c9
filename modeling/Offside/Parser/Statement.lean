import Offside.Parser.Expression

/-!
# Statements and programs

`Parser.statement` parses a compound statement or a line of simple ones, and `Parser.program` a
whole source. A body is either the rest of a line or an indented block.
-/

namespace Offside

namespace ParseM

/-- The value after `=`, or after an augmented assignment to `target`. -/
def assignment (steps : Nat) (target : Token) (name : String) (op : Option BinaryOp) :
    ParseM Node := do
  let _ ← advance
  let mark ← advance
  let value ← expressionAt steps .or
  let line := target.pos.line
  return .assign name (match op with
    | some op => .binary op (.identifier name line) value mark.pos.line
    | none => value) line

/-- Whether the mark assigns: such a mark after an expression has no name before it. -/
def assigns (mark : Punct) : Bool := mark = .assign || mark.augmented?.isSome

def expressionStatement (steps line : Nat) : ParseM Node := do
  let expression ← expressionAt steps .or
  let token ← peek
  match token.kind with
  | .punct mark =>
    if assigns mark then fail (.invalidTarget line) else return expression
  | _ => return expression

def simpleStatement (steps : Nat) : ParseM Node := do
  let token ← peek
  let line := token.pos.line
  match token.kind with
  | .keyword .passWord =>
    let _ ← advance
    return .noOp line
  | .keyword word =>
    match word with
    | .returnWord | .forWord | .fromWord | .importWord | .raiseWord =>
      fail (.unsupportedStatement word token.pos)
    | .ifWord | .whileWord | .defWord | .elifWord | .elseWord => unexpected token
    | _ => expressionStatement steps line
  | .identifier name =>
    let next ← peek 1
    match next.kind with
    | .punct mark =>
      if assigns mark then assignment steps token name mark.augmented?
      else expressionStatement steps line
    | _ => expressionStatement steps line
  | _ => expressionStatement steps line

/-- The simple statements that follow one on its line, each after a semicolon. -/
def lineRest (steps : Nat) : Nat → ParseM (List Node)
  | 0 => throw .exhausted
  | more + 1 => do
    let token ← advance
    match token.kind with
    | .newline | .endMarker => return []
    | .punct .semicolon =>
      let next ← peek
      if next.kind = .newline ∨ next.kind = .endMarker then lineRest steps more
      else
        let statement ← simpleStatement steps
        let rest ← lineRest steps more
        return statement :: rest
    | _ => unexpected token (some .newline)

def simpleLine (steps : Nat) : ParseM (List Node) := do
  let first ← simpleStatement steps
  let rest ← lineRest steps steps
  return first :: rest

/-- The statements of an indented block up to the dedent that ends it. -/
def blockRest (statement : ParseM (List Node)) : Nat → ParseM (List Node)
  | 0 => throw .exhausted
  | more + 1 => do
    let token ← peek
    match token.kind with
    | .dedent =>
      let _ ← advance
      return []
    | .endMarker => unexpected token (some .dedent)
    | _ =>
      let nodes ← statement
      let rest ← blockRest statement more
      return nodes ++ rest

/-- The body of a compound statement, after a colon on line `line`. -/
def body (statement : ParseM (List Node)) (steps line : Nat) : ParseM Node := do
  let token ← peek
  if token.kind = .newline then
    let _ ← advance
    let indent ← advance
    if indent.kind = .indent then
      modify fun p => { p with depth := p.depth + 1 }
      let statements ← blockRest statement steps
      modify fun p => { p with depth := p.depth - 1 }
      return .block statements line
    else unexpected indent (some .block)
  else
    let statements ← simpleLine steps
    return .block statements line

def colonBody (statement : ParseM (List Node)) (steps : Nat) : ParseM Node := do
  let colon ← expect .colon
  body statement steps colon.pos.line

/-- A conditional from its condition on. What follows `elif` is a conditional of its own, and a
missing `else` is an empty statement. -/
def conditional (statement : ParseM (List Node)) (steps : Nat) : Nat → Nat → ParseM Node
  | 0, _ => throw .exhausted
  | more + 1, line => do
    let condition ← expressionAt steps .or
    let yes ← colonBody statement steps
    let next ← peek
    if next.kind = .keyword .elifWord then
      let _ ← advance
      let no ← conditional statement steps more next.pos.line
      return .branch condition yes no line
    else if next.kind = .keyword .elseWord then
      let _ ← advance
      let no ← colonBody statement steps
      return .branch condition yes no line
    else return .branch condition yes (.noOp line) line

/-- A parameter. Its annotation and its default value are checked and dropped. -/
def parameter (steps : Nat) : ParseM String := do
  let name ← name
  if ← eat (.punct .colon) then
    let _ ← expressionAt steps .or
  if ← eat (.punct .assign) then
    let _ ← expressionAt steps .or
  return name

/-- A function definition from its name on. The annotation of its result is dropped. -/
def definition (statement : ParseM (List Node)) (steps line : Nat) : ParseM Node := do
  let name ← name
  let _ ← expect .leftParen
  let params ← commaSeparated .rightParen (parameter steps) steps
  if ← eat (.punct .arrow) then
    let _ ← expressionAt steps .or
  let body ← colonBody statement steps
  return .function name params body line

/-- A statement, or the statements of one line. An empty line is an empty statement. -/
def statement : Nat → ParseM (List Node)
  | 0 => throw .exhausted
  | steps + 1 => do
    let token ← peek
    let line := token.pos.line
    match token.kind with
    | .keyword .ifWord =>
      let _ ← advance
      return [← conditional (statement steps) steps steps line]
    | .keyword .whileWord =>
      let _ ← advance
      let condition ← expressionAt steps .or
      let body ← colonBody (statement steps) steps
      return [.loop condition body line]
    | .keyword .defWord =>
      let _ ← advance
      return [← definition (statement steps) steps line]
    | .newline =>
      let _ ← advance
      return [.noOp line]
    | .indent => fail (.unexpectedIndent line)
    | .dedent => fail (.unexpectedDedent line)
    | _ => simpleLine steps

/-- The statements up to the end of the source. -/
def statements (steps : Nat) : Nat → ParseM (List Node)
  | 0 => throw .exhausted
  | more + 1 => do
    let token ← peek
    match token.kind with
    | .endMarker => return []
    | .dedent =>
      if (← get).depth = 0 then fail (.unexpectedDedent token.pos.line)
      else
        let nodes ← statement steps
        let rest ← statements steps more
        return nodes ++ rest
    | _ =>
      let nodes ← statement steps
      let rest ← statements steps more
      return nodes ++ rest

end ParseM

namespace Parser

def statement : ParseM (List Node) := .budgeted ParseM.statement

def program : ParseM Node := do
  let statements ← ParseM.budgeted fun steps => ParseM.statements steps steps
  return .block statements 1

end Parser

/-- The tree of a source, or the first error in it. -/
def parse (source : String) (tabSize : UInt64 := Lexer.defaultTabSize) : Except SourceError Node :=
  match Parser.program.run (.ofText source tabSize) with
  | .ok node _ => .ok node
  | .error e _ => .error e

end Offside
