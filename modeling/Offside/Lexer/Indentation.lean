import Offside.Lexer.Error
import Offside.Token.Basic

/-!
# Indentation

`width` measures the blanks at the start of a line, and `settle` compares a width with the open
levels: a wider line opens one, a narrower line closes all that are wider than it.
-/

namespace Offside.Indentation

def isSpace (c : Char) : Bool := c = ' ' || c = '\t' || c = '\x0c'

/-- The width after one more character: a tab goes to the next multiple of `tabSize`, and a form
feed starts again. Words of sixty-four bits hold it. -/
def widen (tabSize width : UInt64) (c : Char) : UInt64 :=
  if c = '\t' then (width / tabSize + 1) * tabSize
  else if c = '\x0c' then 0
  else width + 1

def width (tabSize : UInt64) (spaces : List Char) : UInt64 := spaces.foldl (widen tabSize) 0

/-- Whether the line holds nothing but spaces and a comment. -/
def isEmptyLine (line : List Char) : Bool :=
  match line.dropWhile isSpace with
  | [] => true
  | c :: _ => c = '\n' || c = '#'

structure Settled where
  /-- The widths of the open levels, the innermost first. -/
  levels : List UInt64
  /-- The indent or the dedents in front of the line. -/
  tokens : List Token
  /-- The width of the level left open, if the line's width is none that was open. -/
  mismatch : Option UInt64 := none

/-- Settles a line of width `width` that starts at `pos`. Outside every level the width is zero. -/
def settle (levels : List UInt64) (width : UInt64) (pos : Position) : Settled :=
  let current := levels.headD 0
  if current < width then
    { levels := width :: levels, tokens := [{ kind := .indent, pos }] }
  else
    let closed := levels.takeWhile (width < ·)
    let left := levels.dropWhile (width < ·)
    let outer := left.headD 0
    { levels := left
      tokens := closed.map fun _ => { kind := .dedent, pos }
      mismatch := if outer = width then none else some outer }

end Offside.Indentation
