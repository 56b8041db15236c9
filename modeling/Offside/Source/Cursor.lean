import Offside.Source.Lines

/-!
# Positions and the cursor

A `Cursor` stands in a list of physical lines. What it has passed it keeps only as a row and a
column, from which `Cursor.position` gives the coordinates that tokens and errors carry.
-/

namespace Offside

/-- A place in a source, both numbers counted from one. -/
structure Position where
  line : Nat
  column : Nat
  deriving DecidableEq

/-- The largest line or column number. Places beyond it share it. -/
def Position.limit : Nat := 0xffffffff

def Position.coordinate (index : Nat) : Nat := min (index + 1) limit

def Position.right (pos : Position) (count : Nat) : Position :=
  { pos with column := min (pos.column + count) limit }

structure Cursor where
  /-- The current line and the lines after it; none at the end of the source. -/
  lines : List (List Char)
  /-- The number of lines passed. -/
  row : Nat := 0
  /-- The number of characters passed on the current line. -/
  column : Nat := 0

namespace Cursor

def ofText (text : String) : Cursor := { lines := Source.lines text }

def atEnd (c : Cursor) : Bool := c.lines.isEmpty

def rest (c : Cursor) : List Char := (c.lines.headD []).drop c.column

def peek (c : Cursor) (count : Nat) : Option Char := c.rest[count]?

/-- The characters of the current line between the index `start` and the cursor. -/
def slice (c : Cursor) (start : Nat) : List Char := ((c.lines.headD []).take c.column).drop start

def advance (c : Cursor) (count : Nat) : Cursor := { c with column := c.column + count }

def skipLines (c : Cursor) (count : Nat) : Cursor :=
  { lines := c.lines.drop count, row := c.row + count, column := 0 }

def nextLine (c : Cursor) : Cursor := c.skipLines 1

def position (c : Cursor) : Position := ⟨Position.coordinate c.row, Position.coordinate c.column⟩

end Cursor

end Offside
