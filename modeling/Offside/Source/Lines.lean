/-!
# Physical lines

`lines` cuts a source into lines that all end in a line feed, whatever line ends it uses and whether
or not the last one has one.
-/

namespace Offside.Source

/-- Every carriage return, together with a line feed after it, becomes one line feed. -/
def normalize : List Char → List Char
  | '\r' :: '\n' :: rest => '\n' :: normalize rest
  | '\r' :: rest => '\n' :: normalize rest
  | c :: rest => c :: normalize rest
  | [] => []

/-- The lines of a normalised text, each with its line feed; the last one is given one. -/
def splitLines : List Char → List (List Char)
  | [] => []
  | '\n' :: rest => ['\n'] :: splitLines rest
  | c :: rest =>
    match splitLines rest with
    | [] => [[c, '\n']]
    | line :: later => (c :: line) :: later

def lines (text : String) : List (List Char) := splitLines (normalize text.toList)

end Offside.Source
