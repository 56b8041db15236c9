import Offside.Lexer.Reading
import Offside.Text.Letter
import Offside.Token.Basic

/-!
# Names and keywords

`Name.read?` reads the longest word and decides whether it is a keyword, a name, or a word that no
program may use.
-/

namespace Offside.Name

/-- The token of a word. -/
def kind (word : String) : Token.Kind :=
  match Keyword.ofWord? word with
  | some keyword => .keyword keyword
  | none => .identifier word

/-- Reads a word, or nothing if `cs` does not start one. -/
def read? (pos : Position) (cs : List Char) : Option (Reading Token.Kind) :=
  match cs with
  | [] => none
  | c :: _ =>
    if Text.startsName c then
      let chars := cs.takeWhile Text.continuesName
      let word := String.ofList chars
      some (if reservedWords.contains word then
          .error chars.length (.unsupportedKeyword word pos)
        else .ok chars.length (kind word))
    else none

end Offside.Name
