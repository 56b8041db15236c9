import Offside.Text.Visible

/-!
# Dumped text

`dump` writes a text between double quotes as token and tree listings show it: a character without
a glyph of its own is spelled by its code point.
-/

namespace Offside.Text

/-- A code point in braces, with no leading zero. -/
def codePoint (c : Char) : List Char :=
  '\\' :: 'u' :: '{' :: Nat.toDigits 16 c.toNat ++ ['}']

def dumpChar (c : Char) : List Char :=
  match c with
  | '\x00' => ['\\', '0']
  | '\t' => ['\\', 't']
  | '\n' => ['\\', 'n']
  | '\r' => ['\\', 'r']
  | '"' => ['\\', '"']
  | '\\' => ['\\', '\\']
  | c => if isVisible c then [c] else codePoint c

def dump (text : String) : String :=
  String.ofList ('"' :: text.toList.flatMap dumpChar ++ ['"'])

end Offside.Text
