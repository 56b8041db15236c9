/-!
# Quoted text and bytes

`quoteText` and `quoteBytes` write a text or a list of bytes as a literal of the language: between
quotes, with the backslash, the quote in use and the controls escaped.
-/

namespace Offside.Text

/-- The double quote is used only around a single quote with no double quote beside it. -/
def quoteFor (hasSingle hasDouble : Bool) : Char :=
  if hasSingle && !hasDouble then '"' else '\''

def hexDigits (width n : Nat) : List Char :=
  (Nat.toDigits 16 n).leftpad width '0'

/-- The control characters: the first 32, the delete character and the 32 after it. -/
def isControl (c : Char) : Bool := c.toNat < 0x20 || (0x7F ≤ c.toNat && c.toNat ≤ 0x9F)

/-- One character between quotes. Every control lies below `0x100`, so two digits spell it. -/
def quoteChar (quote c : Char) : List Char :=
  if c = '\\' then ['\\', '\\']
  else if c = '\n' then ['\\', 'n']
  else if c = '\r' then ['\\', 'r']
  else if c = '\t' then ['\\', 't']
  else if c = quote then ['\\', c]
  else if isControl c then '\\' :: 'x' :: hexDigits 2 c.toNat
  else [c]

def quoteText (text : List Char) : List Char :=
  let quote := quoteFor (text.contains '\'') (text.contains '"')
  quote :: text.flatMap (quoteChar quote) ++ [quote]

/-- One byte between quotes: everything outside printable ASCII is spelled with two digits. -/
def quoteByte (quote : Char) (byte : UInt8) : List Char :=
  let c := Char.ofNat byte.toNat
  if c.toNat < 0x7F then quoteChar quote c else '\\' :: 'x' :: hexDigits 2 c.toNat

/-- The quoted bytes, without the prefix of a bytes literal. -/
def quoteBytes (bytes : List UInt8) : List Char :=
  let quote := quoteFor (bytes.contains 0x27) (bytes.contains 0x22)
  quote :: bytes.flatMap (quoteByte quote) ++ [quote]

end Offside.Text
