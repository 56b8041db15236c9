import Offside.Lexer.Error

/-!
# Readings

A `Reading` is the outcome of reading a token from the rest of a line: how many characters were
taken, and what they stand for or what is wrong with them.
-/

namespace Offside

structure Reading (α : Type) where
  taken : Nat
  outcome : Except LexError α

namespace Reading

def ok (taken : Nat) (value : α) : Reading α := ⟨taken, .ok value⟩

def error (taken : Nat) (e : LexError) : Reading α := ⟨taken, .error e⟩

def map (f : α → β) (r : Reading α) : Reading β := ⟨r.taken, r.outcome.map f⟩

end Reading

end Offside
