import Offside.Proofs.Lexing.Untokenize
import Offside.Proofs.Parsing.RoundTrip

/-!
# A quoted text as a source

The spelling of a literal or a word is one lexeme, and a source of nothing else has one token and the end
of its line (`tokenize_word`). `tokenize_repr` is the case of texts and bytes as `repr` quotes them.
-/

namespace Offside

open Token

variable {kind : Kind}

theorem isWord_spelling (printed : kind.isPrinted = true) (literal : kind.isLiteral = true)
    (pos : Position) : IsWord { kind, text := kind.spelling, pos } := by
  have notPunct : ∀ mark, kind ≠ .punct mark := by
    rintro mark rfl
    cases literal
  have flat := isFlat_spelling printed
  obtain ⟨c, rest, spelled, starts⟩ := Lexer.head_spelling printed
  refine ⟨⟨by rw [spelled]; exact List.cons_ne_nil c rest, fun member => (flat _ member).1 rfl,
    .inl literal, fun pos follow blank => ?_⟩, ⟨c, rest, spelled, starts⟩,
    fun member => (flat _ member).2 rfl⟩
  rw [String.length_toList]
  exact Lexer.lexeme?_of_literal? (Lexer.literal?_spelling printed notPunct blank)

theorem nesting_of_isLiteral (literal : kind.isLiteral = true) (stack : List Char) :
    kind.nesting stack = some stack := by
  cases kind with
  | punct => cases literal
  | _ => rfl

/-- Nothing but the lines of a source decides its tokens. -/
theorem tokenize_congr {source source' : String} (same : Source.lines source = Source.lines source')
    (tabSize : UInt64) : tokenize source tabSize = tokenize source' tabSize := by
  unfold tokenize Lexer.ofText Cursor.ofText
  rw [same]

/-- A source that is one word has one token and the end of its line. -/
theorem tokenize_word {word : Token} (isWord : word.IsWord)
    (nests : word.kind.nesting [] = some []) (tabSize : UInt64) :
    ∃ tokens, tokenize word.text tabSize = .ok tokens ∧
      tokens.map content = [(word.kind, word.text), (.newline, "\n"), (.endMarker, "")] := by
  let newline : Token := { kind := .newline, text := "\n", pos := ⟨1, 1⟩ }
  let last : Token := { kind := .endMarker, pos := ⟨2, 1⟩ }
  have written : Written 0 [] true ([] ++ [word, newline, last]) :=
    .line (.dedents (fun _ member => absurd member List.not_mem_nil) (by decide)) isWord
      (.word isWord nests
        (.newline rfl (.ended (fun _ member => absurd member List.not_mem_nil) rfl)))
  have text : untokenize [word, newline, last] = word.text ++ "\n" := by
    rw [untokenize, untokenizeFrom_word isWord, untokenizeFrom_newline rfl]
    show String.ofList (word.text.toList ++ ['\n']) = _
    rw [String.ofList_append, String.ofList_toList]
  have lines : Source.lines word.text = Source.lines (untokenize [word, newline, last]) := by
    have flat : ∀ c ∈ word.text.toList, c ≠ '\n' ∧ c ≠ '\r' := fun c member =>
      ⟨fun same => isWord.lexeme.flat (same ▸ member), fun same => isWord.plain (same ▸ member)⟩
    have nonempty := isWord.lexeme.nonempty
    rw [text, Source.lines_of_flat flat nonempty (.inr rfl), ← Source.lines_of_flat flat nonempty (.inl rfl),
      String.append_empty]
  obtain ⟨again, done, same⟩ := written.read tabSize
  exact ⟨again, (tokenize_congr lines tabSize).trans done, same⟩

theorem tokenize_spelling (printed : kind.isPrinted = true) (literal : kind.isLiteral = true)
    (tabSize : UInt64) : ∃ tokens, tokenize kind.spelling tabSize = .ok tokens ∧
      tokens.map content = [(kind, kind.spelling), (.newline, "\n"), (.endMarker, "")] :=
  tokenize_word (isWord_spelling printed literal ⟨1, 1⟩) (nesting_of_isLiteral literal []) tabSize

/-- What `repr` writes is read as one token, with what was written in it. -/
theorem tokenize_repr (tabSize : UInt64) :
    (∀ text, ∃ tokens, tokenize (Value.str text).repr tabSize = .ok tokens ∧
      tokens.map content =
        [(.str text, (Value.str text).repr), (.newline, "\n"), (.endMarker, "")]) ∧
    ∀ data, ∃ tokens, tokenize (Value.bytes data).repr tabSize = .ok tokens ∧
      tokens.map content =
        [(.bytes data, (Value.bytes data).repr), (.newline, "\n"), (.endMarker, "")] := by
  constructor
  · intro text
    have printed : (Kind.str text).isPrinted = true := rfl
    exact tokenize_spelling printed rfl tabSize
  · intro data
    have printed : (Kind.bytes data).isPrinted = true := rfl
    exact tokenize_spelling printed rfl tabSize

end Offside
