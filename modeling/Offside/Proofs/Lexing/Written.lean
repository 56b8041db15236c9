import Mathlib.Data.List.DropRight
import Offside.Proofs.Lexing.Runs

/-!
# Tokens in logical lines

`Token.Written` is a grammar of token lists that knows neither places nor spaces: lines of words with
an indent or dedents in front. `written_of_tokenize` puts the tokens of a source in it, unless a line of
the source is joined to the next.
-/

namespace Offside

namespace Token

/-- The token without its place. -/
def content (token : Token) : Kind × String := (token.kind, token.text)

/-- A token of characters within a line. -/
structure IsWord (token : Token) : Prop where
  lexeme : Lexer.IsLexeme token.text.toList token.kind
  starts : ∃ c rest, token.text.toList = c :: rest ∧ StartsSpelling c
  plain : '\r' ∉ token.text.toList

/-- What may come in front of a line, where `depth` levels are open before it and `depth'` after. -/
inductive Margin : (depth depth' : Nat) → List Token → Prop
  | indent {depth : Nat} {token : Token} : token.content = (.indent, "") →
      depth + 1 < UInt64.size → Margin depth (depth + 1) [token]
  | dedents {depth' : Nat} {tokens : List Token} : (∀ token ∈ tokens, token.content = (.dedent, "")) →
      depth' + tokens.length < UInt64.size → Margin (depth' + tokens.length) depth' tokens

/-- Tokens where `depth` levels and the brackets of `stack` are open, at the start of a line or not. -/
inductive Written : (depth : Nat) → (stack : List Char) → (start : Bool) → List Token → Prop
  | ended {dedents : List Token} {last : Token} : (∀ token ∈ dedents, token.content = (.dedent, "")) →
      last.content = (.endMarker, "") → Written dedents.length [] true (dedents ++ [last])
  | line {depth depth' : Nat} {margin later : List Token} {word : Token} :
      Margin depth depth' margin → word.IsWord → Written depth' [] false (word :: later) →
        Written depth [] true (margin ++ word :: later)
  | word {depth : Nat} {stack stack' : List Char} {word : Token} {later : List Token} :
      word.IsWord → word.kind.nesting stack = some stack' → Written depth stack' false later →
        Written depth stack false (word :: later)
  | newline {depth : Nat} {token : Token} {later : List Token} : token.content = (.newline, "\n") →
      Written depth [] true later → Written depth [] false (token :: later)

end Token

namespace Indentation

theorem length_le_of_ascending {level : UInt64} {levels : List UInt64}
    (ascending : Ascending (level :: levels)) : levels.length < level.toNat := by
  induction levels generalizing level with
  | nil => exact (List.pairwise_cons.mp ascending).1 0 List.mem_cons_self
  | cons outer levels ih =>
    obtain ⟨wider, ascending⟩ := List.pairwise_cons.mp ascending
    have less : outer.toNat < level.toNat := wider outer List.mem_cons_self
    have deep := ih ascending
    rw [List.length_cons]
    omega

/-- Only so many levels can be open as there are widths. -/
theorem length_lt_of_ascending {levels : List UInt64} (ascending : Ascending levels) :
    levels.length < UInt64.size := by
  cases levels with
  | nil => decide
  | cons level levels =>
    have deep := length_le_of_ascending ascending
    have bound := level.toNat_lt_size
    rw [List.length_cons]
    omega

end Indentation

namespace Lexer

open Token

variable {s t : Lexer} {tokens : List Token}

/-! ### What is ahead -/

theorem ahead_suffix_of_cons {line : List Char} {later : List (List Char)}
    (split : s.cursor.lines = line :: later) : s.ahead <:+ line := by
  refine (List.dropWhile_suffix _).trans ?_
  rw [Cursor.rest, split]
  exact List.drop_suffix _ _

theorem ahead_suffix (more : s.cursor.lines ≠ []) : ∃ line ∈ s.cursor.lines, s.ahead <:+ line := by
  obtain ⟨line, lines, split⟩ := List.exists_cons_of_ne_nil more
  exact ⟨line, split ▸ List.mem_cons_self, ahead_suffix_of_cons split⟩

theorem ahead_unspaced (s : Lexer) : s.unspaced.ahead = s.ahead := by
  rw [ahead, rest_unspaced, ahead, List.dropWhile_idempotent]

theorem lines_skipped (s : Lexer) :
    s.skipped.cursor.lines = s.cursor.lines.dropWhile Indentation.isEmptyLine := by
  show s.cursor.lines.drop (s.cursor.lines.takeWhile Indentation.isEmptyLine).length = _
  nth_rewrite 2 [← List.takeWhile_append_dropWhile (p := Indentation.isEmptyLine)
    (l := s.cursor.lines)]
  rw [List.drop_left]

theorem ahead_skipped (more : s.skipped.cursor.lines ≠ []) : ¬EndsLine s.skipped.ahead := by
  intro ends
  have head := List.head?_dropWhile_not Indentation.isEmptyLine s.cursor.lines
  obtain ⟨line, lines, split⟩ := List.exists_cons_of_ne_nil more
  rw [← lines_skipped, split] at head
  have filled : Indentation.isEmptyLine line = false := head
  have here : s.skipped.ahead = line.dropWhile Indentation.isSpace := by
    rw [Lexer.ahead, Cursor.rest, split]
    rfl
  rw [here] at ends
  rw [isEmptyLine_iff.mpr (.inr ends)] at filled
  cases filled

theorem Steady.unjoined (steady : s.Steady) (more : s.cursor.lines ≠ [])
    (unjoined : ∀ line ∈ s.cursor.lines, ¬['\\', '\n'] <:+ line) {rest : List Char} :
    s.ahead ≠ '\\' :: '\n' :: rest := by
  intro found
  obtain ⟨line, member, suffix⟩ := ahead_suffix more
  exact unjoined line member (steady.ahead_join more found ▸ suffix)

theorem isWord_of_read {taken : Nat} {kind : Token.Kind} {at' pos : Position}
    (starts : StartsToken s.ahead) (plain : '\r' ∉ s.ahead)
    (read : lexeme? at' s.ahead = some (.ok taken kind)) :
    IsWord { kind, text := String.ofList (s.ahead.take taken), pos } := by
  obtain ⟨chars, rest, split, rfl, lexeme⟩ := lexeme_of_read read
  obtain ⟨c, later, found, notFeed, notComment, notJoin⟩ := starts
  obtain ⟨d, chars, rfl⟩ := List.exists_cons_of_ne_nil lexeme.nonempty
  have spelled : (String.ofList (s.ahead.take (d :: chars).length)).toList = d :: chars := by
    rw [split, List.take_left, String.toList_ofList]
  have space := isSpace_of_ahead found
  obtain rfl : c = d := (List.cons.inj (found.symm.trans split)).1
  refine ⟨by rwa [spelled], ⟨c, chars, spelled, space, notFeed, notComment, notJoin⟩, ?_⟩
  rw [spelled]
  exact fun member => plain (split ▸ List.mem_append_left rest member)

/-! ### Turns and runs -/

theorem Turn.lines (turn : Turn s tokens t) : t.cursor.lines <:+ s.cursor.lines := by
  cases turn with
  | token => exact List.suffix_refl _
  | _ => exact List.drop_suffix _ _

theorem margin_settled (steady : s.Steady) :
    Margin s.levels.length s.settled.levels.length s.settled.tokens := by
  have bound := Indentation.length_lt_of_ascending steady.ascending
  have bound' : s.settled.levels.length < UInt64.size :=
    Indentation.length_lt_of_ascending (Indentation.settle_ascending steady.ascending)
  rcases Indentation.settle_cases s.levels
      (Indentation.width s.tabSize (s.cursor.rest.takeWhile Indentation.isSpace))
      s.unspaced.cursor.position with ⟨levels, indent⟩ | ⟨closed, split, dedents⟩
  · have left : s.settled.levels = _ := levels
    have tokens : s.settled.tokens = _ := indent
    rw [left, List.length_cons] at bound'
    rw [left, tokens, List.length_cons]
    exact .indent rfl bound'
  · have tokens : s.settled.tokens = _ := dedents
    have count : s.levels.length = s.settled.levels.length + s.settled.tokens.length := by
      have lengths := congrArg List.length split
      rw [List.length_append] at lengths
      rw [tokens, List.length_map]
      exact lengths.trans (Nat.add_comm _ _)
    rw [count] at bound ⊢
    refine .dedents (fun token member => ?_) bound
    rw [tokens] at member
    obtain ⟨_, -, rfl⟩ := List.mem_map.mp member
    rfl

theorem content_dedents (s : Lexer) : ∀ token ∈ s.dedents, token.content = (.dedent, "") :=
  fun _ member => Prod.ext_iff.mpr (mem_dedents member)

theorem written_closing (s : Lexer) : Written s.levels.length [] true s.closing := by
  rw [← s.length_dedents]
  exact .ended s.content_dedents rfl

theorem Run.nil_of_ended (run : Run s tokens t) (inside : s.lineStart = false)
    (ended : s.cursor.lines = []) : tokens = [] ∧ t = s := by
  cases run with
  | refl => exact ⟨rfl, rfl⟩
  | step turn _ =>
    have outside : s.lineStart ≠ true := by rw [inside]; decide
    cases turn with
    | blank start => exact absurd start outside
    | enter start => exact absurd start outside
    | _ => exact absurd ended ‹s.cursor.lines ≠ []›

theorem Run.word (run : Run s tokens t) (steady : s.Steady) (ended : t.Ended)
    (inside : s.lineStart = false) (more : s.cursor.lines ≠ []) (filled : ¬EndsLine s.ahead)
    (lines : ∀ line ∈ s.cursor.lines, '\r' ∉ line ∧ ¬['\\', '\n'] <:+ line) :
    ∃ word later, tokens = word :: later ∧ word.IsWord := by
  have outside : s.lineStart ≠ true := by rw [inside]; decide
  cases run with
  | refl => exact absurd ended.ended more
  | step turn _ =>
    cases turn with
    | blank start => exact absurd start outside
    | enter start => exact absurd start outside
    | newline _ _ ends => exact absurd ends filled
    | fold _ _ ends => exact absurd ends filled
    | join _ _ found =>
      exact absurd found (steady.unjoined more fun line member => (lines line member).2)
    | token _ _ starts read _ =>
      obtain ⟨line, member, suffix⟩ := ahead_suffix more
      exact ⟨_, _, rfl, isWord_of_read starts
        (fun inside => (lines line member).1 (suffix.subset inside)) read⟩

/-- A run to the end of the source hands out tokens in logical lines. -/
theorem Run.written (run : Run s tokens t) (steady : s.Steady) (ended : t.Ended)
    (lines : ∀ line ∈ s.cursor.lines, '\r' ∉ line ∧ ¬['\\', '\n'] <:+ line)
    (unfinished : s.lineStart = true ∨ s.cursor.lines ≠ [] ∨ s.brackets ≠ []) :
    Written s.levels.length (s.brackets.map (·.bracket)) s.lineStart (tokens ++ t.closing) := by
  induction run with
  | refl =>
    rcases unfinished with start | more | open'
    · exact absurd (ended.inside.symm.trans start) nofun
    · exact absurd ended.ended more
    · exact absurd ended.closed open'
  | @step s t u tokens later turn run ih =>
    have next := ih (turn.steady steady) ended fun line member =>
      lines line (turn.lines.subset member)
    cases turn with
    | blank start none =>
      obtain ⟨closed, -⟩ := steady.start start
      obtain ⟨rfl, rfl⟩ := run.nil_of_ended rfl none
      rw [closed, start]
      exact written_closing s.skipped
    | enter start more settled =>
      obtain ⟨closed, -⟩ := steady.start start
      let t : Lexer := { s.skipped.unspaced with levels := s.skipped.settled.levels }
      have filled : ¬EndsLine t.ahead := by
        have same : t.ahead = s.skipped.ahead := ahead_unspaced s.skipped
        rw [same]
        exact ahead_skipped more
      have entered : t.Steady := (Turn.enter start more settled).steady steady
      obtain ⟨word, later, rfl, isWord⟩ := run.word entered ended rfl more filled
        fun line member => lines line (List.mem_of_mem_drop member)
      -- What the next turn hands out is the first word of the line.
      rw [closed, start, List.append_assoc]
      have after : Written s.skipped.settled.levels.length (s.brackets.map (·.bracket)) false
        (word :: later ++ u.closing) := next (.inr (.inl more))
      rw [closed] at after
      exact .line (margin_settled steady.skipped) isWord after
    | newline inside more ends closed =>
      have after := next (.inl rfl)
      rw [closed] at after ⊢
      rw [inside]
      exact .newline rfl after
    | fold inside more ends open' => exact next (.inr (.inr open'))
    | join inside more found =>
      exact absurd found (steady.unjoined more fun line member => (lines line member).2)
    | @token taken kind brackets inside more starts read done =>
      obtain ⟨line, member, suffix⟩ := ahead_suffix more
      have after : Written s.levels.length (brackets.map (·.bracket)) s.lineStart
        (later ++ u.closing) := next (.inr (.inl more))
      rw [inside] at after ⊢
      exact .word (isWord_of_read starts
        (fun inside => (lines line member).1 (suffix.subset inside)) read)
        (nesting_of_bracketed (s := s.unspaced) done) after

end Lexer

/-- The tokens of a source without joined lines are written in logical lines. -/
theorem written_of_tokenize {source : String} {tabSize : UInt64} {tokens : List Token}
    (unjoined : ∀ line ∈ Source.lines source, ¬['\\', '\n'] <:+ line)
    (done : tokenize source tabSize = .ok tokens) : Token.Written 0 [] true tokens := by
  obtain ⟨front, t, run, ended, rfl⟩ := tokenize_eq_ok_iff.mp done
  exact run.written (Lexer.steady_ofText source tabSize) ended
    (fun line member => ⟨Source.return_not_mem_lines member, unjoined line member⟩) (.inl rfl)

end Offside
