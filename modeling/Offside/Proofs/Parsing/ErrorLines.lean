import Offside.Proofs.Parsing.TreeLines

/-!
# The lines of syntax errors

A syntax error takes its line from the token that it is about. Up to the end of the source that is one of
its lines. The tokens that close the source are on the line after the last, and so is the error about
one of them: `parse_error_line`.
-/

namespace Offside

open Source (HasLine)

theorem ParseError.line_misplaced (token : Token) (expected : Option Expected) :
    (misplaced token expected).line = token.pos.line := by
  unfold misplaced
  split <;> rfl

theorem ParseError.misplaced_eq_end {token : Token} {expected wanted : Option Expected} {line : Nat}
    (h : misplaced token expected = .unexpectedEnd wanted line) : token.kind = .endMarker := by
  unfold misplaced at h
  split at h
  · assumption
  · cases h

/-- The token that an error is about. Only an error about a misplaced token can be about one that closes
a block or the source. -/
theorem Answers.Refuses.about {answers : Answers} {e : ParseError} (h : answers.Refuses e) :
    ∃ i token, answers.Finds i token ∧ e.line = token.pos.line ∧
      ((∃ expected, e = .misplaced token expected) ∨
        ¬token.Closes ∧ ∀ expected line, e ≠ .unexpectedEnd expected line) := by
  cases h with
  | @misplaced i token expected found =>
    exact ⟨i, token, found, ParseError.line_misplaced token expected, .inl ⟨expected, rfl⟩⟩
  | @unsupported i token _ found known =>
    exact ⟨i, token, found, rfl, .inr ⟨by simp [Token.Closes, known], nofun⟩⟩
  | @indent i token found known =>
    exact ⟨i, token, found, rfl, .inr ⟨by simp [Token.Closes, known], nofun⟩⟩
  | @target i token found other other' | @mixed i token found other other' =>
    exact ⟨i, token, found, rfl, .inr ⟨not_or.mpr ⟨other, other'⟩, nofun⟩⟩

namespace Lexer

variable {s t : Lexer} {lines : List (List Char)}

theorem AtRow.row_of_ended (here : AtRow lines s.cursor) (ended : s.cursor.lines = []) :
    s.cursor.row = lines.length := by
  have le := List.drop_eq_nil_iff.mp (here.left.symm.trans ended)
  exact Nat.le_antisymm here.le le

/-- The tokens that close a source are on the line after its last. -/
theorem line_of_mem_closing (here : AtRow lines s.cursor) (ended : s.Ended) {token : Token}
    (member : token ∈ s.closing) : token.pos.line = Position.coordinate lines.length := by
  rw [← here.row_of_ended ended.ended]
  rcases List.mem_append.mp member with member | member
  · obtain ⟨_, -, rfl⟩ := List.mem_map.mp member
    rfl
  · rw [List.mem_singleton.mp member]
    rfl

/-- A token of a source is on one of its lines, or it is one of those that close the source. -/
theorem found_on_line {source : String} {tabSize : UInt64} {i : Nat} {token : Token}
    (found : (ofText source tabSize).answers.Finds i token) :
    (HasLine (Source.lines source) token.pos.line ∧ token.kind ≠ .endMarker) ∨
      ∃ front t, Run (ofText source tabSize) front t ∧ t.Ended ∧ token ∈ t.closing := by
  obtain ⟨front, t, run, ended | ⟨e, u, failed⟩⟩ := exists_run (steady_ofText source tabSize)
  · rcases (laid_of_ended run ended).mem found with member | last
    · rcases List.mem_append.mp member with member | member
      · exact .inl ⟨run.hasLine ⟨rfl, Nat.zero_le _⟩ token member, run.unended token member⟩
      · exact .inr ⟨front, t, run, ended, List.mem_append_left _ member⟩
    · obtain rfl := Except.ok.inj last
      exact .inr ⟨front, t, run, ended, List.mem_append_right _ List.mem_cons_self⟩
  · rcases (laid_of_failed run failed).mem found with member | last
    · exact .inl ⟨run.hasLine ⟨rfl, Nat.zero_le _⟩ token member, run.unended token member⟩
    · cases last

end Lexer

section

variable {source : String} {tabSize : UInt64} {e : ParseError}

/-- An error is about a token of the source. -/
theorem refuses_of_parse (failed : parse source tabSize = .error (.parse e)) :
    (Lexer.ofText source tabSize).answers.Refuses e := by
  obtain ⟨front, next, laid, -, few⟩ := Lexer.answers_laid source tabSize
  exact (parse_ends laid few).2 _ failed

/-- A syntax error is on a line of the source, or it is about one of the tokens that close the source.
Those are on the line after the last, so that is the line of an unexpected end. -/
theorem parse_error_line (fits : (Source.lines source).length < Position.limit)
    (failed : parse source tabSize = .error (.parse e)) :
    (HasLine (Source.lines source) e.line ∧ ∀ expected line, e ≠ .unexpectedEnd expected line) ∨
      e.line = (Source.lines source).length + 1 ∧ ∃ front token later expected,
        tokenize source tabSize = .ok (front ++ token :: later) ∧
        (∀ other ∈ token :: later, other.Closes) ∧ e = .misplaced token expected := by
  obtain ⟨i, token, found, line, about⟩ := (refuses_of_parse failed).about
  rcases Lexer.found_on_line found with ⟨onLine, unended⟩ | ⟨front, t, run, ended, member⟩
  · refine .inl ⟨line ▸ onLine, fun expected line isEnd => ?_⟩
    rcases about with ⟨_, rfl⟩ | ⟨-, other⟩
    · exact unended (ParseError.misplaced_eq_end isEnd)
    · exact other expected line isEnd
  · right
    have here : Lexer.AtRow (Source.lines source) t.cursor := run.atRow ⟨rfl, Nat.zero_le _⟩
    have beyond := Lexer.line_of_mem_closing here ended member
    have closes : ∀ other ∈ t.closing, other.Closes :=
      fun other member => (Lexer.mem_closing member).1
    obtain ⟨expected, misplaced⟩ := about.resolve_right fun other => other.1 (closes token member)
    obtain ⟨earlier, later, split⟩ := List.append_of_mem member
    refine ⟨line.trans (beyond.trans (Nat.min_eq_left fits)), front ++ earlier, token, later, expected,
      ?_, fun other member => closes other (split ▸ List.mem_append_right _ member), misplaced⟩
    rw [tokenize_eq_ok_iff.mpr ⟨front, t, run, ended, rfl⟩, split, List.append_assoc]

theorem eq_error_of_map {α ε : Type} {result : Except ε α} {e : ε}
    (failed : result.map (fun _ => ()) = .error e) : result = .error e := by
  cases result with
  | error e' => exact congrArg _ (Except.error.inj failed)
  | ok a => cases failed

/-- The inner block has no line, and the token found in its place is the DEDENT that closes the outer
one. -/
theorem parse_error_line_dedent : ∃ e, parse "if x:\n  if y:\n" 8 = .error (.parse e) ∧
    (Source.lines "if x:\n  if y:\n").length = 2 ∧ e.line = 3 ∧
    ∃ token expected, token.Closes ∧ e = .misplaced token expected := by
  have failed : parse "if x:\n  if y:\n" 8 =
      .error (.parse (.unexpectedToken { kind := .dedent, pos := ⟨3, 1⟩ } (some .block))) :=
    eq_error_of_map (by decide +kernel)
  have two : (Source.lines "if x:\n  if y:\n").length = 2 := by decide +kernel
  have few : 2 < Position.limit := by decide
  refine ⟨_, failed, two, rfl, ?_⟩
  rcases parse_error_line (two ▸ few) failed with
    ⟨⟨-, le⟩, -⟩ | ⟨-, front, token, later, expected, -, closes, same⟩
  · rw [two] at le
    exact absurd le (by decide)
  · exact ⟨token, expected, closes token List.mem_cons_self, same⟩

/-- The unexpected end of a source is not on one of its lines. -/
theorem parse_end_astray : ∃ e, parse "if x:\n" 8 = .error (.parse e) ∧
    (Source.lines "if x:\n").length = 1 ∧ e.line = 2 :=
  ⟨.unexpectedEnd (some .block) 2, eq_error_of_map (by decide +kernel), by decide +kernel, rfl⟩

end

end Offside
