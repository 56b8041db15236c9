import Offside.Proofs.Lexing.Pieces

/-!
# Nothing of a source is lost

A cursor has `Covered` what is before it with pieces of the source, and a lexer `Covers` it so that the
tokens among them are those it has handed out. `tokenize_lossless` is what comes of it at the end.
-/

namespace Offside

/-! ### What a cursor has passed -/

open Piece

variable {lines : List (List Char)} {c : Cursor} {pieces : List Piece}

/-- The pieces make up what is before the cursor. -/
structure Covered (lines : List (List Char)) (c : Cursor) (pieces : List Piece) : Prop where
  here : c.lines = lines.drop c.row
  before : text pieces = (lines.take c.row).flatten ++ (c.lines.headD []).take c.column
  fits : InTurn (Fits lines.flatten) pieces

namespace Covered

theorem start (text : String) : Covered (Source.lines text) (.ofText text) [] :=
  ⟨rfl, rfl, .nil⟩

theorem split (covered : Covered lines c pieces) : lines.flatten = text pieces ++ c.onward := by
  rw [covered.before, Cursor.onward, Cursor.rest]
  have line : (c.lines.headD []).take c.column ++ (c.lines.headD []).drop c.column = c.lines.headD [] :=
    List.take_append_drop _ _
  rw [List.append_assoc, ← List.append_assoc (List.take _ _), line]
  have later : c.lines.headD [] ++ c.lines.tail.flatten = c.lines.flatten := by
    cases c.lines <;> rfl
  rw [later, covered.here, ← List.flatten_append, List.take_append_drop]

theorem pass (covered : Covered lines c pieces) {piece : Piece} {later : List Char}
    (rest : c.rest = piece.chars ++ later) (fits : Fits lines.flatten pieces piece) :
    Covered lines (c.advance piece.chars.length) (pieces ++ [piece]) := by
  refine ⟨covered.here, ?_, covered.fits.concat fits⟩
  show _ = _ ++ (c.lines.headD []).take (c.column + piece.chars.length)
  have passed : ((c.lines.headD []).drop c.column).take piece.chars.length = piece.chars := by
    rw [← Cursor.rest, rest, List.take_left]
  rw [text_concat, covered.before, List.take_add, passed, List.append_assoc]
  rfl

theorem passLine (covered : Covered lines c pieces) (more : c.lines ≠ []) {piece : Piece}
    (rest : c.rest = piece.chars) (fits : Fits lines.flatten pieces piece) :
    Covered lines c.nextLine (pieces ++ [piece]) := by
  obtain ⟨line, later, lines'⟩ := List.exists_cons_of_ne_nil more
  have here := covered.here
  rw [lines'] at here
  refine ⟨?_, ?_, covered.fits.concat fits⟩
  · show c.lines.drop 1 = lines.drop (c.row + 1)
    rw [covered.here, List.drop_drop]
  · show _ = (lines.take (c.row + 1)).flatten ++ (c.nextLine.lines.headD []).take 0
    have front : lines.take (c.row + 1) = lines.take c.row ++ [line] := by
      rw [List.take_add, ← here]
      rfl
    have whole : (c.lines.headD []).take c.column ++ piece.chars = line := by
      rw [← rest, Cursor.rest, List.take_append_drop, lines']
      rfl
    rw [text_concat, covered.before, List.append_assoc, whole, front, List.flatten_append,
      List.flatten_singleton, List.take_zero, List.append_nil]

theorem passSpaces (covered : Covered lines c pieces) {spaces later : List Char}
    (rest : c.rest = spaces ++ later) (isSpaces : ∀ c ∈ spaces, Indentation.isSpace c = true) :
    Covered lines (c.advance spaces.length) (pieces ++ spaces.map .space) := by
  induction spaces generalizing c pieces with
  | nil => rw [List.map_nil, List.append_nil]; exact covered
  | cons space spaces ih =>
    have fits : Fits lines.flatten pieces (.space space) := isSpaces space List.mem_cons_self
    have here : c.rest = Piece.chars (.space space) ++ (spaces ++ later) := rest
    have passed := ih (covered.pass here fits) (by rw [Cursor.rest_advance, rest]; rfl)
      fun c member => isSpaces c (List.mem_cons_of_mem _ member)
    rw [List.append_assoc, Cursor.advance_advance] at passed
    rw [List.length_cons, Nat.add_comm]
    exact passed

theorem position (covered : Covered lines c pieces) (whole : Source.AreWhole lines) (some : c.rest ≠ [])
    (few : lines.length ≤ Position.limit) (short : ∀ line ∈ lines, line.length ≤ Position.limit) :
    c.position = Position.after (text pieces) := by
  have more : c.lines ≠ [] := by
    intro none
    rw [Cursor.rest, none] at some
    exact some List.drop_nil
  obtain ⟨line, later, lines'⟩ := List.exists_cons_of_ne_nil more
  have here := covered.here
  rw [lines'] at here
  have row : c.row < lines.length := by
    by_contra ge
    rw [List.drop_eq_nil_of_le (by omega)] at here
    cases here
  have member : line ∈ lines := List.mem_of_mem_drop (here ▸ List.mem_cons_self)
  obtain ⟨body, filled, flat⟩ := whole line member
  have column : c.column < line.length := by
    by_contra ge
    rw [Cursor.rest, lines'] at some
    exact some (List.drop_eq_nil_of_le (by rw [List.headD_cons]; omega))
  have flat' : '\n' ∉ line.take c.column := by
    rw [filled, List.length_append, List.length_singleton] at column
    rw [filled, List.take_append_of_le_length (by omega)]
    exact fun inside => flat (List.mem_of_mem_take inside)
  have front : Source.AreWhole (lines.take c.row) :=
    fun line member => whole line (List.mem_of_mem_take member)
  have narrow := short line member
  rw [covered.before, Position.after, List.foldl_append, Source.foldl_next_lines front, lines',
    List.headD_cons, Position.foldl_next_flat flat', List.length_take_of_le row.le,
    List.length_take_of_le column.le, Cursor.position, Position.coordinate, Position.coordinate,
    Nat.min_eq_left (by omega), Nat.min_eq_left (by omega), Nat.add_comm 1, Nat.add_comm 1]

theorem passToFeed (covered : Covered lines c pieces) {body : List Char} (rest : c.rest = body ++ ['\n'])
    (flat : '\n' ∉ body) (ends : Lexer.EndsLine (c.rest.dropWhile Indentation.isSpace)) :
    ∃ blanks, (∀ piece ∈ blanks, piece.isBlank = true) ∧
      Covered lines (c.advance body.length) (pieces ++ blanks) := by
  obtain ⟨spaces, shown, cut, space, here⟩ : ∃ spaces shown, body = spaces ++ shown ∧
      (∀ c ∈ spaces, Indentation.isSpace c = true) ∧
        (body ++ ['\n']).dropWhile Indentation.isSpace = shown ++ ['\n'] :=
    ⟨_, _, List.takeWhile_append_dropWhile.symm, fun _ => List.mem_takeWhile_imp,
      Lexer.dropWhile_feed body⟩
  have spaced : ∀ piece ∈ spaces.map Piece.space, piece.isBlank = true := by
    intro piece member
    obtain ⟨_, -, rfl⟩ := List.mem_map.mp member
    rfl
  have line : c.rest = spaces ++ (shown ++ ['\n']) := by rw [rest, cut, List.append_assoc]
  have passed := covered.passSpaces line space
  rw [rest, here] at ends
  cases shown with
  | nil =>
    rw [List.append_nil] at cut
    exact ⟨_, spaced, cut ▸ passed⟩
  | cons d comment =>
    have inside : ∀ c ∈ d :: comment, c ≠ '\n' := by
      rintro c member rfl
      exact flat (cut ▸ List.mem_append_right spaces member)
    obtain rfl : d = '#' := by
      obtain ⟨c, later, same, feed | comment⟩ := ends
      · exact absurd ((List.cons.inj same).1.trans feed) (inside d List.mem_cons_self)
      · exact (List.cons.inj same).1.trans comment
    have remains : (c.advance spaces.length).rest = Piece.chars (.comment comment) ++ ['\n'] := by
      rw [Cursor.rest_advance, line, List.drop_left]
      rfl
    have fits : Fits lines.flatten (pieces ++ spaces.map .space) (.comment comment) := by
      refine ⟨fun member => inside _ (List.mem_cons_of_mem _ member) rfl, ?_⟩
      rw [passed.split, Cursor.onward, remains, List.append_assoc]
      exact (List.prefix_append_right_inj _).mpr (List.prefix_append _ _)
    have whole := passed.pass remains fits
    rw [List.append_assoc, Cursor.advance_advance] at whole
    refine ⟨spaces.map .space ++ [.comment comment], fun piece member => ?_, ?_⟩
    · rcases List.mem_append.mp member with member | member
      · exact spaced piece member
      · rw [List.mem_singleton.mp member]
        rfl
    · rw [cut, List.length_append]
      exact whole

theorem passEmptyLines (covered : Covered lines c pieces) (whole : Source.AreWhole lines)
    (start : c.column = 0) (atStart : AtStart pieces) {empties later : List (List Char)}
    (split : c.lines = empties ++ later) (empty : ∀ line ∈ empties, Indentation.isEmptyLine line = true) :
    ∃ blanks, tokens blanks = [] ∧ AtStart (pieces ++ blanks) ∧
      Covered lines (c.skipLines empties.length) (pieces ++ blanks) := by
  induction empties generalizing c pieces with
  | nil =>
    refine ⟨[], rfl, ?_, ?_⟩
    · rw [List.append_nil]
      exact atStart
    · rw [List.append_nil, List.length_nil, Cursor.skipLines_zero start]
      exact covered
  | cons line empties ih =>
    have more : c.lines ≠ [] := by rw [split]; exact List.cons_ne_nil _ _
    have member : line ∈ lines := by
      have inside : line ∈ c.lines := by rw [split]; exact List.mem_cons_self
      exact List.mem_of_mem_drop (covered.here ▸ inside)
    obtain ⟨body, rfl, flat⟩ := whole line member
    have rest : c.rest = body ++ ['\n'] := by rw [Cursor.rest, split, start]; rfl
    have ends : Lexer.EndsLine (c.rest.dropWhile Indentation.isSpace) := by
      rw [rest]
      refine (Lexer.isEmptyLine_iff.mp (empty _ List.mem_cons_self)).resolve_left ?_
      rw [Lexer.dropWhile_feed]
      exact List.concat_ne_nil _ _
    obtain ⟨blanks, blank, passed⟩ := covered.passToFeed rest flat ends
    have feed : (c.advance body.length).rest = Piece.chars .feed := by
      rw [Cursor.rest_advance, rest, List.drop_left]
      rfl
    have next := passed.passLine more feed (.inl ⟨pieces, blanks, rfl, atStart, blank⟩)
    have begun : AtStart (pieces ++ blanks ++ [.feed]) := by
      rw [AtStart, text_concat]
      exact .inr (List.suffix_append _ _)
    have later' : (c.advance body.length).nextLine.lines = empties ++ later := by
      show c.lines.drop 1 = _
      rw [split]
      rfl
    obtain ⟨others, none, atStart', covered'⟩ := ih next rfl begun later'
      fun line member => empty line (List.mem_cons_of_mem _ member)
    refine ⟨blanks ++ [.feed] ++ others, ?_, ?_, ?_⟩
    · rw [tokens_append, tokens_append, tokens_of_blank blank, none]
      rfl
    · rw [← List.append_assoc, ← List.append_assoc]
      exact atStart'
    · rw [← List.append_assoc, ← List.append_assoc]
      have skipped : (c.advance body.length).nextLine.skipLines empties.length =
          c.skipLines (empties.length + 1) := by
        show (⟨(c.lines.drop 1).drop empties.length, c.row + 1 + empties.length, 0⟩ : Cursor) = _
        rw [List.drop_drop, Nat.add_assoc, Nat.add_comm 1]
        rfl
      rw [List.length_cons, ← skipped]
      exact covered'

end Covered

namespace Lexer

open Token

variable {s t : Lexer} {before handed : List Token}

/-- The pieces make up what the lexer has passed, and the tokens among them are those handed out. -/
structure Covers (lines : List (List Char)) (before : List Token) (s : Lexer) (pieces : List Piece) :
    Prop where
  covered : Covered lines s.cursor pieces
  tokens : Piece.tokens pieces = spelled before
  start : s.lineStart = true → AtStart pieces

theorem IsLexeme.isSpelled {chars : List Char} {kind : Token.Kind} (lexeme : IsLexeme chars kind) :
    kind.isSpelled = true := by
  obtain literal | ⟨mark, rfl⟩ := lexeme.spelled
  · cases kind <;> first | rfl | cases literal
  · rfl

theorem spelled_append (first second : List Token) :
    spelled (first ++ second) = spelled first ++ spelled second := List.filter_append first second

theorem brackets_spelled (tokens : List Token) : Token.brackets (spelled tokens) = Token.brackets tokens := by
  rw [spelled, Token.brackets, List.filterMap_filter]
  refine List.filterMap_congr fun token _ => ?_
  cases token.kind <;> rfl

theorem spelled_settled (s : Lexer) : spelled s.settled.tokens = [] := by
  refine List.filter_eq_nil_iff.mpr fun token member => ?_
  rcases (Indentation.mem_settle member).1 with kind | kind <;> (rw [kind]; exact Bool.false_ne_true)

theorem spelled_closing (s : Lexer) : spelled s.closing = [] := by
  refine List.filter_eq_nil_iff.mpr fun token member => ?_
  rcases (mem_closing member).1 with kind | kind <;> (rw [kind]; exact Bool.false_ne_true)

theorem cursor_atFeed {body : List Char} (rest : s.cursor.rest = body ++ ['\n']) (flat : '\n' ∉ body) :
    s.atFeed.cursor = s.cursor.advance body.length := by
  have ahead : s.ahead = body.dropWhile Indentation.isSpace ++ ['\n'] := by
    rw [Lexer.ahead, rest, dropWhile_feed]
  have shown : s.ahead.takeWhile (· ≠ '\n') = body.dropWhile Indentation.isSpace := by
    rw [ahead, List.takeWhile_append_of_pos]
    · simp
    · intro c member
      refine decide_eq_true ?_
      rintro rfl
      exact flat ((List.dropWhile_sublist _).subset member)
  have lengths := congrArg List.length
    (List.takeWhile_append_dropWhile (p := Indentation.isSpace) (l := s.cursor.rest))
  rw [← Lexer.ahead, ahead, ← List.append_assoc, List.length_append, List.length_append, rest,
    List.length_append, ← rest] at lengths
  have all : (s.cursor.rest.takeWhile Indentation.isSpace).length +
      (body.dropWhile Indentation.isSpace).length = body.length := Nat.add_right_cancel lengths
  show (s.cursor.advance _).advance (s.unspaced.cursor.rest.takeWhile (· ≠ '\n')).length = _
  rw [Cursor.advance_advance, rest_unspaced, shown, all]

theorem Covers.passEmptyLines (covers : s.Covers lines before pieces) (steady : s.Steady)
    (start : s.lineStart = true) (whole : Source.AreWhole lines) :
    ∃ more, s.skipped.Covers lines before (pieces ++ more) := by
  obtain ⟨blanks, none, -, covered⟩ := covers.covered.passEmptyLines whole (steady.start start).2
    (covers.start start) List.takeWhile_append_dropWhile.symm fun _ => List.mem_takeWhile_imp
  refine ⟨blanks, covered, ?_, nofun⟩
  rw [tokens_append, none, List.append_nil, covers.tokens]

theorem Covers.passSpaces (covers : s.Covers lines before pieces) (inside : s.lineStart = false) :
    ∃ more, s.unspaced.Covers lines before (pieces ++ more) := by
  have covered := covers.covered.passSpaces List.takeWhile_append_dropWhile.symm
    fun _ => List.mem_takeWhile_imp
  refine ⟨_, covered, ?_, fun start => absurd (inside.symm.trans start) nofun⟩
  have none : Piece.tokens ((s.cursor.rest.takeWhile Indentation.isSpace).map .space) = [] := by
    refine tokens_of_blank fun piece member => ?_
    obtain ⟨_, -, rfl⟩ := List.mem_map.mp member
    rfl
  rw [tokens_append, none, List.append_nil, covers.tokens]

theorem Covers.passToFeed (covers : s.Covers lines before pieces) (steady : s.Steady)
    (more : s.cursor.lines ≠ []) (ends : EndsLine s.ahead) :
    ∃ blanks, Covered lines s.atFeed.cursor (pieces ++ blanks) ∧
      Piece.tokens (pieces ++ blanks) = spelled before ∧ s.atFeed.cursor.rest = ['\n'] := by
  obtain ⟨body, rest, flat⟩ := steady.rest more
  obtain ⟨blanks, blank, covered⟩ := covers.covered.passToFeed rest flat ends
  rw [cursor_atFeed rest flat]
  refine ⟨blanks, covered, ?_, by rw [Cursor.rest_advance, rest, List.drop_left]⟩
  rw [tokens_append, tokens_of_blank blank, List.append_nil, covers.tokens]

/-- What a turn passes are pieces of the source. -/
theorem Turn.covers (turn : Turn s handed t) (steady : s.Steady) (shaped : s.Shaped before)
    (whole : Source.AreWhole lines) (few : lines.length ≤ Position.limit)
    (short : ∀ line ∈ lines, line.length ≤ Position.limit) (covers : s.Covers lines before pieces) :
    ∃ more, t.Covers lines (before ++ handed) (pieces ++ more) := by
  cases turn with
  | blank start none =>
    rw [List.append_nil]
    exact covers.passEmptyLines steady start whole
  | enter start more settled =>
    obtain ⟨blanks, skipped⟩ := covers.passEmptyLines steady start whole
    obtain ⟨spaces, entered⟩ := skipped.passSpaces rfl
    refine ⟨blanks ++ spaces, ?_, ?_, nofun⟩
    · rw [← List.append_assoc]
      exact entered.covered
    · rw [← List.append_assoc, entered.tokens, spelled_append, spelled_settled, List.append_nil]
  | newline inside more ends closed =>
    obtain ⟨blanks, covered, tokens, rest⟩ := covers.passToFeed steady more ends
    let newline : Token := { kind := .newline, text := "\n", pos := s.atFeed.cursor.position }
    have feed : Piece.chars (.token newline) = ['\n'] := (rfl : "\n".toList = ['\n'])
    have fits : Fits lines.flatten (pieces ++ blanks) (.token newline) :=
      ⟨covered.position whole (by rw [rest]; exact List.cons_ne_nil _ _) few short,
        (by decide : "\n" ≠ "")⟩
    refine ⟨blanks ++ [.token newline], ?_, ?_, fun _ => ?_⟩
    · rw [← List.append_assoc]
      exact covered.passLine more (rest.trans feed.symm) fits
    · rw [← List.append_assoc, tokens_append, tokens, spelled_append]
      rfl
    · rw [← List.append_assoc, AtStart, text_concat, feed]
      exact .inr (List.suffix_append _ _)
  | fold inside more ends open' =>
    obtain ⟨blanks, covered, tokens, rest⟩ := covers.passToFeed steady more ends
    -- The line feed ends no logical line, for the innermost bracket is still open.
    have inBracket : InBracket (pieces ++ blanks) := by
      have opened := shaped.opened
      obtain ⟨bracket, outer, brackets⟩ := List.exists_cons_of_ne_nil open'
      rw [brackets, List.map_cons, ← brackets_spelled, ← tokens] at opened
      exact ⟨_, _, opened⟩
    refine ⟨blanks ++ [.feed], ?_, ?_, fun start => absurd (inside.symm.trans start) nofun⟩
    · rw [← List.append_assoc]
      exact covered.passLine more rest (.inr inBracket)
    · rw [← List.append_assoc, tokens_append, tokens, List.append_nil]
      exact List.append_nil _
  | join inside more found =>
    obtain ⟨spaces, unspaced⟩ := covers.passSpaces inside
    have rest : s.unspaced.cursor.rest = Piece.chars .join := by
      rw [rest_unspaced, steady.ahead_join more found]
      rfl
    refine ⟨spaces ++ [.join], ?_, ?_, fun start => absurd (inside.symm.trans start) nofun⟩
    · rw [← List.append_assoc]
      exact unspaced.covered.passLine more rest trivial
    · rw [← List.append_assoc, tokens_append, unspaced.tokens, List.append_nil]
      exact List.append_nil _
  | @token taken kind brackets inside more starts read done =>
    obtain ⟨spaces, unspaced⟩ := covers.passSpaces inside
    obtain ⟨chars, rest, split, rfl, lexeme⟩ := lexeme_of_read read
    let word : Token :=
      { kind, text := String.ofList (s.ahead.take chars.length), pos := s.unspaced.cursor.position }
    have text : word.text.toList = chars := by
      show (String.ofList (s.ahead.take chars.length)).toList = chars
      rw [String.toList_ofList, split, List.take_left]
    have isSpelled : spelled [word] = [word] := List.filter_cons_of_pos lexeme.isSpelled
    have here : s.unspaced.cursor.rest = Piece.chars (.token word) ++ rest := by
      rw [rest_unspaced, split, Piece.chars, text]
    have some : s.unspaced.cursor.rest ≠ [] := by
      rw [rest_unspaced, split]
      exact List.append_ne_nil_of_left_ne_nil lexeme.nonempty rest
    have fits : Fits lines.flatten (pieces ++ spaces) (.token word) := by
      refine ⟨unspaced.covered.position whole some few short, fun none => lexeme.nonempty ?_⟩
      rw [← text, none]
      rfl
    have passed := unspaced.covered.pass here fits
    refine ⟨spaces ++ [.token word], ?_, ?_, fun start => absurd (inside.symm.trans start) nofun⟩
    · rw [← List.append_assoc]
      rw [Piece.chars, text] at passed
      exact passed
    · rw [← List.append_assoc, tokens_append, unspaced.tokens, spelled_append, isSpelled]
      rfl

theorem Run.covers (run : Run s handed t) (steady : s.Steady) (shaped : s.Shaped before)
    (whole : Source.AreWhole lines) (few : lines.length ≤ Position.limit)
    (short : ∀ line ∈ lines, line.length ≤ Position.limit) (covers : s.Covers lines before pieces) :
    ∃ more, t.Covers lines (before ++ handed) (pieces ++ more) := by
  induction run generalizing before pieces with
  | refl =>
    refine ⟨[], ?_⟩
    rw [List.append_nil, List.append_nil]
    exact covers
  | step turn _ ih =>
    obtain ⟨more, covers'⟩ := turn.covers steady shaped whole few short covers
    obtain ⟨rest, covers''⟩ := ih (turn.steady steady) (turn.shaped steady shaped) covers'
    refine ⟨more ++ rest, ?_⟩
    rw [← List.append_assoc, ← List.append_assoc]
    exact covers''

end Lexer

/-- Nothing of a source is lost in its tokens. -/
theorem tokenize_lossless {source : String} {tabSize : UInt64} {tokens : List Token}
    (few : (Source.lines source).length ≤ Position.limit)
    (short : ∀ line ∈ Source.lines source, line.length ≤ Position.limit)
    (done : tokenize source tabSize = .ok tokens) : Lossless source tokens := by
  obtain ⟨front, t, run, ended, rfl⟩ := tokenize_eq_ok_iff.mp done
  have covers : (Lexer.ofText source tabSize).Covers (Source.lines source) [] [] :=
    ⟨.start source, rfl, fun _ => .inl rfl⟩
  obtain ⟨pieces, covers⟩ := run.covers (Lexer.steady_ofText source tabSize)
    (Lexer.shaped_ofText source tabSize) (Source.areWhole_lines source) few short covers
  rw [List.nil_append, List.nil_append] at covers
  have all : Piece.text pieces = Source.completed source := by
    rw [← Source.flatten_lines, covers.covered.split, Lexer.onward_of_ended ended.ended,
      List.append_nil]
  have tokens : Piece.tokens pieces = Token.spelled (front ++ t.closing) := by
    rw [Lexer.spelled_append, t.spelled_closing, List.append_nil, covers.tokens]
  exact Piece.lossless all tokens (Source.flatten_lines source ▸ covers.covered.fits)

/-- A list over two lines, with a comment and an empty line in it. -/
theorem tokenize_lossless_list : ∃ tokens, tokenize "x = \\\n[a, # c\n\n  b]\n" 8 = .ok tokens ∧
    tokens.length = 9 ∧ Lossless "x = \\\n[a, # c\n\n  b]\n" tokens := by
  have done : tokenize "x = \\\n[a, # c\n\n  b]\n" 8 = .ok [
      ⟨.identifier "x", "x", ⟨1, 1⟩⟩, ⟨.punct .assign, "=", ⟨1, 3⟩⟩, ⟨.punct .leftBracket, "[", ⟨2, 1⟩⟩,
      ⟨.identifier "a", "a", ⟨2, 2⟩⟩, ⟨.punct .comma, ",", ⟨2, 3⟩⟩, ⟨.identifier "b", "b", ⟨4, 3⟩⟩,
      ⟨.punct .rightBracket, "]", ⟨4, 4⟩⟩, ⟨.newline, "\n", ⟨4, 5⟩⟩, ⟨.endMarker, "", ⟨5, 1⟩⟩] := by
    decide +kernel
  exact ⟨_, done, rfl, tokenize_lossless (by decide +kernel) (by decide +kernel) done⟩

end Offside
