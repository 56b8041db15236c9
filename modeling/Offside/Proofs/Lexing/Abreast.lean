import Offside.Proofs.Lexing.Failures
import Offside.Proofs.Lexing.Gaps
import Offside.Proofs.Lexing.Untokenize

/-!
# Lexers abreast

Two lexers are abreast if they differ in nothing but the text that is left and where in their sources they
stand. No turn looks beyond a gap behind what it passes, so as long as both texts are the same up to a gap
the lexers take the same turns (`Lexer.Turn.abreast`) and stay abreast (`Lexer.Run.abreast`).

`Lexer.Yields` is what a lexer hands out up to the end of its source, without the places. An empty line at
the start of a line makes no difference to it, and spaces within a line make none.
-/

namespace Offside

/-- A text is cut at its first line feed in one way. -/
theorem split_at_feed {body body' later later' : List Char}
    (same : body ++ '\n' :: later = body' ++ '\n' :: later') (flat : '\n' ∉ body)
    (flat' : '\n' ∉ body') : body = body' ∧ later = later' := by
  induction body generalizing body' with
  | nil =>
    cases body' with
    | nil => exact ⟨rfl, (List.cons.inj same).2⟩
    | cons d body' =>
      cases (List.cons.inj same).1
      exact absurd List.mem_cons_self flat'
  | cons c body ih =>
    cases body' with
    | nil =>
      cases (List.cons.inj same).1
      exact absurd List.mem_cons_self flat
    | cons d body' =>
      obtain ⟨rfl, rest⟩ := List.cons.inj same
      rw [List.mem_cons, not_or] at flat flat'
      obtain ⟨rfl, rfl⟩ := ih rest flat.2 flat'.2
      exact ⟨rfl, rfl⟩

namespace Indentation

theorem settle_moved (levels : List UInt64) (width : UInt64) (pos pos' : Position) :
    (settle levels width pos').levels = (settle levels width pos).levels ∧
      (settle levels width pos').mismatch = (settle levels width pos).mismatch ∧
      (settle levels width pos').tokens.map Token.content =
        (settle levels width pos).tokens.map Token.content := by
  unfold settle
  dsimp only
  split
  · exact ⟨rfl, rfl, rfl⟩
  · refine ⟨rfl, rfl, ?_⟩
    dsimp only
    rw [List.map_map, List.map_map]
    rfl

end Indentation

namespace Lexer

variable {s s' t u : Lexer} {tokens : List Token} {chars consumed later text : List Char}

theorem Steady.line (steady : s.Steady) (here : s.cursor.onward = chars ++ '\n' :: later)
    (flat : '\n' ∉ chars) : s.cursor.lines ≠ [] ∧ s.cursor.rest = chars ++ ['\n'] ∧
      s.cursor.nextLine.onward = later := by
  have more : s.cursor.lines ≠ [] := more_of_onward (by simp [here])
  obtain ⟨body, rest, flat'⟩ := steady.rest more
  have split := s.cursor.onward_nextLine
  rw [here, rest, List.append_assoc] at split
  obtain ⟨rfl, rfl⟩ := split_at_feed split flat flat'
  exact ⟨more, rest, rfl⟩

/-- Two lexers that differ in nothing but the text that is left, and where in their sources they are. -/
structure Abreast (s s' : Lexer) : Prop where
  steady : s.Steady
  steady' : s'.Steady
  tabSize : s'.tabSize = s.tabSize
  levels : s'.levels = s.levels
  brackets : s'.brackets.map (·.bracket) = s.brackets.map (·.bracket)
  lineStart : s'.lineStart = s.lineStart

theorem Abreast.symm (abreast : s.Abreast s') : s'.Abreast s :=
  ⟨abreast.steady', abreast.steady, abreast.tabSize.symm, abreast.levels.symm, abreast.brackets.symm,
    abreast.lineStart.symm⟩

theorem Abreast.trans (first : s.Abreast t) (second : t.Abreast u) : s.Abreast u :=
  ⟨first.steady, second.steady', second.tabSize.trans first.tabSize,
    second.levels.trans first.levels, second.brackets.trans first.brackets,
    second.lineStart.trans first.lineStart⟩

theorem Steady.abreast (steady : s.Steady) : s.Abreast s := ⟨steady, steady, rfl, rfl, rfl, rfl⟩

theorem Abreast.closed_iff (abreast : s.Abreast s') : s'.brackets = [] ↔ s.brackets = [] := by
  rw [← List.map_eq_nil_iff (f := (·.bracket)), abreast.brackets, List.map_eq_nil_iff]

/-- What a turn leaves to be read is the end of what there was. -/
theorem Turn.passes (turn : Turn s tokens u) (steady : s.Steady) :
    ∃ consumed, s.cursor.onward = consumed ++ u.cursor.onward := by
  cases turn with
  | blank start => exact ⟨_, steady.onward_skipped start⟩
  | enter start =>
    refine ⟨(s.cursor.lines.takeWhile Indentation.isEmptyLine).flatten ++
      s.skipped.cursor.rest.takeWhile Indentation.isSpace, ?_⟩
    rw [steady.onward_skipped start, s.skipped.onward_unspaced, List.append_assoc]
  | newline | fold | join => exact ⟨_, s.cursor.onward_nextLine⟩
  | @token taken =>
    refine ⟨s.cursor.rest.takeWhile Indentation.isSpace ++ s.ahead.take taken, ?_⟩
    rw [s.onward_unspaced, s.unspaced.cursor.onward_advance taken, rest_unspaced, List.append_assoc]

theorem Run.passes (run : Run s tokens u) (steady : s.Steady) :
    ∃ consumed, s.cursor.onward = consumed ++ u.cursor.onward := by
  induction run with
  | refl => exact ⟨[], rfl⟩
  | step turn _ ih =>
    obtain ⟨first, split⟩ := turn.passes steady
    obtain ⟨second, split'⟩ := ih (turn.steady steady)
    exact ⟨first ++ second, by rw [split, split', List.append_assoc]⟩

/-- The lexer on the next line. -/
def below (s : Lexer) : Lexer := { s with cursor := s.cursor.nextLine }

theorem Steady.below (steady : s.Steady) : s.below.Steady := by
  have whole : Whole s.cursor.nextLine := steady.whole.skipLines 1
  exact ⟨steady.idle, steady.unfinished, fun start => ⟨(steady.start start).1, rfl⟩, whole,
    whole.rest_ne_nil rfl, steady.ascending⟩

theorem Abreast.unspaced (abreast : s.Abreast s') (inside : s.lineStart = false) :
    s.unspaced.Abreast s'.unspaced :=
  ⟨abreast.steady.unspaced inside, abreast.steady'.unspaced (abreast.lineStart.trans inside),
    abreast.tabSize, abreast.levels, abreast.brackets, abreast.lineStart⟩

theorem Abreast.below (abreast : s.Abreast s') : s.below.Abreast s'.below :=
  ⟨abreast.steady.below, abreast.steady'.below, abreast.tabSize, abreast.levels, abreast.brackets,
    abreast.lineStart⟩

theorem Steady.abreast_below (steady : s.Steady) : s.Abreast s.below :=
  ⟨steady, steady.below, rfl, rfl, rfl, rfl⟩

theorem skipped_below (start : s.cursor.column = 0) (more : s.cursor.lines ≠ [])
    (empty : EndsLine s.ahead) : s.below.skipped = s.skipped := by
  obtain ⟨line, lines, split⟩ := List.exists_cons_of_ne_nil more
  have isEmpty : Indentation.isEmptyLine line = true := by
    refine isEmptyLine_iff.mpr (.inr ?_)
    rwa [Lexer.ahead, Cursor.rest, split, start] at empty
  have next : s.cursor.nextLine.lines = lines := by
    show s.cursor.lines.drop 1 = lines
    rw [split]
    rfl
  have count : (s.cursor.lines.takeWhile Indentation.isEmptyLine).length =
      1 + (s.below.cursor.lines.takeWhile Indentation.isEmptyLine).length := by
    show _ = 1 + (s.cursor.nextLine.lines.takeWhile Indentation.isEmptyLine).length
    rw [next, split, List.takeWhile_cons_of_pos isEmpty, List.length_cons, Nat.add_comm]
  have cursor : ∀ count, s.cursor.nextLine.skipLines count = s.cursor.skipLines (1 + count) := by
    intro count
    rw [Cursor.nextLine, Cursor.skipLines, Cursor.skipLines, Cursor.skipLines, List.drop_drop,
      Nat.add_assoc]
  rw [skipped, skipped, count, ← cursor]
  rfl

/-- At the start of a line only what is behind the empty lines matters. -/
theorem Turn.of_skipped (turn : Turn s tokens u) (start : s.lineStart = true)
    (start' : s'.lineStart = true) (same : s'.skipped = s.skipped) : Turn s' tokens u := by
  cases turn with
  | blank _ ended =>
    rw [← same] at ended ⊢
    exact .blank start' ended
  | enter _ more settled =>
    rw [← same] at more settled ⊢
    exact .enter start' more settled
  | newline inside | fold inside | join inside | token inside => cases start.symm.trans inside

theorem turn_below (steady : s.Steady) (start : s.lineStart = true) (more : s.cursor.lines ≠ [])
    (empty : EndsLine s.ahead) : Turn s.below tokens u ↔ Turn s tokens u := by
  have same := skipped_below (steady.start start).2 more empty
  exact ⟨fun turn => turn.of_skipped start start same.symm,
    fun turn => turn.of_skipped start start same⟩

/-- A turn to the next line is one of the other lexer too, if it has the same line. -/
theorem Abreast.line (abreast : s.Abreast s') (more : s.cursor.lines ≠ [])
    (here : s.cursor.onward = consumed ++ s.cursor.nextLine.onward)
    (here' : s'.cursor.onward = consumed ++ text) :
    s'.cursor.lines ≠ [] ∧ s'.ahead = s.ahead ∧ s'.cursor.nextLine.onward = text := by
  obtain ⟨body, rest, flat⟩ := abreast.steady.rest more
  rw [s.cursor.onward_nextLine, List.append_cancel_right_eq, rest] at here
  rw [← here, List.append_assoc] at here'
  obtain ⟨more', rest', left⟩ := abreast.steady'.line here' flat
  exact ⟨more', by rw [Lexer.ahead, Lexer.ahead, rest, rest'], left⟩

/-- The spaces in front of a text that begins with none. -/
theorem dropWhile_spaces {c : Char} (clear : Indentation.isSpace c = false) (front later : List Char) :
    (front.takeWhile Indentation.isSpace ++ c :: later).dropWhile Indentation.isSpace = c :: later := by
  rw [List.dropWhile_append_of_pos fun c member => List.mem_takeWhile_imp member,
    List.dropWhile_cons_of_neg (by rw [clear]; decide)]

/-- A text that both lexers have behind their spaces is ahead of both, and up to a gap what follows it on
its line is the same. -/
theorem Abreast.shown (abreast : s.Abreast s') (more : s.cursor.lines ≠ []) (nonempty : chars ≠ [])
    (flat : '\n' ∉ chars) (here : s.cursor.onward.dropWhile Indentation.isSpace = chars ++ later)
    (here' : s'.cursor.onward.dropWhile Indentation.isSpace = chars ++ text)
    (same : UpToGap later text) :
    s'.cursor.lines ≠ [] ∧ ∃ follow follow', s.ahead = chars ++ follow ∧
      s'.ahead = chars ++ follow' ∧ UpToGap follow follow' := by
  have more' : s'.cursor.lines ≠ [] := more_of_shown (by simp [here', nonempty])
  obtain ⟨body, ahead, flat₁, rfl⟩ := abreast.steady.ahead_of_text more flat here
  obtain ⟨body', ahead', flat₂, rfl⟩ := abreast.steady'.ahead_of_text more' flat here'
  exact ⟨more', _, _, ahead, ahead', same.line flat₁ flat₂⟩

/-- The lexer takes a turn that hands out the same as one to `u`, and has `text` left. -/
def Repeats (s' : Lexer) (tokens : List Token) (u : Lexer) (text : List Char) : Prop :=
  ∃ tokens' u', Turn s' tokens' u' ∧ u.Abreast u' ∧ u'.cursor.onward = text ∧
    tokens'.map Token.content = tokens.map Token.content

theorem Abreast.token (abreast : s.Abreast s') {taken : Nat} {kind : Token.Kind}
    {brackets : List OpenBracket} (inside : s.lineStart = false) (more : s.cursor.lines ≠ [])
    (starts : StartsToken s.ahead)
    (read : lexeme? s.unspaced.cursor.position s.ahead = some (.ok taken kind))
    (opened : s.unspaced.bracketed kind = .ok brackets)
    (here : s.cursor.onward = consumed ++ (s.unspaced.cursor.advance taken).onward)
    (here' : s'.cursor.onward = consumed ++ text)
    (same : UpToGap (s.unspaced.cursor.advance taken).onward text) :
    s'.Repeats [{ kind, text := String.ofList (s.ahead.take taken), pos := s.unspaced.cursor.position }]
      { s.unspaced with brackets, cursor := s.unspaced.cursor.advance taken } text := by
  have turn := Turn.token inside more starts read opened
  obtain ⟨chars, rest, split, rfl, lexeme⟩ := lexeme_of_read read
  obtain ⟨c, front, rfl⟩ := List.exists_cons_of_ne_nil lexeme.nonempty
  have spaces : consumed = s.cursor.rest.takeWhile Indentation.isSpace ++ c :: front := by
    rw [s.onward_unspaced, s.unspaced.cursor.onward_advance (c :: front).length, rest_unspaced, split,
      List.take_left, ← List.append_assoc, List.append_cancel_right_eq] at here
    exact here.symm
  have shown : ∀ later, (consumed ++ later).dropWhile Indentation.isSpace = c :: front ++ later := by
    intro later
    rw [spaces, List.append_assoc]
    exact dropWhile_spaces (isSpace_of_ahead split) _ _
  obtain ⟨more', follow, follow', ahead, ahead', same⟩ :=
    abreast.shown more lexeme.nonempty lexeme.flat (by rw [here, shown]) (by rw [here', shown]) same
  rw [ahead] at read
  have read' : lexeme? s'.unspaced.cursor.position s'.ahead = some (.ok (c :: front).length kind) := by
    rw [ahead']
    exact lexeme?_up_to_gap read same
  have starts' : StartsToken s'.ahead := by
    obtain ⟨d, _, found, plain⟩ := starts
    rw [ahead] at found
    obtain rfl : c = d := (List.cons.inj found).1
    exact ⟨c, _, ahead', plain⟩
  have goes := nesting_of_bracketed opened
  rw [show s.unspaced.brackets.map _ = _ from abreast.brackets.symm] at goes
  obtain ⟨brackets', opened', same'⟩ := bracketed_of_nesting (s := s'.unspaced) goes
  have turn' := Turn.token (abreast.lineStart.trans inside) more' starts' read' opened'
  have left := s'.unspaced.cursor.onward_advance (c :: front).length
  rw [rest_unspaced, abreast.steady'.onward_dropWhile, here', shown, ahead', List.take_left,
    List.append_cancel_left_eq] at left
  refine ⟨_, _, turn', ⟨turn.steady abreast.steady, turn'.steady abreast.steady', abreast.tabSize,
    abreast.levels, same', abreast.lineStart⟩, left.symm, ?_⟩
  rw [ahead', split, List.take_left, List.take_left]
  rfl

/-- The start of a line whose first character is no gap. -/
theorem Steady.filled (steady : s.Steady) (start : s.lineStart = true) {c : Char}
    (shown : s.cursor.onward.dropWhile Indentation.isSpace = c :: later) (clear : opensGap c = false) :
    s.cursor.lines ≠ [] ∧ s.skipped = { s with lineStart := false } := by
  have flat : '\n' ∉ [c] := by
    intro member
    rw [← List.mem_singleton.mp member] at clear
    cases clear
  have more : s.cursor.lines ≠ [] := more_of_shown (by rw [shown]; exact List.cons_ne_nil _ _)
  obtain ⟨body, ahead, -⟩ := steady.ahead_of_text more flat (show _ = [c] ++ later from shown)
  refine ⟨more, steady.skipped_of_filled (steady.start start).2 more ?_⟩
  rintro ⟨d, rest, found, ends⟩
  rw [ahead] at found
  obtain rfl : c = d := (List.cons.inj found).1
  rcases ends with rfl | rfl <;> cases clear

theorem Steady.lines_eq_nil (steady : s.Steady) (none : s.cursor.onward = []) :
    s.cursor.lines = [] := by
  by_contra more
  exact steady.within more (List.append_eq_nil_iff.mp none).1

theorem Turn.of_filled (start : s.lineStart = true) (more : s.cursor.lines ≠ [])
    (skipped : s.skipped = { s with lineStart := false }) (settled : s.settled.mismatch = none) :
    Turn s s.settled.tokens { s.unspaced with levels := s.settled.levels, lineStart := false } := by
  have turn := Turn.enter (s := s) start
  rw [skipped] at turn
  exact turn more settled

/-- Behind the same spaces the same levels begin or end. -/
theorem Abreast.settled (abreast : s.Abreast s')
    (spaces : s'.cursor.rest.takeWhile Indentation.isSpace =
      s.cursor.rest.takeWhile Indentation.isSpace) :
    s'.settled.levels = s.settled.levels ∧ s'.settled.mismatch = s.settled.mismatch ∧
      s'.settled.tokens.map Token.content = s.settled.tokens.map Token.content := by
  have same : s'.settled = Indentation.settle s.levels
      (Indentation.width s.tabSize (s.cursor.rest.takeWhile Indentation.isSpace))
      s'.unspaced.cursor.position := by
    rw [Lexer.settled, abreast.levels, abreast.tabSize, spaces]
  rw [same]
  exact Indentation.settle_moved _ _ _ _

theorem Abreast.enter (abreast : s.Abreast s') (start : s.lineStart = true)
    (more : s.cursor.lines ≠ []) (filled : ¬EndsLine s.ahead)
    (settled : s.settled.mismatch = none)
    (here : s.cursor.onward = consumed ++ s.unspaced.cursor.onward)
    (here' : s'.cursor.onward = consumed ++ text) (same : UpToGap s.unspaced.cursor.onward text) :
    s'.Repeats s.settled.tokens
      { s.unspaced with levels := s.settled.levels, lineStart := false } text := by
  have skipped := abreast.steady.skipped_of_filled (abreast.steady.start start).2 more filled
  have turn := Turn.of_filled start more skipped settled
  obtain ⟨body, ahead, -⟩ := abreast.steady.ahead more
  obtain ⟨c, rest, found⟩ := List.exists_cons_of_ne_nil (ahead ▸ List.concat_ne_nil '\n' body)
  have space := isSpace_of_ahead found
  have clear : opensGap c = false := by
    have other : c ≠ '\n' ∧ c ≠ '#' := by
      constructor <;> (rintro rfl; exact filled ⟨_, rest, found, by simp⟩)
    simp [opensGap, space, other]
  have left : s.unspaced.cursor.onward = c :: (rest ++ s.cursor.nextLine.onward) := by
    rw [s.unspaced.cursor.onward_nextLine, rest_unspaced, found]
    rfl
  rw [left] at same
  obtain ⟨text, rfl, -⟩ := same.head clear
  have spaces : consumed = s.cursor.rest.takeWhile Indentation.isSpace := by
    rw [s.onward_unspaced, List.append_cancel_right_eq] at here
    exact here.symm
  have shown : s'.cursor.onward.dropWhile Indentation.isSpace = c :: text := by
    rw [here', spaces]
    exact dropWhile_spaces space _ _
  obtain ⟨more', skipped'⟩ := abreast.steady'.filled (abreast.lineStart.trans start) shown clear
  have left' := abreast.steady'.onward_dropWhile
  rw [shown] at left'
  have spaces' : s'.cursor.rest.takeWhile Indentation.isSpace =
      s.cursor.rest.takeWhile Indentation.isSpace := by
    rw [s'.onward_unspaced, left', List.append_cancel_right_eq] at here'
    rw [here', spaces]
  obtain ⟨levels, mismatch, contents⟩ := abreast.settled spaces'
  have turn' := Turn.of_filled (abreast.lineStart.trans start) more' skipped' (mismatch.trans settled)
  exact ⟨_, _, turn', ⟨turn.steady abreast.steady, turn'.steady abreast.steady', abreast.tabSize,
    levels, abreast.brackets, rfl⟩, left', contents⟩

theorem Abreast.start (abreast : s.Abreast s') (start : s.lineStart = true) (turn : Turn s tokens u)
    (here : s.cursor.onward = consumed ++ u.cursor.onward) (here' : s'.cursor.onward = consumed ++ text)
    (same : UpToGap u.cursor.onward text) : s'.Repeats tokens u text := by
  have start' := abreast.lineStart.trans start
  induction size : s.cursor.lines.length generalizing s s' consumed with
  | zero =>
    have none := List.length_eq_zero_iff.mp size
    rw [onward_of_ended none, eq_comm, List.append_eq_nil_iff] at here
    rw [here.2] at same
    rw [same.nil, here.1] at here'
    have none' : s'.skipped.cursor.lines = [] := by
      rw [lines_skipped, abreast.steady'.lines_eq_nil here']
      rfl
    cases turn with
    | blank =>
      refine ⟨[], _, .blank start' none', ⟨abreast.steady.skipped, abreast.steady'.skipped,
        abreast.tabSize, abreast.levels, abreast.brackets, rfl⟩, ?_, rfl⟩
      rw [onward_of_ended none']
      exact same.nil.symm
    | enter _ more => exact absurd (by rw [lines_skipped, none]; rfl) more
    | newline inside | fold inside | join inside | token inside => cases start.symm.trans inside
  | succ count ih =>
    have more : s.cursor.lines ≠ [] := by
      intro none
      rw [none] at size
      cases size
    by_cases empty : EndsLine s.ahead
    · have turn' := (turn_below abreast.steady start more empty).mpr turn
      obtain ⟨consumed', split⟩ := turn'.passes abreast.steady.below
      have first : consumed = s.cursor.rest ++ consumed' := by
        rw [s.cursor.onward_nextLine, show s.cursor.nextLine.onward = _ from split,
          ← List.append_assoc, List.append_cancel_right_eq] at here
        exact here.symm
      rw [first, List.append_assoc] at here'
      obtain ⟨more', ahead, left⟩ := abreast.line more s.cursor.onward_nextLine here'
      have fewer : s.below.cursor.lines.length = count := by
        show (s.cursor.lines.drop 1).length = count
        rw [List.length_drop, size]
        rfl
      obtain ⟨tokens', u', turn'', same'⟩ := ih abreast.below start turn' split left start' fewer
      exact ⟨tokens', u', (turn_below abreast.steady' start' more' (ahead ▸ empty)).mp turn'', same'⟩
    · have skipped := abreast.steady.skipped_of_filled (abreast.steady.start start).2 more empty
      cases turn with
      | blank _ ended =>
        rw [skipped] at ended
        exact absurd ended more
      | enter _ _ settled =>
        rw [skipped] at settled here same ⊢
        exact abreast.enter start more empty settled here here' same
      | newline inside | fold inside | join inside | token inside => cases start.symm.trans inside

/-- Two lexers that are abreast stay so as long as their texts are the same up to a gap. -/
theorem Turn.abreast (turn : Turn s tokens u) (abreast : s.Abreast s')
    (here : s.cursor.onward = consumed ++ u.cursor.onward) (here' : s'.cursor.onward = consumed ++ text)
    (same : UpToGap u.cursor.onward text) : s'.Repeats tokens u text := by
  cases inside : s.lineStart with
  | true => exact abreast.start inside turn here here' same
  | false =>
    have inside' := abreast.lineStart.trans inside
    have below := abreast.below
    cases turn with
    | blank start | enter start => cases inside.symm.trans start
    | newline _ more ends closed =>
      obtain ⟨more', ahead, left⟩ := abreast.line more here here'
      refine ⟨_, _, .newline inside' more' (ahead ▸ ends) (abreast.closed_iff.mpr closed),
        ⟨?_, ?_, below.tabSize, below.levels, below.brackets, rfl⟩, left, rfl⟩
      · exact (Turn.newline inside more ends closed).steady abreast.steady
      · exact (Turn.newline inside' more' (ahead ▸ ends) (abreast.closed_iff.mpr closed)).steady
          abreast.steady'
    | fold _ more ends opened =>
      obtain ⟨more', ahead, left⟩ := abreast.line more here here'
      exact ⟨_, _, .fold inside' more' (ahead ▸ ends) fun closed => opened (abreast.closed_iff.mp closed),
        below, left, rfl⟩
    | join _ more found =>
      obtain ⟨more', ahead, left⟩ := abreast.line more here here'
      exact ⟨_, _, .join inside' more' (ahead.trans found), below, left, rfl⟩
    | token _ more starts read opened =>
      exact abreast.token inside more starts read opened here here' same

theorem Run.abreast (run : Run s tokens u) (abreast : s.Abreast s')
    (here : s.cursor.onward = consumed ++ u.cursor.onward) (here' : s'.cursor.onward = consumed ++ text)
    (same : UpToGap u.cursor.onward text) :
    ∃ tokens' u', Run s' tokens' u' ∧ u.Abreast u' ∧ u'.cursor.onward = text ∧
      tokens'.map Token.content = tokens.map Token.content := by
  induction run generalizing s' consumed with
  | refl s =>
    rw [List.self_eq_append_left] at here
    rw [here] at here'
    exact ⟨[], s', .refl s', abreast, here', rfl⟩
  | @step s t u first later turn run ih =>
    obtain ⟨front, split⟩ := turn.passes abreast.steady
    obtain ⟨back, split'⟩ := run.passes (turn.steady abreast.steady)
    rw [split, split', ← List.append_assoc, List.append_cancel_right_eq] at here
    rw [← here, List.append_assoc] at here'
    obtain ⟨first', t', turn', abreast', left, contents⟩ :=
      turn.abreast abreast split here' (split' ▸ same.append back)
    obtain ⟨later', u', run', abreast'', left', contents'⟩ := ih abreast' split' left same
    exact ⟨first' ++ later', u', .step turn' run', abreast'', left', by
      rw [List.map_append, List.map_append, contents, contents']⟩

/-! ### To the end -/

/-- The contents of the tokens that are left, up to the end marker. -/
def Yields (s : Lexer) (contents : List (Token.Kind × String)) : Prop :=
  ∃ tokens t, Run s tokens t ∧ t.Ended ∧ contents = (tokens ++ t.closing).map Token.content

variable {contents : List (Token.Kind × String)}

theorem Abreast.closing (abreast : s.Abreast s') :
    s'.closing.map Token.content = s.closing.map Token.content := by
  have dedents : ∀ s : Lexer, s.dedents.map Token.content = s.levels.map fun _ => (.dedent, "") := by
    intro s
    rw [Lexer.dedents, List.map_map]
    rfl
  rw [Lexer.closing, Lexer.closing, List.map_append, List.map_append, dedents, dedents, abreast.levels]
  rfl

theorem Yields.abreast (yields : s.Yields contents) (abreast : s.Abreast s')
    (same : s'.cursor.onward = s.cursor.onward) : s'.Yields contents := by
  obtain ⟨tokens, t, run, ended, rfl⟩ := yields
  have here : s.cursor.onward = s.cursor.onward ++ t.cursor.onward := by
    rw [onward_of_ended ended.ended, List.append_nil]
  have here' : s'.cursor.onward = s.cursor.onward ++ [] := by rw [same, List.append_nil]
  have apart : UpToGap t.cursor.onward [] := by
    rw [onward_of_ended ended.ended]
    exact .refl []
  obtain ⟨tokens', t', run', abreast', left, contents⟩ := run.abreast abreast here here' apart
  refine ⟨tokens', t', run', ⟨abreast'.lineStart.trans ended.inside, abreast'.steady'.lines_eq_nil left,
    abreast'.closed_iff.mpr ended.closed⟩, ?_⟩
  rw [List.map_append, List.map_append, contents, abreast'.closing]

theorem Yields.of_turn (turn : Turn s tokens t) (yields : t.Yields contents) :
    s.Yields (tokens.map Token.content ++ contents) := by
  obtain ⟨later, u, run, ended, rfl⟩ := yields
  exact ⟨tokens ++ later, u, .step turn run, ended, by
    rw [List.append_assoc, List.map_append, List.map_append, List.map_append]⟩

theorem Ended.not_turn (ended : s.Ended) (turn : Turn s tokens t) : False := by
  cases turn with
  | blank start | enter start => cases start.symm.trans ended.inside
  | newline _ more | fold _ more | join _ more | token _ more => exact more ended.ended

/-- A lexer takes one turn only. -/
theorem Turn.unique {tokens' : List Token} (first : Turn s tokens t) (second : Turn s tokens' u)
    (steady : s.Steady) : tokens' = tokens ∧ u = t := by
  have same := (step_of_move (move_of_turn second)).symm.trans (step_of_move (move_of_turn first))
  have queued : u.queue tokens' = t.queue tokens := (EStateM.Result.ok.inj same).2
  have idle := (first.steady steady).idle
  have idle' := (second.steady steady).idle
  have tokens_eq : tokens' = tokens := by
    have pending := congrArg Lexer.pending queued
    simpa [queue, idle, idle'] using pending
  refine ⟨tokens_eq, ?_⟩
  have emptied := congrArg (fun s : Lexer => { s with pending := [] }) queued
  exact (pending_nil idle').symm.trans (emptied.trans (pending_nil idle))

/-- A lexer yields what it hands out on a run and then what is left. -/
theorem Yields.rest (yields : s.Yields contents) (run : Run s tokens t) (steady : s.Steady) :
    ∃ later, contents = tokens.map Token.content ++ later ∧ t.Yields later := by
  induction run generalizing contents with
  | refl => exact ⟨contents, rfl, yields⟩
  | step turn _ ih =>
    obtain ⟨tokens', v, run', ended, rfl⟩ := yields
    cases run' with
    | refl => exact (ended.not_turn turn).elim
    | step turn' run' =>
      obtain ⟨rfl, rfl⟩ := turn.unique turn' steady
      obtain ⟨later, same, yields⟩ := ih ⟨_, v, run', ended, rfl⟩ (turn.steady steady)
      refine ⟨later, ?_, yields⟩
      rw [List.append_assoc, List.map_append, same, List.map_append, List.append_assoc]

theorem Yields.of_run (run : Run s tokens t) (yields : t.Yields contents) :
    s.Yields (tokens.map Token.content ++ contents) := by
  induction run with
  | refl => exact yields
  | step turn _ ih =>
    rw [List.map_append, List.append_assoc]
    exact (ih yields).of_turn turn

/-- At the start of a line an empty line makes no difference to what is yielded. -/
theorem Yields.of_below (steady : s.Steady) (start : s.lineStart = true) (more : s.cursor.lines ≠ [])
    (empty : EndsLine s.ahead) (yields : s.below.Yields contents) : s.Yields contents := by
  obtain ⟨tokens, t, run, ended, rfl⟩ := yields
  cases run with
  | refl => cases start.symm.trans ended.inside
  | step turn run => exact ⟨_, t, .step ((turn_below steady start more empty).mp turn) run, ended, rfl⟩

/-- Within a line the spaces ahead make no difference. -/
theorem Turn.of_unspaced (turn : Turn s tokens u) (inside : s.lineStart = false)
    (same : s'.unspaced = s.unspaced) : Turn s' tokens u := by
  have inside' : s'.lineStart = false := (congrArg Lexer.lineStart same).trans inside
  have lines : s'.cursor.lines = s.cursor.lines := congrArg (·.cursor.lines) same
  have brackets : s'.brackets = s.brackets := (congrArg Lexer.brackets same :)
  have ahead : s'.ahead = s.ahead := by rw [← rest_unspaced, ← rest_unspaced, same]
  have below : s'.below = s.below := (congrArg Lexer.below same :)
  cases turn with
  | blank start | enter start => cases inside.symm.trans start
  | newline _ more ends closed =>
    have turn := Turn.newline inside' (lines ▸ more) (ahead ▸ ends) (brackets.trans closed)
    rw [atFeed, same] at turn
    rwa [show ({ s' with lineStart := true, cursor := s'.cursor.nextLine } : Lexer) = _ from
      congrArg (fun s : Lexer => { s with lineStart := true }) below] at turn
  | fold _ more ends opened =>
    have turn := Turn.fold inside' (lines ▸ more) (ahead ▸ ends) (brackets ▸ opened)
    rwa [show ({ s' with cursor := s'.cursor.nextLine } : Lexer) = _ from below] at turn
  | join _ more found =>
    have turn := Turn.join inside' (lines ▸ more) (ahead.trans found)
    rwa [show ({ s' with cursor := s'.cursor.nextLine } : Lexer) = _ from below] at turn
  | token _ more starts read opened =>
    rw [← ahead, ← same] at *
    exact .token inside' (lines ▸ more) starts read opened

theorem Yields.of_unspaced (yields : s.Yields contents) (inside : s.lineStart = false)
    (same : s'.unspaced = s.unspaced) : s'.Yields contents := by
  obtain ⟨tokens, t, run, ended, rfl⟩ := yields
  cases run with
  | refl =>
    refine ⟨[], s', .refl s', ⟨(congrArg Lexer.lineStart same).trans inside,
      (congrArg (·.cursor.lines) same).trans ended.ended,
      (congrArg Lexer.brackets same :).trans ended.closed⟩, ?_⟩
    rw [show s'.closing = s.closing from (congrArg Lexer.closing same :)]
  | step turn run => exact ⟨_, t, .step (turn.of_unspaced inside same) run, ended, rfl⟩

end Lexer

end Offside
