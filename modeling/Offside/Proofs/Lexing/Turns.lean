import Offside.Proofs.Lexing.Course
import Offside.Proofs.Lexing.Lexemes
import Offside.Proofs.Source.Lines

/-!
# Turns of the lexer

`Lexer.Turn` lists what a move before the end of the source hands out, and where it leads. A turn
keeps what holds of a lexer between two moves (`Lexer.Turn.steady`), and leaves less to hand out
(`Lexer.Turn.allowance`).
-/

namespace Offside

namespace Cursor

variable {c : Cursor}

/-- The characters from the cursor on. -/
def onward (c : Cursor) : List Char := c.rest ++ c.lines.tail.flatten

theorem onward_of_start (start : c.column = 0) : c.onward = c.lines.flatten := by
  unfold onward rest
  cases c.lines with
  | nil => simp
  | cons line lines => rw [start, List.drop_zero]; rfl

theorem onward_advance (c : Cursor) (count : Nat) :
    c.onward = c.rest.take count ++ (c.advance count).onward := by
  unfold onward
  rw [rest_advance, ← List.append_assoc, List.take_append_drop]
  rfl

theorem onward_nextLine (c : Cursor) : c.onward = c.rest ++ c.nextLine.onward := by
  rw [onward_of_start (c := c.nextLine) rfl]
  show _ = c.rest ++ (c.lines.drop 1).flatten
  rw [List.drop_one]
  rfl

theorem onward_skipLines (start : c.column = 0) (count : Nat) :
    c.onward = (c.lines.take count).flatten ++ (c.skipLines count).onward := by
  rw [onward_of_start start, onward_of_start (c := c.skipLines count) rfl, ← List.flatten_append]
  show _ = (c.lines.take count ++ c.lines.drop count).flatten
  rw [List.take_append_drop]

theorem skipLines_zero (start : c.column = 0) : c.skipLines 0 = c := by
  cases c
  cases start
  rfl

theorem advance_advance (c : Cursor) (first second : Nat) :
    (c.advance first).advance second = c.advance (first + second) := by
  rw [advance, advance, advance, Nat.add_assoc]

end Cursor

namespace Indentation

variable {levels : List UInt64} {width : UInt64} {pos : Position}

/-- The open levels are wider from one to the next, and the outermost is wider than nothing. -/
def Ascending (levels : List UInt64) : Prop := (levels ++ [0]).Pairwise (· > ·)

theorem settle_ascending (ascending : Ascending levels) :
    Ascending (settle levels width pos).levels := by
  unfold settle
  dsimp only
  split
  · next wider =>
    refine List.pairwise_cons.mpr ⟨fun outer member => ?_, ascending⟩
    cases levels with
    | nil =>
      rw [List.mem_singleton.mp member]
      exact wider
    | cons level levels =>
      rcases List.mem_cons.mp member with rfl | member
      · exact wider
      · exact UInt64.lt_trans ((List.pairwise_cons.mp ascending).1 outer member) wider
  · exact ascending.sublist ((List.dropWhile_sublist _).append_right _)

theorem length_settle_zero (levels : List UInt64) (pos : Position) :
    (settle levels 0 pos).levels.length + (settle levels 0 pos).tokens.length = levels.length := by
  have split := congrArg List.length
    (List.takeWhile_append_dropWhile (p := fun outer => decide (0 < outer)) (l := levels))
  rw [List.length_append] at split
  unfold settle
  dsimp only
  rw [if_neg UInt64.not_lt_zero]
  dsimp only
  rw [List.length_map]
  omega

/-- A line opens the level of its width, or closes the innermost of the open ones. -/
theorem settle_cases (levels : List UInt64) (width : UInt64) (pos : Position) :
    (settle levels width pos).levels = width :: levels ∧
        (settle levels width pos).tokens = [{ kind := .indent, pos }] ∨
      ∃ closed, levels = closed ++ (settle levels width pos).levels ∧
        (settle levels width pos).tokens = closed.map fun _ => { kind := .dedent, pos } := by
  unfold settle
  dsimp only
  split
  · exact .inl ⟨rfl, rfl⟩
  · exact .inr ⟨_, List.takeWhile_append_dropWhile.symm, rfl⟩

theorem mem_settle {token : Token} (member : token ∈ (settle levels width pos).tokens) :
    (token.kind = .indent ∨ token.kind = .dedent) ∧ token.text = "" := by
  rcases settle_cases levels width pos with ⟨-, tokens⟩ | ⟨closed, -, tokens⟩
  · rw [tokens] at member
    rw [List.mem_singleton.mp member]
    exact ⟨.inl rfl, rfl⟩
  · rw [tokens] at member
    obtain ⟨_, -, rfl⟩ := List.mem_map.mp member
    exact ⟨.inr rfl, rfl⟩

end Indentation

/-- The open brackets after a token, the innermost first. -/
def Token.Kind.nesting (stack : List Char) : Token.Kind → Option (List Char)
  | .punct mark =>
    match mark.opens?, mark.closes? with
    | some opening, _ => some (opening :: stack)
    | none, none => some stack
    | none, some closing =>
      if stack.head?.bind Punct.closingFor? = some closing then some stack.tail else none
  | _ => some stack

namespace Lexer

variable {s t : Lexer} {tokens : List Token}

/-! ### One turn -/

/-- The line ends here, maybe after a comment. -/
def EndsLine (cs : List Char) : Prop := ∃ c rest, cs = c :: rest ∧ (c = '\n' ∨ c = '#')

theorem isEmptyLine_iff {line : List Char} : Indentation.isEmptyLine line = true ↔
    line.dropWhile Indentation.isSpace = [] ∨ EndsLine (line.dropWhile Indentation.isSpace) := by
  unfold Indentation.isEmptyLine EndsLine
  cases line.dropWhile Indentation.isSpace with
  | nil => simp
  | cons c rest => simp

theorem dropWhile_feed (body : List Char) : (body ++ ['\n']).dropWhile Indentation.isSpace =
    body.dropWhile Indentation.isSpace ++ ['\n'] := by
  rw [List.dropWhile_append]
  split
  · next none =>
    rw [List.isEmpty_iff.mp none]
    rfl
  · rfl

/-- The lexer at the line feed of its line. -/
def atFeed (s : Lexer) : Lexer := s.unspaced.skip (· ≠ '\n')

def bracketed (s : Lexer) : Token.Kind → Except LexError (List OpenBracket)
  | .punct mark => s.bracket mark
  | _ => .ok s.brackets

theorem map_bracketed (kind : Token.Kind) :
    (s.bracketed kind).toOption.map (·.map OpenBracket.bracket) =
      kind.nesting (s.brackets.map (·.bracket)) := by
  cases kind with
  | punct mark =>
    show (s.bracket mark).toOption.map _ = _
    rw [Lexer.bracket, Token.Kind.nesting]
    cases mark.opens? with
    | some opening => rfl
    | none =>
      cases mark.closes? with
      | none => rfl
      | some found =>
        dsimp only
        rw [List.head?_map]
        split
        · rw [← List.map_tail]
          rfl
        · rfl
  | _ => rfl

theorem nesting_of_bracketed {kind : Token.Kind} {brackets : List OpenBracket}
    (done : s.bracketed kind = .ok brackets) :
    kind.nesting (s.brackets.map (·.bracket)) = some (brackets.map (·.bracket)) := by
  rw [← map_bracketed, done]
  rfl

theorem bracketed_of_nesting {kind : Token.Kind} {stack : List Char}
    (goes : kind.nesting (s.brackets.map (·.bracket)) = some stack) :
    ∃ brackets, s.bracketed kind = .ok brackets ∧ brackets.map (·.bracket) = stack := by
  rw [← map_bracketed] at goes
  cases done : s.bracketed kind with
  | error e =>
    rw [done] at goes
    cases goes
  | ok brackets =>
    rw [done] at goes
    exact ⟨brackets, rfl, Option.some.inj goes⟩

theorem bracketed_of_literal {kind : Token.Kind} (literal : kind.isLiteral = true) :
    s.bracketed kind = .ok s.brackets := by
  cases kind with
  | punct => cases literal
  | _ => rfl

/-- What a move before the end of the source hands out, and where it leads. -/
inductive Turn (s : Lexer) : List Token → Lexer → Prop
  | blank : s.lineStart = true → s.skipped.cursor.lines = [] → Turn s [] s.skipped
  | enter : s.lineStart = true → s.skipped.cursor.lines ≠ [] → s.skipped.settled.mismatch = none →
      Turn s s.skipped.settled.tokens { s.skipped.unspaced with levels := s.skipped.settled.levels }
  | newline : s.lineStart = false → s.cursor.lines ≠ [] → EndsLine s.ahead → s.brackets = [] →
      Turn s [{ kind := .newline, text := "\n", pos := s.atFeed.cursor.position }]
        { s with lineStart := true, cursor := s.cursor.nextLine }
  | fold : s.lineStart = false → s.cursor.lines ≠ [] → EndsLine s.ahead → s.brackets ≠ [] →
      Turn s [] { s with cursor := s.cursor.nextLine }
  | join {rest} : s.lineStart = false → s.cursor.lines ≠ [] → s.ahead = '\\' :: '\n' :: rest →
      Turn s [] { s with cursor := s.cursor.nextLine }
  | token {taken kind brackets} : s.lineStart = false → s.cursor.lines ≠ [] →
      StartsToken s.ahead → lexeme? s.unspaced.cursor.position s.ahead = some (.ok taken kind) →
      s.unspaced.bracketed kind = .ok brackets →
      Turn s [{ kind, text := String.ofList (s.ahead.take taken), pos := s.unspaced.cursor.position }]
        { s.unspaced with brackets, cursor := s.unspaced.cursor.advance taken }

/-- The lexer has come to the end of its source, and no bracket is open. -/
structure Ended (s : Lexer) : Prop where
  inside : s.lineStart = false
  ended : s.cursor.lines = []
  closed : s.brackets = []

/-- The dedents that close all levels. -/
def dedents (s : Lexer) : List Token :=
  s.levels.map fun _ : UInt64 => { s.endMarker with kind := .dedent }

/-- The tokens at the end of the source. -/
def closing (s : Lexer) : List Token := s.dedents ++ [s.endMarker]

theorem length_dedents (s : Lexer) : s.dedents.length = s.levels.length := List.length_map _

theorem mem_dedents {token : Token} (member : token ∈ s.dedents) :
    token.kind = .dedent ∧ token.text = "" := by
  obtain ⟨_, -, rfl⟩ := List.mem_map.mp member
  exact ⟨rfl, rfl⟩

theorem mem_closing {token : Token} (member : token ∈ s.closing) :
    (token.kind = .dedent ∨ token.kind = .endMarker) ∧ token.text = "" := by
  rcases List.mem_append.mp member with member | member
  · exact (mem_dedents member).imp_left .inl
  · rw [List.mem_singleton.mp member]
    exact ⟨.inr rfl, rfl⟩

/-- All lines that are left end with their only line feed. -/
def Whole (c : Cursor) : Prop := ∀ line ∈ c.lines, ∃ body, line = body ++ ['\n'] ∧ '\n' ∉ body

theorem Whole.skipLines {c : Cursor} (whole : Whole c) (count : Nat) : Whole (c.skipLines count) :=
  fun line member => whole line (List.mem_of_mem_drop member)

theorem Whole.rest_ne_nil {c : Cursor} (whole : Whole c) (start : c.column = 0)
    (more : c.lines ≠ []) : c.rest ≠ [] := by
  obtain ⟨line, lines, split⟩ := List.exists_cons_of_ne_nil more
  obtain ⟨body, filled, -⟩ := whole line (split ▸ List.mem_cons_self)
  rw [Cursor.rest, split, start, List.headD_cons, List.drop_zero, filled]
  exact List.concat_ne_nil '\n' body

/-- What holds of a lexer between two moves. -/
structure Steady (s : Lexer) : Prop where
  idle : s.pending = []
  unfinished : s.finished = false
  start : s.lineStart = true → s.brackets = [] ∧ s.cursor.column = 0
  whole : Whole s.cursor
  within : s.cursor.lines ≠ [] → s.cursor.rest ≠ []
  ascending : Indentation.Ascending s.levels

theorem steady_ofText (source : String) (tabSize : UInt64) : (ofText source tabSize).Steady := by
  have whole : Whole (ofText source tabSize).cursor := fun line => Source.mem_splitLines
  exact ⟨rfl, rfl, fun _ => ⟨rfl, rfl⟩, whole, whole.rest_ne_nil rfl, List.pairwise_singleton _ _⟩

theorem Steady.rest (steady : s.Steady) (more : s.cursor.lines ≠ []) :
    ∃ body, s.cursor.rest = body ++ ['\n'] ∧ '\n' ∉ body := by
  obtain ⟨line, lines, split⟩ := List.exists_cons_of_ne_nil more
  obtain ⟨body, filled, flat⟩ := steady.whole line (split ▸ List.mem_cons_self)
  have rest : s.cursor.rest = (body ++ ['\n']).drop s.cursor.column := by
    rw [Cursor.rest, split, List.headD_cons, filled]
  have some := steady.within more
  have le : s.cursor.column ≤ body.length := by
    by_contra gt
    rw [rest] at some
    exact some (List.drop_eq_nil_of_le (by rw [List.length_append, List.length_singleton]; omega))
  refine ⟨body.drop s.cursor.column, ?_, fun member => flat (List.mem_of_mem_drop member)⟩
  rw [rest, List.drop_append_of_le_length le]

theorem Steady.ahead (steady : s.Steady) (more : s.cursor.lines ≠ []) :
    ∃ body, s.ahead = body ++ ['\n'] ∧ '\n' ∉ body := by
  obtain ⟨body, rest, flat⟩ := steady.rest more
  exact ⟨body.dropWhile Indentation.isSpace, by rw [Lexer.ahead, rest, dropWhile_feed],
    fun member => flat ((List.dropWhile_sublist _).subset member)⟩

theorem Steady.ahead_join (steady : s.Steady) (more : s.cursor.lines ≠ []) {rest : List Char}
    (found : s.ahead = '\\' :: '\n' :: rest) : s.ahead = ['\\', '\n'] := by
  obtain ⟨body, ends, flat⟩ := steady.ahead more
  rcases List.eq_nil_or_concat rest with rfl | ⟨front, last, rfl⟩
  · exact found
  · have split : '\\' :: '\n' :: front ++ [last] = body ++ ['\n'] := by
      rw [← ends, found, List.concat_eq_append]
      rfl
    rw [← (List.append_inj' split rfl).1] at flat
    exact absurd (List.mem_cons_of_mem _ List.mem_cons_self) flat

theorem lexeme?_of_literal? {pos : Position} {cs : List Char} {r : Reading Token.Kind}
    (read : literal? pos cs = some r) : lexeme? pos cs = some r := by
  rw [lexeme?, read]
  rfl

theorem endLine_of_open (open' : s.brackets ≠ []) :
    s.endLine = { s with cursor := s.cursor.nextLine } := by
  have some : s.brackets.isEmpty = false := by
    cases brackets : s.brackets with
    | nil => exact absurd brackets open'
    | cons => rfl
  simp only [endLine, some, Bool.false_eq_true, if_false]

/-- At its end a line is one turn, whether or not a comment comes first. -/
theorem turn_of_endLine (inside : s.lineStart = false) (more : s.cursor.lines ≠ [])
    (ends : EndsLine s.ahead) : ∃ tokens u, s.atFeed.endLine = u.queue tokens ∧ Turn s tokens u := by
  by_cases closed : s.brackets = []
  · exact ⟨_, _, endLine_of_closed (s := s.atFeed) closed, .newline inside more ends closed⟩
  · refine ⟨[], _, ?_, .fold inside more ends closed⟩
    rw [endLine_of_open (s := s.atFeed) closed, queue, List.append_nil]
    rfl

theorem atFeed_of_feed {rest : List Char} (found : s.ahead = '\n' :: rest) :
    s.atFeed = s.unspaced := by
  have none : (s.unspaced.cursor.rest.takeWhile (· ≠ '\n')).length = 0 := by
    rw [rest_unspaced, found]
    rfl
  unfold atFeed skip
  rw [none]
  rfl

theorem turn_of_move (move : Move s t) (steady : s.Steady) :
    (∃ tokens u, t = u.queue tokens ∧ Turn s tokens u) ∨ s.Ended ∧ t = s.closed := by
  cases move with
  | openLine start opened =>
    left
    rcases openLine_eq_ok_iff.mp opened with ⟨ended, rfl⟩ | ⟨more, entered⟩
    · exact ⟨[], _, by rw [queue, List.append_nil], .blank start ended⟩
    · obtain ⟨settled, rfl⟩ := enterLine_eq_ok_iff.mp entered
      exact ⟨_, _, rfl, .enter start more settled⟩
  | finish inside ended closed => exact .inr ⟨⟨inside, ended, closed⟩, rfl⟩
  | endLine inside more ends =>
    left
    obtain ⟨body, ahead, -⟩ := steady.ahead more
    obtain ⟨rest, found⟩ := ends.resolve_left (by rw [ahead]; exact List.concat_ne_nil '\n' body)
    rw [← atFeed_of_feed found]
    exact turn_of_endLine inside more ⟨'\n', rest, found, .inl rfl⟩
  | comment inside more found =>
    exact .inl (turn_of_endLine inside more ⟨'#', _, found, .inr rfl⟩)
  | join inside more found =>
    exact .inl ⟨[], _, by rw [queue, List.append_nil], .join inside more found⟩
  | @literal taken kind inside more starts read =>
    left
    obtain ⟨_, _, _, _, respells⟩ := literal?_respelled read
    refine ⟨_, _, ?_, .token inside more starts (lexeme?_of_literal? read)
      (bracketed_of_literal respells.literal)⟩
    rw [passed, rest_unspaced]
  | @punct mark brackets inside more starts unread found opened =>
    left
    have read : lexeme? s.unspaced.cursor.position s.ahead =
        some (.ok mark.spelling.length (.punct mark)) := by
      rw [lexeme?, unread, found]
      rfl
    refine ⟨_, _, ?_, .token inside more starts read opened⟩
    rw [passed, ← rest_unspaced]

theorem move_of_endLine (inside : s.lineStart = false) (more : s.cursor.lines ≠ [])
    (ends : EndsLine s.ahead) : Move s s.atFeed.endLine := by
  obtain ⟨c, rest, found, rfl | rfl⟩ := ends
  · rw [atFeed_of_feed found]
    exact .endLine inside more (.inr ⟨rest, found⟩)
  · exact .comment inside more found

theorem move_of_turn (turn : Turn s tokens t) : Move s (t.queue tokens) := by
  cases turn with
  | blank start ended =>
    rw [queue, List.append_nil]
    exact .openLine start (openLine_eq_ok_iff.mpr (.inl ⟨ended, rfl⟩))
  | enter start more settled =>
    exact .openLine start (openLine_eq_ok_iff.mpr (.inr ⟨more,
      enterLine_eq_ok_iff.mpr ⟨settled, rfl⟩⟩))
  | newline inside more ends closed =>
    have move := move_of_endLine inside more ends
    rwa [endLine_of_closed (s := s.atFeed) closed] at move
  | fold inside more ends open' =>
    have move := move_of_endLine inside more ends
    rw [endLine_of_open (s := s.atFeed) open'] at move
    rw [queue, List.append_nil]
    exact move
  | join inside more found =>
    rw [queue, List.append_nil]
    exact .join inside more found
  | @token taken kind brackets inside more starts read opened =>
    rw [← rest_unspaced] at read ⊢
    rcases Option.or_eq_some_iff.mp read with read | ⟨unread, read⟩
    · obtain ⟨_, _, _, _, respells⟩ := literal?_respelled read
      rw [bracketed_of_literal respells.literal] at opened
      cases opened
      rw [rest_unspaced] at read
      exact .literal inside more starts read
    · obtain ⟨mark, found, same⟩ := Option.map_eq_some_iff.mp read
      cases same
      rw [rest_unspaced] at unread found
      exact .punct inside more starts unread found opened

/-! ### What a turn keeps -/

theorem onward_of_ended (ended : s.cursor.lines = []) : s.cursor.onward = [] := by
  rw [Cursor.onward, Cursor.rest, ended]
  show List.drop _ [] ++ [] = []
  rw [List.append_nil, List.drop_nil]

theorem more_of_onward (some : s.cursor.onward ≠ []) : s.cursor.lines ≠ [] :=
  fun ended => some (onward_of_ended ended)

theorem Steady.skipped (steady : s.Steady) : s.skipped.Steady := by
  have whole : Whole s.skipped.cursor := steady.whole.skipLines _
  exact ⟨steady.idle, steady.unfinished, nofun, whole, whole.rest_ne_nil rfl, steady.ascending⟩

theorem Steady.nextLine (steady : s.Steady) (inside : s.lineStart = false) :
    ({ s with cursor := s.cursor.nextLine } : Lexer).Steady := by
  have whole : Whole s.cursor.nextLine := steady.whole.skipLines 1
  refine ⟨steady.idle, steady.unfinished, fun start => ?_, whole, whole.rest_ne_nil rfl,
    steady.ascending⟩
  rw [inside] at start
  cases start

/-- The start of a line that is not empty is passed, whether or not its width fits. -/
theorem Steady.entered (steady : s.Steady) (more : s.skipped.cursor.lines ≠ []) :
    ({ s.skipped.unspaced with levels := s.skipped.settled.levels } : Lexer).Steady := by
  refine ⟨steady.idle, steady.unfinished, nofun, steady.skipped.whole, fun _ => ?_,
    Indentation.settle_ascending steady.ascending⟩
  obtain ⟨body, ahead, -⟩ := steady.skipped.ahead more
  rw [rest_unspaced, ahead]
  exact List.concat_ne_nil '\n' body

/-- Characters of a line are passed, whatever they spell. -/
theorem Steady.advanced (steady : s.Steady) (inside : s.lineStart = false)
    (more : s.cursor.lines ≠ []) {chars rest : List Char} (split : s.ahead = chars ++ rest)
    (flat : '\n' ∉ chars) (brackets : List OpenBracket) :
    ({ s.unspaced with brackets, cursor := s.unspaced.cursor.advance chars.length } :
      Lexer).Steady := by
  have outside : s.lineStart ≠ true := by rw [inside]; decide
  refine ⟨steady.idle, steady.unfinished, fun start => absurd start outside, steady.whole,
    fun _ ended => ?_, steady.ascending⟩
  obtain ⟨body, ahead, -⟩ := steady.ahead more
  have none : rest = [] := by
    rw [Cursor.rest_advance, rest_unspaced, split, List.drop_left] at ended
    exact ended
  apply flat
  rw [← List.append_nil chars, ← none, ← split, ahead]
  exact List.mem_append_right body List.mem_cons_self

theorem Turn.steady (turn : Turn s tokens t) (steady : s.Steady) : t.Steady := by
  cases turn with
  | blank => exact steady.skipped
  | enter _ more => exact steady.entered more
  | newline inside _ _ closed =>
    have next := steady.nextLine inside
    exact ⟨next.idle, next.unfinished, fun _ => ⟨closed, rfl⟩, next.whole, next.within,
      next.ascending⟩
  | fold inside => exact steady.nextLine inside
  | join inside => exact steady.nextLine inside
  | @token taken kind brackets inside more _ read =>
    obtain ⟨chars, rest, split, rfl, lexeme⟩ := lexeme_of_read read
    exact steady.advanced inside more split lexeme.flat brackets

theorem onward_unspaced (s : Lexer) : s.cursor.onward =
    s.cursor.rest.takeWhile Indentation.isSpace ++ s.unspaced.cursor.onward := by
  rw [s.cursor.onward_advance (s.cursor.rest.takeWhile Indentation.isSpace).length]
  refine congrArg (· ++ s.unspaced.cursor.onward) ?_
  exact (List.prefix_iff_eq_take.mp (List.takeWhile_prefix _)).symm

/-- More than the tokens to come before the end of the source. -/
def allowance (s : Lexer) : Nat :=
  3 * s.cursor.onward.length + s.levels.length + if s.lineStart then 1 else 0

theorem Steady.onward_skipped (steady : s.Steady) (start : s.lineStart = true) :
    s.cursor.onward = (s.cursor.lines.takeWhile Indentation.isEmptyLine).flatten ++
      s.skipped.cursor.onward := by
  rw [s.cursor.onward_skipLines (steady.start start).2
    (s.cursor.lines.takeWhile Indentation.isEmptyLine).length]
  refine congrArg (List.flatten · ++ s.skipped.cursor.onward) ?_
  exact (List.prefix_iff_eq_take.mp (List.takeWhile_prefix _)).symm

theorem Steady.allowance_entered (steady : s.Steady) (start : s.lineStart = true) :
    s.skipped.settled.tokens.length +
      ({ s.skipped.unspaced with levels := s.skipped.settled.levels } : Lexer).allowance <
        s.allowance := by
  have skipped := congrArg List.length (steady.onward_skipped start)
  have spaced := congrArg List.length s.skipped.onward_unspaced
  rw [List.length_append] at skipped spaced
  -- Only a line with spaces before it can open a level, and these make up for it.
  have settled : s.skipped.settled.levels.length + s.skipped.settled.tokens.length ≤
      s.levels.length + 3 * (s.skipped.cursor.rest.takeWhile Indentation.isSpace).length := by
    cases spaces : s.skipped.cursor.rest.takeWhile Indentation.isSpace with
    | nil =>
      have same := Indentation.length_settle_zero s.levels s.skipped.unspaced.cursor.position
      rw [Lexer.settled, spaces]
      exact Nat.le_of_eq same
    | cons space spaces =>
      have two : s.skipped.settled.levels.length + s.skipped.settled.tokens.length ≤
          s.levels.length + 2 := Indentation.length_settle
      rw [List.length_cons]
      omega
  simp only [Lexer.allowance, start, if_true]
  show _ + (3 * s.skipped.unspaced.cursor.onward.length + s.skipped.settled.levels.length + 0) < _
  omega

theorem allowance_advanced (inside : s.lineStart = false) {chars rest : List Char}
    (split : s.ahead = chars ++ rest) (nonempty : chars ≠ []) (brackets : List OpenBracket) :
    1 + ({ s.unspaced with brackets, cursor := s.unspaced.cursor.advance chars.length } :
      Lexer).allowance < s.allowance := by
  have some := List.length_pos_iff.mpr nonempty
  have spaced := congrArg List.length s.onward_unspaced
  have passed := congrArg List.length (s.unspaced.cursor.onward_advance chars.length)
  rw [rest_unspaced, split, List.take_left, List.length_append] at passed
  rw [List.length_append] at spaced
  have still : s.unspaced.lineStart = false := inside
  simp only [Lexer.allowance, inside, still, Bool.false_eq_true, if_false]
  show 1 + (_ + s.levels.length + 0) < _
  omega

theorem Turn.allowance (turn : Turn s tokens t) (steady : s.Steady) :
    tokens.length + t.allowance < s.allowance := by
  have nextLine : s.cursor.lines ≠ [] →
      s.cursor.nextLine.onward.length < s.cursor.onward.length := by
    intro more
    have some := List.length_pos_iff.mpr (steady.within more)
    rw [s.cursor.onward_nextLine, List.length_append]
    omega
  cases turn with
  | blank start =>
    have skipped := congrArg List.length (steady.onward_skipped start)
    rw [List.length_append] at skipped
    simp only [Lexer.allowance, start, if_true, List.length_nil]
    show 0 + (_ + s.levels.length + 0) < _
    omega
  | enter start => exact steady.allowance_entered start
  | newline inside more _ closed =>
    have less := nextLine more
    simp only [Lexer.allowance, inside, if_true, Bool.false_eq_true, if_false, List.length_singleton]
    omega
  | fold inside more =>
    have less := nextLine more
    simp only [Lexer.allowance, inside, Bool.false_eq_true, if_false, List.length_nil]
    omega
  | join inside more =>
    have less := nextLine more
    simp only [Lexer.allowance, inside, Bool.false_eq_true, if_false, List.length_nil]
    omega
  | @token taken kind brackets inside _ _ read =>
    obtain ⟨chars, rest, split, rfl, lexeme⟩ := lexeme_of_read read
    exact allowance_advanced inside split lexeme.nonempty brackets

theorem Turn.unended (turn : Turn s tokens t) : ∀ token ∈ tokens, token.kind ≠ .endMarker := by
  cases turn with
  | enter => exact Indentation.settle_unended
  | newline =>
    intro token member
    rw [List.mem_singleton.mp member]
    exact nofun
  | @token taken kind brackets inside more _ read =>
    obtain ⟨_, _, _, _, lexeme⟩ := lexeme_of_read read
    intro token member
    rw [List.mem_singleton.mp member]
    rintro rfl
    obtain literal | ⟨mark, same⟩ := lexeme.spelled
    · cases literal
    · cases same
  | _ => exact fun _ member => absurd member List.not_mem_nil

end Lexer

end Offside
