import Offside.Proofs.Lexing.Line
import Offside.Proofs.Lexing.Placed

/-!
# The course of a lexer

Each move hands out tokens and has less text left. `Lexer.Move.course` shows this together with what
holds of the lexer all along, up to the empty lines at the end of its text.
-/

namespace Offside

namespace Cursor

variable {c : Cursor}

/-- The characters and the lines that are left. -/
def left (c : Cursor) : Nat :=
  c.rest.length + c.lines.length + c.lines.tail.flatten.length

theorem left_of_start (start : c.column = 0) :
    c.left = c.lines.length + c.lines.flatten.length := by
  unfold left rest
  cases c.lines with
  | nil => simp
  | cons line lines =>
    rw [start, List.drop_zero, List.headD_cons, List.tail_cons, List.flatten_cons,
      List.length_append]
    omega

theorem left_skipLines_le (start : c.column = 0) (count : Nat) :
    (c.skipLines count).left ≤ c.left := by
  rw [left_of_start start, left_of_start rfl]
  show (c.lines.drop count).length + (c.lines.drop count).flatten.length ≤ _
  have split := congrArg (fun lines => lines.flatten.length) (c.lines.take_append_drop count)
  simp only [List.flatten_append, List.length_append] at split
  rw [List.length_drop]
  omega

theorem left_nextLine_lt (more : c.lines ≠ []) : c.nextLine.left < c.left := by
  rw [left_of_start rfl]
  show (c.lines.drop 1).length + (c.lines.drop 1).flatten.length < _
  unfold left
  cases lines : c.lines with
  | nil => exact absurd lines more
  | cons line lines =>
    rw [List.drop_one, List.tail_cons, List.length_cons]
    omega

theorem left_advance_le (c : Cursor) (count : Nat) : (c.advance count).left ≤ c.left := by
  unfold left
  rw [rest_advance, List.length_drop]
  show _ + c.lines.length + c.lines.tail.flatten.length ≤ _
  omega

theorem left_advance_lt {count : Nat} (some : 0 < count) (more : c.rest ≠ []) :
    (c.advance count).left < c.left := by
  have long := List.length_pos_iff.mpr more
  unfold left
  rw [rest_advance, List.length_drop]
  show _ + c.lines.length + c.lines.tail.flatten.length < _
  omega

end Cursor

namespace Indentation

variable {levels : List UInt64} {width : UInt64} {pos : Position}

theorem length_settle : (settle levels width pos).levels.length +
    (settle levels width pos).tokens.length ≤ levels.length + 2 := by
  unfold settle
  dsimp only
  split
  · simp
  · have split := congrArg List.length
      (List.takeWhile_append_dropWhile (p := fun outer => decide (width < outer)) (l := levels))
    rw [List.length_append] at split
    dsimp only
    rw [List.length_map]
    omega

theorem settle_unended : ∀ token ∈ (settle levels width pos).tokens, token.kind ≠ .endMarker := by
  unfold settle
  dsimp only
  split
  · intro token member
    rw [List.mem_singleton.mp member]
    exact nofun
  · intro token member
    obtain ⟨_, -, rfl⟩ := List.mem_map.mp member
    exact nofun

theorem settle_positive (positive : ∀ level ∈ levels, 0 < level) :
    ∀ level ∈ (settle levels width pos).levels, 0 < level := by
  unfold settle
  dsimp only
  split
  · next wider =>
    intro level member
    rcases List.mem_cons.mp member with rfl | member
    · exact UInt64.lt_of_le_of_lt UInt64.zero_le wider
    · exact positive level member
  · intro level member
    exact positive level ((List.dropWhile_sublist _).subset member)

end Indentation

namespace Lexer

variable {s t : Lexer}

/-- A backslash stands before the line end, so that the line goes on on the next one. -/
def Joins (line : List Char) : Prop := ['\\', '\n'] <:+: line

/-- What holds of a lexer on its way through a text that does not end in the middle of a line. -/
structure Underway (s : Lexer) : Prop where
  idle : s.pending = []
  unfinished : s.finished = false
  start : s.lineStart = true → s.brackets = [] ∧ s.cursor.column = 0
  inside : s.lineStart = false → s.cursor.lines ≠ [] ∨ s.brackets ≠ []
  positive : ∀ level ∈ s.levels, 0 < level
  unjoined : ∀ line, s.cursor.lines.getLast? = some line → ¬Joins line

/-- Nothing but empty lines is left. -/
def Blank (s : Lexer) : Prop :=
  s.lineStart = true ∧ ∀ line ∈ s.cursor.lines, Indentation.isEmptyLine line = true

theorem filled_of_not_blank (unblank : ¬s.Blank) (start : s.lineStart = true) :
    ∃ line ∈ s.cursor.lines, ¬Indentation.isEmptyLine line := by
  by_contra none
  exact unblank ⟨start, fun line member => by_contra fun filled => none ⟨line, member, filled⟩⟩

/-- More than the tokens to come. -/
def weight (s : Lexer) : Nat :=
  5 * s.cursor.left + s.levels.length + if s.lineStart then 3 else 0

/-- One move hands out tokens, and leaves less. -/
structure Advances (s : Lexer) (tokens : List Token) (t : Lexer) : Prop where
  underway : t.Underway
  weight : tokens.length + t.weight < s.weight
  unended : ∀ token ∈ tokens, token.kind ≠ .endMarker
  newline : t.lineStart = true → ∃ newline, tokens = [newline] ∧ newline.kind = .newline

theorem unjoined_skipLines (unjoined : ∀ line, s.cursor.lines.getLast? = some line → ¬Joins line)
    (count : Nat) {line : List Char}
    (last : (s.cursor.skipLines count).lines.getLast? = some line) : ¬Joins line := by
  apply unjoined
  rw [Cursor.skipLines, List.getLast?_drop] at last
  split at last
  · cases last
  · exact last

theorem Underway.openLine (underway : s.Underway) (start : s.lineStart = true)
    (some : ∃ line ∈ s.cursor.lines, ¬Indentation.isEmptyLine line) (opened : s.openLine = .ok () t) :
    ∃ tokens u, t = u.queue tokens ∧ s.Advances tokens u := by
  have more : s.skipped.cursor.lines ≠ [] := skipped_more some
  obtain ⟨closed, column⟩ := underway.start start
  obtain ⟨-, rfl⟩ : _ ∧ t = s.skipped.entered := by
    rcases openLine_eq_ok_iff.mp opened with ⟨ended, -⟩ | ⟨-, entered⟩
    · exact absurd ended more
    · exact enterLine_eq_ok_iff.mp entered
  refine ⟨s.skipped.settled.tokens, { s.skipped.unspaced with levels := s.skipped.settled.levels },
    rfl, ⟨underway.idle, underway.unfinished, nofun, fun _ => .inl more,
      Indentation.settle_positive underway.positive, ?_⟩, ?_, Indentation.settle_unended, nofun⟩
  · intro line last
    exact unjoined_skipLines underway.unjoined _ last
  · have left : s.skipped.unspaced.cursor.left ≤ s.cursor.left :=
      Nat.le_trans (Cursor.left_advance_le _ _) (Cursor.left_skipLines_le column _)
    have settled : s.skipped.settled.levels.length + s.skipped.settled.tokens.length ≤
        s.levels.length + 2 := Indentation.length_settle
    -- An indent is a token and a level more, which the start of the line makes up for.
    simp only [Lexer.weight, start, if_true]
    show _ + (5 * s.skipped.unspaced.cursor.left + s.skipped.settled.levels.length + 0) < _
    omega

theorem Underway.endLine (underway : s.Underway) (inside : s.lineStart = false)
    (more : s.cursor.lines ≠ []) (column : Nat) :
    ∃ tokens u, ({ s with cursor := { s.cursor with column } } : Lexer).endLine = u.queue tokens ∧
      s.Advances tokens u := by
  have left : s.cursor.nextLine.left < s.cursor.left := Cursor.left_nextLine_lt more
  have still : s.lineStart ≠ true := by rw [inside]; decide
  have unjoined : ∀ line, s.cursor.nextLine.lines.getLast? = some line → ¬Joins line :=
    fun line last => unjoined_skipLines underway.unjoined 1 last
  by_cases closed : s.brackets = []
  · let s' : Lexer := { s with cursor := { s.cursor with column } }
    refine ⟨[{ kind := .newline, text := "\n", pos := s'.cursor.position }],
      { s with lineStart := true, cursor := s.cursor.nextLine }, endLine_of_closed (s := s') closed,
      ⟨underway.idle, underway.unfinished, fun _ => ⟨closed, rfl⟩, nofun, underway.positive,
        unjoined⟩, ?_, ?_, fun _ => ⟨_, rfl, rfl⟩⟩
    · simp only [Lexer.weight, inside, if_true, Bool.false_eq_true, if_false, List.length_singleton]
      omega
    · intro token member
      rw [List.mem_singleton.mp member]
      exact nofun
  · have empty : s.brackets.isEmpty = false := by
      cases brackets : s.brackets with
      | nil => exact absurd brackets closed
      | cons => rfl
    refine ⟨[], { s with cursor := s.cursor.nextLine }, ?_,
      ⟨underway.idle, underway.unfinished, fun start => absurd start still,
        fun _ => .inr closed, underway.positive, unjoined⟩, ?_,
      fun _ member => absurd member List.not_mem_nil, fun start => absurd start still⟩
    · simp only [Lexer.endLine, empty, Bool.false_eq_true, if_false]
      rw [queue, List.append_nil]
      rfl
    · simp only [Lexer.weight, inside, Bool.false_eq_true, if_false, List.length_nil]
      omega

theorem Underway.passed (underway : s.Underway) (inside : s.lineStart = false)
    (more : s.cursor.lines ≠ []) (starts : StartsToken s.ahead) {taken : Nat} {kind : Token.Kind}
    (isToken : Reading.IsToken taken kind) (brackets : List OpenBracket) :
    ∃ tokens u, { s.unspaced with brackets }.passed taken kind = u.queue tokens ∧
      s.Advances tokens u := by
  obtain ⟨c, rest, ahead, -⟩ := starts
  have outside : s.lineStart ≠ true := by rw [inside]; decide
  have left : (s.unspaced.cursor.advance taken).left < s.cursor.left := by
    have open' : s.unspaced.cursor.rest ≠ [] := by
      rw [rest_unspaced, ahead]
      exact List.cons_ne_nil c rest
    exact Nat.lt_of_lt_of_le (Cursor.left_advance_lt isToken.1 open') (Cursor.left_advance_le _ _)
  refine ⟨_, { s.unspaced with brackets, cursor := s.unspaced.cursor.advance taken }, rfl,
    ⟨underway.idle, underway.unfinished, fun start => absurd start outside,
      fun _ => .inl more, underway.positive, underway.unjoined⟩, ?_, ?_,
    fun start => absurd start outside⟩
  · have still : s.unspaced.lineStart = false := inside
    simp only [Lexer.weight, inside, still, Bool.false_eq_true, if_false, List.length_singleton]
    show 1 + (5 * _ + s.levels.length + 0) < _
    omega
  · intro token member
    rw [List.mem_singleton.mp member]
    exact isToken.2

theorem Underway.more_of_join (underway : s.Underway) (more : s.cursor.lines ≠ [])
    {rest : List Char} (found : s.ahead = '\\' :: '\n' :: rest) :
    s.cursor.nextLine.lines ≠ [] := by
  cases lines : s.cursor.lines with
  | nil => exact absurd lines more
  | cons line later =>
    intro ended
    have last : s.cursor.lines.getLast? = some line := by
      have none : later = [] := by
        rw [Cursor.nextLine, Cursor.skipLines, lines] at ended
        exact ended
      rw [lines, none, List.getLast?_singleton]
    have suffix : s.ahead <:+ line := by
      have rest : s.cursor.rest = line.drop s.cursor.column := by
        rw [Cursor.rest, lines, List.headD_cons]
      rw [Lexer.ahead, rest]
      exact (List.dropWhile_suffix _).trans (List.drop_suffix _ _)
    rw [found] at suffix
    exact underway.unjoined line last
      ((List.prefix_append ['\\', '\n'] rest).isInfix.trans suffix.isInfix)

theorem punct_isToken (mark : Punct) : Reading.IsToken mark.spelling.length (.punct mark) := by
  constructor
  · cases mark <;> decide
  · exact Token.Kind.noConfusion

theorem Move.course (move : Move s t) (underway : s.Underway) (unblank : ¬s.Blank) :
    ∃ tokens u, t = u.queue tokens ∧ s.Advances tokens u := by
  cases move with
  | openLine start opened =>
    exact underway.openLine start (filled_of_not_blank unblank start) opened
  | finish inside ended closed =>
    rcases underway.inside inside with more | open'
    · exact absurd ended more
    · exact absurd closed open'
  | endLine inside more => exact underway.endLine inside more _
  | comment inside more => exact underway.endLine inside more _
  | join inside more found =>
    have left : s.cursor.nextLine.left < s.cursor.left := Cursor.left_nextLine_lt more
    have still : s.lineStart ≠ true := by rw [inside]; decide
    refine ⟨[], { s with cursor := s.cursor.nextLine }, ?_,
      ⟨underway.idle, underway.unfinished, fun start => absurd start still,
        fun _ => .inl (underway.more_of_join more found), underway.positive, ?_⟩, ?_,
      fun _ member => absurd member List.not_mem_nil, fun start => absurd start still⟩
    · rw [queue, List.append_nil]
    · intro line last
      exact unjoined_skipLines underway.unjoined 1 last
    · simp only [Lexer.weight, inside, Bool.false_eq_true, if_false, List.length_nil]
      omega
  | literal inside more starts read =>
    exact underway.passed inside more starts (literal?_isToken read) s.brackets
  | @punct mark brackets inside more starts =>
    exact underway.passed inside more starts (punct_isToken mark) brackets

end Lexer

end Offside
