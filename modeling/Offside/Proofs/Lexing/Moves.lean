import Offside.Lexer.Basic
import Offside.Proofs.Parsing.Answers

/-!
# Moves of the lexer and its answers

`Lexer.Move` lists what one successful move does, and `Lexer.step_eq_ok_iff` shows that it lists all
of it. What is pending comes first in the answers, and a move without a token leaves them alone.
-/

namespace Offside

namespace Cursor

theorem rest_advance (c : Cursor) (count : Nat) : (c.advance count).rest = c.rest.drop count := by
  simp only [rest, advance, List.drop_drop]

theorem rest_skipWhile (c : Cursor) (p : Char → Bool) :
    (c.advance (c.rest.takeWhile p).length).rest = c.rest.dropWhile p := by
  rw [rest_advance]
  nth_rewrite 2 [← List.takeWhile_append_dropWhile (p := p) (l := c.rest)]
  rw [List.drop_left]

end Cursor

namespace Lexer

variable {s t : Lexer}

/-- What a literal or a word is read as. -/
def literal? (pos : Position) (cs : List Char) : Option (Reading Token.Kind) :=
  ((StringLiteral.read? pos cs).or (Name.read? pos cs)).or (Number.read? pos cs)

/-- The characters of the line after the spaces. -/
def ahead (s : Lexer) : List Char := s.cursor.rest.dropWhile Indentation.isSpace

/-- The lexer after the spaces. -/
def unspaced (s : Lexer) : Lexer := s.skip Indentation.isSpace

/-- The lexer past a token, which is ready. -/
def passed (s : Lexer) (taken : Nat) (kind : Token.Kind) : Lexer :=
  { s with cursor := s.cursor.advance taken }.queue
    [{ kind, text := String.ofList (s.cursor.rest.take taken), pos := s.cursor.position }]

/-- The lexer at the end of the source, with the tokens that close it. -/
def closed (s : Lexer) : Lexer :=
  { s with levels := [], finished := true }.queue
    ((s.levels.map fun _ : UInt64 => { s.endMarker with kind := .dedent }) ++ [s.endMarker])

/-- What the width of the line comes to. -/
def settled (s : Lexer) : Indentation.Settled :=
  Indentation.settle s.levels
    (Indentation.width s.tabSize (s.cursor.rest.takeWhile Indentation.isSpace))
    s.unspaced.cursor.position

/-- The lexer after the indentation of its line. -/
def entered (s : Lexer) : Lexer :=
  { s.unspaced with levels := s.settled.levels }.queue s.settled.tokens

/-- The lexer at the next line that is not empty. -/
def skipped (s : Lexer) : Lexer :=
  { s with
    cursor := s.cursor.skipLines (s.cursor.lines.takeWhile Indentation.isEmptyLine).length
    lineStart := false }

theorem enterLine_eq_ok_iff :
    s.enterLine = .ok () t ↔ s.settled.mismatch = none ∧ t = s.entered := by
  have same : s.settled = Indentation.settle s.levels (Indentation.width s.tabSize
      (s.cursor.rest.takeWhile Indentation.isSpace)) (s.cursor.advance
        (s.cursor.rest.takeWhile Indentation.isSpace).length).position := rfl
  unfold enterLine
  dsimp only
  rw [← same]
  cases settled : s.settled.mismatch with
  | none =>
    constructor
    · intro entered
      cases entered
      exact ⟨rfl, rfl⟩
    · rintro ⟨-, rfl⟩
      rfl
  | some outer =>
    constructor
    · intro entered
      cases entered
    · rintro ⟨settled', -⟩
      cases settled'

theorem openLine_eq_ok_iff : s.openLine = .ok () t ↔
    s.skipped.cursor.lines = [] ∧ t = s.skipped ∨
      s.skipped.cursor.lines ≠ [] ∧ s.skipped.enterLine = .ok () t := by
  have eq : s.openLine =
      if s.skipped.cursor.atEnd then .ok () s.skipped else s.skipped.enterLine := rfl
  rw [eq, Cursor.atEnd]
  cases s.skipped.cursor.lines with
  | nil =>
    constructor
    · intro opened
      cases opened
      exact .inl ⟨rfl, rfl⟩
    · rintro (⟨-, rfl⟩ | ⟨more, -⟩)
      · rfl
      · exact absurd rfl more
  | cons line lines =>
    constructor
    · exact fun entered => .inr ⟨List.cons_ne_nil line lines, entered⟩
    · rintro (⟨ended, -⟩ | ⟨-, entered⟩)
      · cases ended
      · exact entered

/-- Whether a token starts here: the line is not at its end and does not go on on the next one. -/
def StartsToken (cs : List Char) : Prop :=
  ∃ c rest, cs = c :: rest ∧ c ≠ '\n' ∧ c ≠ '#' ∧ c ≠ '\\'

/-- What a successful move does. -/
inductive Move (s : Lexer) : Lexer → Prop
  | openLine {t : Lexer} : s.lineStart = true → s.openLine = .ok () t → Move s t
  | finish : s.lineStart = false → s.cursor.lines = [] → s.brackets = [] → Move s s.closed
  | endLine : s.lineStart = false → s.cursor.lines ≠ [] →
      (s.ahead = [] ∨ ∃ rest, s.ahead = '\n' :: rest) → Move s s.unspaced.endLine
  | comment {rest} : s.lineStart = false → s.cursor.lines ≠ [] → s.ahead = '#' :: rest →
      Move s (s.unspaced.skip (· ≠ '\n')).endLine
  | join {rest} : s.lineStart = false → s.cursor.lines ≠ [] → s.ahead = '\\' :: '\n' :: rest →
      Move s { s with cursor := s.cursor.nextLine }
  | literal {taken kind} : s.lineStart = false → s.cursor.lines ≠ [] → StartsToken s.ahead →
      literal? s.unspaced.cursor.position s.ahead = some (.ok taken kind) →
      Move s (s.unspaced.passed taken kind)
  | punct {mark brackets} : s.lineStart = false → s.cursor.lines ≠ [] → StartsToken s.ahead →
      literal? s.unspaced.cursor.position s.ahead = none →
      Punct.longestMatch? s.ahead = some mark → s.unspaced.bracket mark = .ok brackets →
      Move s ({ s.unspaced with brackets }.passed mark.spelling.length (.punct mark))

theorem isSpace_of_ahead {c : Char} {rest : List Char} (found : s.ahead = c :: rest) :
    Indentation.isSpace c = false := by
  have head := List.head?_dropWhile_not Indentation.isSpace s.cursor.rest
  rwa [← ahead, found] at head

theorem rest_unspaced (s : Lexer) : s.unspaced.cursor.rest = s.ahead :=
  s.cursor.rest_skipWhile Indentation.isSpace

theorem take_ok (s : Lexer) (taken : Nat) (kind : Token.Kind) :
    s.take (.ok taken kind) = .ok () (s.passed taken kind) := rfl

theorem step_inside (inside : s.lineStart = false) (more : s.cursor.lines ≠ []) :
    s.step = match s.ahead with
      | [] | '\n' :: _ => .ok () s.unspaced.endLine
      | '#' :: _ => .ok () (s.unspaced.skip (· ≠ '\n')).endLine
      | '\\' :: '\n' :: _ => .ok () { s with cursor := s.cursor.nextLine }
      | '\\' :: _ => .error (.invalidCharacter '\\' s.unspaced.cursor.position) s.unspaced
      | c :: _ => s.unspaced.readToken c := by
  have open' : s.cursor.atEnd = false := by
    cases lines : s.cursor.lines with
    | nil => exact absurd lines more
    | cons => simp [Cursor.atEnd, lines]
  rw [← rest_unspaced, step, if_neg (by rw [inside]; decide), if_neg (by rw [open']; decide)]
  rfl

theorem readToken_literal {c : Char} {r : Reading Token.Kind}
    (read : literal? s.cursor.position s.cursor.rest = some r) : s.readToken c = s.take r := by
  unfold literal? at read
  simp only [readToken, read]

theorem readToken_punct {c : Char} (read : literal? s.cursor.position s.cursor.rest = none) :
    s.readToken c = s.readPunct c := by
  unfold literal? at read
  simp only [readToken, read]

theorem move_of_readToken {c : Char} (inside : s.lineStart = false) (more : s.cursor.lines ≠ [])
    (starts : StartsToken s.ahead) (h : s.unspaced.readToken c = .ok () t) : Move s t := by
  cases read : literal? s.unspaced.cursor.position s.unspaced.cursor.rest with
  | some r =>
    rw [readToken_literal read] at h
    obtain ⟨taken, outcome⟩ := r
    cases outcome with
    | error e => cases h
    | ok kind =>
      cases h
      rw [rest_unspaced] at read
      exact .literal inside more starts read
  | none =>
    rw [readToken_punct read, readPunct] at h
    split at h
    · cases h
    · next mark found =>
      split at h
      · cases h
      · next brackets opened =>
        cases h
        rw [rest_unspaced] at read found
        exact .punct inside more starts read found opened

theorem move_of_step (h : s.step = .ok () t) : Move s t := by
  cases inside : s.lineStart with
  | true =>
    rw [step, if_pos inside] at h
    exact .openLine inside h
  | false =>
    by_cases ended : s.cursor.lines = []
    · have atEnd : s.cursor.atEnd = true := by rw [Cursor.atEnd, ended]; rfl
      rw [step, if_neg (by rw [inside]; decide), if_pos atEnd, finish] at h
      split at h
      · cases h
      · next closed =>
        cases h
        exact .finish inside ended closed
    · rw [step_inside inside ended] at h
      split at h
      · next found =>
        cases h
        exact .endLine inside ended (.inl found)
      · next rest found =>
        cases h
        exact .endLine inside ended (.inr ⟨rest, found⟩)
      · next found =>
        cases h
        exact .comment inside ended found
      · next found =>
        cases h
        exact .join inside ended found
      · cases h
      · next c rest notFeed notComment _ notJoin found =>
        exact move_of_readToken inside ended ⟨c, rest, found, notFeed, notComment, notJoin⟩ h

theorem readToken_of_starts (inside : s.lineStart = false) (more : s.cursor.lines ≠ [])
    (starts : StartsToken s.ahead) : ∃ c, s.step = s.unspaced.readToken c := by
  obtain ⟨c, rest, found, notFeed, notComment, notJoin⟩ := starts
  refine ⟨c, ?_⟩
  rw [step_inside inside more, found]
  split
  · next same => cases same
  · next same => exact absurd (List.cons.inj same).1 notFeed
  · next same => exact absurd (List.cons.inj same).1 notComment
  · next same => exact absurd (List.cons.inj same).1 notJoin
  · next same => exact absurd (List.cons.inj same).1 notJoin
  · next same => rw [(List.cons.inj same).1]

theorem step_of_move (h : Move s t) : s.step = .ok () t := by
  cases h with
  | openLine start opened => rw [step, if_pos start, opened]
  | finish inside ended closed =>
    have atEnd : s.cursor.atEnd = true := by rw [Cursor.atEnd, ended]; rfl
    rw [step, if_neg (by rw [inside]; decide), if_pos atEnd, finish]
    split
    · next found =>
      rw [closed] at found
      cases found
    · rfl
  | endLine inside more ends =>
    rw [step_inside inside more]
    rcases ends with found | ⟨rest, found⟩
    · rw [found]
    · rw [found]
      rfl
  | comment inside more found =>
    rw [step_inside inside more, found]
    rfl
  | join inside more found =>
    rw [step_inside inside more, found]
    rfl
  | literal inside more starts read =>
    obtain ⟨c, same⟩ := readToken_of_starts inside more starts
    rw [← rest_unspaced] at read
    rw [same, readToken_literal read, take_ok]
  | punct inside more starts read found opened =>
    obtain ⟨c, same⟩ := readToken_of_starts inside more starts
    rw [← rest_unspaced] at read found
    rw [same, readToken_punct read, readPunct, found]
    simp only [opened]
    rfl

theorem step_eq_ok_iff : s.step = .ok () t ↔ Move s t := ⟨move_of_step, step_of_move⟩

/-! ### Answers -/

theorem finished_enterLine {u : Unit} (h : s.enterLine = .ok u t) : t.finished = s.finished := by
  simp only [enterLine] at h
  split at h <;> cases h
  rfl

theorem finished_openLine {u : Unit} (h : s.openLine = .ok u t) : t.finished = s.finished := by
  simp only [openLine] at h
  split at h
  · cases h
    rfl
  · exact (finished_enterLine h :)

theorem finished_endLine (s : Lexer) : s.endLine.finished = s.finished := by
  simp only [endLine]
  split <;> rfl

theorem Move.pending_of_finished (h : Move s t) (before : s.finished = false)
    (after : t.finished = true) : t.pending ≠ [] := by
  cases h with
  | openLine _ opened =>
    rw [finished_openLine opened, before] at after
    cases after
  | finish => simp [closed, queue]
  | endLine =>
    rw [finished_endLine] at after
    exact absurd (before.symm.trans after) (by decide)
  | comment =>
    rw [finished_endLine] at after
    exact absurd (before.symm.trans after) (by decide)
  | join => exact absurd (before.symm.trans after) (by decide)
  | literal => simp [passed, queue]
  | punct => simp [passed, queue]

theorem next_of_pending {token : Token} {later : List Token} (h : s.pending = token :: later) :
    s.next = .ok token { s with pending := later } := by
  unfold next
  rw [h]

theorem next_of_finished (h : s.pending = []) (finished : s.finished = true) :
    s.next = .ok s.endMarker s := by
  unfold next
  rw [h]
  exact if_pos finished

theorem next_eq_scan (h : s.pending = []) (unfinished : s.finished = false) : s.next = s.scan := by
  unfold next
  rw [h]
  exact if_neg (by rw [unfinished]; decide)

theorem next_of_move (h : s.pending = []) (unfinished : s.finished = false) (move : Move s t) :
    s.next = t.next := by
  rw [next_eq_scan h unfinished, scan.eq_def]
  split
  · next failed =>
    rw [step_of_move move] at failed
    cases failed
  · next moved =>
    rw [step_of_move move] at moved
    cases moved
    split
    · next none =>
      have still : t.finished = false := by
        cases finished : t.finished with
        | false => rfl
        | true => exact absurd none (move.pending_of_finished unfinished finished)
      rw [next_eq_scan none still]
    · next token later found => rw [next_of_pending found]

theorem next_of_error {e : LexError} (h : s.pending = []) (unfinished : s.finished = false)
    (step : s.step = .error e t) : s.next = .error e t := by
  rw [next_eq_scan h unfinished, scan.eq_def]
  split
  · next failed =>
    rw [step] at failed
    cases failed
    rfl
  · next moved =>
    rw [step] at moved
    cases moved

theorem pending_nil (h : s.pending = []) : ({ s with pending := [] } : Lexer) = s := by
  obtain ⟨_, _, _, _, _, _, _⟩ := s
  cases h
  rfl

theorem answers_queue (tokens : List Token) (h : s.pending = []) :
    (s.queue tokens).answers = s.answers.after tokens := by
  have all : ∀ tokens, ({ s with pending := tokens } : Lexer).answers = s.answers.after tokens := by
    intro tokens
    induction tokens with
    | nil => rw [pending_nil h]; rfl
    | cons token tokens ih =>
      have asked : ({ s with pending := token :: tokens } : Lexer).next =
          .ok token { s with pending := tokens } := rfl
      rw [answers_of_ok asked, ih]
      rfl
  rw [queue, h, List.nil_append]
  exact all tokens

theorem answers_of_move (h : s.pending = []) (unfinished : s.finished = false) (move : Move s t) :
    s.answers = t.answers := answers_congr (next_of_move h unfinished move)

/-- At the end of the source the open levels are closed, and the end marker comes. -/
theorem answers_of_ended (h : s.pending = []) (unfinished : s.finished = false)
    (inside : s.lineStart = false) (ended : s.cursor.lines = []) (closed : s.brackets = []) :
    s.answers = ({ s with levels := [], finished := true } : Lexer).answers.after
      ((s.levels.map fun _ : UInt64 => { s.endMarker with kind := .dedent }) ++ [s.endMarker]) := by
  rw [answers_of_move h unfinished (.finish inside ended closed)]
  exact answers_queue _ h

end Lexer

end Offside
