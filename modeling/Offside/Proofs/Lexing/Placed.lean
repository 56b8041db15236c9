import Mathlib.Data.List.TakeWhile
import Offside.Proofs.Lexing.Readings

/-!
# A text in another place

`Lexer.placed` puts what is left of a text further below, with other lines after it. A move inside
the text is the same there (`Lexer.Move.placed`), and so are the tokens, on lower lines
(`Lexer.answers_placed`).
-/

namespace Offside

def Position.below (pos : Position) (n : Nat) : Position := { pos with line := pos.line + n }

def Token.below (token : Token) (n : Nat) : Token := { token with pos := token.pos.below n }

def OpenBracket.below (opened : OpenBracket) (n : Nat) : OpenBracket :=
  { opened with line := opened.line + n }

theorem Position.coordinate_add {row n : Nat} (fits : row + n < limit) :
    coordinate (row + n) = coordinate row + n := by
  unfold coordinate
  omega

namespace Cursor

variable {c : Cursor} {n : Nat} {later : List (List Char)}

def placed (c : Cursor) (n : Nat) (later : List (List Char)) : Cursor :=
  { c with lines := c.lines ++ later, row := c.row + n }

/-- The number of lines, those that were passed included. -/
def total (c : Cursor) : Nat := c.row + c.lines.length

theorem position_placed (fits : c.total + n < Position.limit) :
    (c.placed n later).position = c.position.below n := by
  unfold total at fits
  rw [position, placed, Position.coordinate_add (by omega)]
  rfl

theorem rest_placed (more : c.lines ≠ [] ∨ later = []) : (c.placed n later).rest = c.rest := by
  unfold rest placed
  cases lines : c.lines with
  | nil =>
    rcases more with more | rfl
    · exact absurd lines more
    · rfl
  | cons line lines => rfl

theorem skipLines_placed {count : Nat} (le : count ≤ c.lines.length) :
    (c.placed n later).skipLines count = (c.skipLines count).placed n later := by
  unfold skipLines placed
  rw [List.drop_append_of_le_length le, Nat.add_right_comm]

theorem total_skipLines {count : Nat} (le : count ≤ c.lines.length) :
    (c.skipLines count).total = c.total := by
  show c.row + count + (c.lines.drop count).length = c.row + c.lines.length
  rw [List.length_drop]
  omega

end Cursor

namespace Indentation

theorem settle_below (levels : List UInt64) (width : UInt64) (pos : Position) (n : Nat) :
    settle levels width (pos.below n) =
      { settle levels width pos with tokens := (settle levels width pos).tokens.map (·.below n) } := by
  unfold settle
  dsimp only
  split
  · rfl
  · rw [List.map_map]
    rfl

end Indentation

namespace Lexer

variable {s t : Lexer} {n : Nat} {later : List (List Char)}

def placed (s : Lexer) (n : Nat) (later : List (List Char)) : Lexer :=
  { s with
    cursor := s.cursor.placed n later
    brackets := s.brackets.map (·.below n)
    pending := s.pending.map (·.below n) }

/-- The next move stays in the text, whatever comes after it. -/
def Inside (s : Lexer) (later : List (List Char)) : Prop :=
  later = [] ∨ (s.lineStart = true → ∃ line ∈ s.cursor.lines, ¬Indentation.isEmptyLine line) ∧
    (s.lineStart = false → s.cursor.lines ≠ [])

theorem queue_placed (tokens : List Token) :
    (s.queue tokens).placed n later = (s.placed n later).queue (tokens.map (·.below n)) := by
  simp only [queue, placed, List.map_append]

theorem skip_placed (more : s.cursor.lines ≠ [] ∨ later = []) (p : Char → Bool) :
    (s.placed n later).skip p = (s.skip p).placed n later := by
  unfold skip
  rw [show (s.placed n later).cursor = s.cursor.placed n later from rfl, Cursor.rest_placed more]
  rfl

theorem unspaced_placed (more : s.cursor.lines ≠ [] ∨ later = []) :
    (s.placed n later).unspaced = s.unspaced.placed n later := skip_placed more Indentation.isSpace

theorem ahead_placed (more : s.cursor.lines ≠ [] ∨ later = []) :
    (s.placed n later).ahead = s.ahead := by
  unfold ahead
  rw [show (s.placed n later).cursor = s.cursor.placed n later from rfl, Cursor.rest_placed more]

theorem endMarker_placed (fits : s.cursor.total + n < Position.limit) :
    (s.placed n later).endMarker = s.endMarker.below n := by
  unfold Cursor.total at fits
  unfold endMarker
  rw [show (s.placed n later).cursor.row = s.cursor.row + n from rfl,
    Position.coordinate_add (by omega)]
  rfl

theorem closed_placed (fits : s.cursor.total + n < Position.limit) :
    (s.placed n later).closed = s.closed.placed n later := by
  unfold closed
  rw [queue_placed, endMarker_placed fits, List.map_append, List.map_map]
  rfl

theorem endLine_placed (fits : s.cursor.total + n < Position.limit) (more : s.cursor.lines ≠ []) :
    (s.placed n later).endLine = s.endLine.placed n later := by
  have next : (s.cursor.placed n later).nextLine = s.cursor.nextLine.placed n later :=
    Cursor.skipLines_placed (List.length_pos_iff.mpr more)
  have closed : (s.placed n later).brackets.isEmpty = s.brackets.isEmpty := List.isEmpty_map
  simp only [endLine, closed]
  split
  · simp only [queue, placed, next, Cursor.position_placed fits, List.map_append]
    rfl
  · simp only [placed, next]

theorem settled_placed (fits : s.cursor.total + n < Position.limit)
    (more : s.cursor.lines ≠ [] ∨ later = []) : (s.placed n later).settled =
      { s.settled with tokens := s.settled.tokens.map (·.below n) } := by
  have rest : (s.placed n later).cursor.rest = s.cursor.rest := Cursor.rest_placed more
  have place : (s.unspaced.cursor.placed n later).position = s.unspaced.cursor.position.below n :=
    Cursor.position_placed fits
  unfold settled
  rw [rest, unspaced, skip_placed more, ← Indentation.settle_below, ← unspaced, ← place]
  rfl

theorem entered_placed (fits : s.cursor.total + n < Position.limit)
    (more : s.cursor.lines ≠ [] ∨ later = []) :
    (s.placed n later).entered = s.entered.placed n later := by
  unfold entered
  rw [settled_placed fits more, queue_placed, unspaced, skip_placed more]
  rfl

theorem enterLine_placed (fits : s.cursor.total + n < Position.limit)
    (more : s.cursor.lines ≠ [] ∨ later = []) (entered : s.enterLine = .ok () t) :
    (s.placed n later).enterLine = .ok () (t.placed n later) := by
  rw [enterLine_eq_ok_iff] at entered ⊢
  rw [settled_placed fits more, entered_placed fits more]
  exact ⟨entered.1, congrArg (placed · n later) entered.2⟩

theorem length_takeWhile_lt {p : α → Bool} {xs : List α} (some : ∃ x ∈ xs, ¬p x) :
    (xs.takeWhile p).length < xs.length := by
  obtain ⟨x, member, fails⟩ := some
  have before := List.takeWhile_prefix (l := xs) p
  rcases Nat.lt_or_eq_of_le before.length_le with lt | eq
  · exact lt
  · rw [← before.eq_of_length eq] at member
    exact absurd (List.mem_takeWhile_imp member) fails

theorem skipped_more (some : ∃ line ∈ s.cursor.lines, ¬Indentation.isEmptyLine line) :
    s.skipped.cursor.lines ≠ [] := by
  intro ended
  exact absurd (List.drop_eq_nil_iff.mp ended) (length_takeWhile_lt some).not_ge

theorem skipped_placed (start : s.lineStart = true) (inside : s.Inside later) :
    (s.placed n later).skipped = s.skipped.placed n later ∧
      (s.skipped.cursor.lines ≠ [] ∨ later = []) := by
  have blank : (s.placed n later).cursor.lines.takeWhile Indentation.isEmptyLine =
      s.cursor.lines.takeWhile Indentation.isEmptyLine := by
    show (s.cursor.lines ++ later).takeWhile _ = _
    rcases inside with rfl | ⟨some, -⟩
    · rw [List.append_nil]
    · rw [List.takeWhile_append, if_neg (Nat.ne_of_lt (length_takeWhile_lt (some start)))]
  have le := (List.takeWhile_prefix (l := s.cursor.lines) Indentation.isEmptyLine).length_le
  constructor
  · unfold skipped
    rw [blank, show (s.placed n later).cursor = s.cursor.placed n later from rfl,
      Cursor.skipLines_placed le]
    rfl
  · rcases inside with none | ⟨some, -⟩
    · exact .inr none
    · exact .inl (skipped_more (some start))

theorem openLine_placed (fits : s.cursor.total + n < Position.limit) (start : s.lineStart = true)
    (inside : s.Inside later) (opened : s.openLine = .ok () t) :
    (s.placed n later).openLine = .ok () (t.placed n later) := by
  obtain ⟨same, more⟩ := skipped_placed start inside
  have le := (List.takeWhile_prefix (l := s.cursor.lines) Indentation.isEmptyLine).length_le
  have fits : s.skipped.cursor.total + n < Position.limit := by
    rw [skipped, Cursor.total_skipLines le]
    exact fits
  rw [openLine_eq_ok_iff] at opened ⊢
  rw [same]
  rcases opened with ⟨ended, rfl⟩ | ⟨more', entered⟩
  · rcases more with more | rfl
    · exact absurd ended more
    · exact .inl ⟨by rw [show (s.skipped.placed n []).cursor.lines = _ ++ [] from rfl, ended]; rfl, rfl⟩
  · refine .inr ⟨?_, enterLine_placed fits more entered⟩
    exact fun ended => more' (List.append_eq_nil_iff.mp ended).1

theorem bracket_placed {mark : Punct} {brackets : List OpenBracket}
    (fits : s.cursor.total + n < Position.limit) (opened : s.bracket mark = .ok brackets) :
    (s.placed n later).bracket mark = .ok (brackets.map (·.below n)) := by
  have place : (s.placed n later).cursor.position = s.cursor.position.below n :=
    Cursor.position_placed fits
  unfold bracket at opened ⊢
  cases opens : mark.opens? with
  | some opening =>
    simp only [opens] at opened ⊢
    cases opened
    rw [place]
    rfl
  | none =>
    cases closes : mark.closes? with
    | none =>
      simp only [opens, closes] at opened ⊢
      cases opened
      rfl
    | some found =>
      simp only [opens, closes] at opened ⊢
      split at opened
      · next matching =>
        cases opened
        have head : ((s.placed n later).brackets.head?.map (·.bracket)) =
            s.brackets.head?.map (·.bracket) := by
          show ((s.brackets.map (·.below n)).head?.map _) = _
          cases s.brackets <;> rfl
        rw [head, if_pos matching]
        exact congrArg Except.ok List.map_tail.symm
      · cases opened

theorem passed_placed (fits : s.cursor.total + n < Position.limit)
    (more : s.cursor.lines ≠ [] ∨ later = []) (taken : Nat) (kind : Token.Kind) :
    (s.placed n later).passed taken kind = (s.passed taken kind).placed n later := by
  have place : (s.placed n later).cursor.position = s.cursor.position.below n :=
    Cursor.position_placed fits
  have rest : (s.placed n later).cursor.rest = s.cursor.rest := Cursor.rest_placed more
  unfold passed
  rw [queue_placed, place, rest]
  rfl

/-- A move inside the text is the same wherever it stands. -/
theorem Move.placed (move : Move s t) (fits : s.cursor.total + n < Position.limit)
    (inside : s.Inside later) : Move (s.placed n later) (t.placed n later) := by
  have lines (more : s.cursor.lines ≠ []) : (s.placed n later).cursor.lines ≠ [] :=
    fun ended => more (List.append_eq_nil_iff.mp ended).1
  have unspaced (more : s.cursor.lines ≠ []) :
      (s.placed n later).unspaced = s.unspaced.placed n later := unspaced_placed (.inl more)
  have ahead (more : s.cursor.lines ≠ []) : (s.placed n later).ahead = s.ahead :=
    ahead_placed (.inl more)
  cases move with
  | openLine start opened => exact .openLine start (openLine_placed fits start inside opened)
  | finish start ended closed =>
    rcases inside with rfl | ⟨-, more⟩
    · have empty : (s.placed n []).cursor.lines = [] := (List.append_nil _).trans ended
      rw [← closed_placed fits]
      exact .finish start empty (by rw [Lexer.placed, closed, List.map_nil])
    · exact absurd ended (more start)
  | endLine start more ends =>
    rw [← endLine_placed (s := s.unspaced) fits more, ← unspaced more]
    exact .endLine start (lines more) (ahead more ▸ ends)
  | comment start more found =>
    rw [← endLine_placed (s := s.unspaced.skip _) fits more,
      ← skip_placed (s := s.unspaced) (.inl more), ← unspaced more]
    exact .comment start (lines more) ((ahead more).trans found)
  | join start more found =>
    have next : (s.cursor.placed n later).nextLine = s.cursor.nextLine.placed n later :=
      Cursor.skipLines_placed (List.length_pos_iff.mpr more)
    have moved := Move.join (s := s.placed n later) start (lines more) ((ahead more).trans found)
    rw [show (s.placed n later).cursor = s.cursor.placed n later from rfl, next] at moved
    exact moved
  | literal start more starts read =>
    rw [← ahead more] at starts read
    rw [← passed_placed (s := s.unspaced) fits (.inl more), ← unspaced more]
    exact .literal start (lines more) starts (literal?_some_moved _ read)
  | @punct mark brackets start more starts read found opened =>
    rw [← ahead more] at starts read found
    have bracketed : Lexer.placed { s.unspaced with brackets } n later =
        { (s.placed n later).unspaced with brackets := brackets.map (·.below n) } := by
      rw [unspaced more]
      rfl
    rw [← passed_placed (s := { s.unspaced with brackets }) fits (.inl more), bracketed]
    refine .punct start (lines more) starts (literal?_none_moved _ read) found ?_
    rw [unspaced more]
    exact bracket_placed (s := s.unspaced) fits opened

/-! ### Answers -/

theorem total_enterLine (entered : s.enterLine = .ok () t) : t.cursor.total = s.cursor.total := by
  obtain ⟨-, rfl⟩ := enterLine_eq_ok_iff.mp entered
  rfl

theorem total_endLine (more : s.cursor.lines ≠ []) : s.endLine.cursor.total = s.cursor.total := by
  have next : s.endLine.cursor = s.cursor.nextLine := by
    simp only [endLine]
    split <;> rfl
  rw [next]
  exact Cursor.total_skipLines (List.length_pos_iff.mpr more)

theorem Move.total (move : Move s t) : t.cursor.total = s.cursor.total := by
  cases move with
  | openLine start opened =>
    have le := (List.takeWhile_prefix (l := s.cursor.lines) Indentation.isEmptyLine).length_le
    have skipped : s.skipped.cursor.total = s.cursor.total := Cursor.total_skipLines le
    rcases openLine_eq_ok_iff.mp opened with ⟨-, rfl⟩ | ⟨-, entered⟩
    · exact skipped
    · exact (total_enterLine entered).trans skipped
  | finish => rfl
  | endLine _ more => exact total_endLine (s := s.unspaced) more
  | comment _ more => exact total_endLine (s := s.unspaced.skip _) more
  | join _ more => exact Cursor.total_skipLines (List.length_pos_iff.mpr more)
  | literal => rfl
  | punct => rfl

theorem next_placed {token : Token} (fits : s.cursor.total + n < Position.limit)
    (asked : s.next = .ok token t) : (s.placed n []).next = .ok (token.below n) (t.placed n []) ∧
      t.cursor.total = s.cursor.total := by
  have ready : ∀ {s : Lexer}, s.pending ≠ [] → s.next = .ok token t →
      (s.placed n []).next = .ok (token.below n) (t.placed n []) ∧
        t.cursor.total = s.cursor.total := by
    intro s some asked
    cases pending : s.pending with
    | nil => exact absurd pending some
    | cons first later =>
      rw [next_of_pending pending] at asked
      cases asked
      have pending' : (s.placed n []).pending = token.below n :: later.map (·.below n) := by
        show s.pending.map _ = _
        rw [pending, List.map_cons]
      refine ⟨?_, rfl⟩
      rw [next_of_pending pending']
      rfl
  -- A move that makes no token ready leaves less to move over.
  induction size : s.measure using Nat.strong_induction_on generalizing s with
  | h size ih =>
    by_cases idle : s.pending = []
    · have idle' : (s.placed n []).pending = [] := by
        show s.pending.map _ = []
        rw [idle, List.map_nil]
      cases finished : s.finished with
      | true =>
        rw [next_of_finished idle finished] at asked
        cases asked
        exact ⟨by rw [next_of_finished idle' finished, endMarker_placed fits], rfl⟩
      | false =>
        cases stepped : s.step with
        | error e u =>
          rw [next_of_error idle finished stepped] at asked
          cases asked
        | ok _ u =>
          have move := move_of_step stepped
          rw [next_of_move idle finished move] at asked
          rw [next_of_move idle' finished (move.placed fits (.inl rfl)), ← move.total]
          rw [← move.total] at fits
          by_cases still : u.pending = []
          · exact ih _ (size ▸ measure_step stepped still) fits asked rfl
          · exact ready still asked
    · exact ready idle asked

/-- As long as there are tokens, they are the same wherever the text stands. -/
theorem answers_placed {i : Nat} {token : Token} (fits : s.cursor.total + n < Position.limit)
    (before : ∀ j < i, ∃ token, s.answers.get j = .ok token) (found : s.answers.get i = .ok token) :
    (s.placed n []).answers.get i = .ok (token.below n) := by
  induction i generalizing s with
  | zero =>
    cases asked : s.next with
    | error e t =>
      rw [answers_of_error asked] at found
      cases found
    | ok first t =>
      rw [answers_of_ok asked] at found
      rw [answers_of_ok (next_placed fits asked).1]
      cases found
      rfl
  | succ i ih =>
    cases asked : s.next with
    | error e t =>
      obtain ⟨first, found⟩ := before 0 (Nat.succ_pos i)
      rw [answers_of_error asked] at found
      cases found
    | ok first t =>
      obtain ⟨asked', total⟩ := next_placed fits asked
      rw [answers_of_ok asked] at found
      rw [answers_of_ok asked']
      refine ih (total ▸ fits) ?_ found
      intro j lt
      have earlier := before (j + 1) (Nat.succ_lt_succ lt)
      rw [answers_of_ok asked] at earlier
      exact earlier

end Lexer

end Offside
