import Offside.Proofs.Lexing.Course

/-!
# Where one text ends and another starts

A lexer in a text comes to the empty lines at its end, whatever comes after them, unless it meets an
error before: `Lexer.leads`. From there on it closes its levels and goes on as at the start of what
comes after, on lower lines: `Lexer.answers_of_blank`.
-/

namespace Offside

theorem Token.map_below_zero (tokens : List Token) : tokens.map (·.below 0) = tokens :=
  List.map_id tokens

namespace Indentation

variable {levels : List UInt64} {width : UInt64} {pos : Position}

theorem settle_of_flat (positive : ∀ level ∈ levels, 0 < level) (flat : ¬0 < width) :
    settle levels width pos =
      { levels := [], tokens := levels.map fun _ => { kind := .dedent, pos } } := by
  have zero : width = 0 := UInt64.le_zero_iff.mp (UInt64.not_lt.mp flat)
  subst zero
  have wider : (levels.takeWhile fun level => decide (0 < level)) = levels :=
    List.takeWhile_eq_self_iff.mpr fun level member => decide_eq_true (positive level member)
  have left : (levels.dropWhile fun level => decide (0 < level)) = [] :=
    List.dropWhile_eq_nil_iff.mpr fun level member => decide_eq_true (positive level member)
  unfold settle
  dsimp only
  rw [if_neg UInt64.not_lt_zero, wider, left]
  rfl

theorem settle_wider (wider : levels.headD 0 < width) : settle levels width pos =
    { levels := width :: levels, tokens := [{ kind := .indent, pos }] } := if_pos wider

theorem flat_of_settle (outside : (settle [] width pos).levels = []) : ¬0 < width := by
  intro wider
  rw [settle_wider wider] at outside
  cases outside

end Indentation

namespace Lexer

variable {s t u : Lexer} {tokens later : List Token}

/-- At the start of a text. -/
def ofLines (lines : List (List Char)) (tabSize : UInt64) : Lexer := { cursor := { lines }, tabSize }

theorem placed_zero (s : Lexer) : s.placed 0 [] = s := by
  have brackets : s.brackets.map (·.below 0) = s.brackets := List.map_id _
  have pending : s.pending.map (·.below 0) = s.pending := List.map_id _
  unfold placed Cursor.placed
  rw [brackets, pending, List.append_nil]
  rfl

/-- Whatever comes after its text, the lexer hands out these tokens and then stands at `t`. -/
structure Leads (s : Lexer) (tokens : List Token) (t : Lexer) : Prop where
  answers : ∀ below, (s.placed 0 below).answers = (t.placed 0 below).answers.after tokens
  weight : tokens.length + t.weight ≤ s.weight
  unended : ∀ token ∈ tokens, token.kind ≠ .endMarker
  newline : t.lineStart = true → tokens = [] ∧ s.lineStart = true ∨
    ∃ front newline, tokens = front ++ [newline] ∧ newline.kind = .newline
  total : t.cursor.total = s.cursor.total
  tabSize : t.tabSize = s.tabSize

theorem Leads.refl (s : Lexer) : s.Leads [] s :=
  ⟨fun _ => rfl, by simp, nofun, fun start => .inl ⟨rfl, start⟩, rfl, rfl⟩

theorem Leads.trans (first : s.Leads tokens t) (second : t.Leads later u) :
    s.Leads (tokens ++ later) u := by
  refine ⟨fun below => ?_, ?_, ?_, fun start => ?_, second.total.trans first.total,
    second.tabSize.trans first.tabSize⟩
  · rw [first.answers, second.answers, Answers.after_append]
  · have := first.weight
    have := second.weight
    rw [List.length_append]
    omega
  · intro token member
    rcases List.mem_append.mp member with member | member
    · exact first.unended token member
    · exact second.unended token member
  · rcases second.newline start with ⟨rfl, start⟩ | ⟨front, newline, rfl, kind⟩
    · rw [List.append_nil]
      exact first.newline start
    · exact .inr ⟨tokens ++ front, newline, (List.append_assoc ..).symm, kind⟩

theorem tabSize_endLine (s : Lexer) : s.endLine.tabSize = s.tabSize := by
  simp only [endLine]
  split <;> rfl

theorem Move.tabSize (move : Move s t) : t.tabSize = s.tabSize := by
  cases move with
  | openLine _ opened =>
    rcases openLine_eq_ok_iff.mp opened with ⟨-, rfl⟩ | ⟨-, entered⟩
    · rfl
    · obtain ⟨-, rfl⟩ := enterLine_eq_ok_iff.mp entered
      rfl
  | endLine => exact tabSize_endLine s.unspaced
  | comment => exact tabSize_endLine (s.unspaced.skip _)
  | _ => rfl

theorem Move.inside (move : Move s t) (underway : s.Underway) (unblank : ¬s.Blank)
    (below : List (List Char)) : s.Inside below := by
  refine .inr ⟨filled_of_not_blank unblank, ?_⟩
  · intro inside
    cases move with
    | openLine start => exact absurd (inside.symm.trans start) nofun
    | finish _ ended closed => exact (underway.inside inside).resolve_right fun h => h closed
    | endLine _ more | comment _ more | join _ more | literal _ more | punct _ more => exact more

theorem Move.leads (move : Move s (t.queue tokens)) (underway : s.Underway) (unblank : ¬s.Blank)
    (advances : s.Advances tokens t) (fits : s.cursor.total < Position.limit) :
    s.Leads tokens t := by
  refine ⟨fun below => ?_, Nat.le_of_lt advances.weight, advances.unended,
    fun start => .inr ?_, move.total, move.tabSize⟩
  · have idle : (s.placed 0 below).pending = [] := congrArg (List.map _) underway.idle
    have idle' : (t.placed 0 below).pending = [] := congrArg (List.map _) advances.underway.idle
    rw [answers_of_move idle underway.unfinished
      (move.placed fits (move.inside underway unblank below)), queue_placed,
      answers_queue _ idle', Token.map_below_zero]
  · obtain ⟨newline, rfl, kind⟩ := advances.newline start
    exact ⟨[], newline, rfl, kind⟩

/-- The lexer comes to the empty lines at the end of its text, or to an error. -/
theorem leads (underway : s.Underway) (fits : s.cursor.total < Position.limit) :
    ∃ tokens t, s.Leads tokens t ∧ t.Underway ∧ (t.Blank ∨ ∃ e u, t.step = .error e u) := by
  induction size : s.weight using Nat.strong_induction_on generalizing s with
  | h n ih =>
    by_cases blank : s.Blank
    · exact ⟨[], s, .refl s, underway, .inl blank⟩
    · cases stepped : s.step with
      | error e u => exact ⟨[], s, .refl s, underway, .inr ⟨e, u, stepped⟩⟩
      | ok _ t =>
        have move := move_of_step stepped
        obtain ⟨tokens, u, rfl, advances⟩ := move.course underway blank
        have first := move.leads underway blank advances fits
        have less : u.weight < n := by
          have := advances.weight
          omega
        obtain ⟨later, v, second, underway', ends⟩ :=
          ih _ less advances.underway (first.total ▸ fits) rfl
        exact ⟨tokens ++ later, v, first.trans second, underway', ends⟩

/-- Over the empty lines the lexer goes on to the first line of what comes after them. -/
theorem skipped_of_blank {lines : List (List Char)} (underway : s.Underway) (blank : s.Blank) :
    (s.placed 0 lines).skipped =
      { (ofLines lines s.tabSize).skipped.placed s.cursor.total [] with levels := s.levels } := by
  obtain ⟨closed, -⟩ := underway.start blank.1
  have passed : ((s.placed 0 lines).cursor.lines.takeWhile Indentation.isEmptyLine).length =
      s.cursor.lines.length + (lines.takeWhile Indentation.isEmptyLine).length := by
    show ((s.cursor.lines ++ lines).takeWhile _).length = _
    rw [List.takeWhile_append_of_pos blank.2, List.length_append]
  have cursor : (s.placed 0 lines).skipped.cursor =
      ((ofLines lines s.tabSize).skipped.placed s.cursor.total []).cursor := by
    unfold skipped
    rw [passed]
    show Cursor.mk ((s.cursor.lines ++ lines).drop _) (s.cursor.row + 0 + _) 0 =
      Cursor.mk (lines.drop _ ++ []) (0 + _ + (s.cursor.row + s.cursor.lines.length)) 0
    rw [List.drop_length_add_append, List.append_nil]
    refine congrArg (Cursor.mk _ · 0) ?_
    show _ = 0 + (lines.takeWhile _).length + _
    omega
  have brackets : s.brackets.map (·.below 0) = [] := by rw [closed, List.map_nil]
  have pending : s.pending.map (·.below 0) = [] := by rw [underway.idle, List.map_nil]
  have fields : (s.placed 0 lines).skipped =
      { cursor := (s.placed 0 lines).skipped.cursor
        tabSize := s.tabSize
        levels := s.levels
        brackets := s.brackets.map (·.below 0)
        lineStart := false
        pending := s.pending.map (·.below 0)
        finished := s.finished } := rfl
  rw [fields, cursor, brackets, pending, underway.unfinished]
  rfl

theorem answers_of_levels (levels : List UInt64) (inside : s.lineStart = false)
    (idle : s.pending = []) (unfinished : s.finished = false) (outside : s.levels = [])
    (closed : s.brackets = []) (ended : s.cursor.lines = []) :
    ∃ dedents, ({ s with levels } : Lexer).answers = s.answers.after dedents ∧
      dedents.length = levels.length ∧ ∀ token ∈ dedents, token.kind = .dedent := by
  refine ⟨levels.map fun _ => { s.endMarker with kind := .dedent }, ?_, List.length_map _, ?_⟩
  · rw [answers_of_ended (s := { s with levels }) idle unfinished inside ended closed,
      answers_of_ended idle unfinished inside ended closed, outside, Answers.after_append]
    rfl
  · intro token member
    obtain ⟨_, -, rfl⟩ := List.mem_map.mp member
    rfl

theorem answers_of_flat {levels : List UInt64} (idle : s.pending = [])
    (outside : s.levels = []) (entered : s.enterLine = .ok () t) (flat : t.levels = [])
    (positive : ∀ level ∈ levels, 0 < level) :
    ∃ dedents u, ({ s with levels } : Lexer).enterLine = .ok () u ∧
      u.answers = t.answers.after dedents ∧
      dedents.length = levels.length ∧ ∀ token ∈ dedents, token.kind = .dedent := by
  obtain ⟨-, rfl⟩ := enterLine_eq_ok_iff.mp entered
  have flat : ¬0 < Indentation.width s.tabSize (s.cursor.rest.takeWhile Indentation.isSpace) := by
    have left : (Indentation.settle s.levels _ _).levels = [] := flat
    rw [outside] at left
    exact Indentation.flat_of_settle left
  let left : Lexer := { s.unspaced with levels := [] }
  let dedents := levels.map fun _ : UInt64 => { kind := .dedent, pos := left.cursor.position : Token }
  have first : s.entered = left := by
    have settled : s.settled = { levels := [], tokens := [] } := by
      rw [Lexer.settled, outside]
      exact Indentation.settle_of_flat nofun flat
    rw [Lexer.entered, settled]
    show left.queue [] = left
    rw [queue, List.append_nil]
  have settled : ({ s with levels } : Lexer).settled = { levels := [], tokens := dedents } :=
    Indentation.settle_of_flat positive flat
  have second : ({ s with levels } : Lexer).entered = left.queue dedents := by
    rw [Lexer.entered, settled]
    rfl
  refine ⟨dedents, left.queue dedents, enterLine_eq_ok_iff.mpr ⟨by rw [settled], second.symm⟩, ?_,
    List.length_map _, ?_⟩
  · rw [first]
    exact answers_queue _ idle
  · intro token member
    obtain ⟨_, -, rfl⟩ := List.mem_map.mp member
    rfl

/-- The text that starts after the empty lines closes the levels that are open. -/
theorem answers_of_blank {lines : List (List Char)} {q : Lexer} (underway : s.Underway)
    (blank : s.Blank) (opened : (ofLines lines s.tabSize).openLine = .ok () q)
    (outside : q.levels = []) (fits : s.cursor.total + lines.length < Position.limit) :
    ∃ dedents, (s.placed 0 lines).answers = (q.placed s.cursor.total []).answers.after dedents ∧
      dedents.length = s.levels.length ∧ ∀ token ∈ dedents, token.kind = .dedent := by
  have idle : (s.placed 0 lines).pending = [] := congrArg (List.map _) underway.idle
  have skipped : (s.placed 0 lines).skipped = _ := skipped_of_blank underway blank
  let first := (ofLines lines s.tabSize).skipped
  have le := (List.takeWhile_prefix (l := lines) Indentation.isEmptyLine).length_le
  have fits : first.cursor.total + s.cursor.total < Position.limit := by
    have total : first.cursor.total = 0 + lines.length := Cursor.total_skipLines le
    omega
  rcases openLine_eq_ok_iff.mp opened with ⟨ended, rfl⟩ | ⟨more, entered⟩
  -- Nothing but empty lines comes after, so that the end of the source closes the levels.
  · have ended' : (first.placed s.cursor.total []).cursor.lines = [] :=
      (List.append_nil _).trans ended
    obtain ⟨dedents, same, length, kinds⟩ := answers_of_levels (s := first.placed s.cursor.total [])
      s.levels rfl rfl rfl rfl rfl ended'
    refine ⟨dedents, ?_, length, kinds⟩
    have opened' : (s.placed 0 lines).openLine = .ok () (s.placed 0 lines).skipped :=
      openLine_eq_ok_iff.mpr (.inl ⟨by rw [skipped]; exact ended', rfl⟩)
    rw [answers_of_move idle underway.unfinished (.openLine blank.1 opened'), skipped]
    exact same
  -- Otherwise the first line after the empty ones does, since it has no indent.
  · have entered' : (first.placed s.cursor.total []).enterLine =
        .ok () (q.placed s.cursor.total []) := enterLine_placed fits (.inl more) entered
    obtain ⟨dedents, t, entered, same, length, kinds⟩ :=
      answers_of_flat (s := first.placed s.cursor.total []) rfl rfl entered' outside
        underway.positive
    refine ⟨dedents, ?_, length, kinds⟩
    have more' : (first.placed s.cursor.total []).cursor.lines ≠ [] :=
      fun ended => more ((List.append_nil _).symm.trans ended)
    have opened' : (s.placed 0 lines).openLine = .ok () t :=
      openLine_eq_ok_iff.mpr (.inr ⟨by rw [skipped]; exact more', by rw [skipped]; exact entered⟩)
    rw [answers_of_move idle underway.unfinished (.openLine blank.1 opened')]
    exact same

theorem openLine_ofLines {lines : List (List Char)} {tabSize : UInt64} {token : Token}
    (found : (ofLines lines tabSize).answers.get 0 = .ok token) (flat : token.kind ≠ .indent) :
    ∃ q, (ofLines lines tabSize).openLine = .ok () q ∧ q.levels = [] ∧
      q.answers = (ofLines lines tabSize).answers := by
  cases opened : (ofLines lines tabSize).openLine with
  | error e t =>
    have step : (ofLines lines tabSize).step = .error e t := opened
    rw [answers_of_error (next_of_error rfl rfl step)] at found
    cases found
  | ok _ q =>
    have same := answers_of_move (s := ofLines lines tabSize) rfl rfl (.openLine rfl opened)
    refine ⟨q, rfl, ?_, same.symm⟩
    rcases openLine_eq_ok_iff.mp opened with ⟨-, rfl⟩ | ⟨-, entered⟩
    · rfl
    · obtain ⟨-, rfl⟩ := enterLine_eq_ok_iff.mp entered
      let first := (ofLines lines tabSize).skipped
      by_cases wider :
          0 < Indentation.width tabSize (first.cursor.rest.takeWhile Indentation.isSpace)
      · have settled : first.settled = { levels := [_], tokens := [_] } :=
          Indentation.settle_wider wider
        rw [same, Lexer.entered, settled, answers_queue _ rfl] at found
        cases found
        exact absurd rfl flat
      · have settled : first.settled = { levels := [], tokens := [] } :=
          Indentation.settle_of_flat nofun wider
        show first.settled.levels = []
        rw [settled]

end Lexer

end Offside
