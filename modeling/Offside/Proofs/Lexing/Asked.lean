import Offside.Proofs.Lexing.Indented
import Offside.Proofs.Lexing.Unclosed

/-!
# A lexer that is asked again and again

A caller may go on after an error. `Lexer.Calls` counts the moves of one call, whose number is bounded
(`Lexer.calls_ask`), and `Lexer.Held` is what holds between two calls whatever the earlier ones
answered: `asked_consistent` for every source and every number of calls. For a source without an error the
calls go along a run (`Lexer.Run.told`).
-/

namespace Offside

namespace Lexer

open Token (Unclosed occurrences)

variable {s t : Lexer} {lines : List (List Char)} {before handed tokens : List Token} {e : LexError}

/-! ### Calls -/

/-- The lexer after so many answers. -/
def asked (s : Lexer) : Nat → Lexer
  | 0 => s
  | count + 1 => (s.asked count).ask.2

/-- The tokens among the first answers. -/
def told (s : Lexer) (count : Nat) : List Token := (s.answers.take count).filterMap Except.toOption

theorem answers_asked (s : Lexer) (count : Nat) : (s.asked count).answers = s.answers.drop count := by
  induction count with
  | zero => rfl
  | succ count ih =>
    have split := answers_eq (s.asked count)
    rw [ih] at split
    rw [asked, ← Stream'.tail_drop', split]
    rfl

theorem get_answers (s : Lexer) (count : Nat) : s.answers.get count = (s.asked count).ask.1 := by
  have head := congrArg Stream'.head (answers_asked s count)
  rw [answers_eq, Stream'.head_cons, Stream'.head_drop] at head
  exact head.symm

theorem told_succ (s : Lexer) (count : Nat) :
    s.told (count + 1) = s.told count ++ (s.asked count).ask.1.toOption.toList := by
  rw [told, Stream'.take_succ', List.filterMap_append, get_answers]
  cases found : (s.asked count).ask.1.toOption <;> simp [told, found]

theorem asked_add (s : Lexer) (first second : Nat) :
    s.asked (first + second) = (s.asked first).asked second := by
  induction second with
  | zero => rfl
  | succ second ih => rw [← Nat.add_assoc, asked, asked, ih]

/-- How many moves one call makes, what it answers, and the lexer after it. -/
inductive Calls : Lexer → Nat → Except LexError Token → Lexer → Prop
  | ready {s : Lexer} {token : Token} {later : List Token} : s.pending = token :: later →
      Calls s 0 (.ok token) { s with pending := later }
  | finished {s : Lexer} : s.pending = [] → s.finished = true → Calls s 0 (.ok s.endMarker) s
  | failed {s t : Lexer} {e : LexError} : s.pending = [] → s.finished = false →
      s.step = .error e t → Calls s 1 (.error e) t
  | moved {s t u : Lexer} {count : Nat} {answer : Except LexError Token} : s.pending = [] →
      s.finished = false → s.step = .ok () t → Calls t count answer u → Calls s (count + 1) answer u

/-- A call comes to an end after at most two moves for each line that is left, and two more. -/
theorem calls_ask (s : Lexer) : ∃ count ≤ s.measure + 1, s.Calls count s.ask.1 s.ask.2 := by
  induction size : s.measure using Nat.strong_induction_on generalizing s with
  | h n ih =>
    unfold Lexer.ask at ih ⊢
    cases pending : s.pending with
    | cons token later =>
      rw [next_of_pending pending]
      exact ⟨0, Nat.zero_le _, .ready pending⟩
    | nil =>
      cases finished : s.finished with
      | true =>
        rw [next_of_finished pending finished]
        exact ⟨0, Nat.zero_le _, .finished pending finished⟩
      | false =>
        cases stepped : s.step with
        | error e t =>
          rw [next_of_error pending finished stepped]
          exact ⟨1, Nat.le_add_left 1 n, .failed pending finished stepped⟩
        | ok _ t =>
          rw [next_of_move pending finished (move_of_step stepped)]
          cases ready : t.pending with
          | cons token later =>
            rw [next_of_pending ready]
            exact ⟨1, Nat.le_add_left 1 n, .moved pending finished stepped (.ready ready)⟩
          | nil =>
            have less := measure_step stepped ready
            obtain ⟨count, few, calls⟩ := ih t.measure (by omega) t rfl
            exact ⟨count + 1, by omega, .moved pending finished stepped calls⟩

/-! ### Between two calls -/

/-- The lexer without what is ready. -/
def emptied (s : Lexer) : Lexer := { s with pending := [], finished := false }

/-- What holds between two calls, with the tokens told so far. -/
structure Held (lines : List (List Char)) (before : List Token) (s : Lexer) : Prop where
  steady : s.emptied.Steady
  shaped : s.Shaped (before ++ s.pending)
  unclosed : Unclosed (before ++ s.pending) s.brackets
  here : AtRow lines s.cursor
  start : s.cursor.lines = [] → s.cursor.column = 0
  finished : s.finished = true → s.lineStart = false

theorem held_ofText (source : String) (tabSize : UInt64) :
    (ofText source tabSize).Held (Source.lines source) [] :=
  ⟨steady_ofText source tabSize, shaped_ofText source tabSize, .closed .nil, ⟨rfl, Nat.zero_le _⟩,
    fun _ => rfl, nofun⟩

theorem emptied_eq (pending : s.pending = []) (unfinished : s.finished = false) : s.emptied = s := by
  cases s
  cases pending
  cases unfinished
  rfl

/-- Where nothing is ready, what holds between two calls holds between two moves. -/
theorem Held.idle (held : s.Held lines before) (pending : s.pending = [])
    (unfinished : s.finished = false) : s.Steady ∧ s.Shaped before ∧ Unclosed before s.brackets := by
  have steady := held.steady
  have shaped := held.shaped
  have unclosed := held.unclosed
  rw [emptied_eq pending unfinished] at steady
  rw [pending, List.append_nil] at shaped unclosed
  exact ⟨steady, shaped, unclosed⟩

theorem held_queue (steady : t.Steady) (shaped : t.Shaped (before ++ tokens))
    (unclosed : Unclosed (before ++ tokens) t.brackets) (here : AtRow lines t.cursor)
    (start : t.cursor.lines = [] → t.cursor.column = 0) : (t.queue tokens).Held lines before := by
  have ready : (t.queue tokens).pending = tokens := by
    show t.pending ++ tokens = tokens
    rw [steady.idle]
    rfl
  have emptied : (t.queue tokens).emptied = t := emptied_eq (s := t) steady.idle steady.unfinished
  refine ⟨by rwa [emptied], ?_, by rwa [ready], here, start, fun finished => ?_⟩
  · rw [ready]
    exact ⟨shaped.fits, shaped.opened, shaped.levels, shaped.start⟩
  · exact absurd (steady.unfinished.symm.trans finished) nofun

theorem Turn.held (turn : Turn s tokens t) (held : s.Held lines before) (pending : s.pending = [])
    (unfinished : s.finished = false) : (t.queue tokens).Held lines before := by
  obtain ⟨steady, shaped, unclosed⟩ := held.idle pending unfinished
  refine held_queue (turn.steady steady) (turn.shaped steady shaped) (turn.unclosed unclosed)
    (turn.atRow held.here) ?_
  cases turn with
  | blank | newline | fold | join => exact fun _ => rfl
  | enter _ more | token _ more => exact fun ended => absurd ended more

theorem Failure.held (failure : Failure s e handed t) (held : s.Held lines before)
    (pending : s.pending = []) (unfinished : s.finished = false) :
    (t.queue handed).Held lines before := by
  obtain ⟨steady, shaped, unclosed⟩ := held.idle pending unfinished
  have here : AtRow lines t.cursor ∧ (t.cursor.lines = [] → t.cursor.column = 0) := by
    cases failure with
    | misfit _ more =>
      exact ⟨⟨held.here.skipped.left, held.here.skipped.le⟩, fun ended => absurd ended more⟩
    | unclosed => exact ⟨held.here, held.start⟩
    | backslash _ more | literal _ more | unknown _ more | bracket _ more =>
      exact ⟨⟨held.here.left, held.here.le⟩, fun ended => absurd ended more⟩
  refine held_queue (failure.steady steady) (failure.shaped steady shaped) ?_ here.1 here.2
  cases failure with
  | misfit => exact unclosed.silent s.skipped.silent_settled
  | unclosed | backslash | literal | unknown | bracket =>
    rw [List.append_nil]
    exact unclosed

theorem Ended.held (ended : s.Ended) (held : s.Held lines before) (pending : s.pending = [])
    (unfinished : s.finished = false) : s.closed.Held lines before := by
  obtain ⟨steady, shaped, unclosed⟩ := held.idle pending unfinished
  have ready : s.closed.pending = s.closing := by
    rw [Lexer.closed, queue, pending]
    rfl
  have closing := ended.shaped shaped
  refine ⟨⟨rfl, rfl, steady.start, steady.whole, steady.within, List.pairwise_singleton _ _⟩, ?_, ?_,
    held.here, held.start, fun _ => ended.inside⟩
  · rw [ready]
    exact ⟨closing.fits, closing.opened, closing.levels, closing.start⟩
  · rw [ready]
    refine unclosed.silent fun token member => ?_
    rcases (mem_closing member).1 with kind | kind
    · rw [kind]
      rfl
    · rw [kind]
      rfl

theorem Held.moved (held : s.Held lines before) (pending : s.pending = [])
    (unfinished : s.finished = false) (moved : s.step = .ok () t) : t.Held lines before := by
  have steady := (held.idle pending unfinished).1
  rcases turn_of_move (move_of_step moved) steady with ⟨tokens, u, rfl, turn⟩ | ⟨ended, rfl⟩
  · exact turn.held held pending unfinished
  · exact ended.held held pending unfinished

theorem Held.failed (held : s.Held lines before) (pending : s.pending = [])
    (unfinished : s.finished = false) (failed : s.step = .error e t) : t.Held lines before := by
  obtain ⟨handed, u, rfl, failure⟩ := failure_of_step failed
  exact failure.held held pending unfinished

/-- The end marker may be told again. -/
theorem Held.marked (held : s.Held lines before) (pending : s.pending = [])
    (finished : s.finished = true) : s.Held lines (before ++ [s.endMarker]) := by
  have shaped := held.shaped
  have unclosed := held.unclosed
  have inside := held.finished finished
  rw [pending, List.append_nil] at shaped unclosed
  refine ⟨held.steady, ?_, ?_, held.here, held.start, held.finished⟩
  · rw [pending, List.append_nil]
    exact shaped.concat ⟨nofun, nofun, nofun⟩ ⟨nofun, nofun⟩ (shaped.opened.append .nil) rfl
      fun start => absurd (inside.symm.trans start) nofun
  · rw [pending, List.append_nil]
    exact unclosed.concat rfl

theorem Calls.held {count : Nat} {answer : Except LexError Token} (calls : s.Calls count answer t)
    (held : s.Held lines before) : t.Held lines (before ++ answer.toOption.toList) := by
  induction calls with
  | ready pending =>
    have shaped := held.shaped
    have unclosed := held.unclosed
    rw [pending, List.append_cons] at shaped unclosed
    exact ⟨held.steady, ⟨shaped.fits, shaped.opened, shaped.levels, shaped.start⟩, unclosed, held.here,
      held.start, held.finished⟩
  | finished pending finished => exact held.marked pending finished
  | failed pending unfinished failed =>
    have after := held.failed pending unfinished failed
    rwa [← List.append_nil before] at after
  | moved pending unfinished moved _ ih => exact ih (held.moved pending unfinished moved)

theorem held_asked (source : String) (tabSize : UInt64) (count : Nat) :
    ((ofText source tabSize).asked count).Held (Source.lines source)
      ((ofText source tabSize).told count) := by
  induction count with
  | zero => exact held_ofText source tabSize
  | succ count ih =>
    obtain ⟨_, -, calls⟩ := ((ofText source tabSize).asked count).calls_ask
    rw [told_succ]
    exact calls.held ih

/-! ### Asked on a run -/

theorem asked_succ_congr (same : s.next = t.next) (count : Nat) :
    s.asked (count + 1) = t.asked (count + 1) := by
  have ask : s.ask = t.ask := by rw [Lexer.ask, Lexer.ask, same]
  rw [Nat.add_comm, asked_add, asked_add]
  show s.ask.2.asked count = t.ask.2.asked count
  rw [ask]

theorem asked_pending (s : Lexer) (first later : List Token) :
    ({ s with pending := first ++ later } : Lexer).asked first.length = { s with pending := later } := by
  induction first with
  | nil => rfl
  | cons token first ih =>
    rw [List.length_cons, Nat.add_comm, asked_add]
    exact ih

theorem Turn.asked_add (turn : Turn s tokens t) (steady : s.Steady) (count : Nat) :
    s.asked (tokens.length + count + 1) = t.asked (count + 1) := by
  have steady' := turn.steady steady
  rw [asked_succ_congr (next_of_move steady.idle steady.unfinished (move_of_turn turn)),
    Nat.add_assoc, Lexer.asked_add, queue, steady'.idle, List.nil_append]
  have passed := asked_pending t tokens []
  rw [List.append_nil, pending_nil steady'.idle] at passed
  rw [passed]

theorem asked_of_finished (finished : s.finished = true) (count : Nat) :
    s.asked count = { s with pending := s.pending.drop count } := by
  induction count with
  | zero => rfl
  | succ count ih =>
    rw [asked, ih, Lexer.ask]
    cases left : s.pending.drop count with
    | nil =>
      have next : ({ s with pending := [] } : Lexer).next = _ := next_of_finished rfl finished
      rw [next, ← List.drop_drop, left]
      rfl
    | cons token later =>
      have next : ({ s with pending := token :: later } : Lexer).next = _ := next_of_pending rfl
      rw [next, ← List.drop_drop, left]
      rfl

/-- Behind the last turn there are only the tokens that close the source, and no bracket is open. -/
theorem Ended.told (ended : s.Ended) (steady : s.Steady) {token : Token} {k : Nat}
    (told : s.answers.get k = .ok token) :
    token.kind ≠ .newline ∧ (s.asked (k + 1)).brackets = [] := by
  have moved := next_of_move steady.idle steady.unfinished
    (.finish ended.inside ended.ended ended.closed)
  constructor
  · rw [answers_congr moved, get_answers, asked_of_finished rfl, Lexer.ask] at told
    cases left : s.closed.pending.drop k with
    | nil =>
      rw [left, next_of_finished rfl rfl] at told
      cases told
      exact (by decide : Token.Kind.endMarker ≠ .newline)
    | cons first later =>
      rw [left, next_of_pending rfl] at told
      cases told
      have member : token ∈ s.closing := by
        have member : token ∈ s.closed.pending :=
          List.mem_of_mem_drop (left ▸ List.mem_cons_self)
        rwa [Lexer.closed, queue, steady.idle, List.nil_append] at member
      rcases (mem_closing member).1 with kind | kind
      · rw [kind]
        decide
      · rw [kind]
        decide
  · rw [asked_succ_congr moved, asked_of_finished rfl]
    exact ended.closed

/-- A NEWLINE, or a token behind which a bracket is open, is told on a turn before the end. -/
theorem Run.told {front : List Token} {token : Token} {k : Nat} (run : Run s front t)
    (steady : s.Steady) (ended : t.Ended) (told : s.answers.get k = .ok token)
    (early : token.kind = .newline ∨ (s.asked (k + 1)).brackets ≠ []) :
    ∃ before r first last u, Run s before r ∧ Turn r (first ++ token :: last) u ∧
      s.asked (k + 1) = { u with pending := last } := by
  induction run generalizing k with
  | refl =>
    obtain ⟨other, closed⟩ := ended.told steady told
    exact (early.elim other (absurd closed)).elim
  | @step s v t tokens later turn run ih =>
    rw [turn.answers steady] at told
    by_cases here : k < tokens.length
    · rw [Answers.get_after_lt here] at told
      cases told
      have split : tokens = (tokens.take k ++ [tokens[k]]) ++ tokens.drop (k + 1) := by simp
      have length : (tokens.take k ++ [tokens[k]]).length = k + 1 := by
        rw [List.length_append, List.length_take_of_le here.le, List.length_singleton]
      refine ⟨[], s, tokens.take k, tokens.drop (k + 1), v, .refl s, ?_, ?_⟩
      · rwa [List.append_cons, ← split]
      · have passed := asked_pending v (tokens.take k ++ [tokens[k]]) (tokens.drop (k + 1))
        rw [← split, length] at passed
        rw [asked_succ_congr (next_of_move steady.idle steady.unfinished (move_of_turn turn)), queue,
          (turn.steady steady).idle, List.nil_append, passed]
    · obtain ⟨j, rfl⟩ := Nat.exists_eq_add_of_le (Nat.le_of_not_lt here)
      rw [Answers.get_after_add] at told
      rw [turn.asked_add steady] at early ⊢
      obtain ⟨before, r, first, last, u, run', turn', asked⟩ := ih (turn.steady steady) ended told early
      exact ⟨tokens ++ before, r, first, last, u, .step turn run', turn', asked⟩

theorem Turn.of_newline {token : Token} (turn : Turn s tokens t) (member : token ∈ tokens)
    (kind : token.kind = .newline) : s.lineStart = false ∧ s.cursor.lines ≠ [] ∧ EndsLine s.ahead ∧
      s.brackets = [] ∧ t.cursor = s.cursor.nextLine := by
  cases turn with
  | blank | fold | join => cases member
  | enter =>
    rcases (Indentation.mem_settle member).1 with same | same
    · cases kind.symm.trans same
    · cases kind.symm.trans same
  | newline inside more ends closed => exact ⟨inside, more, ends, closed, rfl⟩
  | token _ _ _ read =>
    cases List.mem_singleton.mp member
    obtain ⟨_, _, _, _, lexeme⟩ := lexeme_of_read read
    cases kind
    obtain literal | ⟨mark, same⟩ := lexeme.spelled
    · cases literal
    · cases same

theorem Turn.inside_of_opened {token : Token} (turn : Turn s tokens t) (steady : s.Steady)
    (member : token ∈ tokens) (opened : t.brackets ≠ []) : t.lineStart = false := by
  cases turn with
  | blank | fold | join => cases member
  | enter start => exact absurd (steady.start start).1 opened
  | newline _ _ _ closed => exact absurd closed opened
  | token inside => exact inside

/-! ### Between the source and the tokens -/

/-- How a lexer goes with the lines of its source and the tokens it has made. -/
structure Consistent (lines : List (List Char)) (tokens : List Token) (s : Lexer) : Prop where
  /-- The widths of the levels from the outermost on, which is that of no level. -/
  increasing : (0 :: s.levels.reverse).Pairwise (· < ·)
  levels : occurrences .dedent tokens + s.levels.length = occurrences .indent tokens
  /-- The open brackets are those that the tokens leave open. -/
  unclosed : ∀ brackets, Unclosed tokens brackets ↔ brackets = s.brackets
  start : s.lineStart = true → s.brackets = []
  left : s.cursor.lines = lines.drop s.cursor.row
  /-- The cursor is past the last line, or on a character. -/
  cursor : s.cursor.row = lines.length ∧ s.cursor.column = 0 ∨
    ∃ line, lines[s.cursor.row]? = some line ∧ s.cursor.column < line.length

theorem Held.consistent (held : s.Held lines before) : s.Consistent lines (before ++ s.pending) := by
  refine ⟨?_, held.shaped.levels, fun brackets => ⟨fun unclosed => unclosed.unique held.unclosed, ?_⟩,
    fun start => (held.steady.start start).1, held.here.left, ?_⟩
  · have ascending : (s.levels ++ [0]).Pairwise (· > ·) := held.steady.ascending
    rw [← List.pairwise_reverse, List.reverse_concat] at ascending
    exact ascending
  · rintro rfl
    exact held.unclosed
  · cases split : s.cursor.lines with
    | nil =>
      have none := held.here.left
      rw [split] at none
      have all := Nat.le_antisymm held.here.le (List.drop_eq_nil_iff.mp none.symm)
      exact .inl ⟨all, held.start split⟩
    | cons line later =>
      refine .inr ⟨line, held.here.head split, ?_⟩
      by_contra beyond
      have more : s.cursor.lines ≠ [] := by
        rw [split]
        exact nofun
      have none : s.cursor.rest = [] := by
        rw [Cursor.rest, split, List.headD_cons]
        exact List.drop_eq_nil_of_le (Nat.le_of_not_lt beyond)
      exact held.steady.within more none

end Lexer

/-- Whatever the first calls answered, the lexer goes with the tokens it has told and those that are
ready. -/
theorem asked_consistent (source : String) (tabSize : UInt64) (count : Nat) :
    ((Lexer.ofText source tabSize).asked count).Consistent (Source.lines source)
      ((Lexer.ofText source tabSize).told count ++
        ((Lexer.ofText source tabSize).asked count).pending) :=
  (Lexer.held_asked source tabSize count).consistent

end Offside
