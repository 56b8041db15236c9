import Offside.Proofs.Lexing.Asked

/-!
# The lexer settles

A call that does not lower `Lexer.remaining` leaves a lexer at rest: it answers the same from then on
(`Lexer.Calls.less_or_rests`). So whoever goes on asking after errors comes to one last answer, the end
marker or an error: `lexer_settles`.
-/

namespace Offside

namespace Lexer

variable {s t : Lexer} {lines : List (List Char)} {before : List Token} {count : Nat}
  {answer : Except LexError Token}

/-- A call gives the answer, and leaves the lexer as it is. -/
inductive AtRest (s : Lexer) : Except LexError Token → Prop
  | finished : s.pending = [] → s.finished = true → AtRest s (.ok s.endMarker)
  | failing {e : LexError} : s.pending = [] → s.finished = false → s.step = .error e s →
      AtRest s (.error e)

theorem AtRest.ask (rests : s.AtRest answer) : s.ask = (answer, s) := by
  unfold Lexer.ask
  cases rests with
  | finished pending finished => rw [next_of_finished pending finished]
  | failing pending unfinished failed => rw [next_of_error pending unfinished failed]

theorem AtRest.last (rests : s.AtRest answer) :
    (∃ token, answer = .ok token ∧ token.kind = .endMarker) ∨ ∃ e, answer = .error e := by
  cases rests with
  | finished => exact .inl ⟨s.endMarker, rfl, rfl⟩
  | failing => exact .inr ⟨_, rfl⟩

theorem AtRest.asked (rests : s.AtRest answer) (count : Nat) : s.asked count = s := by
  induction count with
  | zero => rfl
  | succ count ih => rw [Lexer.asked, ih, rests.ask]

/-- No fewer than the answers to come before the lexer is at rest. -/
def remaining (s : Lexer) : Nat := s.allowance + s.pending.length + if s.finished then 0 else 2

theorem remaining_queue (steady : t.Steady) (tokens : List Token) :
    (t.queue tokens).remaining = tokens.length + t.allowance + 2 := by
  show t.allowance + (t.pending ++ tokens).length + (if t.finished then 0 else 2) = _
  rw [steady.idle, steady.unfinished, List.nil_append, Nat.add_comm t.allowance]
  rfl

theorem remaining_steady (steady : s.Steady) : s.remaining = s.allowance + 2 := by
  have same := remaining_queue steady []
  rwa [queue_nil, List.length_nil, Nat.zero_add] at same

/-- At the end of its source a lexer is finished, which makes up for the end marker. -/
theorem Ended.remaining_closed (ended : s.Ended) (steady : s.Steady) :
    s.closed.remaining < s.remaining := by
  have length : s.closed.pending.length = s.levels.length + 1 := by
    rw [Lexer.closed, queue, steady.idle]
    simp
  have allowed : s.closed.allowance = 0 := by
    have none : s.closed.cursor.onward = [] := onward_of_ended (s := s.closed) ended.ended
    have inside : s.closed.lineStart = false := ended.inside
    rw [allowance, none, inside]
    rfl
  have done : s.closed.finished = true := rfl
  rw [remaining_steady steady, Lexer.remaining, length, allowed, done, allowance]
  simp only [if_true]
  omega

theorem Held.remaining_moved (held : s.Held lines before) (pending : s.pending = [])
    (unfinished : s.finished = false) (moved : s.step = .ok () t) : t.remaining < s.remaining := by
  have steady := (held.idle pending unfinished).1
  rcases turn_of_move (move_of_step moved) steady with ⟨tokens, u, rfl, turn⟩ | ⟨ended, rfl⟩
  · have less := turn.allowance steady
    rw [remaining_queue (turn.steady steady), remaining_steady steady]
    omega
  · exact ended.remaining_closed steady

theorem Held.less_or_rests (held : s.Held lines before) (pending : s.pending = [])
    (unfinished : s.finished = false) {e : LexError} (failed : s.step = .error e t) :
    t.remaining < s.remaining ∨ t.AtRest (.error e) := by
  have steady := (held.idle pending unfinished).1
  obtain ⟨handed, u, rfl, failure⟩ := failure_of_step failed
  have steady' := failure.steady steady
  rcases failure.less_or_again steady failed with less | ⟨rfl, again⟩
  · left
    rw [remaining_queue steady', remaining_steady steady]
    omega
  · right
    rw [queue_nil]
    exact .failing steady'.idle steady'.unfinished again

theorem Calls.less_or_rests (calls : s.Calls count answer t) (held : s.Held lines before) :
    t.remaining < s.remaining ∨ t.AtRest answer := by
  induction calls with
  | @ready s token later pending =>
    left
    have length := congrArg List.length pending
    rw [List.length_cons] at length
    show s.allowance + later.length + (if s.finished then 0 else 2) < _
    rw [remaining]
    omega
  | finished pending finished => exact .inr (.finished pending finished)
  | failed pending unfinished failed => exact held.less_or_rests pending unfinished failed
  | moved pending unfinished moved _ ih =>
    have less := held.remaining_moved pending unfinished moved
    exact (ih (held.moved pending unfinished moved)).imp_left (Nat.lt_trans · less)

/-- After a bounded number of calls the last answer comes again and again. -/
theorem Held.settles (held : s.Held lines before) : ∃ n ≤ s.remaining, ∃ answer,
    (s.asked n).ask.1 = answer ∧ (s.asked (n + 1)).AtRest answer := by
  induction size : s.remaining using Nat.strong_induction_on generalizing s before with
  | h bound ih =>
    obtain ⟨_, -, calls⟩ := s.calls_ask
    rcases calls.less_or_rests held with less | rests
    · obtain ⟨n, few, answer, found, rests⟩ := ih _ (by omega) (calls.held held) rfl
      have later : ∀ n, s.asked (1 + n) = s.ask.2.asked n := s.asked_add 1
      refine ⟨1 + n, by omega, answer, ?_, ?_⟩
      · rw [later]
        exact found
      · rw [Nat.add_assoc, later]
        exact rests
    · exact ⟨0, Nat.zero_le _, _, rfl, rests⟩

end Lexer

/-- Every call comes to an end, whatever the earlier ones answered, and from some call on all give the
same answer: the end marker, or one error. -/
theorem lexer_settles (source : String) (tabSize : UInt64) :
    (∀ n, ∃ moves ≤ 2 * (Source.lines source).length + 2,
      ((Lexer.ofText source tabSize).asked n).Calls moves
        ((Lexer.ofText source tabSize).answers.get n)
        ((Lexer.ofText source tabSize).asked (n + 1))) ∧
    ∃ n ≤ (Lexer.ofText source tabSize).bound + 1, ∃ answer,
      (∀ m, n ≤ m → (Lexer.ofText source tabSize).answers.get m = answer) ∧
      ((∃ token, answer = .ok token ∧ token.kind = .endMarker) ∨ ∃ e, answer = .error e) := by
  constructor
  · intro n
    have held := Lexer.held_asked source tabSize n
    generalize found : (Lexer.ofText source tabSize).asked n = s at held
    obtain ⟨moves, few, calls⟩ := s.calls_ask
    rw [Lexer.get_answers, Lexer.asked, found]
    refine ⟨moves, Nat.le_trans few ?_, calls⟩
    have left : s.cursor.lines.length ≤ (Source.lines source).length := by
      rw [held.here.left, List.length_drop]
      omega
    rw [Lexer.measure]
    split <;> omega
  · obtain ⟨n, few, answer, found, rests⟩ := (Lexer.held_ofText source tabSize).settles
    refine ⟨n, Nat.le_trans few (Nat.le_of_eq ?_), answer, fun m le => ?_, rests.last⟩
    · rw [← Lexer.allowance_ofText]
      exact Lexer.remaining_steady (Lexer.steady_ofText source tabSize)
    · rw [Lexer.get_answers]
      rcases Nat.eq_or_lt_of_le le with rfl | lt
      · exact found
      · obtain ⟨k, rfl⟩ := Nat.exists_eq_add_of_le lt
        rw [Lexer.asked_add, rests.asked, rests.ask]

end Offside
