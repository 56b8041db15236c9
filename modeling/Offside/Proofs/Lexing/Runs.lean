import Offside.Proofs.Lexing.Turns

/-!
# Runs of the lexer

`Lexer.Run` is one turn after another. `tokenize_eq_ok_iff` says that the tokens of a source are
those of a run to its end, and the tokens that close it.
-/

namespace Offside

namespace Lexer

variable {s t : Lexer} {tokens : List Token}

/-- One turn after another, with the tokens that are handed out on the way. -/
inductive Run : Lexer → List Token → Lexer → Prop
  | refl (s : Lexer) : Run s [] s
  | step {s t u : Lexer} {tokens later : List Token} : Turn s tokens t → Run t later u →
      Run s (tokens ++ later) u

theorem Run.concat {u : Lexer} {more : List Token} (run : Run s tokens t) (turn : Turn t more u) :
    Run s (tokens ++ more) u := by
  induction run with
  | refl t =>
    rw [List.nil_append, ← List.append_nil more]
    exact .step turn (.refl u)
  | step first _ ih =>
    rw [List.append_assoc]
    exact .step first (ih turn)

theorem Run.steady (run : Run s tokens t) (steady : s.Steady) : t.Steady := by
  induction run with
  | refl => exact steady
  | step turn _ ih => exact ih (turn.steady steady)

theorem Run.allowance (run : Run s tokens t) (steady : s.Steady) :
    tokens.length + t.allowance ≤ s.allowance := by
  induction run with
  | refl => simp
  | step turn _ ih =>
    have first := turn.allowance steady
    have rest := ih (turn.steady steady)
    rw [List.length_append]
    omega

theorem Run.unended (run : Run s tokens t) : ∀ token ∈ tokens, token.kind ≠ .endMarker := by
  induction run with
  | refl => exact fun _ member => absurd member List.not_mem_nil
  | step turn _ ih =>
    intro token member
    rcases List.mem_append.mp member with member | member
    · exact turn.unended token member
    · exact ih token member

/-- A lexer comes to the end of its source, or to an error. -/
theorem exists_run (steady : s.Steady) :
    ∃ tokens t, Run s tokens t ∧ (t.Ended ∨ ∃ e u, t.step = .error e u) := by
  induction size : s.allowance using Nat.strong_induction_on generalizing s with
  | h n ih =>
    cases stepped : s.step with
    | error e u => exact ⟨[], s, .refl s, .inr ⟨e, u, stepped⟩⟩
    | ok _ u =>
      rcases turn_of_move (move_of_step stepped) steady with ⟨tokens, t, -, turn⟩ | ⟨ended, -⟩
      · have less := turn.allowance steady
        obtain ⟨later, v, run, ends⟩ := ih t.allowance (by omega) (turn.steady steady) rfl
        exact ⟨tokens ++ later, v, .step turn run, ends⟩
      · exact ⟨[], s, .refl s, .inl ended⟩

theorem Turn.answers (turn : Turn s tokens t) (steady : s.Steady) :
    s.answers = t.answers.after tokens := by
  rw [answers_of_move steady.idle steady.unfinished (move_of_turn turn),
    answers_queue tokens (turn.steady steady).idle]

theorem Run.answers (run : Run s tokens t) (steady : s.Steady) :
    s.answers = t.answers.after tokens := by
  induction run with
  | refl => rfl
  | step turn _ ih => rw [turn.answers steady, ih (turn.steady steady), Answers.after_append]

/-! ### The tokens of a source -/

theorem trace_congr (same : s.next = t.next) (limit : Nat) : s.trace limit = t.trace limit := by
  cases limit with
  | zero => rfl
  | succ limit => rw [trace, trace, same]

theorem trace_pending (later : List Token) (unended : ∀ token ∈ tokens, token.kind ≠ .endMarker)
    (limit : Nat) : ({ s with pending := tokens ++ later } : Lexer).trace (tokens.length + limit) =
      (tokens ++ (({ s with pending := later } : Lexer).trace limit).1,
        (({ s with pending := later } : Lexer).trace limit).2) := by
  induction tokens with
  | nil => rw [List.length_nil, Nat.zero_add]; rfl
  | cons token tokens ih =>
    have asked : ({ s with pending := token :: tokens ++ later } : Lexer).next =
        .ok token { s with pending := tokens ++ later } := rfl
    have unend : ¬token.kind = .endMarker := unended token List.mem_cons_self
    rw [List.length_cons, Nat.add_right_comm, trace, asked]
    simp only [if_neg unend, ih fun token member => unended token (List.mem_cons_of_mem _ member)]
    rfl

theorem Run.trace (run : Run s tokens t) (steady : s.Steady) (limit : Nat) :
    s.trace (tokens.length + limit) = (tokens ++ (t.trace limit).1, (t.trace limit).2) := by
  induction run with
  | refl => rw [List.length_nil, Nat.zero_add]; rfl
  | @step s t u tokens later turn run ih =>
    have steady' := turn.steady steady
    have moved := next_of_move steady.idle steady.unfinished (move_of_turn turn)
    have queued := trace_pending (s := t) [] turn.unended (later.length + limit)
    rw [List.append_nil, pending_nil steady'.idle, ih steady'] at queued
    rw [trace_congr moved, List.length_append, Nat.add_assoc, queue, steady'.idle, List.nil_append,
      queued, List.append_assoc]

theorem Ended.trace (ended : s.Ended) (steady : s.Steady) (limit : Nat) :
    s.trace (s.closing.length + limit) = (s.closing, none) := by
  have moved := next_of_move steady.idle steady.unfinished
    (.finish ended.inside ended.ended ended.closed)
  have unended : ∀ token ∈ s.dedents, token.kind ≠ .endMarker := by
    intro token member
    rw [(mem_dedents member).1]
    exact nofun
  have queued := trace_pending (s := { s with levels := [], finished := true }) [s.endMarker]
    unended (1 + limit)
  rw [trace_congr moved, Lexer.closed, queue, steady.idle, List.nil_append, closing, List.length_append,
    List.length_singleton, Nat.add_assoc, ← dedents, queued, Nat.add_comm 1]
  rfl

end Lexer

theorem Lexer.allowance_ofText (source : String) (tabSize : UInt64) :
    (Lexer.ofText source tabSize).allowance + 1 = (Lexer.ofText source tabSize).bound := by
  rw [Lexer.allowance, Cursor.onward_of_start (c := (Lexer.ofText source tabSize).cursor) rfl]
  rfl

/-- The error that a run comes to is that of the source. -/
theorem tokenize_of_failed {source : String} {tabSize : UInt64} {front : List Token} {t u : Lexer}
    {e : LexError} (run : Lexer.Run (.ofText source tabSize) front t)
    (failed : t.step = .error e u) : tokenize source tabSize = .error e := by
  have steady := Lexer.steady_ofText source tabSize
  have enough := Lexer.allowance_ofText source tabSize
  have few := run.allowance steady
  obtain ⟨spare, bound⟩ : ∃ spare, (Lexer.ofText source tabSize).bound =
      front.length + (spare + 1) :=
    ⟨(Lexer.ofText source tabSize).bound - front.length - 1, by omega⟩
  have steady' := run.steady steady
  simp only [tokenize, bound, run.trace steady, Lexer.trace,
    Lexer.next_of_error steady'.idle steady'.unfinished failed]

/-- The tokens of a source are those of a run to its end, and those that close it. -/
theorem tokenize_eq_ok_iff {source : String} {tabSize : UInt64} {tokens : List Token} :
    tokenize source tabSize = .ok tokens ↔ ∃ front t,
      Lexer.Run (.ofText source tabSize) front t ∧ t.Ended ∧ tokens = front ++ t.closing := by
  have steady := Lexer.steady_ofText source tabSize
  have enough := Lexer.allowance_ofText source tabSize
  have reached : ∀ {front t}, Lexer.Run (.ofText source tabSize) front t → t.Ended →
      tokenize source tabSize = .ok (front ++ t.closing) := by
    intro front t run ended
    have few := run.allowance steady
    have closing : t.closing.length = t.levels.length + 1 := by
      rw [Lexer.closing, List.length_append, Lexer.length_dedents, List.length_singleton]
    rw [Lexer.allowance] at few
    obtain ⟨spare, bound⟩ : ∃ spare, (Lexer.ofText source tabSize).bound =
        front.length + (t.closing.length + spare) :=
      ⟨(Lexer.ofText source tabSize).bound - front.length - t.closing.length, by omega⟩
    simp only [tokenize, bound, run.trace steady, ended.trace (run.steady steady)]
  constructor
  · intro done
    obtain ⟨front, t, run, ended | ⟨e, u, failed⟩⟩ := Lexer.exists_run steady
    · rw [reached run ended] at done
      cases done
      exact ⟨front, t, run, ended, rfl⟩
    · rw [tokenize_of_failed run failed] at done
      cases done
  · rintro ⟨front, t, run, ended, rfl⟩
    exact reached run ended

end Offside
