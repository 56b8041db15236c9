import Offside.Proofs.Parsing.Termination

/-!
# The number of open blocks

A parser counts the blocks that are open. A call that succeeds closes what it opened
(`Prolongs.keeps_depth`), one that fails may leave the count raised. Nothing depends on the count: only
`statements` asks for it, at a dedent, and fails there alike if a block is open and if none is
(`statements_succ`). So two parsers that differ in nothing else answer all calls alike
(`parser_depth_inert`).
-/

namespace Offside

theorem Stream.peek_again {s t : Stream} {ahead : Nat} {token : Token}
    (peeked : s.peek ahead = .ok token t) : t.peek ahead = .ok token t := by
  unfold peek at peeked
  split at peeked
  · cases peeked
  · next read =>
    cases peeked
    have full : ahead + 1 - t.buffer.length = 0 := by
      have := (read_ok read).2
      omega
    rw [peek, full]
    rfl

namespace ParseM

variable {α β : Type} {m m' : ParseM α} {p p' q : Parser}

theorem peek_again {ahead : Nat} {token : Token} (peeked : peek ahead p = .ok token q) :
    peek ahead q = .ok token q :=
  Parser.onStream_of_ok (Stream.peek_again (Parser.onStream_ok peeked).1)

/-! ### What a caller sees -/

/-- The answer of a run, and the stream that it leaves. -/
def seen (m : ParseM α) (p : Parser) : Except SourceError α × Stream :=
  match m p with
  | .ok a q => (.ok a, q.stream)
  | .error e q => (.error e, q.stream)

theorem seen_of_ok {a : α} (run : m p = .ok a q) : seen m p = (.ok a, q.stream) := by rw [seen, run]

theorem seen_of_error {e : SourceError} (run : m p = .error e q) : seen m p = (.error e, q.stream) := by
  rw [seen, run]

theorem ok_of_seen {a : α} {s : Stream} (sees : seen m p = (.ok a, s)) :
    ∃ q, m p = .ok a q ∧ q.stream = s := by
  unfold seen at sees
  split at sees
  · next run =>
    cases sees
    exact ⟨_, run, rfl⟩
  · cases sees

theorem error_of_seen {e : SourceError} {s : Stream} (sees : seen m p = (.error e, s)) :
    ∃ q, m p = .error e q ∧ q.stream = s := by
  unfold seen at sees
  split at sees
  · cases sees
  · next run =>
    cases sees
    exact ⟨_, run, rfl⟩

theorem seen_snd (m : ParseM α) (p : Parser) : (seen m p).2 = (leaves (m p)).stream := by
  unfold seen
  cases m p <;> rfl

/-- What is seen of a run comes of the stream alone. -/
def Blind (m : ParseM α) : Prop := ∀ p p' : Parser, p'.stream = p.stream → seen m p' = seen m p

namespace Blind

theorem pure (a : α) : Blind (pure a) := fun _ _ same => congrArg (Prod.mk _) same

theorem throw (e : SourceError) : Blind (throw e : ParseM α) := fun _ _ same =>
  congrArg (Prod.mk _) same

theorem onStream (move : Stream → Stream.Outcome α) : Blind (onStream move) := by
  intro p p' same
  simp only [seen, ParseM.onStream, same]
  cases move p.stream <;> rfl

theorem resize (change : Nat → Nat) :
    Blind (modify fun p => { p with depth := change p.depth }) := fun _ _ same =>
  congrArg (Prod.mk _) same

theorem bind {f : α → ParseM β} (first : Blind m) (second : ∀ a, Blind (f a)) : Blind (m >>= f) := by
  intro p p' same
  have alike := first p p' same
  cases run : m p with
  | ok a q =>
    obtain ⟨q', run', same'⟩ := ok_of_seen (alike.trans (seen_of_ok run))
    rw [seen, seen, bind_of_ok run, bind_of_ok run']
    exact second a q q' same'
  | error e q =>
    obtain ⟨q', run', same'⟩ := error_of_seen (alike.trans (seen_of_error run))
    rw [seen_of_error (bind_of_error run), seen_of_error (bind_of_error run'), same']

theorem indented {f : α → β} (inner : Blind m) : Blind (indented m f) :=
  (resize (· + 1)).bind fun _ => inner.bind fun _ => (resize (· - 1)).bind fun _ => pure _

end Blind

/-- What does not look whether a block is open does not depend on how many are. -/
theorem Prolongs.blind (prolongs : Prolongs False m m') : Blind m := by
  induction prolongs with
  | exhausted => exact .throw _
  | pure a => exact .pure a
  | fail e => exact .throw _
  | peek ahead => exact .onStream _
  | advance => exact .onStream _
  | bind _ _ ih ih' => exact ih.bind ih'
  | indented f _ ih => exact ih.indented
  | enclosed _ looks => exact looks.elim

/-! ### A dedent that closes no block -/

theorem statement_dedent (steps : Nat) {token : Token} (peeked : peek 0 p = .ok token q)
    (dedent : token.kind = .dedent) :
    statement (steps + 1) p = .error (.parse (.unexpectedDedent token.pos.line)) q := by
  rw [statement, bind_of_ok peeked, dedent]
  rfl

/-- The check for an open block makes no difference: a statement fails at a dedent too, and with the
same error. -/
theorem statements_succ (steps more : Nat) : statements (steps + 1) (more + 1) = do
    let token ← peek
    if token.kind = .endMarker then return []
    else
      let nodes ← statement (steps + 1)
      let rest ← statements (steps + 1) more
      return nodes ++ rest := by
  funext p
  rw [statements]
  cases peeked : peek 0 p with
  | error e q => rw [bind_of_error peeked, bind_of_error peeked]
  | ok token q =>
    rw [bind_of_ok peeked, bind_of_ok peeked]
    cases kind : token.kind with
    | dedent =>
      -- A statement looks at the next token again, which is the same one.
      have failed := statement_dedent steps (peek_again peeked) kind
      rw [if_neg (by decide), bind_of_error failed]
      exact (enclosed_eq _ _ q).trans (ite_eq_left_iff.mpr fun _ => bind_of_error failed)
    | endMarker => rw [if_pos rfl]
    | _ => rw [if_neg (by simp)]

theorem prolongs_statements_blind {looks : Prop} (steps more : Nat) :
    Prolongs looks (statements (steps + 1) more) (statements (steps + 1) more) := by
  induction more with
  | zero => exact .exhausted _
  | succ more ih =>
    rw [statements_succ]
    exact .bind (.peek 0) fun _ => .ite (.pure _)
      (.bind (prolongs_statement (Nat.le_refl _)) fun _ => .bind ih fun _ => .pure _)

theorem budgeted_keeps_depth {program : Nat → ParseM α} {a : α}
    (moves : ∀ steps, Prolongs True (program steps) (program steps))
    (run : budgeted program p = .ok a q) : q.depth = p.depth := (moves p.budget).keeps_depth run

theorem Blind.budgeted {program : Nat → ParseM α} (each : ∀ steps ≠ 0, Blind (program steps)) :
    Blind (budgeted program) := by
  intro p p' same
  have budget : p'.budget = p.budget := by rw [Parser.budget, Parser.budget, same]
  have sees := each p.budget (by unfold Parser.budget; omega) p p' same
  rw [seen, seen] at sees ⊢
  rw [ParseM.budgeted, ParseM.budgeted, budget]
  exact sees

end ParseM

namespace Parser

/-- What may be asked of a parser. -/
inductive Call where
  | program
  | statement
  | expression
  deriving DecidableEq

/-- A call, with its tree or its trees. -/
def Call.run : Call → ParseM (List Node)
  | .program => do return [← Parser.program]
  | .statement => Parser.statement
  | .expression => do return [← Parser.expression]

/-- What is seen of calls made one after another, whatever they answer. -/
def results (p : Parser) : List Call → List (Except SourceError (List Node) × Stream)
  | [] => []
  | call :: calls => call.run.seen p :: (leaves (call.run p)).results calls

variable {p p' q : Parser} {nodes : List Node}

theorem Call.keeps_depth (call : Call) (run : call.run p = .ok nodes q) : q.depth = p.depth := by
  have single : ∀ {m : ParseM Node}, (do return [← m] : ParseM (List Node)) p = .ok nodes q →
      ∃ node, m p = .ok node q := by
    intro m run
    obtain ⟨node, r, parsed, made⟩ := bind_ok run
    obtain ⟨-, rfl⟩ := pure_ok made
    exact ⟨node, parsed⟩
  have le := fun steps => Nat.le_refl steps
  cases call with
  | program =>
    obtain ⟨node, parsed⟩ := single run
    rw [program_eq] at parsed
    exact ParseM.budgeted_keeps_depth (fun steps => prolongs_program (le steps)) parsed
  | statement =>
    exact ParseM.budgeted_keeps_depth (fun steps => ParseM.prolongs_statement (le steps)) run
  | expression =>
    obtain ⟨node, parsed⟩ := single run
    exact ParseM.budgeted_keeps_depth (fun steps => ParseM.prolongs_expressionAt (le steps) .or) parsed

theorem Call.blind (call : Call) : call.run.Blind := by
  have le := fun steps => Nat.le_refl steps
  cases call with
  | program =>
    -- Without any step a statement would fail otherwise than the check, but a budget is never zero.
    refine .bind (.bind (.budgeted fun steps positive => ?_) fun _ => .pure _) fun _ => .pure _
    obtain ⟨steps, rfl⟩ := Nat.exists_eq_add_one_of_ne_zero positive
    exact (ParseM.prolongs_statements_blind steps (steps + 1)).blind
  | statement => exact .budgeted fun steps _ => (ParseM.prolongs_statement (le steps)).blind
  | expression =>
    exact .bind (.budgeted fun steps _ => (ParseM.prolongs_expressionAt (le steps) .or).blind)
      fun _ => .pure _

theorem results_congr (same : p'.stream = p.stream) (calls : List Call) :
    p'.results calls = p.results calls := by
  induction calls generalizing p p' with
  | nil => rfl
  | cons call calls ih =>
    have sees := call.blind p p' same
    have left := congrArg Prod.snd sees
    rw [ParseM.seen_snd, ParseM.seen_snd] at left
    rw [results, results, sees, ih left]

end Parser

/-- A call that succeeds leaves as many blocks open as it found, and no sequence of calls depends on how
many there are: each answers the same and leaves the same tokens. -/
theorem parser_depth_inert (p : Parser) :
    (∀ (call : Parser.Call) nodes q, call.run p = .ok nodes q → q.depth = p.depth) ∧
      ∀ depth calls, { p with depth }.results calls = p.results calls :=
  ⟨fun call _ _ => call.keeps_depth, fun _ => Parser.results_congr rfl⟩

/-- The first call fails inside of a block and leaves it open. What is left of the line is then a
statement, and the dedent behind it is out of place even so. -/
theorem parser_depth_inert_after_failure :
    let p := leaves (Parser.statement (.ofText "if x:\n    y = = 1\nz\n" 8))
    p.depth = 1 ∧ (∃ nodes q, Parser.Call.statement.run p = .ok nodes q ∧ q.depth = 1) ∧
      { p with depth := 0 }.results [.statement, .program] = p.results [.statement, .program] ∧
      (p.results [.statement, .program]).map (·.1.map List.length) =
        [.ok 1, .error (.parse (.unexpectedDedent 3))] := by
  intro p
  obtain ⟨balanced, inert⟩ := parser_depth_inert p
  have raised : p.depth = 1 := by decide +kernel
  have answers : (p.results [.statement, .program]).map (·.1.map List.length) =
      [.ok 1, .error (.parse (.unexpectedDedent 3))] := by decide +kernel
  refine ⟨raised, ?_, inert 0 _, answers⟩
  cases run : Parser.Call.statement.run p with
  | ok nodes q => exact ⟨nodes, q, rfl, (balanced _ nodes q run).trans raised⟩
  | error e q =>
    rw [Parser.results, ParseM.seen_of_error run] at answers
    cases congrArg List.head? answers

end Offside
