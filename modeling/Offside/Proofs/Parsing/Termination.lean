import Offside.Proofs.Parsing.Lasts
import Offside.Proofs.Parsing.Steps

/-!
# The parser terminates

A parser may be called again and again, also after errors. Its lexer is then one that was asked a number
of times (`Parser.Reached.asked`), so its budget is enough for what is left, and every call comes to an
end: `parser_terminates`.
-/

namespace Offside

theorem Answers.Bounded.after {later : Answers} {left : Nat} (bounded : later.Bounded left)
    (tokens : List Token) : (later.after tokens).Bounded (tokens.length + left) := by
  intro i token found unended
  by_contra beyond
  obtain ⟨k, rfl⟩ := Nat.exists_eq_add_of_le (show tokens.length ≤ i by omega)
  have sound : later.Sound k := by
    intro n lt
    obtain ⟨token', found'⟩ := found.sound (tokens.length + n) (by omega)
    exact ⟨token', by rwa [Answers.get_after_add] at found'⟩
  have get := found.get
  rw [Answers.get_after_add] at get
  have := bounded k token ⟨sound, get⟩ unended
  omega

namespace Lexer

variable {s t : Lexer} {lines : List (List Char)} {before : List Token}

/-- A lexer that one call leaves at rest gives the answer of that call to every other. -/
theorem AtRest.get (rests : s.ask.2.AtRest s.ask.1) (n : Nat) : s.answers.get n = s.ask.1 := by
  rw [get_answers]
  cases n with
  | zero => rfl
  | succ n =>
    have later : s.asked (1 + n) = s.ask.2.asked n := s.asked_add 1 n
    rw [Nat.add_comm, later, rests.asked, rests.ask]

theorem AtRest.get_ne (rests : s.ask.2.AtRest s.ask.1) {token : Token}
    (unended : token.kind ≠ .endMarker) (n : Nat) : s.answers.get n ≠ .ok token := by
  intro found
  rw [rests.get] at found
  rcases rests.last with ⟨marker, same, ended⟩ | ⟨e, same⟩
  · rw [found] at same
    cases same
    exact unended ended
  · rw [found] at same
    cases same

/-- What is left of a lexer bounds the tokens before its end marker, also after errors. -/
theorem Held.bounded (held : s.Held lines before) : s.answers.Bounded s.remaining := by
  intro i token found unended
  induction i generalizing s before with
  | zero =>
    obtain ⟨_, -, calls⟩ := s.calls_ask
    rcases calls.less_or_rests held with less | rests
    · exact Nat.lt_of_le_of_lt (Nat.zero_le _) less
    · exact absurd found.get (rests.get_ne unended 0)
  | succ i ih =>
    obtain ⟨_, -, calls⟩ := s.calls_ask
    rcases calls.less_or_rests held with less | rests
    · have get := found.get
      rw [answers_eq] at get
      have sound : s.ask.2.answers.Sound i := by
        intro n lt
        obtain ⟨other, found'⟩ := found.sound (n + 1) (by omega)
        rw [answers_eq] at found'
        exact ⟨other, found'⟩
      have := ih (calls.held held) ⟨sound, get⟩
      omega
    · exact absurd found.get (rests.get_ne unended _)

/-- What is left is within what the budget of a parser counts. -/
theorem remaining_le_bound (s : Lexer) : s.remaining ≤ s.bound + 1 := by
  have onward : s.cursor.onward.length ≤ s.cursor.lines.flatten.length := by
    rw [Cursor.onward, Cursor.rest]
    cases s.cursor.lines with
    | nil => simp
    | cons line lines => simp
  unfold remaining allowance bound
  split <;> split <;> omega

end Lexer

namespace ParseM

/-- The loops of the parser, each as a program that may make so many rounds. -/
inductive Loop (steps : Nat) : {α : Type} → (Nat → ParseM α) → Prop
  | program : Loop steps (statements steps)
  | block : Loop steps (blockRest (statement steps))
  | line : Loop steps (lineRest steps)
  | branches (line : Nat) : Loop steps fun rounds => conditional (statement steps) steps rounds line
  | arguments : Loop steps (commaSeparated .rightParen (expressionAt steps .or))
  | parameters : Loop steps (commaSeparated .rightParen (parameter steps))
  | literals (first : Value) : Loop steps fun rounds => adjacent rounds first
  | operators (level : Level) (first : Node) : level.isChain = true →
      Loop steps fun rounds => chain (operatorAt level) (expressionAt steps level.tighter) rounds first

theorem Loop.ceases {α : Type} {steps left rounds : Nat} {loop : Nat → ParseM α}
    (loops : Loop steps loop) (ample : statementNeed left ≤ steps) (more : left < rounds) :
    Ceases left False (loop rounds) := by
  unfold statementNeed at ample
  have few : rounds ≤ left → False := by omega
  have each : ∀ less ≤ left, Progresses less False (statement steps) := fun less le =>
    statement_progresses.mono (by unfold statementNeed; omega) fun _ _ _ => id
  have operand : ∀ less ≤ left, ∀ level, Ceases less False (expressionAt steps level) := by
    intro less le level
    refine (expressionAt_progresses level).mono (fun fewer => ?_) fun _ _ _ _ => trivial
    unfold Level.need at fewer
    omega
  cases loops with
  | program => exact statements_ceases (by unfold statementNeed; omega) few
  | block => exact blockRest_ceases each few
  | line => exact lineRest_ceases (by omega) few
  | branches line => exact conditional_ceases (by omega) (fun less lt => each less (by omega)) few line
  | arguments => exact commaSeparated_ceases (fun less le => operand less le .or) few
  | parameters => exact commaSeparated_ceases (fun less le => parameter_ceases (by omega)) few
  | literals first => exact adjacent_ceases few first
  | operators level first =>
    exact chain_ceases (fun less lt => operand less (by omega) level.tighter) few first

end ParseM

namespace Parser

/-- The states that the calls of a parser bring about, be it by success or by failure. Its stream may
have been used before. -/
inductive Reached (source : String) (tabSize : UInt64) : Parser → Prop
  | fresh : Reached source tabSize (.ofText source tabSize)
  | peek {p : Parser} (ahead : Nat) : Reached source tabSize p →
      Reached source tabSize (leaves (ParseM.peek ahead p))
  | advance {p : Parser} : Reached source tabSize p →
      Reached source tabSize (leaves (ParseM.advance p))
  | program {p : Parser} : Reached source tabSize p →
      Reached source tabSize (leaves (Parser.program p))
  | statement {p : Parser} : Reached source tabSize p →
      Reached source tabSize (leaves (Parser.statement p))
  | expression {p : Parser} : Reached source tabSize p →
      Reached source tabSize (leaves (Parser.expression p))

variable {source : String} {tabSize : UInt64} {p q : Parser}

/-- A call parses with the steps of its budget, and would do the same with more: it comes to an end. -/
structure Returns (p : Parser) (call : ParseM α) (family : Nat → ParseM α) : Prop where
  settled : ∀ q, call p ≠ .error .exhausted q
  same : ∀ steps, p.budget ≤ steps → family steps p = call p
  /-- It reads finitely many tokens. -/
  reads : ∃ calls, (leaves (call p)).stream.lexer = p.stream.lexer.asked calls

/-- The program of a source with so many steps. -/
def programWith (steps : Nat) : ParseM Node := do
  let statements ← ParseM.statements steps steps
  return .block statements 1

theorem program_eq : Parser.program = ParseM.budgeted programWith := by
  funext p
  change EStateM.bind (ParseM.budgeted fun steps => ParseM.statements steps steps) _ p =
    EStateM.bind (ParseM.statements p.budget p.budget) _ p
  simp only [EStateM.bind, ParseM.budgeted]

theorem prolongs_program {steps steps' : Nat} (le : steps ≤ steps') :
    ParseM.Prolongs True (programWith steps) (programWith steps') :=
  .bind (ParseM.prolongs_statements le le) fun _ => .pure _

theorem Reached.asked (reached : p.Reached source tabSize) :
    ∃ calls, p.stream.lexer = (Lexer.ofText source tabSize).asked calls := by
  have further : ∀ {α : Type} {m : ParseM α} {p : Parser} {outcome}, m.Prolongs True m →
      m p = outcome → (∃ calls, p.stream.lexer = (Lexer.ofText source tabSize).asked calls) →
      ∃ calls, (leaves outcome).stream.lexer = (Lexer.ofText source tabSize).asked calls := by
    rintro α m p _ moves rfl ⟨calls, here⟩
    obtain ⟨more, there⟩ := moves.asks p
    exact ⟨calls + more, by rw [there, here, Lexer.asked_add]⟩
  induction reached with
  | fresh => exact ⟨0, rfl⟩
  | peek ahead _ ih => exact further (.peek ahead) rfl ih
  | advance _ ih => exact further .advance rfl ih
  | @program p _ ih =>
    refine further (prolongs_program (Nat.le_refl p.budget)) ?_ ih
    rw [program_eq, ParseM.budgeted]
  | @statement p _ ih => exact further (ParseM.prolongs_statement (Nat.le_refl p.budget)) rfl ih
  | @expression p _ ih =>
    refine further (ParseM.prolongs_expressionAt (Nat.le_refl p.budget) .or) ?_ ih
    rw [Parser.expression, ParseM.budgeted]

/-- The tokens that are left, for which the budget is enough. -/
theorem Reached.bounded (reached : p.Reached source tabSize) :
    ∃ left, p.answers.Bounded left ∧ ParseM.statementNeed left ≤ p.budget := by
  obtain ⟨calls, here⟩ := reached.asked
  have held := Lexer.held_asked source tabSize calls
  rw [← here] at held
  refine ⟨_, held.bounded.after p.stream.buffer, ?_⟩
  have := p.stream.lexer.remaining_le_bound
  unfold ParseM.statementNeed Parser.budget
  omega

theorem returns_of_ceases {α : Type} {family : Nat → ParseM α} {left : Nat}
    (bounded : p.answers.Bounded left) (ceases : ParseM.Ceases left False (family p.budget))
    (more : ∀ steps, p.budget ≤ steps → (family p.budget).Prolongs True (family steps)) :
    p.Returns (.budgeted family) family := by
  have settled : ∀ q, family p.budget p ≠ .error .exhausted q := (ceases p bounded).2
  refine ⟨settled, fun steps le => (more steps le).eq_of_ne_exhausted p settled, ?_⟩
  exact (more p.budget (Nat.le_refl _)).asks p

/-- Between the two states tokens were consumed, and the first of them is not the end marker. -/
def Consumes (p q : Parser) : Prop :=
  ∃ token tokens, p.answers = q.answers.after (token :: tokens) ∧ token.kind ≠ .endMarker

/-- To consume a token that was looked at, and what a program consumes after it. -/
theorem consumes_skip {α : Type} {m : ParseM α} {a : α} {token : Token} (moves : m.Prolongs True m)
    (found : p.answers.get 0 = .ok token) (run : (do let _ ← ParseM.advance; m) p = .ok a q) :
    ∃ tokens, p.answers = q.answers.after (token :: tokens) := by
  obtain ⟨token', p', moved, rest⟩ := bind_ok run
  obtain ⟨split, -⟩ := advance_ok moved
  rw [split] at found
  cases found
  obtain ⟨tokens, consumed⟩ := moves.consumes rest
  exact ⟨tokens, by rw [split, consumed]; rfl⟩

theorem simpleLine_consumes {steps : Nat} {nodes : List Node}
    (run : ParseM.simpleLine steps p = .ok nodes q) : p.Consumes q := by
  have here : p.Stands p.answers 0 p.depth := ⟨rfl, p.answers.sound_zero, rfl⟩
  have ends : ParseM.Ends p.answers 0 p.depth True (ParseM.simpleLine steps)
      (p.answers.Gives SimpleLine 0) := ParseM.simpleLine_ends fun _ _ _ => trivial
  obtain ⟨j, -, stands, tokens, spans, line⟩ := (ends p here).1 nodes q run
  cases line with
  | @simple first rest _ _ simple _ =>
    obtain ⟨token, tokens, rfl⟩ := List.exists_cons_of_ne_nil simple.ne_nil
    refine ⟨token, tokens ++ rest, spans.drop.trans (by rw [stands.left]; rfl), fun ended => ?_⟩
    have word := simple.words token List.mem_cons_self
    rw [ended] at word
    cases word

/-- A parsed statement begins with a token that it consumes. -/
theorem statement_consumes {steps : Nat} {nodes : List Node}
    (run : ParseM.statement steps p = .ok nodes q) : p.Consumes q := by
  cases steps with
  | zero => cases run
  | succ steps =>
    obtain ⟨token, p', peeked, run⟩ := bind_ok run
    obtain ⟨same, -, -, found⟩ := peek_ok peeked
    rw [← same] at found
    have simple : ParseM.simpleLine steps p' = .ok nodes q → p.Consumes q := by
      intro run
      obtain ⟨token, tokens, consumed, unended⟩ := simpleLine_consumes run
      exact ⟨token, tokens, same ▸ consumed, unended⟩
    have skipped : ∀ {m : ParseM (List Node)}, token.kind ≠ .endMarker → m.Prolongs True m →
        (do let _ ← ParseM.advance; m) p' = .ok nodes q → p.Consumes q := by
      intro m unended moves run
      obtain ⟨tokens, consumed⟩ := consumes_skip moves found run
      exact ⟨token, tokens, same ▸ consumed, unended⟩
    have le := Nat.le_refl steps
    have each : ParseM.Prolongs True _ _ := ParseM.prolongs_statement le
    cases known : token.kind with
    | keyword word =>
      have unended : token.kind ≠ .endMarker := by simp [known]
      simp only [known] at run
      cases word with
      | ifWord =>
        exact skipped unended (.bind (ParseM.prolongs_conditional le each le _) fun _ => .pure _) run
      | whileWord =>
        exact skipped unended (.bind (ParseM.prolongs_expressionAt le _) fun _ =>
          .bind (ParseM.prolongs_colonBody le each) fun _ => .pure _) run
      | defWord =>
        exact skipped unended (.bind (ParseM.prolongs_definition le each _) fun _ => .pure _) run
      | _ => exact simple run
    | newline =>
      simp only [known] at run
      exact skipped (by simp [known]) (.pure _) run
    | indent | dedent =>
      simp only [known] at run
      cases run
    | _ =>
      simp only [known] at run
      exact simple run

theorem expression_consumes {node : Node} (run : Parser.expression p = .ok node q) :
    p.Consumes q := by
  obtain ⟨tokens, consumed, derives, -⟩ := expression_sound run
  obtain ⟨token, rest, rfl, -⟩ := derives.starts
  refine ⟨token, rest, consumed, fun ended => ?_⟩
  have word := derives.words token List.mem_cons_self
  rw [ended] at word
  cases word

theorem Reached.program_returns (reached : p.Reached source tabSize) :
    p.Returns Parser.program programWith := by
  obtain ⟨left, bounded, enough⟩ := reached.bounded
  unfold ParseM.statementNeed at enough
  rw [program_eq]
  refine returns_of_ceases bounded ?_ fun _ => prolongs_program
  have ample : p.budget < ParseM.statementNeed left → False := by
    unfold ParseM.statementNeed
    omega
  apply ParseM.Lasts.bind (ParseM.statements_ceases ample (by omega))
  exact fun _ _ _ _ => ParseM.Lasts.pure trivial

theorem Reached.statement_returns (reached : p.Reached source tabSize) :
    p.Returns Parser.statement ParseM.statement := by
  obtain ⟨left, bounded, enough⟩ := reached.bounded
  refine returns_of_ceases bounded ?_ fun _ => ParseM.prolongs_statement
  exact ParseM.statement_progresses.mono (by omega) fun _ _ _ _ => trivial

theorem Reached.expression_returns (reached : p.Reached source tabSize) :
    p.Returns Parser.expression (ParseM.expressionAt · .or) := by
  obtain ⟨left, bounded, enough⟩ := reached.bounded
  unfold ParseM.statementNeed at enough
  rw [Parser.expression]
  refine returns_of_ceases bounded ?_ fun _ le => ParseM.prolongs_expressionAt le .or
  refine (ParseM.expressionAt_progresses .or).mono (fun few => ?_) fun _ _ _ _ => trivial
  unfold Level.need at few
  omega

end Parser

/-- Whatever calls were made before and however they ended, each call of the parser comes to an end, no
loop makes more rounds than tokens are left before the end marker, and what a call accepts begins with
one of them. -/
theorem parser_terminates {source : String} {tabSize : UInt64} {p : Parser}
    (reached : p.Reached source tabSize) :
    p.Returns Parser.program Parser.programWith ∧
    p.Returns Parser.statement ParseM.statement ∧
    p.Returns Parser.expression (ParseM.expressionAt · .or) ∧
    (∃ left, p.answers.Bounded left ∧ ∀ steps rounds, p.budget ≤ steps → left < rounds →
      ∀ {α : Type} {loop : Nat → ParseM α}, ParseM.Loop steps loop →
        ∀ q, loop rounds p ≠ .error .exhausted q) ∧
    (∀ nodes q, Parser.statement p = .ok nodes q → p.Consumes q) ∧
    ∀ node q, Parser.expression p = .ok node q → p.Consumes q := by
  obtain ⟨left, bounded, enough⟩ := reached.bounded
  refine ⟨reached.program_returns, reached.statement_returns, reached.expression_returns,
    ⟨left, bounded, ?_⟩, fun _ _ => Parser.statement_consumes, fun _ _ => Parser.expression_consumes⟩
  intro steps rounds le more α loop loops
  exact (loops.ceases (Nat.le_trans enough le) more p bounded).2

/-- The first call fails at the second mark, and the next one reads on behind it. -/
theorem parser_terminates_after_failure :
    let p := leaves (Parser.statement (.ofText "x = = 1 ; y\n" 8))
    p.Reached "x = = 1 ; y\n" 8 ∧ p.Returns Parser.program Parser.programWith ∧
      ∃ nodes q, Parser.statement p = .ok nodes q ∧ nodes.map Node.text = ["1", "y"] ∧
        p.Consumes q := by
  intro p
  have reached : p.Reached "x = = 1 ; y\n" 8 := .statement .fresh
  obtain ⟨program, -, -, -, consumes, -⟩ := parser_terminates reached
  have text : (match Parser.statement p with
      | .ok nodes _ => nodes.map Node.text
      | .error _ _ => []) = ["1", "y"] := by decide +kernel
  refine ⟨reached, program, ?_⟩
  cases run : Parser.statement p with
  | error e q =>
    rw [run] at text
    cases text
  | ok nodes q =>
    rw [run] at text
    exact ⟨nodes, q, rfl, text, consumes nodes q run⟩

end Offside
