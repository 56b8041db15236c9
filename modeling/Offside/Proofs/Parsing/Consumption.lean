import Offside.Proofs.Parsing.StatementCompleteness
import Offside.Proofs.Parsing.Termination

/-!
# What a call consumes

The tokens that a call consumes are told by the answers before and after it, for the tokens of a source
come to an end (`Answers.Bounded.after_injective`). So the tokens that the parser takes for an expression
or for a simple statement have the form of one, and a call that finds a statement of the grammar takes
all of it (`Parser.Reached.statement_of_reads`).
-/

namespace Offside

namespace Answers

variable {later : Answers} {limit : Nat}

/-- The tokens of a source do not come again. -/
theorem Bounded.ne_after (bounded : later.Bounded limit) {token : Token} {rest : List Token}
    (unended : token.kind ≠ .endMarker) : later ≠ later.after (token :: rest) := by
  induction limit using Nat.strong_induction_on with
  | h limit ih =>
    intro same
    have found : later.get 0 = .ok token := by
      rw [same]
      rfl
    have some := bounded 0 token ⟨later.sound_zero, found⟩ unended
    have sound : later.Sound (rest.length + 1) := by
      intro i lt
      rw [same]
      exact ⟨_, get_after_lt lt⟩
    have again : later.drop (rest.length + 1) = later := by
      conv_lhs => rw [same]
      exact drop_after later (token :: rest)
    have bounded' := bounded.drop sound
    rw [again] at bounded'
    exact ih (limit - (rest.length + 1)) (by omega) bounded' same

theorem Bounded.after_injective (bounded : later.Bounded limit) {first second : List Token}
    (same : later.after first = later.after second)
    (unended : ∀ token ∈ first, token.kind ≠ .endMarker)
    (unended' : ∀ token ∈ second, token.kind ≠ .endMarker) : first = second := by
  induction first generalizing second with
  | nil =>
    cases second with
    | nil => rfl
    | cons token rest => exact absurd same (bounded.ne_after (unended' token List.mem_cons_self))
  | cons token rest ih =>
    cases second with
    | nil => exact absurd same.symm (bounded.ne_after (unended token List.mem_cons_self))
    | cons token' rest' =>
      obtain ⟨head, tail⟩ := Stream'.cons_injective2 same
      have rest_eq := ih tail (List.forall_mem_cons.mp unended).2 (List.forall_mem_cons.mp unended').2
      cases head
      rw [rest_eq]

end Answers

theorem unended_of_words {tokens : List Token} (words : ∀ token ∈ tokens, token.kind.isWord = true) :
    ∀ token ∈ tokens, token.kind ≠ .endMarker := by
  intro token member ended
  have word := words token member
  rw [ended] at word
  cases word

namespace Parser

variable {source : String} {tabSize : UInt64} {p q : Parser} {later : Answers} {tokens : List Token}

theorem Reached.bounded_after (reached : p.Reached source tabSize) (here : p.answers = later.after tokens) :
    ∃ limit, later.Bounded limit := by
  obtain ⟨left, bounded, -⟩ := reached.bounded
  have sound : p.answers.Sound tokens.length := by
    intro i lt
    rw [here]
    exact ⟨_, Answers.get_after_lt lt⟩
  have bounded' := bounded.drop sound
  rw [here, Answers.drop_after] at bounded'
  exact ⟨_, bounded'⟩

/-- A parser that can read a statement with steps enough reads it when it is called. -/
theorem Reached.statement_of_reads (reached : p.Reached source tabSize)
    (here : p.answers = later.after tokens) {nodes : List Node} {need : Nat}
    (reads : ∀ steps, need ≤ steps → (ParseM.statement steps).Reads (later.after tokens) nodes later) :
    ∃ q, Parser.statement p = .ok nodes q ∧ q.answers = later ∧ q.depth = p.depth := by
  obtain ⟨q, run, left, depth⟩ := reads (max need p.budget) (Nat.le_max_left _ _) p here
  rw [reached.statement_returns.same _ (Nat.le_max_right _ _)] at run
  exact ⟨q, run, left, depth⟩

theorem Reached.expression_of_derives (reached : p.Reached source tabSize)
    (here : p.answers = later.after tokens) {node : Node} (derives : Derives .or tokens node)
    (ends : Level.or.EndsBefore later) :
    ∃ q, Parser.expression p = .ok node q ∧ q.answers = later ∧ q.depth = p.depth := by
  obtain ⟨q, run, left, depth⟩ :=
    derives.reads (max (Level.or.steps tokens) p.budget) later (Nat.le_max_left _ _) ends p here
  rw [reached.expression_returns.same _ (Nat.le_max_right _ _)] at run
  exact ⟨q, run, left, depth⟩

/-- The answers for a source begin with its tokens. -/
theorem answers_of_tokenize {last : Token} (told : tokenize source tabSize = .ok (tokens ++ [last])) :
    ∃ later : Answers, later.get 0 = .ok last ∧
      (Parser.ofText source tabSize).answers = later.after tokens := by
  obtain ⟨front, next, laid, told', -⟩ := Lexer.answers_laid source tabSize
  rw [told] at told'
  cases next with
  | error e => cases told'
  | ok last' =>
    obtain ⟨rfl, same⟩ := List.append_inj' (Except.ok.inj told') rfl
    cases same
    refine ⟨_, ?_, laid.spans.drop⟩
    rw [Stream'.get_drop]
    exact laid.get

theorem Reached.of_statement (reached : p.Reached source tabSize) {nodes : List Node}
    (run : Parser.statement p = .ok nodes q) : q.Reached source tabSize := by
  have after := reached.statement
  rwa [run] at after

end Parser

/-- In some state of some parser a call for an expression consumes just these tokens and gives `node`. The
end marker, which comes again and again, is none of them. -/
def TakenForExpression (tokens : List Token) (node : Node) : Prop :=
  ∃ source tabSize, ∃ p q : Parser, p.Reached source tabSize ∧ Parser.expression p = .ok node q ∧
    p.answers = q.answers.after tokens ∧ ∀ token ∈ tokens, token.kind ≠ .endMarker

/-- In some state of some parser just these tokens are consumed as a simple statement and give `node`, with
a NEWLINE behind them. -/
def TakenForStatement (tokens : List Token) (node : Node) : Prop :=
  ∃ source tabSize, ∃ p q : Parser, ∃ steps newline, p.Reached source tabSize ∧
    ParseM.simpleStatement steps p = .ok node q ∧ p.answers = q.answers.after tokens ∧
    (∀ token ∈ tokens, token.kind ≠ .endMarker) ∧
    q.answers.get 0 = .ok newline ∧ newline.kind = .newline

variable {tokens : List Token} {node : Node}

theorem TakenForExpression.derives (taken : TakenForExpression tokens node) :
    Derives .or tokens node := by
  obtain ⟨source, tabSize, p, q, reached, run, consumed, unended⟩ := taken
  obtain ⟨tokens', consumed', derives, -⟩ := Parser.expression_sound run
  obtain ⟨limit, bounded⟩ := reached.bounded_after consumed
  rw [consumed] at consumed'
  rw [bounded.after_injective consumed' unended (unended_of_words derives.words)]
  exact derives

theorem TakenForStatement.simple (taken : TakenForStatement tokens node) :
    SimpleStatement tokens node := by
  obtain ⟨source, tabSize, p, q, steps, newline, reached, run, consumed, unended, -⟩ := taken
  have here : p.Stands p.answers 0 p.depth := ⟨rfl, p.answers.sound_zero, rfl⟩
  have ends : ParseM.Ends p.answers 0 p.depth True (ParseM.simpleStatement steps)
      (p.answers.Gives SimpleStatement 0) := ParseM.simpleStatement_ends fun _ _ _ => trivial
  obtain ⟨j, -, stands, tokens', spans, simple⟩ := (ends p here).1 node q run
  have consumed' : p.answers = q.answers.after tokens' := spans.drop.trans (by rw [stands.left])
  obtain ⟨limit, bounded⟩ := reached.bounded_after consumed
  rw [consumed] at consumed'
  rw [bounded.after_injective consumed' unended (unended_of_words simple.words)]
  exact simple

section

variable {source : String} {tabSize : UInt64} {newline last : Token}

/-- The expression that a source is made of is taken for one. -/
theorem TakenForExpression.of_source
    (told : tokenize source tabSize = .ok (tokens ++ [newline] ++ [last]))
    (ended : newline.kind = .newline) (derives : Derives .or tokens node) :
    TakenForExpression tokens node := by
  obtain ⟨later, -, here⟩ := Parser.answers_of_tokenize told
  rw [Answers.after_append] at here
  obtain ⟨q, run, left, -⟩ := Parser.Reached.fresh.expression_of_derives here derives
    ⟨newline, rfl, by rw [ended]; rfl⟩
  exact ⟨source, tabSize, _, q, .fresh, run, by rw [left, here], unended_of_words derives.words⟩

/-- The simple statement that a source is made of is taken for one. -/
theorem TakenForStatement.of_source
    (told : tokenize source tabSize = .ok (tokens ++ [newline] ++ [last]))
    (ended : newline.kind = .newline) (simple : SimpleStatement tokens node) :
    TakenForStatement tokens node := by
  obtain ⟨later, -, here⟩ := Parser.answers_of_tokenize told
  rw [Answers.after_append] at here
  obtain ⟨q, run, left, -⟩ := ParseM.simpleStatement_reads simple (Nat.le_refl _)
    ⟨newline, rfl, .inl (.inl ended)⟩ _ here
  exact ⟨source, tabSize, _, q, _, newline, .fresh, run, by rw [left, here],
    unended_of_words simple.words, by rw [left]; rfl, ended⟩

end

/-- A line that the grammar allows is parsed by one call. -/
theorem Parser.Reached.line {source : String} {tabSize : UInt64} {p : Parser} {later : Answers}
    {nodes : List Node} (reached : p.Reached source tabSize) (here : p.answers = later.after tokens)
    (line : SimpleLine tokens nodes) :
    ∃ q, Parser.statement p = .ok nodes q ∧ q.answers = later ∧ q.depth = p.depth :=
  reached.statement_of_reads here fun _ enough => ParseM.statement_reads_line line enough

end Offside
