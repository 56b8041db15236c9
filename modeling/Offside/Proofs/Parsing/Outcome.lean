import Offside.Proofs.Parsing.Blocks

/-!
# What comes of parsing a source

`parse_lexical`: parsing and tokenizing a source come to the same lexical error, if they come to any.
`parse_keeps_step`: the blocks that the parser has open are those for which the lexer still owes a
DEDENT, so the two errors that would tell otherwise never come up.
-/

namespace Offside

open Token (occurrences occurrences_append)

/-- The error that tells that the blocks of the parser are not those of the lexer. -/
def ParseError.isDrift : ParseError → Bool
  | .unexpectedDedent _ => true
  | .unexpectedToken _ expected | .unexpectedEnd expected _ => expected = some .dedent
  | _ => false

theorem Answers.Refuses.not_drift {answers : Answers} {e : ParseError} (h : answers.Refuses e) :
    e.isDrift = false := by
  cases h with
  | @misplaced i token expected found other =>
    unfold ParseError.misplaced
    split <;> exact decide_eq_false other
  | _ => rfl

section

variable {source : String} {tabSize : UInt64}

theorem stands_ofText :
    (Parser.ofText source tabSize).Stands (Lexer.ofText source tabSize).answers 0 0 :=
  ⟨rfl, Answers.sound_zero _, rfl⟩

/-- A fresh parser takes the statements of its source, and what stops it is one of the answers. -/
theorem program_ends {front : List Token} {next : Except LexError Token}
    (laid : (Lexer.ofText source tabSize).answers.Laid front next)
    (few : front.length < (Lexer.ofText source tabSize).bound) :
    let steps := (Parser.ofText source tabSize).budget
    ParseM.Ends (Lexer.ofText source tabSize).answers 0 0 False (ParseM.statements steps steps)
      fun nodes j => (∃ last, (Lexer.ofText source tabSize).answers.Finds j last ∧
        last.kind = .endMarker) ∧
        (Lexer.ofText source tabSize).answers.Gives (Forms .statements) 0 nodes j := by
  intro steps
  have budget : steps = 16 * (0 + (Lexer.ofText source tabSize).bound + 2) := rfl
  have each : ∀ j, 0 ≤ j →
      (Lexer.ofText source tabSize).answers.Short j ParseM.statementNeed steps → False := by
    intro j _ short
    have := short _ laid.bounded
    unfold ParseM.statementNeed at this
    omega
  have more : (Lexer.ofText source tabSize).answers.Short 0 (· + 1) steps → False := by
    intro short
    have short : steps < front.length - 0 + 1 := short _ laid.bounded
    omega
  exact ParseM.statements_reach_end laid each more (Answers.balanced_zero _)

/-- A parsed tree is the block of the statements that a fresh parser takes. -/
theorem statements_of_parse {node : Node} (parsed : parse source tabSize = .ok node) :
    ∃ statements p, node = .block statements 1 ∧
      ParseM.statements (Parser.ofText source tabSize).budget (Parser.ofText source tabSize).budget
        (.ofText source tabSize) = .ok statements p := by
  unfold parse at parsed
  split at parsed
  · next ran =>
    cases parsed
    obtain ⟨statements, p, run, rest⟩ := bind_ok ran
    obtain ⟨rfl, -⟩ := pure_ok rest
    exact ⟨statements, p, rfl, run⟩
  · cases parsed

theorem parse_of_program {node : Node} {p : Parser}
    (run : Parser.program (.ofText source tabSize) = .ok node p) : parse source tabSize = .ok node := by
  unfold parse
  rw [show Parser.program.run (.ofText source tabSize) = _ from run]

theorem parse_of_statements {statements : List Node} {p : Parser}
    (run : ParseM.statements (Parser.ofText source tabSize).budget (Parser.ofText source tabSize).budget
      (.ofText source tabSize) = .ok statements p) : parse source tabSize = .ok (.block statements 1) :=
  parse_of_program (bind_of_ok run)

/-- Parsing a source takes its answers up to the end marker, or fails because of one of them. -/
theorem parse_ends {front : List Token} {next : Except LexError Token}
    (laid : (Lexer.ofText source tabSize).answers.Laid front next)
    (few : front.length < (Lexer.ofText source tabSize).bound) :
    (∀ node, parse source tabSize = .ok node → ∃ last, next = .ok last) ∧
      ∀ e, parse source tabSize = .error e →
        (Lexer.ofText source tabSize).answers.Stops False e := by
  obtain ⟨succeeds, fails⟩ := program_ends laid few _ stands_ofText
  constructor
  · intro node parsed
    obtain ⟨statements, p, -, run⟩ := statements_of_parse parsed
    obtain ⟨j, -, -, ⟨last, found, ended⟩, -⟩ := succeeds statements p run
    exact ⟨last, laid.ends found ended⟩
  · intro e parsed
    unfold parse at parsed
    split at parsed
    · cases parsed
    · next run =>
      cases parsed
      rcases bind_error run with run | ⟨nodes, r, -, run⟩
      · exact fails _ _ run
      · cases run

/-- The tokens of a parsed source have the form of its statements. Its end marker may end the last
line of them. -/
theorem parse_forms {node : Node} (parsed : parse source tabSize = .ok node) :
    ∃ statements front last more, node = .block statements 1 ∧
      tokenize source tabSize = .ok (front ++ [last]) ∧ last.kind = .endMarker ∧
      (∀ token ∈ more, token = last) ∧ Forms .statements (front ++ more) statements := by
  obtain ⟨front, next, laid, told, few⟩ := Lexer.answers_laid source tabSize
  obtain ⟨statements, p, rfl, run⟩ := statements_of_parse parsed
  obtain ⟨j, -, -, ⟨last, found, ended⟩, tokens, spans, formed⟩ :=
    (program_ends laid few _ stands_ofText).1 statements p run
  obtain rfl := laid.ends found ended
  obtain ⟨-, all, -⟩ := laid.last last rfl
  have le : front.length ≤ j := by
    by_contra within
    have get := laid.spans.get (Nat.lt_of_not_le within)
    rw [Nat.zero_add] at get
    obtain rfl := found.eq get
    exact laid.unended _ (List.getElem_mem _) ended
  obtain ⟨more, rfl, rest⟩ := laid.spans.extends spans le
  refine ⟨statements, front, last, more, rfl, told, ended, fun token member => ?_, formed⟩
  obtain ⟨n, lt, rfl⟩ := List.mem_iff_getElem.mp member
  have get := rest.get lt
  rw [all _ (by omega)] at get
  exact (Except.ok.inj get).symm

end

/-- The budget of a fresh parser is enough for its source. -/
theorem parse_ne_exhausted (source : String) (tabSize : UInt64) :
    parse source tabSize ≠ .error .exhausted := by
  obtain ⟨front, next, laid, -, few⟩ := Lexer.answers_laid source tabSize
  exact fun failed => (parse_ends laid few).2 _ failed

/-- Parsing and tokenizing a source agree on its lexical error, which looking ahead neither skips
nor moves. -/
theorem parse_lexical (source : String) (tabSize : UInt64) :
    (∀ node, parse source tabSize = .ok node → ∃ tokens, tokenize source tabSize = .ok tokens) ∧
    (∀ e, parse source tabSize = .error (.lex e) → tokenize source tabSize = .error e) ∧
    (∀ e, tokenize source tabSize = .error e → parse source tabSize = .error (.lex e) ∨
      ∃ e', parse source tabSize = .error (.parse e')) ∧
    ∀ s : Stream,
      (∀ ahead token t, s.peek ahead = .ok token t →
        t.answers = s.answers ∧ s.answers.Sound ahead ∧ s.answers.get ahead = .ok token) ∧
      (∀ token t, s.advance = .ok token t → s.answers = .cons (.ok token) t.answers) ∧
      (∀ ahead e t, s.peek ahead = .error e t → s.answers.Fails e) ∧
      ∀ e t, s.advance = .error e t → s.answers.Fails e := by
  obtain ⟨front, next, laid, told, few⟩ := Lexer.answers_laid source tabSize
  obtain ⟨succeeds, fails⟩ := parse_ends laid few
  refine ⟨?_, ?_, ?_, fun s => ⟨?_, fun _ _ => Stream.advance_ok, fun _ _ _ => Stream.peek_error,
    fun _ _ => Stream.advance_error⟩⟩
  · intro node parsed
    obtain ⟨last, rfl⟩ := succeeds node parsed
    exact ⟨_, told⟩
  · intro e parsed
    have next := laid.fails.mp (fails _ parsed)
    rw [told, next]
    rfl
  · intro e failed
    rw [failed] at told
    cases next with
    | ok last => cases told
    | error e' =>
      cases told
      cases parsed : parse source tabSize with
      | ok node =>
        obtain ⟨last, same⟩ := succeeds node parsed
        cases same
      | error e' =>
        cases e' with
        | lex e' =>
          have same := laid.fails.mp (fails _ parsed)
          cases same
          exact .inl rfl
        | parse e' => exact .inr ⟨e', rfl⟩
        | exhausted => exact absurd parsed (parse_ne_exhausted _ _)
  · intro ahead token t peeked
    obtain ⟨same, before, found⟩ := Stream.peek_ok peeked
    exact ⟨same, fun i lt => before i (Nat.le_of_lt lt), found⟩

/-- A source without errors, one with a bad character, and one whose first line is no statement. -/
theorem parse_lexical_three_sources :
    (∃ node tokens, parse "x = 1\n" 8 = .ok node ∧ tokenize "x = 1\n" 8 = .ok tokens) ∧
    (parse "x\ny = $\n" 8 = .error (.lex (.invalidCharacter '$' ⟨2, 5⟩)) ∧
      tokenize "x\ny = $\n" 8 = .error (.invalidCharacter '$' ⟨2, 5⟩)) ∧
    tokenize "x y\n$\n" 8 = .error (.invalidCharacter '$' ⟨2, 1⟩) ∧
      ∃ e, parse "x y\n$\n" 8 = .error (.parse e) := by
  refine ⟨?_, ?_, ?_⟩
  · have done : (parse "x = 1\n" 8).isOk = true := by decide +kernel
    cases parsed : parse "x = 1\n" 8 with
    | error e =>
      rw [parsed] at done
      cases done
    | ok node =>
      obtain ⟨tokens, tokenized⟩ := (parse_lexical _ _).1 node parsed
      exact ⟨node, tokens, rfl, tokenized⟩
  · have failed : (parse "x\ny = $\n" 8).map (fun _ => ()) =
        .error (.lex (.invalidCharacter '$' ⟨2, 5⟩)) := by decide +kernel
    cases parsed : parse "x\ny = $\n" 8 with
    | ok node =>
      rw [parsed] at failed
      cases failed
    | error e =>
      rw [parsed] at failed
      cases failed
      exact ⟨rfl, (parse_lexical _ _).2.1 _ parsed⟩
  · have failed : tokenize "x y\n$\n" 8 = .error (.invalidCharacter '$' ⟨2, 1⟩) := by
      decide +kernel
    have unlike : (parse "x y\n$\n" 8).map (fun _ => ()) ≠
        .error (.lex (.invalidCharacter '$' ⟨2, 1⟩)) := by decide +kernel
    refine ⟨failed, ?_⟩
    rcases (parse_lexical _ _).2.2.1 _ failed with parsed | parsed
    · rw [parsed] at unlike
      exact absurd rfl unlike
    · exact parsed

/-! ### Open blocks -/

/-- How many blocks are open after the token. -/
def Token.Kind.depthAfter : Token.Kind → Nat → Nat
  | .indent, depth => depth + 1
  | .dedent, depth => depth - 1
  | _, depth => depth

theorem Answers.Balanced.after {answers : Answers} {front : List Token}
    {next : Except LexError Token} {i depth : Nat} {token : Token}
    (balanced : answers.Balanced i depth) (laid : answers.Laid front next)
    (found : answers.Finds i token) :
    answers.Balanced (i + 1) (token.kind.depthAfter depth) := by
  cases known : token.kind with
  | indent => exact balanced.indent found known
  | dedent =>
    obtain ⟨outer, rfl⟩ := Nat.exists_eq_add_one_of_ne_zero
      (Nat.ne_of_gt (laid.deep found known balanced))
    exact balanced.dedent found known
  | _ => exact balanced.flat (.single found (by rw [known]; rfl))

namespace Parser

/-- The parser has consumed tokens of the source, and has as many blocks open as they leave open. -/
def InStep (source : String) (tabSize : UInt64) (p : Parser) : Prop :=
  ∃ tokens, (Lexer.ofText source tabSize).answers = p.answers.after tokens ∧
    occurrences .indent tokens = occurrences .dedent tokens + p.depth

/-- Up to the end marker there is one more DEDENT for each open block, and outside all blocks the
next token is none. -/
structure Owed (p : Parser) : Prop where
  inside : ∀ tokens last later, p.answers = Answers.after (.cons (.ok last) later) tokens →
    last.kind = .endMarker → occurrences .dedent tokens = occurrences .indent tokens + p.depth
  outside : p.depth = 0 → ∀ token, p.answers.get 0 = .ok token → token.kind ≠ .dedent

variable {source : String} {tabSize : UInt64} {p q : Parser} {i depth : Nat}

theorem InStep.of_stands (stands : q.Stands (Lexer.ofText source tabSize).answers i depth)
    (balanced : (Lexer.ofText source tabSize).answers.Balanced i depth) :
    q.InStep source tabSize := by
  obtain ⟨tokens, spans, count⟩ := balanced
  refine ⟨tokens, ?_, by rw [stands.depth, count]⟩
  rw [stands.left]
  exact spans.drop

theorem inStep_iff : p.InStep source tabSize ↔
    ∃ i, p.Stands (Lexer.ofText source tabSize).answers i p.depth ∧
      (Lexer.ofText source tabSize).answers.Balanced i p.depth := by
  constructor
  · intro inStep
    obtain ⟨tokens, consumed, count⟩ := inStep
    refine ⟨tokens.length, ⟨?_, fun i lt => ⟨tokens[i], ?_⟩, rfl⟩, tokens, .of_after consumed,
      count⟩
    · rw [consumed, Answers.drop_after]
    · rw [consumed, Answers.get_after_lt lt]
  · intro balanced
    obtain ⟨i, stands, balanced⟩ := balanced
    exact .of_stands stands balanced

theorem InStep.owed (inStep : p.InStep source tabSize) : p.Owed := by
  obtain ⟨front, next, laid, -⟩ := Lexer.answers_laid source tabSize
  obtain ⟨i, stands, consumed, spans, count⟩ := inStep_iff.mp inStep
  constructor
  · intro tokens last later split ended
    have here := stands.left.symm.trans split
    have rest : Answers.Spans _ i tokens _ := .of_drop here
    have get := Answers.get_of_drop_eq (Answers.drop_add_of_after here)
    have even := laid.even ⟨rest.sound stands.sound, get⟩ ended (spans.append rest)
    rw [occurrences_append, occurrences_append] at even
    omega
  · intro outside token get closes
    rw [stands.left, Stream'.get_drop] at get
    have deep := laid.deep ⟨stands.sound, get⟩ closes ⟨consumed, spans, count⟩
    omega

theorem InStep.advance (inStep : p.InStep source tabSize) {token : Token}
    (run : ParseM.advance p = .ok token q) :
    InStep source tabSize { q with depth := token.kind.depthAfter p.depth } := by
  obtain ⟨front, next, laid, -⟩ := Lexer.answers_laid source tabSize
  obtain ⟨i, stands, balanced⟩ := inStep_iff.mp inStep
  obtain ⟨split, -⟩ := advance_ok run
  rw [stands.left] at split
  have get := Answers.get_of_drop_eq split
  have found : (Lexer.ofText source tabSize).answers.Finds i token := ⟨stands.sound, get⟩
  rw [Answers.drop_eq_cons get] at split
  have stands' : Stands (Lexer.ofText source tabSize).answers (i + 1)
      (token.kind.depthAfter p.depth) { q with depth := token.kind.depthAfter p.depth } :=
    ⟨(Stream'.cons_injective_right _ split).symm, stands.sound.succ get, rfl⟩
  exact .of_stands stands' (balanced.after laid found)

theorem not_dedent_of_statement {steps : Nat} {nodes : List Node} {token : Token}
    (found : p.answers.get 0 = .ok token) (run : ParseM.statement steps p = .ok nodes q) :
    token.kind ≠ .dedent := by
  intro closes
  cases steps with
  | zero => cases run
  | succ steps =>
    obtain ⟨token', p', peeked, run⟩ := bind_ok run
    obtain ⟨-, -, -, found'⟩ := peek_ok peeked
    rw [found] at found'
    cases found'
    simp only [closes] at run
    cases run

theorem InStep.statement (inStep : p.InStep source tabSize) {steps : Nat} {nodes : List Node}
    (run : ParseM.statement steps p = .ok nodes q) :
    q.InStep source tabSize ∧ q.depth = p.depth := by
  obtain ⟨front, next, laid, -⟩ := Lexer.answers_laid source tabSize
  obtain ⟨i, stands, balanced⟩ := inStep_iff.mp inStep
  have start : ∀ token, (Lexer.ofText source tabSize).answers.Finds i token →
      token.kind ≠ .dedent := by
    intro token found closes
    have get : p.answers.get 0 = .ok token := by
      rw [stands.left, Stream'.get_drop]
      exact found.get
    exact not_dedent_of_statement get run closes
  obtain ⟨j, -, stands', tokens, spans, formed⟩ :=
    (ParseM.statement_ends laid balanced start p stands).1 nodes q run
  exact ⟨.of_stands stands' (balanced.paired spans formed.paired), stands'.depth⟩

theorem InStep.blockRest (inStep : p.InStep source tabSize) (inside : 0 < p.depth)
    (steps more : Nat) :
    (∀ nodes q, ParseM.blockRest (ParseM.statement steps) more p = .ok nodes q →
      InStep source tabSize { q with depth := p.depth - 1 } ∧ q.depth = p.depth) ∧
    ∀ e q, ParseM.blockRest (ParseM.statement steps) more p = .error (.parse e) q →
      e.isDrift = false := by
  obtain ⟨front, next, laid, -⟩ := Lexer.answers_laid source tabSize
  obtain ⟨i, stands, balanced⟩ := inStep_iff.mp inStep
  obtain ⟨depth, same⟩ := Nat.exists_eq_add_one_of_ne_zero (Nat.ne_of_gt inside)
  rw [same] at stands balanced
  have each : ParseM.KeepsStep (Lexer.ofText source tabSize).answers 0 True
      (ParseM.statement steps) := fun j d _ balanced start =>
    (ParseM.statement_ends laid balanced start).mono (fun _ => trivial) fun _ _ _ => id
  have passed : 0 < i := by
    obtain ⟨tokens, spans, count⟩ := balanced
    cases tokens with
    | nil => simp [occurrences] at count
    | cons token tokens =>
      have := spans.place
      rw [List.length_cons] at this
      omega
  obtain ⟨succeeds, fails⟩ :=
    ParseM.blockRest_ends laid passed each (fun _ => trivial) balanced p stands
  constructor
  · intro nodes q run
    obtain ⟨j, -, stands', tokens, spans, closed⟩ := succeeds nodes q run
    rw [same, Nat.add_sub_cancel]
    exact ⟨.of_stands ⟨stands'.left, stands'.sound, rfl⟩ (closed.balanced balanced spans),
      stands'.depth⟩
  · intro e q run
    exact (fails _ q run).not_drift

end Parser

/-- Parsing a source never loses count of its blocks. -/
theorem parse_keeps_step (source : String) (tabSize : UInt64) :
    (∀ e, parse source tabSize = .error (.parse e) → e.isDrift = false) ∧
    (Parser.ofText source tabSize).InStep source tabSize ∧
    ∀ p : Parser, p.InStep source tabSize →
      p.Owed ∧
      (∀ token q, ParseM.advance p = .ok token q →
        Parser.InStep source tabSize { q with depth := token.kind.depthAfter p.depth }) ∧
      (∀ steps nodes q, ParseM.statement steps p = .ok nodes q →
        q.InStep source tabSize ∧ q.depth = p.depth) ∧
      (0 < p.depth → ∀ steps more,
        (∀ nodes q, ParseM.blockRest (ParseM.statement steps) more p = .ok nodes q →
          Parser.InStep source tabSize { q with depth := p.depth - 1 } ∧ q.depth = p.depth) ∧
        ∀ e q, ParseM.blockRest (ParseM.statement steps) more p = .error (.parse e) q →
          e.isDrift = false) := by
  obtain ⟨front, next, laid, -, few⟩ := Lexer.answers_laid source tabSize
  obtain ⟨-, fails⟩ := parse_ends laid few
  refine ⟨fun e failed => ?_, .of_stands stands_ofText (Answers.balanced_zero _), fun p inStep =>
    ⟨inStep.owed, fun token q => inStep.advance, fun steps nodes q => inStep.statement,
      inStep.blockRest⟩⟩
  exact (fails _ failed).not_drift

/-- After the block no block is open, and the line after it fails without a word of blocks. -/
theorem parse_keeps_step_block :
    let p := Parser.ofText "if x:\n  y\nz =\n" 8
    (∃ nodes q, ParseM.statement p.budget p = .ok nodes q ∧
      q.InStep "if x:\n  y\nz =\n" 8 ∧ q.depth = 0) ∧
    ∃ e, parse "if x:\n  y\nz =\n" 8 = .error (.parse e) ∧ e.isDrift = false := by
  intro p
  constructor
  · have done : (match ParseM.statement p.budget p with
        | .ok _ _ => true
        | .error _ _ => false) = true := by decide +kernel
    cases run : ParseM.statement p.budget p with
    | error e q =>
      rw [run] at done
      cases done
    | ok nodes q =>
      obtain ⟨-, start, keeps⟩ := parse_keeps_step "if x:\n  y\nz =\n" 8
      exact ⟨nodes, q, rfl, (keeps p start).2.2.1 _ nodes q run⟩
  · have failed : (match parse "if x:\n  y\nz =\n" 8 with
        | .error (.parse _) => true
        | _ => false) = true := by decide +kernel
    cases parsed : parse "if x:\n  y\nz =\n" 8 with
    | ok node =>
      rw [parsed] at failed
      cases failed
    | error e =>
      rw [parsed] at failed
      cases e with
      | parse e => exact ⟨e, rfl, (parse_keeps_step _ _).1 e parsed⟩
      | _ => cases failed

end Offside
