import Offside.Proofs.Parsing.Alike
import Offside.Proofs.Parsing.Consumption
import Offside.Proofs.Parsing.Outcome

/-!
# Semicolons, lines and suites

Simple statements on one line, split by semicolons, are parsed to the same trees as on lines of their own,
and behind a colon the rest of the line is the same suite as an indented block. The grammar has both forms
(`SimpleLine`, `Forms.indented`), so the trees are compared there, and `statement_reads` takes them back to
the parser: one call for the line, a call for each statement on a line of its own, and a program that
meets either goes on in the same way (`Parser.Precedes`).

A suite is taken with the whole statement around it. `SuitePlace` says what stands before and behind it,
which covers what the tokens behind a suite are read as (an `elif`, an `else`, or the next statement) and
suites within blocks.
-/

namespace Offside

/-! ### Statements on one line and on lines of their own -/

/-- What follows the first statement of a line: the others, each behind a semicolon, and a NEWLINE. -/
inductive Semicolons : List (List Token) → List Token → Prop
  | ended {newline : Token} : newline.kind = .newline → Semicolons [] [newline]
  | dangling {semicolon newline : Token} : semicolon.kind = .punct .semicolon →
      newline.kind = .newline → Semicolons [] [semicolon, newline]
  | more {semicolon : Token} {first rest items} : semicolon.kind = .punct .semicolon →
      Semicolons items rest → Semicolons (first :: items) (semicolon :: (first ++ rest))

/-- The tokens `S1 ; S2 ; … ; Sn NEWLINE`, with or without a last semicolon. -/
inductive OneLine : List (List Token) → List Token → Prop
  | intro {first rest items} : Semicolons items rest → OneLine (first :: items) (first ++ rest)

/-- The tokens `S1 NEWLINE S2 NEWLINE … Sn NEWLINE`. -/
inductive OwnLines : List (List Token) → List Token → Prop
  | nil : OwnLines [] []
  | cons {newline : Token} {first rest items} : newline.kind = .newline → OwnLines items rest →
      OwnLines (first :: items) (first ++ newline :: rest)

section

variable {items : List (List Token)} {tokens : List Token} {nodes : List Node}

theorem Semicolons.lineRest (h : Semicolons items tokens)
    (simple : List.Forall₂ SimpleStatement items nodes) : LineRest tokens nodes := by
  induction h generalizing nodes with
  | ended ended =>
    cases simple
    exact .ended (.inl ended)
  | dangling spelled ended =>
    cases simple
    exact .dangling spelled (.inl ended)
  | more spelled _ ih =>
    cases simple with
    | cons first rest => exact .more spelled first (ih rest)

theorem OneLine.simpleLine (h : OneLine items tokens)
    (simple : List.Forall₂ SimpleStatement items nodes) : SimpleLine tokens nodes := by
  cases h with
  | intro rest =>
    cases simple with
    | cons first others => exact .simple first (rest.lineRest others)

theorem OwnLines.forms (h : OwnLines items tokens)
    (simple : List.Forall₂ SimpleStatement items nodes) : Forms .statements tokens nodes := by
  induction h generalizing nodes with
  | nil =>
    cases simple
    exact .nil
  | @cons newline first rest items ended _ ih =>
    cases simple with
    | @cons _ node _ nodes simple others =>
      have whole := (Forms.line (simple.line ended)).cons (ih others)
      rwa [List.append_assoc] at whole

end

/-! ### Calls one after another -/

namespace Parser

variable {source : String} {tabSize : UInt64} {p q r : Parser} {nodes nodes' : List Node}

/-- Calls for a statement, one after the other, give these trees. -/
inductive Calls : Parser → List Node → Parser → Prop
  | done (p : Parser) : Calls p [] p
  | call {p q r : Parser} {nodes nodes' : List Node} : Parser.statement p = .ok nodes q →
      Calls q nodes' r → Calls p (nodes ++ nodes') r

theorem calls_of_ownLines {items : List (List Token)} {tokens : List Token} {later : Answers}
    (own : OwnLines items tokens) (simple : List.Forall₂ SimpleStatement items nodes)
    (reached : p.Reached source tabSize) (here : p.answers = later.after tokens) :
    ∃ q, p.Calls nodes q ∧ q.answers = later ∧ q.depth = p.depth := by
  induction own generalizing nodes p with
  | nil =>
    cases simple
    exact ⟨p, .done p, here, rfl⟩
  | @cons newline first rest items ended _ ih =>
    cases simple with
    | @cons _ node _ nodes simple others =>
      rw [List.append_cons, Answers.after_append] at here
      obtain ⟨q, run, left, depth⟩ := reached.line here (simple.line ended)
      obtain ⟨r, calls, left', depth'⟩ := ih others (reached.of_statement run) left
      exact ⟨r, .call run calls, left', depth'.trans depth⟩

/-- A program that goes on from the second state after the first gives these trees before the others, or
fails as it does from there. -/
structure Precedes (p : Parser) (nodes : List Node) (q : Parser) : Prop where
  ok : ∀ rest r, Parser.program q = .ok (.block rest 1) r →
    ∃ r', Parser.program p = .ok (.block (nodes ++ rest) 1) r'
  error : ∀ e r, Parser.program q = .error e r → ∃ r', Parser.program p = .error e r'

theorem Precedes.refl (p : Parser) : p.Precedes [] p := ⟨fun _ r run => ⟨r, run⟩, fun _ r run => ⟨r, run⟩⟩

theorem Precedes.trans (first : p.Precedes nodes q) (second : q.Precedes nodes' r) :
    p.Precedes (nodes ++ nodes') r := by
  constructor
  · intro rest s run
    obtain ⟨s', run'⟩ := second.ok rest s run
    obtain ⟨s'', run''⟩ := first.ok _ s' run'
    exact ⟨s'', by rw [run'', List.append_assoc]⟩
  · intro e s run
    obtain ⟨s', run'⟩ := second.error e s run
    exact first.error e s' run'

/-- The first round of a program is a statement. -/
theorem statements_of_statement {steps : Nat} (run : ParseM.statement steps p = .ok nodes q)
    (rounds : Nat) :
    ∃ q', ParseM.Prolongs.Agrees q q' ∧ ParseM.statements steps (rounds + 1) p = (do
      let rest ← ParseM.statements steps rounds
      return nodes ++ rest : ParseM (List Node)) q' := by
  obtain ⟨token, tokens, consumed, unended⟩ := statement_consumes run
  have found : p.answers.get 0 = .ok token := by
    rw [consumed]
    rfl
  have notDedent := not_dedent_of_statement found run
  obtain ⟨p', peeked, same, depth⟩ := ParseM.Reads.peek_head found p rfl
  obtain ⟨q', run', agrees⟩ :=
    ((ParseM.prolongs_statement (Nat.le_refl steps)).follows ⟨same, depth⟩).ok run
  have again := bind_of_ok (f := fun nodes : List Node => do
    let rest ← ParseM.statements steps rounds
    return nodes ++ rest) run'
  refine ⟨q', agrees, (bind_of_ok peeked).trans ?_⟩
  cases known : token.kind with
  | endMarker => exact absurd known unended
  | dedent => exact absurd known notDedent
  | _ => exact again

/-- A statement parsed by itself is parsed so in a program. -/
theorem precedes_of_statement (reached : p.Reached source tabSize)
    (run : Parser.statement p = .ok nodes q) : p.Precedes nodes q := by
  have reached' := reached.of_statement run
  obtain ⟨steps, le, le'⟩ : ∃ steps, p.budget ≤ steps ∧ q.budget ≤ steps :=
    ⟨max p.budget q.budget, Nat.le_max_left _ _, Nat.le_max_right _ _⟩
  rw [← reached.statement_returns.same (steps + 1) (by omega)] at run
  have whole := reached.program_returns.same (steps + 1) (by omega)
  have rest := reached'.program_returns.same steps le'
  obtain ⟨q', agrees, first⟩ := statements_of_statement run steps
  have follows := (ParseM.prolongs_statements (Nat.le_succ steps) (Nat.le_refl steps)).follows agrees
  constructor
  · intro others r parsed
    rw [← rest] at parsed
    obtain ⟨others', r, parsed, done⟩ := bind_ok parsed
    obtain ⟨same, rfl⟩ := pure_ok done
    cases same
    obtain ⟨r', parsed', -⟩ := follows.ok parsed
    refine ⟨r', whole.symm.trans ?_⟩
    rw [programWith, bind_of_ok (first.trans (bind_of_ok parsed'))]
    rfl
  · intro e r failed
    have settled : e ≠ .exhausted := by
      rintro rfl
      exact reached'.program_returns.settled r failed
    rw [← rest] at failed
    rcases bind_error failed with failed | ⟨_, _, -, failed⟩
    · obtain ⟨r', failed'⟩ := follows.error failed settled
      refine ⟨r', whole.symm.trans ?_⟩
      rw [programWith, bind_of_error (first.trans (bind_of_error failed'))]
    · cases failed

theorem Calls.precedes (calls : p.Calls nodes q) (reached : p.Reached source tabSize) :
    p.Precedes nodes q := by
  induction calls with
  | done p => exact .refl p
  | call run _ ih => exact (precedes_of_statement reached run).trans (ih (reached.of_statement run))

end Parser

/-! ### Suites -/

/-- A place for a suite within a phrase, also in a block inside it: the tokens before and after the suite,
and the tree around it. -/
inductive SuitePlace : Phrase → List Token → List Token → (Node → Node) → Prop
  | here : SuitePlace .suite [] [] id
  | block {colon newline indent dedent front back before after nodes nodes' wrap} :
      colon.kind = .punct .colon → newline.kind = .newline → indent.kind = .indent →
      dedent.kind = .dedent → Forms .statements front nodes →
      SuitePlace .statement before after wrap → Forms .statements back nodes' →
      SuitePlace .suite (colon :: newline :: indent :: (front ++ before)) (after ++ (back ++ [dedent]))
        fun body => .block (nodes ++ wrap body :: nodes') colon.pos.line
  | loop {word test before after condition wrap} : word.kind = .keyword .whileWord →
      Derives .or test condition → SuitePlace .suite before after wrap →
      SuitePlace .statement (word :: (test ++ before)) after
        fun body => .loop condition (wrap body) word.pos.line
  | function {word token opening name params result before after wrap}
      {items : List (List Token × String)} : word.kind = .keyword .defWord →
      token.kind = .identifier name → opening.kind = .punct .leftParen →
      Separated .rightParen (items.map Prod.fst) params →
      (∀ item ∈ items, Parameter item.1 item.2) → Trails .arrow result →
      SuitePlace .suite before after wrap →
      SuitePlace .statement (word :: token :: opening :: (params ++ result ++ before)) after
        fun body => .function name (items.map Prod.snd) (wrap body) word.pos.line
  | conditional {before after wrap} : SuitePlace (.conditional .ifWord) before after wrap →
      SuitePlace .statement before after wrap
  | only {word keyword test before after condition wrap} : word.kind = .keyword keyword →
      Derives .or test condition → SuitePlace .suite before after wrap →
      SuitePlace (.conditional keyword) (word :: (test ++ before)) after
        fun body => .branch condition (wrap body) (.noOp word.pos.line) word.pos.line
  | otherwise {word keyword test before after other suite condition wrap no} :
      word.kind = .keyword keyword → Derives .or test condition →
      SuitePlace .suite before after wrap → other.kind = .keyword .elseWord →
      Forms .suite suite [no] →
      SuitePlace (.conditional keyword) (word :: (test ++ before)) (after ++ other :: suite)
        fun body => .branch condition (wrap body) no word.pos.line
  | chained {word keyword test before after more condition wrap no} : word.kind = .keyword keyword →
      Derives .or test condition → SuitePlace .suite before after wrap →
      Forms (.conditional .elifWord) more [no] →
      SuitePlace (.conditional keyword) (word :: (test ++ before)) (after ++ more)
        fun body => .branch condition (wrap body) no word.pos.line
  | last {word keyword test suite other before after condition yes wrap} :
      word.kind = .keyword keyword → Derives .or test condition → Forms .suite suite [yes] →
      other.kind = .keyword .elseWord → SuitePlace .suite before after wrap →
      SuitePlace (.conditional keyword) (word :: (test ++ (suite ++ other :: before))) after
        fun body => .branch condition yes (wrap body) word.pos.line
  | inner {word keyword test suite before after condition yes wrap} : word.kind = .keyword keyword →
      Derives .or test condition → Forms .suite suite [yes] →
      SuitePlace (.conditional .elifWord) before after wrap →
      SuitePlace (.conditional keyword) (word :: (test ++ (suite ++ before))) after
        fun body => .branch condition yes (wrap body) word.pos.line

section

variable {phrase : Phrase} {before after : List Token} {wrap : Node → Node}

theorem SuitePlace.forms (place : SuitePlace phrase before after wrap) {suite : List Token} {body : Node}
    (formed : Forms .suite suite [body]) : Forms phrase (before ++ (suite ++ after)) [wrap body] := by
  induction place with
  | here => rwa [List.append_nil]
  | block isColon ended opens closes first _ rest ih =>
    have whole := Forms.indented isColon ended opens closes (first.append (ih.cons rest))
    simpa only [List.cons_append, List.nil_append, List.append_assoc] using whole
  | loop spelled derives _ ih =>
    simpa only [List.cons_append, List.append_assoc] using Forms.loop spelled derives ih
  | function spelled known opened separated each results _ ih =>
    have whole := Forms.function spelled known opened separated each results ih
    simpa only [List.cons_append, List.append_assoc] using whole
  | conditional _ ih => exact .conditional ih
  | only spelled derives _ ih =>
    simpa only [List.cons_append, List.append_assoc] using Forms.only spelled derives ih
  | otherwise spelled derives _ isElse no ih =>
    have whole := Forms.otherwise spelled derives ih isElse no
    simpa only [List.cons_append, List.append_assoc] using whole
  | chained spelled derives _ more ih =>
    simpa only [List.cons_append, List.append_assoc] using Forms.chained spelled derives ih more
  | last spelled derives yes isElse _ ih =>
    have whole := Forms.otherwise spelled derives yes isElse ih
    simpa only [List.cons_append, List.append_assoc] using whole
  | inner spelled derives yes _ ih =>
    simpa only [List.cons_append, List.append_assoc] using Forms.chained spelled derives yes ih

/-- Bodies that are the same up to lines have the same tree around them. -/
theorem SuitePlace.unlined (place : SuitePlace phrase before after wrap) {body body' : Node}
    (same : body'.unlined = body.unlined) : (wrap body').unlined = (wrap body).unlined := by
  unfold Node.unlined at same ⊢
  induction place with
  | here => exact same
  | conditional _ ih => exact ih
  | block _ _ _ _ _ _ _ ih =>
    simp only [Node.mapLine, Node.mapLines_eq_map, List.map_append, List.map_cons, ih]
  | loop _ _ _ ih | function _ _ _ _ _ _ _ ih | only _ _ _ ih | otherwise _ _ _ _ _ ih
  | chained _ _ _ _ ih | last _ _ _ _ _ ih | inner _ _ _ _ ih => simp only [Node.mapLine, ih]

end

/-! ### Interchange -/

/-- Wherever a parser stands before the tokens and `next` holds of the answers behind them, a call for a
statement consumes them and gives the trees, and so does a program on its way. -/
def ParsedTo (next : Answers → Prop) (tokens : List Token) (nodes : List Node) : Prop :=
  ∀ (source : String) (tabSize : UInt64) (p : Parser) (later : Answers), p.Reached source tabSize →
    p.answers = later.after tokens → next later →
    ∃ q, Parser.statement p = .ok nodes q ∧ q.answers = later ∧ q.depth = p.depth ∧ p.Precedes nodes q

theorem alike_items {items items' : List (List Token)}
    (kinds : items'.map (·.map Token.kind) = items.map (·.map Token.kind)) :
    List.Forall₂ (Token.Alike fun _ => 0) items items' := by
  rw [← List.forall₂_eq_eq_eq, List.forall₂_map_left_iff, List.forall₂_map_right_iff] at kinds
  exact kinds.flip.imp fun _ _ same => .of_kinds same

theorem simple_items {g : Nat → Nat} {items items' : List (List Token)} {nodes : List Node}
    (simple : List.Forall₂ SimpleStatement items nodes)
    (alike : List.Forall₂ (Token.Alike g) items items') :
    ∃ nodes', List.Forall₂ SimpleStatement items' nodes' ∧
      List.Forall₂ (Node.Resembles g) nodes nodes' := by
  induction simple generalizing items' with
  | nil =>
    cases alike
    exact ⟨[], .nil, .nil⟩
  | cons first _ ih =>
    cases alike with
    | cons here later =>
      obtain ⟨node', first', same⟩ := first.alike here
      obtain ⟨nodes', rest', each⟩ := ih later
      exact ⟨node' :: nodes', .cons first' rest', .cons same each⟩

theorem parsedTo_line {tokens : List Token} {nodes : List Node} (line : SimpleLine tokens nodes)
    (next : Answers → Prop) : ParsedTo next tokens nodes := by
  intro source tabSize p later reached here _
  obtain ⟨q, run, left, depth⟩ := reached.line here line
  exact ⟨q, run, left, depth, Parser.precedes_of_statement reached run⟩

theorem parsedTo_forms {tokens : List Token} {nodes : List Node} (formed : Forms .statement tokens nodes) :
    ParsedTo ParseM.Concludes tokens nodes := by
  intro source tabSize p later reached here concludes
  obtain ⟨q, run, left, depth⟩ :=
    reached.statement_of_reads here fun steps enough => formed.reads steps later enough concludes
  exact ⟨q, run, left, depth, Parser.precedes_of_statement reached run⟩

theorem map_unlined_of_resembles {nodes nodes' : List Node}
    (each : List.Forall₂ (Node.Resembles fun _ => 0) nodes nodes') :
    nodes'.map Node.unlined = nodes.map Node.unlined := by
  have lines := mapLines_of_resembles each
  rwa [Node.mapLines_eq_map, Node.mapLines_eq_map] at lines

/-- Simple statements on one line and on lines of their own are the same trees up to lines. Behind the
colon of a header the rest of the line and the indented block are the same suite, wherever in a statement
it stands. -/
theorem semicolons_interchange {items one own : List (List Token)} {nodes : List Node}
    (taken : List.Forall₂ TakenForStatement items nodes)
    (kinds : one.map (·.map Token.kind) = items.map (·.map Token.kind))
    (kinds' : own.map (·.map Token.kind) = items.map (·.map Token.kind))
    {line lines : List Token} (isLine : OneLine one line) (areLines : OwnLines own lines) :
    ∃ nodes₁ nodes₂ : List Node, nodes₁.map Node.unlined = nodes.map Node.unlined ∧
      nodes₂.map Node.unlined = nodes.map Node.unlined ∧
      ParsedTo (fun _ => True) line nodes₁ ∧
      (∀ source tabSize (p : Parser) later, p.Reached source tabSize → p.answers = later.after lines →
        ∃ q, p.Calls nodes₂ q ∧ q.answers = later ∧ q.depth = p.depth ∧ p.Precedes nodes₂ q) ∧
      ∀ {before before' after after' wrap}, SuitePlace .statement before after wrap →
        before'.map Token.kind = before.map Token.kind → after'.map Token.kind = after.map Token.kind →
        ∀ {colon colon' newline indent dedent : Token}, colon.kind = .punct .colon →
          colon'.kind = .punct .colon → newline.kind = .newline → indent.kind = .indent →
          dedent.kind = .dedent →
          ∃ tree, tree.unlined = (wrap (.block nodes₁ colon.pos.line)).unlined ∧
            ParsedTo ParseM.Concludes (before ++ (colon :: line ++ after))
              [wrap (.block nodes₁ colon.pos.line)] ∧
            ParsedTo ParseM.Concludes
              (before' ++ (colon' :: newline :: indent :: (lines ++ [dedent]) ++ after')) [tree] := by
  have simple : List.Forall₂ SimpleStatement items nodes := taken.imp fun _ _ taken => taken.simple
  obtain ⟨nodes₁, simple₁, same₁⟩ := simple_items simple (alike_items kinds)
  obtain ⟨nodes₂, simple₂, same₂⟩ := simple_items simple (alike_items kinds')
  have unlined₁ := map_unlined_of_resembles same₁
  have unlined₂ := map_unlined_of_resembles same₂
  refine ⟨nodes₁, nodes₂, unlined₁, unlined₂, parsedTo_line (isLine.simpleLine simple₁) _, ?_, ?_⟩
  · intro source tabSize p later reached here
    obtain ⟨q, calls, left, depth⟩ := Parser.calls_of_ownLines areLines simple₂ reached here
    exact ⟨q, calls, left, depth, calls.precedes reached⟩
  · intro before before' after after' wrap place same same' colon colon' newline indent dedent isColon
      isColon' ended opens closes
    have inline := place.forms (.inline isColon (isLine.simpleLine simple₁))
    have block := place.forms (.indented isColon' ended opens closes (areLines.forms simple₂))
    have again : (before' ++ (colon' :: newline :: indent :: (lines ++ [dedent]) ++ after')).map
        Token.kind = (before ++ (colon' :: newline :: indent :: (lines ++ [dedent]) ++ after)).map
        Token.kind := by
      rw [List.map_append, List.map_append, List.map_append, List.map_append, same, same']
    obtain ⟨_, block', each⟩ := block.alike (.of_kinds again)
    obtain ⟨tree, rfl, resembles⟩ := forall₂_single each
    have bodies : (Node.block nodes₂ colon'.pos.line).unlined =
        (Node.block nodes₁ colon.pos.line).unlined := by
      simp only [Node.unlined, Node.mapLine, Node.mapLines_eq_map]
      exact congrArg (Node.block · 0) (unlined₂.trans unlined₁.symm)
    exact ⟨tree, resembles.trans (place.unlined bodies), parsedTo_forms inline, parsedTo_forms block'⟩

/-- Two statements on a line with a last semicolon, and on two lines. -/
theorem semicolons_interchange_two : ∃ nodes₁ nodes₂ q q',
    nodes₁.map Node.unlined = [.identifier "x" 0, .noOp 0] ∧
    nodes₂.map Node.unlined = nodes₁.map Node.unlined ∧
    Parser.statement (.ofText "x ; pass ;\n" 8) = .ok nodes₁ q ∧
    (Parser.ofText "x\npass\n" 8).Calls nodes₂ q' := by
  have first : tokenize "x\n" 8 = .ok [⟨.identifier "x", "x", ⟨1, 1⟩⟩, ⟨.newline, "\n", ⟨1, 2⟩⟩,
      ⟨.endMarker, "", ⟨2, 1⟩⟩] := by decide +kernel
  have second : tokenize "pass\n" 8 = .ok [⟨.keyword .passWord, "pass", ⟨1, 1⟩⟩,
      ⟨.newline, "\n", ⟨1, 5⟩⟩, ⟨.endMarker, "", ⟨2, 1⟩⟩] := by decide +kernel
  have together : tokenize "x ; pass ;\n" 8 = .ok [⟨.identifier "x", "x", ⟨1, 1⟩⟩,
      ⟨.punct .semicolon, ";", ⟨1, 3⟩⟩, ⟨.keyword .passWord, "pass", ⟨1, 5⟩⟩,
      ⟨.punct .semicolon, ";", ⟨1, 10⟩⟩, ⟨.newline, "\n", ⟨1, 11⟩⟩, ⟨.endMarker, "", ⟨2, 1⟩⟩] := by
    decide +kernel
  have apart : tokenize "x\npass\n" 8 = .ok [⟨.identifier "x", "x", ⟨1, 1⟩⟩,
      ⟨.newline, "\n", ⟨1, 2⟩⟩, ⟨.keyword .passWord, "pass", ⟨2, 1⟩⟩, ⟨.newline, "\n", ⟨2, 5⟩⟩,
      ⟨.endMarker, "", ⟨3, 1⟩⟩] := by decide +kernel
  have taken : List.Forall₂ TakenForStatement _ _ :=
    .cons (.of_source (show tokenize _ 8 = .ok ([_] ++ [_] ++ [_]) from first) rfl
      (.expression ((Derives.identifier rfl).loosen (Nat.zero_le _))))
    (.cons (.of_source (show tokenize _ 8 = .ok ([_] ++ [_] ++ [_]) from second) rfl (.pass rfl)) .nil)
  obtain ⟨later, -, here⟩ :=
    Parser.answers_of_tokenize (show tokenize _ 8 = .ok ([_, _, _, _, _] ++ [_]) from together)
  obtain ⟨later', -, here'⟩ :=
    Parser.answers_of_tokenize (show tokenize _ 8 = .ok ([_, _, _, _] ++ [_]) from apart)
  have isLine : OneLine [[_], [_]] ([⟨.identifier "x", "x", ⟨1, 1⟩⟩] ++
      ⟨.punct .semicolon, ";", ⟨1, 3⟩⟩ :: ([⟨.keyword .passWord, "pass", ⟨1, 5⟩⟩] ++
        [⟨.punct .semicolon, ";", ⟨1, 10⟩⟩, ⟨.newline, "\n", ⟨1, 11⟩⟩])) :=
    .intro (.more rfl (.dangling rfl rfl))
  have areLines : OwnLines [[_], [_]] ([⟨.identifier "x", "x", ⟨1, 1⟩⟩] ++ ⟨.newline, "\n", ⟨1, 2⟩⟩ ::
      ([⟨.keyword .passWord, "pass", ⟨2, 1⟩⟩] ++ [⟨.newline, "\n", ⟨2, 5⟩⟩])) :=
    .cons rfl (.cons rfl .nil)
  obtain ⟨nodes₁, nodes₂, same₁, same₂, together, apart, -⟩ :=
    semicolons_interchange taken (by rfl) (by rfl) isLine areLines
  obtain ⟨q, run, -⟩ := together _ 8 _ later .fresh here trivial
  obtain ⟨q', calls, -⟩ := apart _ 8 _ later' .fresh here'
  exact ⟨nodes₁, nodes₂, q, q', same₁, same₂.trans same₁.symm, run, calls⟩

end Offside
