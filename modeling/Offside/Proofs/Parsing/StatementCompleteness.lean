import Offside.Proofs.Parsing.Completeness
import Offside.Proofs.Parsing.StatementGrammar

/-!
# Every statement of the grammar is parsed

`Forms.reads` shows that the parser finds the trees of every statement that the grammar allows and stops
after its tokens, given steps enough. A conditional goes on where `elif` or `else` follows it, and every
other statement has an end of its own.
-/

namespace Offside

/-! ### Where statements start -/

/-- The keywords that stand in expressions. -/
def Keyword.isTerm : Keyword → Bool
  | .inWord | .isWord | .notWord | .andWord | .orWord | .trueWord | .falseWord | .noneWord => true
  | _ => false

/-- Whether the token is one of those that an expression is written with. -/
def Token.Kind.isTerm : Token.Kind → Bool
  | .newline | .indent | .dedent | .endMarker => false
  | .keyword word => word.isTerm
  | .punct mark => !ParseM.assigns mark
  | _ => true

/-- An expression holds no mark that assigns and no word that begins a statement. -/
theorem Derives.terms {level : Level} {tokens : List Token} {node : Node}
    (h : Derives level tokens node) : ∀ token ∈ tokens, token.kind.isTerm = true := by
  induction h with
  | tighter _ ih => exact ih
  | @binary level op left mark marks right a b _ _ spelled _ _ _ ihLeft ihRight =>
    have operator : ∀ token ∈ mark :: marks, token.kind.isTerm = true :=
      kinds_of_map spelled (by cases op <;> decide)
    exact kinds_append ihLeft (kinds_append operator ihRight)
  | power spelled _ _ ihBase ihExponent =>
    exact kinds_append ihBase (kinds_cons spelled rfl ihExponent)
  | @unary mark op operand a spelled _ ih =>
    exact kinds_cons spelled (by cases op <;> rfl) ih
  | call spelled opened separated _ ih =>
    refine kinds_cons spelled rfl (kinds_cons opened rfl ?_)
    refine separated.kinds rfl rfl fun item member => ?_
    obtain ⟨part, inside, rfl⟩ := List.mem_map.mp member
    exact ih part inside
  | identifier spelled | number spelled => exact kinds_single spelled rfl
  | @constant _ word _ spelled known =>
    exact kinds_single spelled (by cases word <;> first | rfl | cases known)
  | text spelled adjacent =>
    exact kinds_cons spelled rfl (kinds_of_map adjacent (by simp [Token.Kind.isTerm]))
  | bytes spelled adjacent =>
    exact kinds_cons spelled rfl (kinds_of_map adjacent (by simp [Token.Kind.isTerm]))
  | parenthesized opened closed _ ih =>
    exact kinds_cons opened rfl (kinds_append ih (kinds_single closed rfl))

/-- Whether a simple statement may start with the token. -/
def Token.Kind.isStart (kind : Token.Kind) : Bool :=
  match kind with
  | .keyword .passWord => true
  | kind => kind.isTerm

theorem SimpleStatement.starts {tokens : List Token} {node : Node} (h : SimpleStatement tokens node) :
    ∃ token rest, tokens = token :: rest ∧ token.kind.isStart = true := by
  have ofTerm : ∀ {kind : Token.Kind}, kind.isTerm = true → kind.isStart = true := by
    intro kind term
    unfold Token.Kind.isStart
    split
    · rfl
    · exact term
  cases h with
  | pass spelled => exact ⟨_, _, rfl, by rw [spelled]; rfl⟩
  | expression value =>
    obtain ⟨token, rest, rfl, -⟩ := value.starts
    exact ⟨token, rest, rfl, ofTerm (value.terms token List.mem_cons_self)⟩
  | assign target | augment target => exact ⟨_, _, rfl, by rw [target]; rfl⟩

theorem Parameter.starts {tokens : List Token} {name : String} (h : Parameter tokens name) :
    ∃ token rest, tokens = token :: rest ∧ token.kind ≠ .punct .rightParen := by
  cases h with
  | named known => exact ⟨_, _, rfl, by simp [known]⟩

/-- The tokens that a statement may start with: not in the middle of a conditional, and neither outside
its block nor past the end. -/
def Token.Kind.isHead : Token.Kind → Bool
  | .indent | .dedent | .endMarker | .keyword .elifWord | .keyword .elseWord => false
  | _ => true

theorem Token.Kind.isHead_of_isStart {kind : Token.Kind} (start : kind.isStart = true) :
    kind.isHead = true := by
  cases kind with
  | keyword word => cases word <;> first | rfl | cases start
  | newline | indent | dedent | endMarker => cases start
  | _ => rfl

theorem SimpleLine.starts {tokens : List Token} {nodes : List Node} (h : SimpleLine tokens nodes) :
    ∃ token rest, tokens = token :: rest ∧ token.kind.isStart = true := by
  cases h with
  | simple first =>
    obtain ⟨token, rest, rfl, start⟩ := first.starts
    exact ⟨token, _, rfl, start⟩

theorem Forms.starts {tokens : List Token} {nodes : List Node} (h : Forms .statement tokens nodes) :
    ∃ token rest, tokens = token :: rest ∧ token.kind.isHead = true := by
  cases h with
  | line line =>
    obtain ⟨token, rest, rfl, start⟩ := line.starts
    exact ⟨token, rest, rfl, Token.Kind.isHead_of_isStart start⟩
  | blank spelled => exact ⟨_, _, rfl, by rw [spelled]; rfl⟩
  | conditional formed =>
    cases formed with
    | only spelled | otherwise spelled | chained spelled => exact ⟨_, _, rfl, by rw [spelled]; rfl⟩
  | loop spelled | function spelled => exact ⟨_, _, rfl, by rw [spelled]; rfl⟩

/-! ### Lines -/

namespace ParseM

variable {later : Answers} {tokens : List Token} {steps : Nat} {node : Node} {nodes : List Node}

theorem expression_reads (derives : Derives .or tokens node) (enough : 12 * tokens.length + 12 ≤ steps)
    (ends : Level.or.EndsBefore later) :
    (expressionAt steps .or).Reads (later.after tokens) node later :=
  derives.reads steps later ((Level.or.steps_le tokens).trans enough) ends

/-- What may follow a simple statement. -/
def Parts (later : Answers) : Prop :=
  ∃ next, later.get 0 = .ok next ∧ (next.IsLineEnd ∨ next.kind = .punct .semicolon)

theorem Parts.ends (parts : Parts later) : Level.or.EndsBefore later := by
  obtain ⟨next, found, (ended | ended) | semicolon⟩ := parts
  · exact ⟨next, found, by rw [ended]; rfl⟩
  · exact ⟨next, found, by rw [ended]; rfl⟩
  · exact ⟨next, found, by rw [semicolon]; rfl⟩

theorem Parts.plain (parts : Parts later) : ∃ next, later.get 0 = .ok next ∧
    ∀ mark, next.kind = .punct mark → assigns mark = false := by
  obtain ⟨next, found, (ended | ended) | semicolon⟩ := parts
  · exact ⟨next, found, fun mark same => by rw [ended] at same; cases same⟩
  · exact ⟨next, found, fun mark same => by rw [ended] at same; cases same⟩
  · refine ⟨next, found, fun mark same => ?_⟩
    rw [semicolon] at same
    cases same
    rfl

theorem expressionStatement_reads (derives : Derives .or tokens node)
    (enough : 12 * tokens.length + 12 ≤ steps) (parts : Parts later) (line : Nat) :
    (expressionStatement steps line).Reads (later.after tokens) node later := by
  obtain ⟨next, found, plain⟩ := parts.plain
  apply (expression_reads derives enough parts.ends).bind
  apply (Reads.peek_head found).bind
  cases known : next.kind with
  | punct mark =>
    simp only [plain mark known, Bool.false_eq_true, if_false]
    exact Reads.pure _ later
  | _ => exact Reads.pure _ later

theorem assignment_reads (target mark : Token) {name : String} (op : Option BinaryOp)
    (derives : Derives .or tokens node) (enough : 12 * tokens.length + 12 ≤ steps)
    (ends : Level.or.EndsBefore later) :
    (assignment steps target name op).Reads (later.after (target :: mark :: tokens))
      (.assign name (match op with
        | some op => .binary op (.identifier name target.pos.line) node mark.pos.line
        | none => node) target.pos.line) later := by
  apply (Reads.advance target _).bind
  apply (Reads.advance mark _).bind
  apply (expression_reads derives enough ends).bind
  exact Reads.pure _ later

theorem simpleStatement_reads (simple : SimpleStatement tokens node)
    (enough : 12 * tokens.length + 12 ≤ steps) (parts : Parts later) :
    (simpleStatement steps).Reads (later.after tokens) node later := by
  cases simple with
  | @pass token spelled =>
    apply (Reads.peek_head rfl).bind
    simp only [spelled]
    exact (Reads.advance token later).bind (Reads.pure _ later)
  | expression derives =>
    obtain ⟨token, rest, rfl, -⟩ := derives.starts
    have expression := expressionStatement_reads derives enough parts token.pos.line
    apply (Reads.peek_head rfl).bind
    have term := derives.terms token List.mem_cons_self
    cases known : token.kind with
    | keyword word =>
      rw [known] at term
      cases word <;> first | exact expression | cases term
    | identifier name =>
      -- The token after a name is one of the expression, or the one that ends it.
      have second : ∃ next, (later.after (token :: rest)).get 1 = .ok next ∧
          ∀ mark, next.kind = .punct mark → assigns mark = false := by
        cases rest with
        | nil => exact parts.plain
        | cons next rest =>
          refine ⟨next, rfl, fun mark same => ?_⟩
          have term := derives.terms next (List.mem_cons_of_mem _ List.mem_cons_self)
          rw [same] at term
          simpa [Token.Kind.isTerm] using term
      obtain ⟨next, found, plain⟩ := second
      apply (Reads.peek _ found).bind
      · cases knownNext : next.kind with
        | punct mark =>
          simp only [plain mark knownNext, Bool.false_eq_true, if_false]
          exact expression
        | _ => exact expression
      · intro i le
        match i, le with
        | 0, _ => exact ⟨token, rfl⟩
        | 1, _ => exact ⟨next, found⟩
    | _ => exact expression
  | @assign target mark name tokens value known spelled derives =>
    rw [List.length_cons, List.length_cons] at enough
    have few : 12 * tokens.length + 12 ≤ steps := by omega
    apply (Reads.peek_head rfl).bind
    simp only [known]
    apply (peek_second target mark _).bind
    simp only [spelled, if_pos (show assigns .assign = true from rfl)]
    exact assignment_reads target mark none derives few parts.ends
  | @augment target mark punct name op tokens value known spelled augmented derives =>
    rw [List.length_cons, List.length_cons] at enough
    have few : 12 * tokens.length + 12 ≤ steps := by omega
    have assigned : assigns punct = true := by simp [assigns, augmented]
    apply (Reads.peek_head rfl).bind
    simp only [known]
    apply (peek_second target mark _).bind
    simp only [spelled, if_pos assigned, augmented]
    exact assignment_reads target mark (some op) derives few parts.ends

theorem parts_of_lineRest (h : LineRest tokens nodes) (later : Answers) : Parts (later.after tokens) := by
  cases h with
  | ended ends => exact ⟨_, rfl, .inl ends⟩
  | dangling spelled | more spelled => exact ⟨_, rfl, .inr spelled⟩

theorem lineRest_reads (rest : LineRest tokens nodes) {rounds : Nat} (few : tokens.length ≤ rounds)
    (enough : 12 * tokens.length + 12 ≤ steps) :
    (lineRest steps rounds).Reads (later.after tokens) nodes later := by
  have ended : ∀ {rounds : Nat} {token : Token}, token.IsLineEnd →
      (lineRest steps (rounds + 1)).Reads (later.after [token]) [] later := by
    intro rounds token ends
    apply (Reads.advance token later).bind
    rcases ends with ends | ends <;> simp only [ends] <;> exact Reads.pure _ later
  induction rest generalizing rounds with
  | ended ends =>
    obtain ⟨rounds, rfl⟩ := Nat.exists_eq_add_one_of_ne_zero (Nat.ne_zero_of_lt few)
    exact ended ends
  | @dangling semicolon token spelled ends =>
    rw [List.length_cons, List.length_singleton] at few
    obtain ⟨rounds, rfl⟩ := Nat.exists_eq_add_of_le' few
    apply (Reads.advance semicolon _).bind
    simp only [spelled]
    apply (Reads.peek_head rfl).bind
    have ends' : token.kind = .newline ∨ token.kind = .endMarker := ends
    simp only [if_pos ends']
    exact ended ends
  | @more semicolon first rest node nodes spelled simple more ih =>
    rw [List.length_cons, List.length_append] at few enough
    obtain ⟨rounds, rfl⟩ := Nat.exists_eq_add_one_of_ne_zero (n := rounds) (by omega)
    apply (Reads.advance semicolon _).bind
    simp only [spelled]
    obtain ⟨token, others, rfl, start⟩ := simple.starts
    have goesOn : ¬(token.kind = .newline ∨ token.kind = .endMarker) := by
      rintro (same | same) <;> rw [same] at start <;> cases start
    rw [Answers.after_append]
    apply (Reads.peek_head rfl).bind
    simp only [if_neg goesOn]
    apply (simpleStatement_reads simple (by omega) (parts_of_lineRest more later)).bind
    apply (ih (by omega) (by omega)).bind
    exact Reads.pure _ later

theorem simpleLine_reads (line : SimpleLine tokens nodes) (enough : 12 * tokens.length + 12 ≤ steps) :
    (simpleLine steps).Reads (later.after tokens) nodes later := by
  cases line with
  | simple first rest =>
    rw [List.length_append] at enough
    rw [Answers.after_append]
    apply (simpleStatement_reads first (by omega) (parts_of_lineRest rest later)).bind
    apply (lineRest_reads rest (by omega) (by omega)).bind
    exact Reads.pure _ later

/-! ### Parameters -/

theorem optional_reads {mark : Punct} {m : ParseM α} {a : α} {middle : Answers} {next : Token}
    (trails : Trails mark tokens) (enough : 12 * tokens.length + 12 ≤ steps)
    (found : middle.get 0 = .ok next) (other : next.kind ≠ .punct mark)
    (ends : Level.or.endsBefore next.kind = true) (rest : m.Reads middle a later) :
    (do
      if ← eat (.punct mark) then
        let _ ← expressionAt steps .or
      m).Reads (middle.after tokens) a later := by
  cases trails with
  | none => exact (Reads.eat_of_ne found other).bind rest
  | some spelled derives =>
    rw [List.length_cons] at enough
    apply (Reads.eat_of_eq spelled).bind
    exact (expression_reads derives (by omega) ⟨next, found, ends⟩).bind rest

theorem parameter_reads {name : String} (parameter : Parameter tokens name)
    (enough : 12 * tokens.length + 12 ≤ steps) (lists : Lists .rightParen later) :
    (ParseM.parameter steps).Reads (later.after tokens) name later := by
  obtain ⟨next, found, listed⟩ := lists
  cases parameter with
  | @named token _ note value known notes values =>
    rw [List.length_cons, List.length_append] at enough
    have few : 12 * note.length + 12 ≤ steps := by omega
    have few' : 12 * value.length + 12 ≤ steps := by omega
    have named : ParseM.name.Reads ((later.after (note ++ value)).after [token]) name
        (later.after (note ++ value)) := by
      apply (Reads.advance token _).bind
      simp only [known]
      exact Reads.pure _ _
    have ends : Level.or.endsBefore next.kind = true := by
      rcases listed with same | same <;> rw [same] <;> rfl
    have last := optional_reads values few' found
      (by rcases listed with same | same <;> simp [same]) ends (Reads.pure name later)
    apply named.bind
    rw [Answers.after_append]
    cases values with
    | none =>
      exact optional_reads notes few found (by rcases listed with same | same <;> simp [same]) ends last
    | some spelled _ =>
      exact optional_reads notes few rfl (by simp [spelled]) (by rw [spelled]; rfl) last

/-! ### Statements -/

/-- No conditional goes on in the answers. -/
def Concludes (later : Answers) : Prop :=
  ∃ next, later.get 0 = .ok next ∧ next.kind ≠ .keyword .elifWord ∧ next.kind ≠ .keyword .elseWord

/-- The parser finds the trees of a phrase. The statements of a block are read with the DEDENT behind
them, and what begins with `if` or `elif` is read behind that word. -/
def ReadsPhrase : Phrase → List Token → List Node → Prop
  | .statement, tokens, nodes => ∀ steps later, 12 * tokens.length + 13 ≤ steps → Concludes later →
      (statement steps).Reads (later.after tokens) nodes later
  | .statements, tokens, nodes => ∀ steps rounds later dedent, dedent.kind = .dedent →
      12 * tokens.length + 13 ≤ steps → tokens.length < rounds →
      (blockRest (statement steps) rounds).Reads (later.after (tokens ++ [dedent])) nodes later
  | .suite, tokens, nodes => ∃ node, nodes = [node] ∧
      ∀ steps later, 12 * tokens.length + 12 ≤ steps →
        (colonBody (statement steps) steps).Reads (later.after tokens) node later
  | .conditional keyword, tokens, nodes => ∃ node word rest, nodes = [node] ∧ tokens = word :: rest ∧
      word.kind = .keyword keyword ∧
      ∀ steps rounds later, 12 * tokens.length + 12 ≤ steps → tokens.length ≤ rounds →
        Concludes later →
        (conditional (statement steps) steps rounds word.pos.line).Reads (later.after rest) node later

theorem concludes_of_head {token : Token} {rest : List Token} (head : token.kind.isHead = true) :
    Concludes (later.after (token :: rest)) := by
  refine ⟨token, rfl, fun same => ?_, fun same => ?_⟩ <;> rw [same] at head <;> cases head

/-- In a block a statement ends before the next one, and the last one before the DEDENT. -/
theorem concludes_of_statements (formed : Forms .statements tokens nodes) {dedent : Token}
    (closes : dedent.kind = .dedent) : Concludes (later.after (tokens ++ [dedent])) := by
  cases formed with
  | nil => exact ⟨dedent, rfl, by simp [closes], by simp [closes]⟩
  | cons first rest =>
    obtain ⟨token, others, rfl, head⟩ := first.starts
    exact concludes_of_head head

theorem statement_reads_line (line : SimpleLine tokens nodes) (enough : 12 * tokens.length + 13 ≤ steps) :
    (statement steps).Reads (later.after tokens) nodes later := by
  obtain ⟨steps, rfl⟩ := Nat.exists_eq_add_one_of_ne_zero (n := steps) (by omega)
  obtain ⟨token, rest, rfl, start⟩ := line.starts
  have simple : (simpleLine steps).Reads (later.after (token :: rest)) nodes later :=
    simpleLine_reads line (by omega)
  apply (Reads.peek_head rfl).bind
  cases known : token.kind with
  | keyword word =>
    rw [known] at start
    cases word <;> first | exact simple | cases start
  | newline | indent | dedent | endMarker =>
    rw [known] at start
    cases start
  | _ => exact simple

theorem statement_of_blank {token : Token} (spelled : token.kind = .newline) :
    ReadsPhrase .statement [token] [.noOp token.pos.line] := by
  intro steps later enough _
  obtain ⟨steps, rfl⟩ := Nat.exists_eq_add_one_of_ne_zero (n := steps) (by omega)
  apply (Reads.peek_head rfl).bind
  simp only [spelled]
  exact (Reads.advance token later).bind (Reads.pure _ later)

theorem block_nil : ReadsPhrase .statements [] [] := by
  intro steps rounds later dedent closes _ few
  obtain ⟨rounds, rfl⟩ := Nat.exists_eq_add_one_of_ne_zero (n := rounds) (by omega)
  apply (Reads.peek_head rfl).bind
  simp only [closes]
  exact (Reads.advance dedent later).bind (Reads.pure _ later)

theorem block_cons {first rest : List Token} {nodes nodes' : List Node}
    (formed : Forms .statement first nodes) (formed' : Forms .statements rest nodes')
    (read : ReadsPhrase .statement first nodes) (read' : ReadsPhrase .statements rest nodes') :
    ReadsPhrase .statements (first ++ rest) (nodes ++ nodes') := by
  intro steps rounds later dedent closes enough few
  rw [List.length_append] at enough few
  obtain ⟨rounds, rfl⟩ := Nat.exists_eq_add_one_of_ne_zero (n := rounds) (by omega)
  obtain ⟨token, others, rfl, head⟩ := formed.starts
  rw [List.length_cons] at enough few
  have again : (do
      let nodes ← statement steps
      let rest ← blockRest (statement steps) rounds
      return nodes ++ rest).Reads ((later.after (rest ++ [dedent])).after (token :: others))
        (nodes ++ nodes') later := by
    apply (read steps _ (by rw [List.length_cons]; omega) (concludes_of_statements formed' closes)).bind
    apply (read' steps rounds later dedent closes (by omega) (by omega)).bind
    exact Reads.pure _ later
  rw [List.append_assoc, Answers.after_append]
  apply (Reads.peek_head rfl).bind
  cases known : token.kind with
  | dedent | endMarker =>
    rw [known] at head
    cases head
  | _ => exact again

/-- A program inside a block that is opened before it and closed after it. -/
theorem Reads.indented {before middle : Answers} {m : ParseM α} {f : α → ParseM β} {a : α} {b : β}
    (inner : m.Reads before a middle) (next : (f a).Reads middle b later) :
    (do
      modify fun p => { p with depth := p.depth + 1 }
      let a ← m
      modify fun p => { p with depth := p.depth - 1 }
      f a : ParseM β).Reads before b later := by
  intro p same
  obtain ⟨q, run, left, depth⟩ := inner { p with depth := p.depth + 1 } same
  have depth : q.depth = p.depth + 1 := depth
  obtain ⟨r, run', left', depth'⟩ := next { q with depth := q.depth - 1 } left
  have depth' : r.depth = q.depth - 1 := depth'
  refine ⟨r, (bind_of_ok (m := m) run).trans run', left', ?_⟩
  omega

theorem suite_of_line {colon : Token} (spelled : colon.kind = .punct .colon)
    (line : SimpleLine tokens nodes) :
    ReadsPhrase .suite (colon :: tokens) [.block nodes colon.pos.line] := by
  refine ⟨_, rfl, fun steps later enough => ?_⟩
  rw [List.length_cons] at enough
  obtain ⟨token, rest, rfl, start⟩ := line.starts
  have goesOn : token.kind ≠ .newline := by
    intro same
    rw [same] at start
    cases start
  apply (Reads.expect spelled).bind
  apply (Reads.peek_head rfl).bind
  rw [if_neg goesOn]
  apply (simpleLine_reads line (by omega)).bind
  exact Reads.pure _ later

theorem suite_of_block {colon newline indent dedent : Token} (spelled : colon.kind = .punct .colon)
    (ended : newline.kind = .newline) (opens : indent.kind = .indent) (closes : dedent.kind = .dedent)
    (read : ReadsPhrase .statements tokens nodes) :
    ReadsPhrase .suite (colon :: newline :: indent :: (tokens ++ [dedent]))
      [.block nodes colon.pos.line] := by
  refine ⟨_, rfl, fun steps later enough => ?_⟩
  simp only [List.length_cons, List.length_append, List.length_nil] at enough
  apply (Reads.expect spelled).bind
  apply (Reads.peek_head rfl).bind
  rw [if_pos ended]
  apply (Reads.advance newline _).bind
  apply (Reads.advance indent _).bind
  rw [if_pos opens]
  exact Reads.indented (read steps steps later dedent closes (by omega) (by omega)) (Reads.pure _ later)

/-- What stands before a suite ends at its colon. -/
theorem ends_of_suite (formed : Forms .suite tokens nodes) (later : Answers) :
    ∃ colon, (later.after tokens).get 0 = .ok colon ∧ colon.kind = .punct .colon := by
  cases formed with
  | inline spelled | indented spelled => exact ⟨_, rfl, spelled⟩

theorem condition_reads {test suite : List Token} {condition : Node} {bodies : List Node}
    (derives : Derives .or test condition) (formed : Forms .suite suite bodies)
    (enough : 12 * test.length + 12 ≤ steps) :
    (expressionAt steps .or).Reads ((later.after suite).after test) condition (later.after suite) := by
  obtain ⟨colon, found, spelled⟩ := ends_of_suite formed later
  exact expression_reads derives enough ⟨colon, found, by rw [spelled]; rfl⟩

variable {word : Token} {test suite : List Token} {condition : Node}

theorem statement_of_loop {body : Node} (spelled : word.kind = .keyword .whileWord)
    (derives : Derives .or test condition) (formed : Forms .suite suite [body])
    (read : ReadsPhrase .suite suite [body]) :
    ReadsPhrase .statement (word :: (test ++ suite)) [.loop condition body word.pos.line] := by
  intro steps later enough _
  rw [List.length_cons, List.length_append] at enough
  obtain ⟨steps, rfl⟩ := Nat.exists_eq_add_one_of_ne_zero (n := steps) (by omega)
  obtain ⟨_, same, read⟩ := read
  cases same
  apply (Reads.peek_head rfl).bind
  simp only [spelled]
  apply (Reads.advance word _).bind
  rw [Answers.after_append]
  apply (condition_reads derives formed (by omega)).bind
  apply (read steps later (by omega)).bind
  exact Reads.pure _ later

theorem statement_of_conditional (read : ReadsPhrase (.conditional .ifWord) tokens nodes) :
    ReadsPhrase .statement tokens nodes := by
  intro steps later enough concludes
  obtain ⟨steps, rfl⟩ := Nat.exists_eq_add_one_of_ne_zero (n := steps) (by omega)
  obtain ⟨node, word, rest, rfl, rfl, spelled, read⟩ := read
  apply (Reads.peek_head rfl).bind
  simp only [spelled]
  apply (Reads.advance word _).bind
  apply (read steps steps later (by omega) (by omega) concludes).bind
  exact Reads.pure _ later

theorem statement_of_function {token opening : Token} {name : String} {params result : List Token}
    {items : List (List Token × String)} {body : Node} (spelled : word.kind = .keyword .defWord)
    (known : token.kind = .identifier name) (opened : opening.kind = .punct .leftParen)
    (separated : Separated .rightParen (items.map Prod.fst) params)
    (each : ∀ item ∈ items, Parameter item.1 item.2) (results : Trails .arrow result)
    (formed : Forms .suite suite [body]) (read : ReadsPhrase .suite suite [body]) :
    ReadsPhrase .statement (word :: token :: opening :: (params ++ result ++ suite))
      [.function name (items.map Prod.snd) body word.pos.line] := by
  intro steps later enough _
  simp only [List.length_cons, List.length_append] at enough
  obtain ⟨steps, rfl⟩ := Nat.exists_eq_add_one_of_ne_zero (n := steps) (by omega)
  obtain ⟨_, same, read⟩ := read
  cases same
  have named : ParseM.name.Reads ((later.after (opening :: (params ++ result ++ suite))).after [token])
      name (later.after (opening :: (params ++ result ++ suite))) := by
    apply (Reads.advance token _).bind
    simp only [known]
    exact Reads.pure _ _
  have parameters : ∀ part ∈ items,
      (∃ token rest, part.1 = token :: rest ∧ token.kind ≠ .punct .rightParen) ∧
        ∀ later, Lists .rightParen later →
          (ParseM.parameter steps).Reads (later.after part.1) part.2 later := by
    intro part member
    have fits := separated.length_le (List.mem_map.mpr ⟨part, member, rfl⟩)
    exact ⟨(each part member).starts,
      fun later lists => parameter_reads (each part member) (by omega) lists⟩
  obtain ⟨colon, found, isColon⟩ := ends_of_suite formed later
  apply (Reads.peek_head rfl).bind
  simp only [spelled]
  apply (Reads.advance word _).bind
  refine Reads.bind ?_ (Reads.pure _ later)
  apply named.bind
  apply (Reads.expect opened).bind
  rw [List.append_assoc, Answers.after_append, Answers.after_append]
  apply (lists_reads separated parameters (by decide) (by omega)).bind
  have rest : (do
      let body ← colonBody (statement steps) steps
      return Node.function name (items.map Prod.snd) body word.pos.line).Reads (later.after suite)
        (.function name (items.map Prod.snd) body word.pos.line) later :=
    (read steps later (by omega)).bind (Reads.pure _ later)
  exact optional_reads results (by omega) found (by simp [isColon]) (by rw [isColon]; rfl) rest

variable {keyword : Keyword} {yes : Node}

theorem conditional_only (spelled : word.kind = .keyword keyword) (derives : Derives .or test condition)
    (formed : Forms .suite suite [yes]) (read : ReadsPhrase .suite suite [yes]) :
    ReadsPhrase (.conditional keyword) (word :: (test ++ suite))
      [.branch condition yes (.noOp word.pos.line) word.pos.line] := by
  refine ⟨_, word, _, rfl, rfl, spelled, fun steps rounds later enough few concludes => ?_⟩
  rw [List.length_cons, List.length_append] at enough few
  obtain ⟨rounds, rfl⟩ := Nat.exists_eq_add_one_of_ne_zero (n := rounds) (by omega)
  obtain ⟨_, same, read⟩ := read
  cases same
  obtain ⟨next, found, notElif, notElse⟩ := concludes
  rw [Answers.after_append]
  apply (condition_reads derives formed (by omega)).bind
  apply (read steps later (by omega)).bind
  apply (Reads.peek_head found).bind
  rw [if_neg notElif, if_neg notElse]
  exact Reads.pure _ later

theorem conditional_otherwise {other : Token} {suite' : List Token} {no : Node}
    (spelled : word.kind = .keyword keyword) (derives : Derives .or test condition)
    (formed : Forms .suite suite [yes]) (read : ReadsPhrase .suite suite [yes])
    (isElse : other.kind = .keyword .elseWord) (read' : ReadsPhrase .suite suite' [no]) :
    ReadsPhrase (.conditional keyword) (word :: (test ++ (suite ++ other :: suite')))
      [.branch condition yes no word.pos.line] := by
  refine ⟨_, word, _, rfl, rfl, spelled, fun steps rounds later enough few _ => ?_⟩
  simp only [List.length_cons, List.length_append] at enough few
  obtain ⟨rounds, rfl⟩ := Nat.exists_eq_add_one_of_ne_zero (n := rounds) (by omega)
  obtain ⟨_, same, read⟩ := read
  cases same
  obtain ⟨_, same, read'⟩ := read'
  cases same
  have notElif : other.kind ≠ .keyword .elifWord := by simp [isElse]
  rw [Answers.after_append, Answers.after_append]
  apply (condition_reads derives formed (by omega)).bind
  apply (read steps _ (by omega)).bind
  apply (Reads.peek_head rfl).bind
  rw [if_neg notElif, if_pos isElse]
  apply (Reads.advance other _).bind
  apply (read' steps later (by omega)).bind
  exact Reads.pure _ later

theorem conditional_chained {more : List Token} {no : Node}
    (spelled : word.kind = .keyword keyword) (derives : Derives .or test condition)
    (formed : Forms .suite suite [yes]) (read : ReadsPhrase .suite suite [yes])
    (read' : ReadsPhrase (.conditional .elifWord) more [no]) :
    ReadsPhrase (.conditional keyword) (word :: (test ++ (suite ++ more)))
      [.branch condition yes no word.pos.line] := by
  refine ⟨_, word, _, rfl, rfl, spelled, fun steps rounds later enough few concludes => ?_⟩
  simp only [List.length_cons, List.length_append] at enough few
  obtain ⟨rounds, rfl⟩ := Nat.exists_eq_add_one_of_ne_zero (n := rounds) (by omega)
  obtain ⟨_, same, read⟩ := read
  cases same
  obtain ⟨_, next, rest, same, rfl, isElif, read'⟩ := read'
  cases same
  rw [Answers.after_append, Answers.after_append]
  apply (condition_reads derives formed (by omega)).bind
  apply (read steps _ (by omega)).bind
  apply (Reads.peek_head rfl).bind
  rw [if_pos isElif]
  apply (Reads.advance next _).bind
  apply (read' steps rounds later (by omega) (by omega) concludes).bind
  exact Reads.pure _ later

end ParseM

/-- The parser finds every tree that the grammar of statements allows. -/
theorem Forms.reads {phrase : Phrase} {tokens : List Token} {nodes : List Node}
    (h : Forms phrase tokens nodes) : ParseM.ReadsPhrase phrase tokens nodes := by
  induction h with
  | nil => exact ParseM.block_nil
  | cons first rest ih ih' => exact ParseM.block_cons first rest ih ih'
  | line line => exact fun steps later enough _ => ParseM.statement_reads_line line enough
  | blank spelled => exact ParseM.statement_of_blank spelled
  | conditional _ ih => exact ParseM.statement_of_conditional ih
  | loop spelled derives formed ih => exact ParseM.statement_of_loop spelled derives formed ih
  | function spelled known opened separated each results formed ih =>
    exact ParseM.statement_of_function spelled known opened separated each results formed ih
  | inline spelled line => exact ParseM.suite_of_line spelled line
  | indented spelled ended opens closes _ ih => exact ParseM.suite_of_block spelled ended opens closes ih
  | only spelled derives formed ih => exact ParseM.conditional_only spelled derives formed ih
  | otherwise spelled derives formed isElse _ ih ih' =>
    exact ParseM.conditional_otherwise spelled derives formed ih isElse ih'
  | chained spelled derives formed _ ih ih' =>
    exact ParseM.conditional_chained spelled derives formed ih ih'

end Offside
