import Offside.Parser.Statement
import Offside.Proofs.Lexing.Settling
import Offside.Proofs.Parsing.Reads

/-!
# Parsing with more steps

`ParseM.Prolongs m m'` says that `m'` makes the moves of `m` and goes on where `m` has run out of steps.
Every program of the parser is prolonged by itself with more steps, so what holds of the moves holds of
all of them: a program asks the lexer again and again and does nothing else to it (`Prolongs.asks`), its
result is the same with more steps (`Prolongs.eq_of_ne_exhausted`), and it depends on nothing but the
answers and the depth (`Prolongs.follows`).
-/

namespace Offside

namespace ParseM

variable {α β : Type} {looks : Prop}

/-- A program in a block of its own, which is opened before it and closed after it. -/
def indented (m : ParseM α) (f : α → β) : ParseM β := do
  modify fun p => { p with depth := p.depth + 1 }
  let a ← m
  modify fun p => { p with depth := p.depth - 1 }
  return f a

/-- A program that makes sense in a block only. -/
def enclosed (e : ParseError) (m : ParseM α) : ParseM α := do
  if (← get).depth = 0 then fail e else m

section

variable {m m' : ParseM α} {f : α → β} {p q : Parser}

theorem enclosed_eq (e : ParseError) (m : ParseM α) (p : Parser) :
    enclosed e m p = if p.depth = 0 then .error (.parse e) p else m p := by
  show (if p.depth = 0 then fail e else m : ParseM α) p = _
  split <;> rfl

theorem indented_ok {b : β} (run : indented m f p = .ok b q) :
    ∃ a r, m { p with depth := p.depth + 1 } = .ok a r ∧ b = f a ∧
      q = { r with depth := r.depth - 1 } := by
  obtain ⟨a, r, inside, rest⟩ := bind_ok (m := m) run
  cases rest
  exact ⟨a, r, inside, rfl, rfl⟩

theorem indented_of_ok {a : α} (run : m { p with depth := p.depth + 1 } = .ok a q) :
    indented m f p = .ok (f a) { q with depth := q.depth - 1 } := bind_of_ok (m := m) run

theorem indented_error {e : SourceError} (run : m { p with depth := p.depth + 1 } = .error e q) :
    indented m f p = .error e q := bind_of_error (m := m) run

theorem indented_congr
    (same : m' { p with depth := p.depth + 1 } = m { p with depth := p.depth + 1 }) :
    indented m' f p = indented m f p := by
  show EStateM.bind m' _ _ = EStateM.bind m _ _
  rw [EStateM.bind, EStateM.bind, same]

theorem leaves_indented :
    (leaves (indented m f p)).stream = (leaves (m { p with depth := p.depth + 1 })).stream := by
  show (leaves (EStateM.bind m _ _)).stream = _
  rw [EStateM.bind]
  cases m { p with depth := p.depth + 1 } <;> rfl

end

/-- The second program makes the moves of the first and may go on where that has run out of steps. A
program sees of its state the tokens and, if it `looks` for it, whether a block is open. -/
inductive Prolongs (looks : Prop) : {α : Type} → ParseM α → ParseM α → Prop
  | exhausted {α : Type} (m : ParseM α) : Prolongs looks (throw .exhausted) m
  | pure {α : Type} (a : α) : Prolongs looks (pure a) (pure a)
  | fail {α : Type} (e : ParseError) : Prolongs looks (ParseM.fail (α := α) e) (ParseM.fail e)
  | peek (ahead : Nat) : Prolongs looks (ParseM.peek ahead) (ParseM.peek ahead)
  | advance : Prolongs looks ParseM.advance ParseM.advance
  | bind {α β : Type} {m m' : ParseM α} {f f' : α → ParseM β} : Prolongs looks m m' →
      (∀ a, Prolongs looks (f a) (f' a)) → Prolongs looks (m >>= f) (m' >>= f')
  | indented {α β : Type} {m m' : ParseM α} (f : α → β) : Prolongs looks m m' →
      Prolongs looks (ParseM.indented m f) (ParseM.indented m' f)
  | enclosed {α : Type} {m m' : ParseM α} (e : ParseError) : looks → Prolongs looks m m' →
      Prolongs looks (ParseM.enclosed e m) (ParseM.enclosed e m')

namespace Prolongs

theorem ite {c : Prop} [Decidable c] {a a' b b' : ParseM α} (yes : Prolongs looks a a')
    (no : Prolongs looks b b') : Prolongs looks (if c then a else b) (if c then a' else b') := by
  split
  · exact yes
  · exact no

theorem discard {m m' : ParseM β} {n n' : ParseM α} (first : Prolongs looks m m')
    (second : Prolongs looks n n') : Prolongs looks (do let _ ← m; n) (do let _ ← m'; n') :=
  .bind first fun _ => second

theorem unexpected (found : Token) (expected : Option Expected) :
    Prolongs looks (ParseM.unexpected (α := α) found expected)
      (ParseM.unexpected found expected) := .fail _

theorem eat (kind : Token.Kind) : Prolongs looks (ParseM.eat kind) (ParseM.eat kind) := by
  refine .bind (.peek 0) fun _ => ?_
  exact .ite (.discard .advance (.pure _)) (.pure _)

theorem expect (mark : Punct) : Prolongs looks (ParseM.expect mark) (ParseM.expect mark) :=
  .bind .advance fun _ => .ite (.pure _) (.unexpected _ _)

theorem name : Prolongs looks ParseM.name ParseM.name := by
  refine .bind .advance fun token => ?_
  cases token.kind with
  | identifier name => exact .pure name
  | _ => exact .unexpected _ _

theorem commaSeparated {closing : Punct} {item item' : ParseM α} {steps steps' : Nat}
    (le : steps ≤ steps') (each : Prolongs looks item item') :
    Prolongs looks (commaSeparated closing item steps) (commaSeparated closing item' steps') := by
  induction steps generalizing steps' with
  | zero => exact .exhausted _
  | succ steps ih =>
    obtain ⟨steps', rfl⟩ := Nat.exists_eq_add_one_of_ne_zero (n := steps') (by omega)
    refine .bind (.eat _) fun _ => .ite (.pure _) (.bind each fun _ => .bind .advance fun _ => ?_)
    exact .ite (.bind (ih (by omega)) fun _ => .pure _) (.ite (.pure _) (.unexpected _ _))

theorem wordOperator (token : Token) : Prolongs looks (wordOperator token) (wordOperator token) := by
  refine .ite (.bind (.peek 1) fun _ => .discard .advance (.ite (.discard .advance (.pure _)) (.pure _)))
    (.ite (.bind (.peek 1) fun _ => ?_) (.pure _))
  exact .ite (.discard .advance (.discard .advance (.pure _))) (.pure _)

theorem operatorAt (level : Level) : Prolongs looks (operatorAt level) (operatorAt level) := by
  refine .bind (.peek 0) fun token => ?_
  cases token.kind.operator? with
  | some op => exact .ite (.discard .advance (.pure _)) (.pure _)
  | none => exact .ite (.bind (.wordOperator _) fun _ => .pure _) (.pure _)

theorem chain {operator : ParseM (Option (BinaryOp × Nat))} {operand operand' : ParseM Node}
    {steps steps' : Nat} (le : steps ≤ steps') (operators : Prolongs looks operator operator)
    (operands : Prolongs looks operand operand') (left : Node) :
    Prolongs looks (chain operator operand steps left) (chain operator operand' steps' left) := by
  induction steps generalizing steps' left with
  | zero => exact .exhausted _
  | succ steps ih =>
    obtain ⟨steps', rfl⟩ := Nat.exists_eq_add_one_of_ne_zero (n := steps') (by omega)
    refine .bind operators fun found => ?_
    cases found with
    | none => exact .pure _
    | some => exact .bind operands fun _ => ih (by omega) _

theorem adjacent {steps steps' : Nat} (le : steps ≤ steps') (first : Value) :
    Prolongs looks (adjacent steps first) (adjacent steps' first) := by
  induction steps generalizing steps' first with
  | zero => exact .exhausted _
  | succ steps ih =>
    obtain ⟨steps', rfl⟩ := Nat.exists_eq_add_one_of_ne_zero (n := steps') (by omega)
    refine .bind (.peek 0) fun token => ?_
    have more : ∀ first, Prolongs looks (do let _ ← ParseM.advance; ParseM.adjacent steps first)
        (do let _ ← ParseM.advance; ParseM.adjacent steps' first) :=
      fun first => .discard .advance (ih (by omega) first)
    cases first <;> cases token.kind <;> first | exact .pure _ | exact .fail _ | exact more _

theorem atom {expression expression' : ParseM Node} {steps steps' : Nat} (le : steps ≤ steps')
    (inner : Prolongs looks expression expression') :
    Prolongs looks (atom expression steps) (atom expression' steps') := by
  refine .bind .advance fun token => ?_
  cases token.kind with
  | identifier name =>
    exact .bind (.eat _) fun _ => .ite (.bind (.commaSeparated le inner) fun _ => .pure _) (.pure _)
  | number => exact .pure _
  | str | bytes => exact .bind (.adjacent le _) fun _ => .pure _
  | keyword word => cases word <;> first | exact .pure _ | exact .unexpected _ _
  | punct mark =>
    cases mark with
    | leftParen => exact .bind inner fun _ => .discard (.expect _) (.pure _)
    | _ => exact .unexpected _ _
  | _ => exact .unexpected _ _

end Prolongs

/-! ### The programs of the parser -/

theorem prolongs_expressionAt {steps steps' : Nat} (le : steps ≤ steps') (level : Level) :
    Prolongs looks (expressionAt steps level) (expressionAt steps' level) := by
  induction steps generalizing steps' level with
  | zero => cases level <;> exact .exhausted _
  | succ steps ih =>
    obtain ⟨steps', rfl⟩ := Nat.exists_eq_add_one_of_ne_zero (n := steps') (by omega)
    have le : steps ≤ steps' := by omega
    cases level with
    | atom => exact .atom le (ih le _)
    | power =>
      refine .bind (ih le _) fun _ => .bind (.peek 0) fun _ => .ite ?_ (.pure _)
      exact .discard .advance (.bind (ih le _) fun _ => .pure _)
    | unary =>
      refine .bind (.peek 0) fun token => ?_
      cases token.kind.unaryOp? with
      | some op => exact .discard .advance (.bind (ih le _) fun _ => .pure _)
      | none => exact ih le _
    | _ => exact .bind (ih le _) fun _ => .chain le (.operatorAt _) (ih le _) _

section

variable {steps steps' : Nat} (le : steps ≤ steps')

include le

theorem prolongs_assignment (target : Token) (name : String) (op : Option BinaryOp) :
    Prolongs looks (assignment steps target name op) (assignment steps' target name op) :=
  .discard .advance (.bind .advance fun _ => .bind (prolongs_expressionAt le _) fun _ => .pure _)

theorem prolongs_expressionStatement (line : Nat) :
    Prolongs looks (expressionStatement steps line) (expressionStatement steps' line) := by
  refine .bind (prolongs_expressionAt le _) fun _ => .bind (.peek 0) fun token => ?_
  cases token.kind with
  | punct mark => exact .ite (.fail _) (.pure _)
  | _ => exact .pure _

theorem prolongs_simpleStatement : Prolongs looks (simpleStatement steps) (simpleStatement steps') := by
  refine .bind (.peek 0) fun token => ?_
  have expression : Prolongs looks (expressionStatement steps token.pos.line)
      (expressionStatement steps' token.pos.line) := prolongs_expressionStatement le _
  cases token.kind with
  | keyword word =>
    cases word <;> first
      | exact expression
      | exact .discard .advance (.pure _)
      | exact .fail _
  | identifier name =>
    refine .bind (.peek 1) fun next => ?_
    cases next.kind with
    | punct mark => exact .ite (prolongs_assignment le _ _ _) expression
    | _ => exact expression
  | _ => exact expression

theorem prolongs_lineRest {more more' : Nat} (le' : more ≤ more') :
    Prolongs looks (lineRest steps more) (lineRest steps' more') := by
  induction more generalizing more' with
  | zero => exact .exhausted _
  | succ more ih =>
    obtain ⟨more', rfl⟩ := Nat.exists_eq_add_one_of_ne_zero (n := more') (by omega)
    have again : Prolongs looks (lineRest steps more) (lineRest steps' more') := ih (by omega)
    refine .bind .advance fun token => ?_
    cases token.kind with
    | newline | endMarker => exact .pure _
    | punct mark =>
      cases mark with
      | semicolon =>
        refine .bind (.peek 0) fun _ => .ite again ?_
        exact .bind (prolongs_simpleStatement le) fun _ => .bind again fun _ => .pure _
      | _ => exact .unexpected _ _
    | _ => exact .unexpected _ _

theorem prolongs_simpleLine : Prolongs looks (simpleLine steps) (simpleLine steps') :=
  .bind (prolongs_simpleStatement le) fun _ => .bind (prolongs_lineRest le le) fun _ => .pure _

theorem prolongs_parameter : Prolongs looks (parameter steps) (parameter steps') := by
  have optional : ∀ (mark : Punct) {m m' : ParseM String}, Prolongs looks m m' →
      Prolongs looks (do
        if ← eat (.punct mark) then
          let _ ← expressionAt steps .or
        m) (do
        if ← eat (.punct mark) then
          let _ ← expressionAt steps' .or
        m') :=
    fun _ _ _ same => .bind (.eat _) fun _ => .ite (.discard (prolongs_expressionAt le _) same) same
  exact .bind .name fun _ => optional _ (optional _ (.pure _))

variable {statement statement' : ParseM (List Node)} (each : Prolongs looks statement statement')

include each

omit le in
theorem prolongs_blockRest {more more' : Nat} (le' : more ≤ more') :
    Prolongs looks (blockRest statement more) (blockRest statement' more') := by
  induction more generalizing more' with
  | zero => exact .exhausted _
  | succ more ih =>
    obtain ⟨more', rfl⟩ := Nat.exists_eq_add_one_of_ne_zero (n := more') (by omega)
    have rest : Prolongs looks (blockRest statement more) (blockRest statement' more') := ih (by omega)
    have again := Prolongs.bind each fun nodes => .bind rest fun rest => .pure (nodes ++ rest)
    refine .bind (.peek 0) fun token => ?_
    cases token.kind with
    | dedent => exact .discard .advance (.pure _)
    | endMarker => exact .unexpected _ _
    | _ => exact again

theorem prolongs_body (line : Nat) :
    Prolongs looks (body statement steps line) (body statement' steps' line) := by
  refine .bind (.peek 0) fun _ => .ite (.discard .advance (.bind .advance fun _ => .ite ?_ ?_)) ?_
  · exact .indented _ (prolongs_blockRest each le)
  · exact .unexpected _ _
  · exact .bind (prolongs_simpleLine le) fun _ => .pure _

theorem prolongs_colonBody :
    Prolongs looks (colonBody statement steps) (colonBody statement' steps') :=
  .bind (.expect _) fun _ => prolongs_body le each _

theorem prolongs_conditional {more more' : Nat} (le' : more ≤ more') (line : Nat) :
    Prolongs looks (conditional statement steps more line) (conditional statement' steps' more' line) := by
  induction more generalizing more' line with
  | zero => exact .exhausted _
  | succ more ih =>
    obtain ⟨more', rfl⟩ := Nat.exists_eq_add_one_of_ne_zero (n := more') (by omega)
    refine .bind (prolongs_expressionAt le _) fun _ => .bind (prolongs_colonBody le each) fun _ =>
      .bind (.peek 0) fun _ => .ite ?_ (.ite ?_ (.pure _))
    · exact .discard .advance (.bind (ih (by omega) _) fun _ => .pure _)
    · exact .discard .advance (.bind (prolongs_colonBody le each) fun _ => .pure _)

theorem prolongs_definition (line : Nat) :
    Prolongs looks (definition statement steps line) (definition statement' steps' line) := by
  refine .bind .name fun _ => .discard (.expect _) (.bind (.commaSeparated le (prolongs_parameter le))
    fun _ => .bind (.eat _) fun _ => ?_)
  have rest := fun name params => Prolongs.bind (prolongs_colonBody le each) fun body =>
    .pure (Node.function name params body line)
  exact .ite (.discard (prolongs_expressionAt le _) (rest _ _)) (rest _ _)

end

theorem prolongs_statement {steps steps' : Nat} (le : steps ≤ steps') :
    Prolongs looks (statement steps) (statement steps') := by
  induction steps generalizing steps' with
  | zero => exact .exhausted _
  | succ steps ih =>
    obtain ⟨steps', rfl⟩ := Nat.exists_eq_add_one_of_ne_zero (n := steps') (by omega)
    have le : steps ≤ steps' := by omega
    refine .bind (.peek 0) fun token => ?_
    cases token.kind with
    | keyword word =>
      cases word with
      | ifWord => exact .discard .advance (.bind (prolongs_conditional le (ih le) le _) fun _ => .pure _)
      | whileWord =>
        exact .discard .advance (.bind (prolongs_expressionAt le _) fun _ =>
          .bind (prolongs_colonBody le (ih le)) fun _ => .pure _)
      | defWord => exact .discard .advance (.bind (prolongs_definition le (ih le) _) fun _ => .pure _)
      | _ => exact prolongs_simpleLine le
    | newline => exact .discard .advance (.pure _)
    | indent | dedent => exact .fail _
    | _ => exact prolongs_simpleLine le

theorem prolongs_statements {steps steps' more more' : Nat} (le : steps ≤ steps')
    (le' : more ≤ more') : Prolongs True (statements steps more) (statements steps' more') := by
  induction more generalizing more' with
  | zero => exact .exhausted _
  | succ more ih =>
    obtain ⟨more', rfl⟩ := Nat.exists_eq_add_one_of_ne_zero (n := more') (by omega)
    have rest : Prolongs True (statements steps more) (statements steps' more') := ih (by omega)
    have again := Prolongs.bind (prolongs_statement le) fun nodes =>
      .bind rest fun rest => .pure (nodes ++ rest)
    refine .bind (.peek 0) fun token => ?_
    cases token.kind with
    | endMarker => exact .pure _
    | dedent => exact .enclosed _ trivial again
    | _ => exact again

/-! ### What holds of the moves -/

namespace Prolongs

variable {m m' : ParseM α} {p p' q : Parser} {a : α}

theorem asks_read (s : Stream) (count : Nat) :
    ∃ calls, (leaves (s.read count)).lexer = s.lexer.asked calls := by
  induction count generalizing s with
  | zero => exact ⟨0, rfl⟩
  | succ count ih =>
    have first : s.lexer.asked 1 = s.lexer.ask.2 := rfl
    rw [Stream.read]
    cases asked : s.lexer.next with
    | error e lexer => exact ⟨1, by rw [first, Lexer.ask, asked]; rfl⟩
    | ok token lexer =>
      obtain ⟨calls, same⟩ := ih { lexer, buffer := s.buffer ++ [token] }
      refine ⟨1 + calls, same.trans ?_⟩
      rw [Lexer.asked_add, first, Lexer.ask, asked]

theorem asks_peek (s : Stream) (ahead : Nat) :
    ∃ calls, (leaves (s.peek ahead)).lexer = s.lexer.asked calls := by
  obtain ⟨calls, same⟩ := asks_read s (ahead + 1 - s.buffer.length)
  refine ⟨calls, Eq.trans ?_ same⟩
  rw [Stream.peek]
  cases s.read (ahead + 1 - s.buffer.length) <;> rfl

theorem asks_advance (s : Stream) : ∃ calls, (leaves s.advance).lexer = s.lexer.asked calls := by
  rw [Stream.advance]
  cases s.buffer with
  | cons token later => exact ⟨0, rfl⟩
  | nil =>
    refine ⟨1, ?_⟩
    have first : s.lexer.asked 1 = s.lexer.ask.2 := rfl
    rw [first, Lexer.ask]
    cases s.lexer.next <;> rfl

theorem leaves_onStream (move : Stream → Stream.Outcome α) (p : Parser) :
    (leaves (onStream move p)).stream = leaves (move p.stream) := by
  rw [onStream]
  cases move p.stream <;> rfl

/-- A program asks the lexer a number of times and does nothing else to it. -/
theorem asks (prolongs : Prolongs True m m') (p : Parser) :
    ∃ calls, (leaves (m p)).stream.lexer = p.stream.lexer.asked calls := by
  induction prolongs generalizing p with
  | exhausted | pure | fail => exact ⟨0, rfl⟩
  | peek ahead =>
    rw [ParseM.peek, leaves_onStream]
    exact asks_peek p.stream ahead
  | advance =>
    rw [ParseM.advance, leaves_onStream]
    exact asks_advance p.stream
  | @bind _ _ m _ f _ _ _ ih ih' =>
    obtain ⟨calls, first⟩ := ih p
    cases run : m p with
    | ok a q =>
      obtain ⟨more, second⟩ := ih' a q
      rw [run] at first
      have first : q.stream.lexer = _ := first
      rw [bind_of_ok run]
      exact ⟨calls + more, second.trans (by rw [first, Lexer.asked_add])⟩
    | error e q =>
      rw [run] at first
      rw [bind_of_error run]
      exact ⟨calls, first⟩
  | indented f _ ih =>
    rw [leaves_indented]
    exact ih { p with depth := p.depth + 1 }
  | enclosed e _ _ ih =>
    rw [enclosed_eq]
    split
    · exact ⟨0, rfl⟩
    · exact ih p

/-- A program that does not run out of steps does the same with more of them. -/
theorem eq_of_ne_exhausted (prolongs : Prolongs True m m') (p : Parser)
    (enough : ∀ q, m p ≠ .error .exhausted q) : m' p = m p := by
  induction prolongs generalizing p with
  | exhausted => exact absurd rfl (enough p)
  | pure | fail | peek | advance => rfl
  | @bind _ _ m _ f _ _ _ ih ih' =>
    have first := ih p fun q failed => enough q (bind_of_error failed)
    cases run : m p with
    | ok a q =>
      rw [run] at first
      rw [bind_of_ok run] at enough ⊢
      rw [bind_of_ok first, ih' a q enough]
    | error e q =>
      rw [run] at first
      rw [bind_of_error run, bind_of_error first]
  | indented f _ ih =>
    exact indented_congr (ih _ fun q failed => enough q (indented_error failed))
  | enclosed e _ _ ih =>
    rw [enclosed_eq] at enough ⊢
    rw [enclosed_eq]
    split
    · rfl
    · next inside =>
      rw [if_neg inside] at enough
      exact ih p enough

/-- What a program consumes are tokens. -/
theorem consumes (prolongs : Prolongs True m m') (run : m p = .ok a q) :
    ∃ tokens, p.answers = q.answers.after tokens := by
  induction prolongs generalizing p q with
  | exhausted | fail => cases run
  | pure =>
    obtain ⟨-, rfl⟩ := pure_ok run
    exact ⟨[], rfl⟩
  | peek => exact ⟨[], (Parser.peek_ok run).1.symm⟩
  | advance => exact ⟨[a], (Parser.advance_ok run).1⟩
  | bind _ _ ih ih' =>
    obtain ⟨b, r, first, second⟩ := bind_ok run
    obtain ⟨tokens, consumed⟩ := ih first
    obtain ⟨later, consumed'⟩ := ih' b second
    exact ⟨tokens ++ later, by rw [consumed, consumed', ← Answers.after_append]⟩
  | indented f _ ih =>
    obtain ⟨a, r, inside, rfl, rfl⟩ := indented_ok run
    obtain ⟨tokens, consumed⟩ := ih inside
    exact ⟨tokens, consumed⟩
  | enclosed e _ _ ih =>
    rw [enclosed_eq] at run
    split at run
    · cases run
    · exact ih run

/-- A program that succeeds leaves as many blocks open as there were. -/
theorem keeps_depth (prolongs : Prolongs True m m') (run : m p = .ok a q) : q.depth = p.depth := by
  induction prolongs generalizing p q with
  | exhausted | fail => cases run
  | pure =>
    obtain ⟨-, rfl⟩ := pure_ok run
    rfl
  | peek => exact (Parser.peek_ok run).2.1
  | advance => exact (Parser.advance_ok run).2
  | bind _ _ ih ih' =>
    obtain ⟨b, r, first, second⟩ := bind_ok run
    exact (ih' b second).trans (ih first)
  | indented f _ ih =>
    obtain ⟨a, r, inside, rfl, rfl⟩ := indented_ok run
    exact congrArg Nat.pred (ih inside)
  | enclosed e _ _ ih =>
    rw [enclosed_eq] at run
    split at run
    · cases run
    · exact ih run

/-- The lexer may have been asked for more or for fewer tokens before. -/
structure Agrees (p p' : Parser) : Prop where
  answers : p'.answers = p.answers
  depth : p'.depth = p.depth

/-- The second program does the same wherever the first does not run out of steps. -/
structure Follows (m m' : ParseM α) (p p' : Parser) : Prop where
  ok : ∀ {a q}, m p = .ok a q → ∃ q', m' p' = .ok a q' ∧ Agrees q q'
  error : ∀ {e q}, m p = .error e q → e ≠ .exhausted → ∃ q', m' p' = .error e q'

theorem follows_peek (same : Agrees p p') (ahead : Nat) :
    Follows (ParseM.peek ahead) (ParseM.peek ahead) p p' := by
  constructor
  · intro token q run
    obtain ⟨left, depth, before, found⟩ := Parser.peek_ok run
    rw [← same.answers] at before found left
    obtain ⟨q', run', left', depth'⟩ := Reads.peek before found p' rfl
    exact ⟨q', run', left'.trans left.symm, by rw [depth', depth, same.depth]⟩
  · intro e q run _
    obtain ⟨e, rfl, failed⟩ := Parser.peek_error run
    cases run' : ParseM.peek ahead p' with
    | ok token q' =>
      have before := (Parser.peek_ok run').2.2.1
      rw [same.answers] at before
      obtain ⟨_, _, peeked⟩ := Parser.peek_of_answers before
      rw [run] at peeked
      cases peeked
    | error e' q' =>
      obtain ⟨e', rfl, failed'⟩ := Parser.peek_error run'
      rw [same.answers] at failed'
      rw [failed.unique failed']
      exact ⟨q', rfl⟩

theorem follows_advance (same : Agrees p p') : Follows ParseM.advance ParseM.advance p p' := by
  constructor
  · intro token q run
    obtain ⟨split, depth⟩ := Parser.advance_ok run
    rw [← same.answers] at split
    obtain ⟨q', run', left', depth'⟩ := Reads.advance token q.answers p' split
    exact ⟨q', run', left', by rw [depth', depth, same.depth]⟩
  · intro e q run _
    obtain ⟨e, rfl, failed⟩ := Parser.advance_error run
    cases run' : ParseM.advance p' with
    | ok token q' =>
      have split := (Parser.advance_ok run').1
      rw [same.answers] at split
      obtain ⟨_, moved⟩ := Parser.advance_of_answers (p := p) (by rw [split]; rfl)
      rw [run] at moved
      cases moved
    | error e' q' =>
      obtain ⟨e', rfl, failed'⟩ := Parser.advance_error run'
      rw [same.answers] at failed'
      rw [failed.unique failed']
      exact ⟨q', rfl⟩

theorem Follows.bind {m m' : ParseM α} {f f' : α → ParseM β} (first : Follows m m' p p')
    (second : ∀ {a q q'}, Agrees q q' → Follows (f a) (f' a) q q') :
    Follows (m >>= f) (m' >>= f') p p' := by
  constructor
  · intro b r run
    obtain ⟨a, q, run, rest⟩ := bind_ok run
    obtain ⟨q', run', same⟩ := first.ok run
    obtain ⟨r', rest', same'⟩ := (second same).ok rest
    exact ⟨r', (bind_of_ok run').trans rest', same'⟩
  · intro e r run enough
    rcases bind_error run with failed | ⟨a, q, run, rest⟩
    · obtain ⟨q', failed'⟩ := first.error failed enough
      exact ⟨q', bind_of_error failed'⟩
    · obtain ⟨q', run', same⟩ := first.ok run
      obtain ⟨r', rest'⟩ := (second same).error rest enough
      exact ⟨r', (bind_of_ok run').trans rest'⟩

theorem follows_pure (a : α) (same : Agrees p p') :
    Follows (Pure.pure a) (Pure.pure a) p p' := by
  constructor
  · intro b q run
    obtain ⟨rfl, rfl⟩ := pure_ok run
    exact ⟨p', rfl, same⟩
  · intro e q run
    cases run

theorem follows_resize (change : Nat → Nat) (same : Agrees p p') :
    Follows (modify fun p => { p with depth := change p.depth })
      (modify fun p => { p with depth := change p.depth }) p p' := by
  constructor
  · intro u q run
    cases run
    exact ⟨_, rfl, same.answers, congrArg change same.depth⟩
  · intro e q run
    cases run

/-- A program depends on nothing but the answers and the depth, and on its steps only where it runs out
of them. -/
theorem follows (prolongs : Prolongs True m m') (same : Agrees p p') : Follows m m' p p' := by
  induction prolongs generalizing p p' with
  | exhausted =>
    constructor
    · intro a q run
      cases run
    · intro e q run enough
      cases run
      exact absurd rfl enough
  | pure a => exact follows_pure a same
  | fail e =>
    constructor
    · intro a q run
      cases run
    · intro e' q run _
      cases run
      exact ⟨p', rfl⟩
  | peek ahead => exact follows_peek same ahead
  | advance => exact follows_advance same
  | bind _ _ ih ih' => exact (ih same).bind fun same => ih' _ same
  | indented f _ ih =>
    exact (follows_resize (· + 1) same).bind fun same => (ih same).bind fun same =>
      (follows_resize (· - 1) same).bind fun same => follows_pure _ same
  | enclosed e _ _ ih =>
    constructor
    · intro a q run
      rw [enclosed_eq] at run ⊢
      split at run
      · cases run
      · next inside =>
        rw [same.depth, if_neg inside]
        exact (ih same).ok run
    · intro e' q run enough
      rw [enclosed_eq] at run ⊢
      split at run
      · next outside =>
        cases run
        exact ⟨p', if_pos (same.depth.trans outside)⟩
      · next inside =>
        rw [same.depth, if_neg inside]
        exact (ih same).error run enough

end Prolongs

end ParseM

end Offside
