import Offside.Proofs.Parsing.Blocks

/-!
# How long parsing programs last

`ParseM.Lasts` says of a program that starts where so many tokens are left when it may run out of steps,
and what it leaves of them. Unlike `ParseM.Ends` it asks nothing of the answers but that their tokens
come to an end, so it holds also where errors have been passed over. The rules follow the moves a parser
is made of; every loop takes one of the tokens left in each round.
-/

namespace Offside

theorem Answers.Bounded.drop {answers : Answers} {left j : Nat} (bounded : answers.Bounded left)
    (sound : answers.Sound j) : Answers.Bounded (answers.drop j) (left - j) := by
  intro i token found unended
  have get := found.get
  rw [Stream'.get_drop] at get
  have all : answers.Sound (j + i) := by
    intro n lt
    by_cases before : n < j
    · exact sound n before
    · obtain ⟨k, rfl⟩ := Nat.exists_eq_add_of_le (Nat.le_of_not_lt before)
      obtain ⟨token', found'⟩ := found.sound k (by omega)
      exact ⟨token', by rwa [Stream'.get_drop] at found'⟩
  have := bounded (j + i) token ⟨all, get⟩ unended
  omega

namespace ParseM

variable {α β : Type} {left steps : Nat} {short : Prop}

/-- The program runs out of steps only if they are `short` where so many tokens are left, and says what
it leaves of them. -/
def Lasts (left : Nat) (short : Prop) (m : ParseM α) (good : α → Nat → Prop) : Prop :=
  ∀ p : Parser, p.answers.Bounded left →
    (∀ a q, m p = .ok a q → ∃ less ≤ left, q.answers.Bounded less ∧ good a less) ∧
      ∀ q, m p = .error .exhausted q → short

/-- The program lasts and consumes one of the tokens that are left. -/
def Progresses (left : Nat) (short : Prop) (m : ParseM α) : Prop :=
  Lasts left short m fun _ less => less < left

/-- The program lasts. -/
def Ceases (left : Nat) (short : Prop) (m : ParseM α) : Prop := Lasts left short m fun _ _ => True

namespace Lasts

variable {good : α → Nat → Prop}

theorem pure {a : α} (h : good a left) : Lasts left short (pure a) good := by
  intro p bounded
  constructor
  · intro b q run
    obtain ⟨rfl, rfl⟩ := pure_ok run
    exact ⟨left, Nat.le_refl left, bounded, h⟩
  · intro q run
    cases run

theorem fail {e : ParseError} : Lasts left short (ParseM.fail e) good := by
  intro p _
  constructor
  · intro a q run
    cases run
  · intro q run
    cases run

theorem unexpected {token : Token} {expected : Option Expected} :
    Lasts left short (ParseM.unexpected token expected) good := fail

theorem exhausted (h : short) : Lasts left short (throw SourceError.exhausted) good := by
  intro p _
  constructor
  · intro a q run
    cases run
  · intro q _
    exact h

theorem bind {m : ParseM α} {f : α → ParseM β} {good' : β → Nat → Prop}
    (first : Lasts left short m good)
    (second : ∀ a less, less ≤ left → good a less → Lasts less short (f a) good') :
    Lasts left short (m >>= f) good' := by
  intro p bounded
  obtain ⟨succeeds, fails⟩ := first p bounded
  constructor
  · intro b r run
    obtain ⟨a, q, run, rest⟩ := bind_ok run
    obtain ⟨less, le, bounded', known⟩ := succeeds a q run
    obtain ⟨least, le', bounded'', known'⟩ := (second a less le known q bounded').1 b r rest
    exact ⟨least, Nat.le_trans le' le, bounded'', known'⟩
  · intro r run
    rcases bind_error run with run | ⟨a, q, run, rest⟩
    · exact fails r run
    · obtain ⟨less, le, bounded', known⟩ := succeeds a q run
      exact (second a less le known q bounded').2 r rest

theorem stuck {token : Token} {expected : Option Expected} {f : α → ParseM β}
    {good' : β → Nat → Prop} : Lasts left short (ParseM.unexpected token expected >>= f) good' := by
  have none : Lasts left short (ParseM.unexpected (α := α) token expected) fun _ _ => False :=
    unexpected
  exact none.bind fun _ _ _ wrong => wrong.elim

theorem mono {short' : Prop} {m : ParseM α} {good' : α → Nat → Prop} (h : Lasts left short m good)
    (shorter : short → short') (weaker : ∀ a less, less ≤ left → good a less → good' a less) :
    Lasts left short' m good' := by
  intro p bounded
  obtain ⟨succeeds, fails⟩ := h p bounded
  constructor
  · intro a q run
    obtain ⟨less, le, bounded', known⟩ := succeeds a q run
    exact ⟨less, le, bounded', weaker a less le known⟩
  · exact fun q run => shorter (fails q run)

/-- How a program ends at a place of the answers says how it ends before what is left of them. -/
theorem of_ends {m : ParseM α} {lacking : Answers → Prop} {reached : Answers → α → Nat → Prop}
    (ends : ∀ answers depth, Ends answers 0 depth (lacking answers) m (reached answers))
    (shorter : ∀ answers, answers.Bounded left → lacking answers → short)
    (fewer : ∀ answers a j, answers.Bounded left → reached answers a j → good a (left - j)) :
    Lasts left short m good := by
  intro p bounded
  have here : p.Stands p.answers 0 p.depth := ⟨rfl, p.answers.sound_zero, rfl⟩
  obtain ⟨succeeds, fails⟩ := ends p.answers p.depth p here
  constructor
  · intro a q run
    obtain ⟨j, -, stands, known⟩ := succeeds a q run
    refine ⟨left - j, Nat.sub_le left j, ?_, fewer p.answers a j bounded known⟩
    rw [stands.left]
    exact bounded.drop stands.sound
  · exact fun q run => shorter p.answers bounded (fails _ q run)

variable {f : Token → ParseM α}

theorem peek (next : ∀ token, (token.kind ≠ .endMarker → 0 < left) →
      Lasts left short (f token) good) :
    Lasts left short (ParseM.peek 0 >>= f) good := by
  have look : Lasts left short (ParseM.peek 0)
      fun token less => less = left ∧ (token.kind ≠ .endMarker → 0 < left) := by
    intro p bounded
    constructor
    · intro token q run
      obtain ⟨same, -, -, found⟩ := Parser.peek_ok run
      refine ⟨left, Nat.le_refl left, same ▸ bounded, rfl, bounded 0 token ⟨?_, found⟩⟩
      exact p.answers.sound_zero
    · intro q run
      obtain ⟨e, wrong, -⟩ := Parser.peek_error run
      cases wrong
  apply look.bind
  intro token less _ known
  obtain ⟨rfl, some⟩ := known
  exact next token some

theorem advance (next : ∀ token, (token.kind ≠ .endMarker → 0 < left) →
      Lasts (left - 1) short (f token) good) :
    Lasts left short (ParseM.advance >>= f) good := by
  have move : Lasts left short ParseM.advance
      fun token less => less = left - 1 ∧ (token.kind ≠ .endMarker → 0 < left) := by
    intro p bounded
    constructor
    · intro token q run
      obtain ⟨split, -⟩ := Parser.advance_ok run
      have found : p.answers.get 0 = .ok token := by rw [split]; rfl
      have rest : q.answers = p.answers.drop 1 := by rw [split]; rfl
      have some := bounded 0 token ⟨p.answers.sound_zero, found⟩
      refine ⟨left - 1, Nat.sub_le left 1, ?_, rfl, some⟩
      rw [rest]
      exact bounded.drop (p.answers.sound_zero.succ found)
    · intro q run
      obtain ⟨e, wrong, -⟩ := Parser.advance_error run
      cases wrong
  apply move.bind
  intro token less _ known
  obtain ⟨rfl, some⟩ := known
  exact next token some

/-- To consume a token that was looked at. -/
theorem skip {m : ParseM α} (next : Lasts (left - 1) short m good) :
    Lasts left short (ParseM.advance >>= fun _ => m) good := advance fun _ _ => next

theorem eat {mark : Punct} {f : Bool → ParseM α}
    (yes : 0 < left → Lasts (left - 1) short (f true) good) (no : Lasts left short (f false) good) :
    Lasts left short (ParseM.eat (.punct mark) >>= f) good := by
  unfold ParseM.eat
  rw [bind_assoc]
  apply peek
  intro token some
  by_cases same : token.kind = .punct mark
  · simp only [if_pos same, bind_assoc, pure_bind]
    exact skip (yes (some (by simp [same])))
  · simp only [if_neg same, pure_bind]
    exact no

theorem expect {mark : Punct} (next : ∀ token, 0 < left → Lasts (left - 1) short (f token) good) :
    Lasts left short (ParseM.expect mark >>= f) good := by
  unfold ParseM.expect
  rw [bind_assoc]
  apply advance
  intro token some
  by_cases same : token.kind = .punct mark
  · simp only [if_pos same, pure_bind]
    exact next token (some (by simp [same]))
  · simp only [if_neg same]
    exact stuck

theorem name {f : String → ParseM α}
    (next : ∀ name, 0 < left → Lasts (left - 1) short (f name) good) :
    Lasts left short (ParseM.name >>= f) good := by
  unfold ParseM.name
  rw [bind_assoc]
  apply advance
  intro token some
  cases known : token.kind with
  | identifier name =>
    simp only [pure_bind]
    exact next name (some (by simp [known]))
  | _ => exact stuck

theorem resize (change : Nat → Nat) {m : ParseM α} (next : Lasts left short m good) :
    Lasts left short (do modify fun p => { p with depth := change p.depth }; m) good :=
  fun p bounded => next { p with depth := change p.depth } bounded

theorem depth {f : Nat → ParseM α} (next : ∀ depth, Lasts left short (f depth) good) :
    Lasts left short (get >>= fun p => f p.depth) good := fun p bounded => next p.depth p bounded

end Lasts

/-! ### Expressions and lines -/

/-- Tokens that begin with another than the end marker take something from what is left. -/
theorem fewer_of_spans {answers : Answers} {token : Token} {rest : List Token} {j : Nat}
    (bounded : answers.Bounded left) (spans : answers.Spans 0 (token :: rest) j)
    (unended : token.kind ≠ .endMarker) : left - j < left := by
  have some := bounded 0 token ⟨answers.sound_zero, spans.head⟩ unended
  have place := spans.place
  rw [List.length_cons] at place
  omega

theorem fewer_of_words {answers : Answers} {tokens : List Token} {j : Nat}
    (bounded : answers.Bounded left) (spans : answers.Spans 0 tokens j) (some : tokens ≠ [])
    (words : ∀ token ∈ tokens, token.kind.isWord = true) : left - j < left := by
  cases tokens with
  | nil => exact absurd rfl some
  | cons token rest =>
    refine fewer_of_spans bounded spans fun ended => ?_
    have word := words token List.mem_cons_self
    rw [ended] at word
    cases word

theorem expressionAt_progresses (level : Level) :
    Progresses left (steps < level.need left) (expressionAt steps level) := by
  refine Lasts.of_ends (fun _ _ => expressionAt_ends) (fun _ bounded few => few left bounded) ?_
  rintro answers node j bounded ⟨tokens, spans, derives⟩
  obtain ⟨token, rest, rfl, -⟩ := derives.starts
  exact fewer_of_words bounded spans (List.cons_ne_nil _ _) derives.words

theorem operatorAt_lasts (level : Level) :
    Lasts left short (operatorAt level) fun found less => found.isSome = true → less < left := by
  have ends : ∀ (answers : Answers) (depth : Nat), Ends answers 0 depth False (operatorAt level)
      (answers.Operates level 0) := fun _ _ => operatorAt_ends
  refine Lasts.of_ends ends (fun _ _ none => none.elim) ?_
  intro answers found j bounded operates some
  cases operates with
  | none => cases some
  | @some op mark marks _ _ kinds found spans _ =>
    refine fewer_of_spans bounded spans fun ended => ?_
    rw [List.map_cons, ended] at kinds
    cases op <;> cases kinds

theorem simpleStatement_progresses :
    Progresses left (steps < Level.or.need left) (simpleStatement steps) := by
  have ends : ∀ (answers : Answers) (depth : Nat), Ends answers 0 depth
      (answers.Short 0 Level.or.need steps) (simpleStatement steps)
      (answers.Gives SimpleStatement 0) := by
    intro answers depth
    apply simpleStatement_ends
    intro j le few
    refine few.of_le le fun left less le few => ?_
    unfold Level.need at few ⊢
    omega
  refine Lasts.of_ends ends (fun _ bounded few => few left bounded) ?_
  rintro answers node j bounded ⟨tokens, spans, simple⟩
  exact fewer_of_words bounded spans simple.ne_nil simple.words

theorem expression_progresses (ample : steps < 12 * left + 12 → short) :
    Progresses left short (expressionAt steps .or) :=
  (expressionAt_progresses .or).mono (fun few => ample few) fun _ _ _ => id

theorem simple_progresses (ample : steps < 12 * left + 12 → short) :
    Progresses left short (simpleStatement steps) :=
  simpleStatement_progresses.mono (fun few => ample few) fun _ _ _ => id

/-! ### Loops -/

section

variable {rounds : Nat}

theorem chain_ceases {operand : ParseM Node} {level : Level}
    (each : ∀ less < left, Ceases less short operand) (few : rounds ≤ left → short) (node : Node) :
    Ceases left short (chain (operatorAt level) operand rounds node) := by
  induction rounds generalizing left node with
  | zero => exact Lasts.exhausted (few (Nat.zero_le left))
  | succ rounds ih =>
    apply (operatorAt_lasts level).bind
    intro found less le some
    cases found with
    | none => exact Lasts.pure trivial
    | some found =>
      have lt := some rfl
      apply (each less lt).bind
      intro right least le' _
      exact ih (fun less' lt' => each less' (by omega)) (fun le'' => few (by omega)) _

theorem adjacent_ceases (few : rounds ≤ left → short) (first : Value) :
    Ceases left short (adjacent rounds first) := by
  induction rounds generalizing left first with
  | zero => exact Lasts.exhausted (few (Nat.zero_le left))
  | succ rounds ih =>
    apply Lasts.peek
    intro token some
    have further : token.kind ≠ .endMarker → ∀ first', Ceases left short (do
        let _ ← advance
        adjacent rounds first') := by
      intro unended first'
      have := some unended
      exact Lasts.skip (ih (fun le => few (by omega)) first')
    cases known : token.kind with
    | str => cases first <;> first | exact Lasts.fail | exact further (by simp [known]) _
    | bytes => cases first <;> first | exact Lasts.fail | exact further (by simp [known]) _
    | _ => cases first <;> exact Lasts.pure trivial

theorem commaSeparated_ceases {closing : Punct} {item : ParseM α}
    (each : ∀ less ≤ left, Ceases less short item) (few : rounds ≤ left → short) :
    Ceases left short (commaSeparated closing item rounds) := by
  induction rounds generalizing left with
  | zero => exact Lasts.exhausted (few (Nat.zero_le left))
  | succ rounds ih =>
    apply Lasts.eat
    · exact fun _ => Lasts.pure trivial
    · apply (each left (Nat.le_refl left)).bind
      intro first less le _
      apply Lasts.advance
      intro token some
      by_cases comma : token.kind = .punct .comma
      · have := some (by simp [comma])
        rw [if_pos comma]
        apply Lasts.bind (ih (fun less' le' => each less' (by omega)) fun le' => few (by omega))
        exact fun _ _ _ _ => Lasts.pure trivial
      · rw [if_neg comma]
        split
        · exact Lasts.pure trivial
        · exact Lasts.unexpected

theorem lineRest_ceases (ample : steps < 12 * left + 12 → short) (few : rounds ≤ left → short) :
    Ceases left short (lineRest steps rounds) := by
  induction rounds generalizing left with
  | zero => exact Lasts.exhausted (few (Nat.zero_le left))
  | succ rounds ih =>
    apply Lasts.advance
    intro token some
    cases known : token.kind with
    | newline | endMarker => exact Lasts.pure trivial
    | punct mark =>
      cases mark with
      | semicolon =>
        have := some (by simp [known])
        apply Lasts.peek
        intro next _
        have again : ∀ less < left, Ceases less short (lineRest steps rounds) :=
          fun less lt => ih (fun few => ample (by omega)) fun le => few (by omega)
        by_cases ended : next.kind = .newline ∨ next.kind = .endMarker
        · simp only [if_pos ended]
          exact again _ (by omega)
        · simp only [if_neg ended]
          apply Lasts.bind (simple_progresses fun few => ample (by omega))
          intro statement less le _
          apply Lasts.bind (again less (by omega))
          exact fun _ _ _ _ => Lasts.pure trivial
      | _ => exact Lasts.unexpected
    | _ => exact Lasts.unexpected

/-- A loop over statements may not make more rounds than tokens are left. -/
theorem blockRest_ceases {statement : ParseM (List Node)}
    (each : ∀ less ≤ left, Progresses less short statement) (few : rounds ≤ left → short) :
    Ceases left short (blockRest statement rounds) := by
  induction rounds generalizing left with
  | zero => exact Lasts.exhausted (few (Nat.zero_le left))
  | succ rounds ih =>
    apply Lasts.peek
    intro token _
    have again : Ceases left short (do
        let nodes ← statement
        let rest ← blockRest statement rounds
        return nodes ++ rest) := by
      apply (each left (Nat.le_refl left)).bind
      intro nodes less le lt
      have lt : less < left := lt
      apply Lasts.bind (ih (fun less' le' => each less' (by omega)) fun le' => few (by omega))
      exact fun _ _ _ _ => Lasts.pure trivial
    cases token.kind with
    | dedent => exact Lasts.skip (Lasts.pure trivial)
    | endMarker => exact Lasts.unexpected
    | _ => exact again

end

/-! ### Statements -/

section

variable (ample : steps < 12 * left + 12 → short)

include ample

theorem simpleLine_progresses : Progresses left short (simpleLine steps) := by
  apply Lasts.bind (simple_progresses ample)
  intro first less _ lt
  apply Lasts.bind (lineRest_ceases (fun few => ample (by omega)) fun few => ample (by omega))
  intro rest least le _
  exact Lasts.pure (Nat.lt_of_le_of_lt le lt)

theorem parameter_ceases : Ceases left short (parameter steps) := by
  have optional : ∀ (mark : Punct) (less : Nat) {m : ParseM String}, less ≤ left →
      (∀ least ≤ less, Ceases least short m) → Ceases less short (do
        if ← eat (.punct mark) then
          let _ ← expressionAt steps .or
        m) := by
    intro mark less m le next
    apply Lasts.eat
    · intro some
      apply Lasts.bind (expression_progresses fun few => ample (by omega))
      exact fun _ least le' _ => next least (by omega)
    · exact next less (Nat.le_refl less)
  apply Lasts.name
  intro name some
  apply optional _ _ (by omega)
  intro less le
  apply optional _ _ (by omega)
  intro least le'
  exact Lasts.pure trivial

variable {statement : ParseM (List Node)}

theorem body_ceases (each : ∀ less ≤ left, Progresses less short statement) (line : Nat) :
    Ceases left short (body statement steps line) := by
  apply Lasts.peek
  intro token some
  by_cases ended : token.kind = .newline
  · have := some (by simp [ended])
    rw [if_pos ended]
    apply Lasts.skip
    apply Lasts.advance
    intro indent _
    by_cases opens : indent.kind = .indent
    · rw [if_pos opens]
      apply Lasts.resize (· + 1)
      apply Lasts.bind
        (blockRest_ceases (fun less le => each less (by omega)) fun few => ample (by omega))
      intro statements less le _
      exact Lasts.resize (· - 1) (Lasts.pure trivial)
    · rw [if_neg opens]
      exact Lasts.unexpected
  · rw [if_neg ended]
    apply Lasts.bind (simpleLine_progresses ample)
    exact fun _ _ _ _ => Lasts.pure trivial

theorem colonBody_ceases (each : ∀ less < left, Progresses less short statement) :
    Ceases left short (colonBody statement steps) := by
  apply Lasts.expect
  intro colon some
  exact body_ceases (fun few => ample (by omega)) (fun less le => each less (by omega)) _

/-- What follows `elif` has less left. -/
theorem conditional_ceases (each : ∀ less < left, Progresses less short statement) {rounds : Nat}
    (few : rounds ≤ left → short) (line : Nat) :
    Ceases left short (conditional statement steps rounds line) := by
  induction rounds generalizing left line with
  | zero => exact Lasts.exhausted (few (Nat.zero_le left))
  | succ rounds ih =>
    apply Lasts.bind (expression_progresses ample)
    intro condition less _ lt
    have lt : less < left := lt
    apply Lasts.bind
      (colonBody_ceases (fun few => ample (by omega)) fun less' lt' => each less' (by omega))
    intro yes least le _
    apply Lasts.peek
    intro next _
    split
    · apply Lasts.skip
      apply Lasts.bind (ih (fun few => ample (by omega)) (fun less' lt' => each less' (by omega))
        (fun le' => few (by omega)) _)
      exact fun _ _ _ _ => Lasts.pure trivial
    · split
      · apply Lasts.skip
        apply Lasts.bind
          (colonBody_ceases (fun few => ample (by omega)) fun less' lt' => each less' (by omega))
        exact fun _ _ _ _ => Lasts.pure trivial
      · exact Lasts.pure trivial

theorem definition_ceases (each : ∀ less < left, Progresses less short statement) (line : Nat) :
    Ceases left short (definition statement steps line) := by
  apply Lasts.name
  intro name some
  apply Lasts.expect
  intro opening some'
  apply Lasts.bind (commaSeparated_ceases
    (fun less le => parameter_ceases fun few => ample (by omega)) fun few => ample (by omega))
  intro params less le _
  have body : ∀ least ≤ less, Ceases least short (do
      let body ← colonBody statement steps
      return Node.function name params body line) := by
    intro least le'
    apply Lasts.bind
      (colonBody_ceases (fun few => ample (by omega)) fun less' lt' => each less' (by omega))
    exact fun _ _ _ _ => Lasts.pure trivial
  apply Lasts.eat
  · intro some''
    apply Lasts.bind (expression_progresses fun few => ample (by omega))
    exact fun _ least le' _ => body least (by omega)
  · exact body less (Nat.le_refl less)

end

theorem statement_progresses :
    Progresses left (steps < statementNeed left) (ParseM.statement steps) := by
  induction steps generalizing left with
  | zero => exact Lasts.exhausted (Nat.succ_pos _)
  | succ steps ih =>
    unfold statementNeed at ih ⊢
    apply Lasts.peek
    intro token some
    have ample : steps < 12 * left + 12 → steps + 1 < 12 * left + 13 := by omega
    have ample' : steps < 12 * (left - 1) + 12 → steps + 1 < 12 * left + 13 := by omega
    have each : ∀ less < left, Progresses less (steps + 1 < 12 * left + 13) (ParseM.statement steps) :=
      fun less lt => ih.mono (by omega) fun _ _ _ => id
    have simple : Progresses left (steps + 1 < 12 * left + 13) (simpleLine steps) :=
      simpleLine_progresses ample
    -- What follows the keyword of a compound statement lasts.
    have after : token.kind ≠ .endMarker →
        ∀ {α : Type} {m : ParseM α} {nodes : α → List Node},
        Ceases (left - 1) (steps + 1 < 12 * left + 13) m →
        Progresses left (steps + 1 < 12 * left + 13) (do
          let _ ← advance
          let a ← m
          return nodes a) := by
      intro unended α m nodes ceases
      have := some unended
      apply Lasts.skip
      apply ceases.bind
      intro a less le _
      exact Lasts.pure (by omega)
    cases known : token.kind with
    | keyword word =>
      have each' : ∀ less < left - 1, Progresses less _ (ParseM.statement steps) :=
        fun less lt => each less (by omega)
      cases word with
      | ifWord =>
        exact after (by simp [known]) (conditional_ceases ample' each' (by omega) _)
      | whileWord =>
        have := some (by simp [known])
        apply Lasts.skip
        apply Lasts.bind (expression_progresses ample')
        intro condition less le lt
        apply Lasts.bind (colonBody_ceases (fun few => by omega) fun less' lt' => each' less' (by omega))
        intro body least le' _
        exact Lasts.pure (by omega)
      | defWord => exact after (by simp [known]) (definition_ceases ample' each' _)
      | _ => exact simple
    | newline =>
      have := some (by simp [known])
      apply Lasts.skip
      exact Lasts.pure (by omega)
    | indent | dedent => exact Lasts.fail
    | _ => exact simple

theorem statements_ceases {rounds : Nat} (ample : steps < statementNeed left → short)
    (few : rounds ≤ left → short) : Ceases left short (statements steps rounds) := by
  induction rounds generalizing left with
  | zero => exact Lasts.exhausted (few (Nat.zero_le left))
  | succ rounds ih =>
    apply Lasts.peek
    intro token _
    have again : Ceases left short (do
        let nodes ← ParseM.statement steps
        let rest ← statements steps rounds
        return nodes ++ rest) := by
      apply (statement_progresses.mono ample fun _ _ _ => id).bind
      intro nodes less _ lt
      have lt : less < left := lt
      apply Lasts.bind (ih (fun fewer => ample (by unfold statementNeed at fewer ⊢; omega))
        fun le' => few (by omega))
      exact fun _ _ _ _ => Lasts.pure trivial
    cases token.kind with
    | endMarker => exact Lasts.pure trivial
    | dedent =>
      refine Lasts.depth (f := fun depth => if depth = 0 then _ else _) fun depth => ?_
      by_cases outside : depth = 0
      · rw [if_pos outside]
        exact Lasts.fail
      · rw [if_neg outside]
        exact again
    | _ => exact again

end ParseM

end Offside
