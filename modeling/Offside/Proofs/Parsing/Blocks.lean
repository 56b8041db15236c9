import Offside.Proofs.Parsing.Soundness
import Offside.Proofs.Parsing.StatementGrammar

/-!
# Statements keep in step with their blocks

Between the INDENT and the DEDENT of a block the parser consumes whole statements. What it consumes
for a statement has the form of one (`ParseM.statement_ends`), so it leaves as many blocks open as
there were, and the statements of a source end at its end marker (`ParseM.statements_reach_end`).
-/

namespace Offside

open Token (occurrences occurrences_append)

namespace Answers

variable {answers : Answers} {i j depth : Nat} {tokens : List Token}

/-- The answers between the places are tokens that spell `a`. -/
def Gives (answers : Answers) (spells : List Token → α → Prop) (i : Nat) (a : α) (j : Nat) : Prop :=
  ∃ tokens, answers.Spans i tokens j ∧ spells tokens a

theorem Spans.lt (spans : answers.Spans i tokens j) (some : tokens ≠ []) : i < j := by
  rw [spans.place]
  exact Nat.lt_add_of_pos_right (List.length_pos_iff.mpr some)

end Answers

/-- The statements of a block and the DEDENT behind them. -/
def FormsToDedent (tokens : List Token) (nodes : List Node) : Prop :=
  ∃ front dedent, tokens = front ++ [dedent] ∧ dedent.kind = .dedent ∧ Forms .statements front nodes

/-- The DEDENT closes the block that was open before the statements. -/
theorem FormsToDedent.balanced {answers : Answers} {i j depth : Nat} {tokens : List Token}
    {nodes : List Node} (h : FormsToDedent tokens nodes) (balanced : answers.Balanced i (depth + 1))
    (spans : answers.Spans i tokens j) : answers.Balanced j depth := by
  obtain ⟨front, dedent, rfl, closes, formed⟩ := h
  obtain ⟨before, spans', count⟩ := balanced
  have paired := formed.paired
  have one : occurrences .dedent [dedent] = 1 := by simp [occurrences, closes]
  have none : occurrences .indent [dedent] = 0 := by simp [occurrences, closes]
  refine ⟨before ++ (front ++ [dedent]), spans'.append spans, ?_⟩
  simp only [occurrences_append, one, none]
  unfold Paired at paired
  omega

namespace ParseM

open Answers

variable {answers : Answers} {i depth steps : Nat} {short : Prop}

/-- The steps that are enough for expressions are enough for the tokens one by one. -/
theorem need_of_few (few : answers.Short i (· + 1) steps) : answers.Short i Level.or.need steps := by
  refine few.of_le (Nat.le_refl i) fun left less le few => ?_
  show steps < 12 * left + 12 - 0
  omega

/-! ### On a line -/

theorem expression_ends (enough : answers.Short i Level.or.need steps → short) :
    Ends answers i depth short (expressionAt steps .or) (answers.Gives (Derives .or) i) :=
  expressionAt_ends.mono enough fun _ _ _ => id

section

variable (ample : ∀ j, i ≤ j → answers.Short j Level.or.need steps → short)

include ample

theorem assignment_ends {target mark : Token} {name : String} {punct : Punct}
    (found : answers.Finds i target) (known : target.kind = .identifier name)
    (foundMark : answers.Finds (i + 1) mark) (knownMark : mark.kind = .punct punct)
    (assigned : assigns punct = true) :
    Ends answers i depth short (assignment steps target name punct.augmented?)
      (answers.Gives SimpleStatement i) := by
  apply Ends.skip
  apply Ends.advance
  intro mark' found'
  obtain rfl := foundMark.eq found'.get
  apply (expression_ends (ample _ (by omega))).bind
  intro value j _ known'
  obtain ⟨tokens, spans, derives⟩ := known'
  have spans := Spans.cons found.get (.cons foundMark.get spans)
  cases augmented : punct.augmented? with
  | some op => exact Ends.pure ⟨_, spans, .augment known knownMark augmented derives⟩
  | none =>
    have plain : punct = .assign := by
      simpa [assigns, augmented] using assigned
    exact Ends.pure ⟨_, spans, .assign known (plain ▸ knownMark) derives⟩

theorem expressionStatement_ends {token : Token} (found : answers.Finds i token) :
    Ends answers i depth short (expressionStatement steps token.pos.line)
      (answers.Gives SimpleStatement i) := by
  apply (expression_ends (ample i (Nat.le_refl i))).bind
  intro node j _ known
  obtain ⟨tokens, spans, derives⟩ := known
  have known : answers.Gives SimpleStatement i node j := ⟨tokens, spans, .expression derives⟩
  have word : token.kind.isWord = true := by
    obtain ⟨first, rest, rfl, -⟩ := derives.starts
    obtain rfl := found.eq spans.head
    exact derives.words _ List.mem_cons_self
  apply Ends.peek
  intro next _
  cases next.kind with
  | punct mark =>
    by_cases assigned : assigns mark = true
    · simp only [if_pos assigned]
      exact Ends.fail (.target found (fun same => by simp [same, Token.Kind.isWord] at word)
        fun same => by simp [same, Token.Kind.isWord] at word)
    · simp only [if_neg assigned]
      exact Ends.pure known
  | _ => exact Ends.pure known

theorem simpleStatement_ends :
    Ends answers i depth short (simpleStatement steps) (answers.Gives SimpleStatement i) := by
  apply Ends.peek
  intro token found
  have expression : Ends answers i depth short (expressionStatement steps token.pos.line)
      (answers.Gives SimpleStatement i) := expressionStatement_ends ample found
  cases known : token.kind with
  | keyword word =>
    cases word with
    | passWord =>
      apply Ends.skip
      exact Ends.pure ⟨_, .single found.get, .pass known⟩
    | returnWord | forWord | fromWord | importWord | raiseWord =>
      exact Ends.fail (.unsupported found known)
    | ifWord | whileWord | defWord | elifWord | elseWord => exact Ends.unexpected found nofun
    | _ => exact expression
  | identifier name =>
    apply Ends.peek_ahead
    intro next foundNext
    cases knownNext : next.kind with
    | punct mark =>
      by_cases assigned : assigns mark = true
      · simp only [if_pos assigned]
        exact assignment_ends ample found known foundNext knownNext assigned
      · simp only [if_neg assigned]
        exact expression
    | _ => exact expression
  | _ => exact expression

/-- The rest of a line may be the end of the source. -/
theorem lineRest_ends {more : Nat} (few : answers.Short i (· + 1) more → short) :
    Ends answers i depth short (lineRest steps more) (answers.Gives LineRest i) := by
  induction more generalizing i with
  | zero => exact Ends.exhausted (few (.zero Nat.succ_pos))
  | succ more ih =>
    apply Ends.advance
    intro token found
    cases known : token.kind with
    | newline => exact Ends.pure ⟨_, .single found.get, .ended (.inl known)⟩
    | endMarker => exact Ends.pure ⟨_, .single found.get, .ended (.inr known)⟩
    | punct mark =>
      cases mark with
      | semicolon =>
        have again : ∀ j, i < j → Ends answers j depth short (lineRest steps more)
            (answers.Gives LineRest j) := fun j lt =>
          ih (fun k le => ample k (by omega)) fun fewer => few
            (fewer.round found (by simp [known]) (Nat.le_refl i) lt)
        apply Ends.peek
        intro next foundNext
        by_cases ended : next.kind = .newline ∨ next.kind = .endMarker
        · simp only [if_pos ended]
          apply (again _ (Nat.lt_succ_self i)).mono id
          intro rest k _ given
          obtain ⟨tokens, spans, formed⟩ := given
          cases formed with
          | ended ends =>
            exact ⟨_, .cons found.get spans, .dangling known ends⟩
          | dangling spelled | more spelled =>
            obtain rfl := foundNext.eq spans.head
            exact absurd ended (by simp [spelled])
        · simp only [if_neg ended]
          apply (simpleStatement_ends fun k le => ample k (by omega)).bind
          intro statement j _ given
          obtain ⟨tokens, spans, simple⟩ := given
          have := spans.lt simple.ne_nil
          apply (again j (by omega)).bind
          intro rest k _ given
          obtain ⟨tokens', spans', formed⟩ := given
          exact Ends.pure ⟨_, .cons found.get (spans.append spans'), .more known simple formed⟩
      | _ => exact Ends.unexpected found nofun
    | _ => exact Ends.unexpected found nofun

theorem simpleLine_ends :
    Ends answers i depth short (simpleLine steps) (answers.Gives SimpleLine i) := by
  apply (simpleStatement_ends ample).bind
  intro first j le given
  obtain ⟨tokens, spans, simple⟩ := given
  apply (lineRest_ends (fun k le' => ample k (by omega)) fun few => ample j le (need_of_few few)).bind
  intro rest k _ given
  obtain ⟨tokens', spans', formed⟩ := given
  exact Ends.pure ⟨_, spans.append spans', .simple simple formed⟩

end

/-! ### Blocks -/

/-- From every place after this one the program consumes a statement. -/
def KeepsStep (answers : Answers) (i : Nat) (short : Prop) (statement : ParseM (List Node)) : Prop :=
  ∀ j depth, i < j → answers.Balanced j depth →
    (∀ token, answers.Finds j token → token.kind ≠ .dedent) →
    Ends answers j depth short statement (answers.Gives (Forms .statement) j)

variable {front : List Token} {next : Except LexError Token} {statement : ParseM (List Node)}

theorem blockRest_ends (laid : answers.Laid front next) {more : Nat} {before : Nat} (lt : before < i)
    (each : KeepsStep answers before short statement)
    (few : answers.Short i (· + 1) more → short) (here : answers.Balanced i (depth + 1)) :
    Ends answers i (depth + 1) short (blockRest statement more)
      (answers.Gives FormsToDedent i) := by
  induction more generalizing i with
  | zero => exact Ends.exhausted (few (.zero Nat.succ_pos))
  | succ more ih =>
    apply Ends.peek
    intro token found
    have further : token.kind ≠ .dedent → token.kind ≠ .endMarker →
        Ends answers i (depth + 1) short (do
          let nodes ← statement
          let rest ← blockRest statement more
          return nodes ++ rest) (answers.Gives FormsToDedent i) := by
      intro notDedent inside
      apply (each i _ lt here fun other found' => found.eq found'.get ▸ notDedent).bind
      intro nodes j _ given
      obtain ⟨tokens, spans, formed⟩ := given
      have lt' := spans.lt (formed.ne_nil nofun)
      apply (ih (by omega) (fun fewer => few (fewer.round found inside (Nat.le_refl i) lt'))
        (here.paired spans formed.paired)).bind
      intro rest k _ given
      obtain ⟨_, spans', later, dedent, rfl, closes, formed'⟩ := given
      refine Ends.pure ⟨_, spans.append spans', tokens ++ later, dedent, ?_, closes, .cons formed formed'⟩
      rw [List.append_assoc]
    cases known : token.kind with
    | dedent =>
      apply Ends.skip
      exact Ends.pure ⟨_, .single found.get, [], token, rfl, known, .nil⟩
    | endMarker => exact absurd (laid.outside found known here) (Nat.succ_ne_zero depth)
    | _ => exact further (by simp [known]) (by simp [known])

/-- A phrase that is one tree. -/
def FormsOne (phrase : Phrase) (tokens : List Token) (node : Node) : Prop := Forms phrase tokens [node]

section

variable (ample : ∀ j, i ≤ j → answers.Short j Level.or.need steps → short)
  (laid : answers.Laid front next) (each : KeepsStep answers i short statement)

include ample laid each

theorem body_ends {colon : Token} (found : answers.Finds i colon) (spelled : colon.kind = .punct .colon)
    (here : answers.Balanced (i + 1) depth) :
    Ends answers (i + 1) depth short (body statement steps colon.pos.line)
      (answers.Gives (FormsOne .suite) i) := by
  apply Ends.peek
  intro newline foundNewline
  by_cases ended : newline.kind = .newline
  · rw [if_pos ended]
    apply Ends.skip
    apply Ends.advance
    intro indent foundIndent
    by_cases opens : indent.kind = .indent
    · rw [if_pos opens]
      have flat : answers.Flat (i + 1) (i + 1 + 1) := .single foundNewline (by rw [ended]; rfl)
      apply Ends.indented
      · exact blockRest_ends laid (by omega) each (fun few => ample _ (by omega) (need_of_few few))
          ((here.flat flat).indent foundIndent opens)
      · intro statements j _ given
        obtain ⟨_, spans, tokens, dedent, rfl, closes, formed⟩ := given
        exact Ends.pure ⟨_, .cons found.get (.cons foundNewline.get (.cons foundIndent.get spans)),
          .indented spelled ended opens closes formed⟩
    · rw [if_neg opens]
      exact Ends.unexpected foundIndent nofun
  · rw [if_neg ended]
    apply (simpleLine_ends fun j le => ample j (by omega)).bind
    intro statements j _ given
    obtain ⟨tokens, spans, line⟩ := given
    exact Ends.pure ⟨_, .cons found.get spans, .inline spelled line⟩

theorem colonBody_ends (here : answers.Balanced i depth) :
    Ends answers i depth short (colonBody statement steps) (answers.Gives (FormsOne .suite) i) := by
  apply Ends.expect
  intro colon found spelled
  apply body_ends ample laid each found spelled
  exact here.flat (.single found (by rw [spelled]; rfl))

theorem conditional_ends {more : Nat} {word : Token} {keyword : Keyword}
    (found : answers.Finds i word) (spelled : word.kind = .keyword keyword)
    (few : answers.Short (i + 1) (· + 1) more → short) (here : answers.Balanced (i + 1) depth) :
    Ends answers (i + 1) depth short (conditional statement steps more word.pos.line)
      (answers.Gives (FormsOne (.conditional keyword)) i) := by
  induction more generalizing i word keyword with
  | zero => exact Ends.exhausted (few (.zero Nat.succ_pos))
  | succ more ih =>
    apply (expression_ends (ample _ (Nat.le_succ i))).bind
    intro condition j le given
    obtain ⟨test, spans, derives⟩ := given
    apply (colonBody_ends (fun k le' => ample k (by omega)) laid (fun k d lt => each k d (by omega))
      (here.flat ⟨_, spans, derives.flat⟩)).bind
    intro yes k le' given
    obtain ⟨suite, spans', formed⟩ := given
    have balanced := (here.flat ⟨_, spans, derives.flat⟩).paired spans' formed.paired
    have whole := (Spans.cons found.get spans).append spans'
    apply Ends.peek
    intro token foundNext
    have past : ∀ {word : Keyword}, token.kind = .keyword word → answers.Balanced (k + 1) depth :=
      fun known => balanced.flat (.single foundNext (by rw [known]; rfl))
    by_cases isElif : token.kind = .keyword .elifWord
    · rw [if_pos isElif]
      apply Ends.skip
      apply (ih (fun l le => ample l (by omega)) (fun l d lt => each l d (by omega)) foundNext isElif
        (fun fewer => few (fewer.round foundNext (by simp [isElif]) (by omega) (Nat.lt_succ_self k)))
        (past isElif)).bind
      intro no l _ given
      obtain ⟨later, spans'', formed'⟩ := given
      refine Ends.pure ⟨_, whole.append spans'', ?_⟩
      rw [List.append_assoc]
      exact .chained spelled derives formed formed'
    · rw [if_neg isElif]
      by_cases isElse : token.kind = .keyword .elseWord
      · rw [if_pos isElse]
        apply Ends.skip
        apply (colonBody_ends (fun l le => ample l (by omega)) laid
          (fun l d lt => each l d (by omega)) (past isElse)).bind
        intro no l _ given
        obtain ⟨later, spans'', formed'⟩ := given
        refine Ends.pure ⟨_, whole.append (.cons foundNext.get spans''), ?_⟩
        rw [List.append_assoc]
        exact .otherwise spelled derives formed isElse formed'
      · rw [if_neg isElse]
        exact Ends.pure ⟨_, whole, .only spelled derives formed⟩

end

section

variable (ample : ∀ j, i ≤ j → answers.Short j Level.or.need steps → short)

include ample

/-- An expression that may stand after a mark. -/
theorem optional_ends {mark : Punct} {m : ParseM α} {good : α → Nat → Prop}
    (next : ∀ k tokens, i ≤ k → answers.Spans i tokens k → Trails mark tokens →
      Ends answers k depth short m good) :
    Ends answers i depth short (do
      if ← eat (.punct mark) then
        let _ ← expressionAt steps .or
      m) good := by
  apply Ends.eat
  · intro token found same
    apply (expression_ends (ample _ (by omega))).bind
    intro value k _ given
    obtain ⟨tokens, spans, derives⟩ := given
    exact next k _ (by omega) (.cons found.get spans) (.some same derives)
  · intro _ _ _
    exact next i [] (Nat.le_refl i) (.nil answers i) .none

theorem parameter_ends :
    Ends answers i depth short (parameter steps) (answers.Gives Parameter i) := by
  apply Ends.name
  intro token name found known
  apply optional_ends fun j le => ample j (by omega)
  intro j note le spans notes
  apply optional_ends fun k le' => ample k (by omega)
  intro k value _ spans' values
  exact Ends.pure ⟨_, .cons found.get (spans.append spans'), .named known notes values⟩

theorem definition_ends (laid : answers.Laid front next) (each : KeepsStep answers i short statement)
    {word : Token} (foundWord : answers.Finds i word) (spelled : word.kind = .keyword .defWord)
    (here : answers.Balanced (i + 1) depth) :
    Ends answers (i + 1) depth short (definition statement steps word.pos.line)
      (answers.Gives (FormsOne .statement) i) := by
  apply Ends.name
  intro token name found known
  apply Ends.expect
  intro opening foundOpening opened
  have few : answers.Short (i + 1 + 1 + 1) (· + 1) steps → short :=
    fun few => ample _ (by omega) (need_of_few few)
  have parameters : Ends answers (i + 1 + 1 + 1) depth short
      (commaSeparated .rightParen (parameter steps) steps)
      (answers.Lists .rightParen Parameter (i + 1 + 1 + 1)) :=
    commaSeparated_ends (fun k le => parameter_ends fun l le' => ample l (by omega)) few
  apply parameters.bind
  intro params j le listed
  obtain ⟨items, listing, spans, separated, each', rfl⟩ := listed
  apply optional_ends fun k le' => ample k (by omega)
  intro k result le' spans' results
  have header := Spans.cons found.get (.cons foundOpening.get (spans.append spans'))
  have words := kinds_cons known rfl (kinds_cons opened rfl
    (kinds_append (words_parameters separated each') results.words))
  apply (colonBody_ends (fun l le => ample l (by omega)) laid (fun l d lt => each l d (by omega))
    (here.flat ⟨_, header, flat_of_words words⟩)).bind
  intro body l _ given
  obtain ⟨suite, spans'', formed⟩ := given
  exact Ends.pure ⟨_, .cons foundWord.get (header.append spans''),
    .function spelled known opened separated each' results formed⟩

end

/-- One more than the steps that a statement may take when so many tokens are left. -/
def statementNeed (left : Nat) : Nat := 12 * left + 13

theorem statement_ends (laid : answers.Laid front next) (here : answers.Balanced i depth)
    (start : ∀ token, answers.Finds i token → token.kind ≠ .dedent) :
    Ends answers i depth (answers.Short i statementNeed steps) (ParseM.statement steps)
      (answers.Gives (Forms .statement) i) := by
  induction steps generalizing i depth with
  | zero => exact Ends.exhausted (.zero fun _ => Nat.succ_pos _)
  | succ steps ih =>
    apply Ends.peek
    intro token found
    have ample : ∀ j, i ≤ j → answers.Short j Level.or.need steps →
        answers.Short i statementNeed (steps + 1) := by
      intro j le fewer
      refine fewer.of_le le fun left less le few => ?_
      have few : steps < 12 * less + 12 - 0 := few
      show steps + 1 < 12 * left + 13
      omega
    have each : token.kind ≠ .endMarker → KeepsStep answers i
        (answers.Short i statementNeed (steps + 1)) (ParseM.statement steps) := by
      intro inside j d lt balanced start
      apply (ih balanced start).mono _ fun _ _ _ => id
      intro fewer
      refine fewer.of_lt found inside (Nat.le_refl i) lt fun left less lt few => ?_
      have few : steps < 12 * less + 13 := few
      show steps + 1 < 12 * left + 13
      omega
    have simple : Ends answers i depth (answers.Short i statementNeed (steps + 1)) (simpleLine steps)
        (answers.Gives (Forms .statement) i) := by
      apply (simpleLine_ends ample).mono id
      intro nodes j _ given
      obtain ⟨tokens, spans, line⟩ := given
      exact ⟨tokens, spans, .line line⟩
    have past : token.kind.isFlat = true → answers.Balanced (i + 1) depth :=
      fun flat => here.flat (.single found flat)
    cases known : token.kind with
    | keyword word =>
      cases word with
      | ifWord =>
        apply Ends.skip
        apply (conditional_ends ample laid (each (by simp [known])) found known
          (fun few => ample _ (by omega) (need_of_few few)) (past (by rw [known]; rfl))).bind
        intro node j le given
        obtain ⟨tokens, spans, formed⟩ := given
        exact Ends.pure ⟨tokens, spans, .conditional formed⟩
      | whileWord =>
        apply Ends.skip
        apply (expression_ends (ample _ (by omega))).bind
        intro condition j le given
        obtain ⟨test, spans, derives⟩ := given
        apply (colonBody_ends (fun k le' => ample k (by omega)) laid
          (fun k d lt => each (by simp [known]) k d (by omega))
          ((past (by rw [known]; rfl)).flat ⟨_, spans, derives.flat⟩)).bind
        intro body k le' given
        obtain ⟨suite, spans', formed⟩ := given
        exact Ends.pure ⟨_, .cons found.get (spans.append spans'), .loop known derives formed⟩
      | defWord =>
        apply Ends.skip
        apply (definition_ends ample laid (each (by simp [known])) found known
          (past (by rw [known]; rfl))).bind
        intro node j le given
        exact Ends.pure given
      | _ => exact simple
    | newline =>
      apply Ends.skip
      exact Ends.pure ⟨_, .single found.get, .blank known⟩
    | indent => exact Ends.fail (.indent found known)
    | dedent => exact absurd known (start token found)
    | _ => exact simple

/-- The statements of a source go on to its end marker. -/
theorem statements_reach_end (laid : answers.Laid front next) {more : Nat}
    (each : ∀ j, i ≤ j → answers.Short j statementNeed steps → short)
    (few : answers.Short i (· + 1) more → short) (here : answers.Balanced i 0) :
    Ends answers i 0 short (statements steps more) fun nodes j =>
      (∃ last, answers.Finds j last ∧ last.kind = .endMarker) ∧
        answers.Gives (Forms .statements) i nodes j := by
  induction more generalizing i with
  | zero => exact Ends.exhausted (few (.zero Nat.succ_pos))
  | succ more ih =>
    apply Ends.peek
    intro token found
    have notDedent : token.kind ≠ .dedent :=
      fun closes => absurd (laid.deep found closes here) (Nat.lt_irrefl 0)
    have further : token.kind ≠ .endMarker → Ends answers i 0 short (do
          let nodes ← ParseM.statement steps
          let rest ← statements steps more
          return nodes ++ rest) fun nodes j =>
        (∃ last, answers.Finds j last ∧ last.kind = .endMarker) ∧
          answers.Gives (Forms .statements) i nodes j := by
      intro inside
      apply ((statement_ends laid here fun other found' => found.eq found'.get ▸ notDedent).mono
        (each i (Nat.le_refl i)) fun _ _ _ => id).bind
      intro nodes j _ given
      obtain ⟨tokens, spans, formed⟩ := given
      have lt := spans.lt (formed.ne_nil nofun)
      apply (ih (fun k le => each k (by omega))
        (fun fewer => few (fewer.round found inside (Nat.le_refl i) lt))
        (here.paired spans formed.paired)).bind
      intro rest k _ known
      obtain ⟨ended, later, spans', formed'⟩ := known
      exact Ends.pure ⟨ended, _, spans.append spans', .cons formed formed'⟩
    cases known : token.kind with
    | endMarker => exact Ends.pure ⟨⟨token, found, known⟩, [], .nil answers i, .nil⟩
    | dedent => exact absurd known notDedent
    | _ => exact further (by simp [known])

end ParseM

end Offside
