import Offside.Proofs.Parsing.Grammar
import Offside.Proofs.Parsing.Reads

/-!
# Every expression of the grammar is parsed

`Derives.reads` shows that the parser finds the tree that some tokens spell and stops after them,
given steps enough and a next token that does not lead on.
-/

namespace Offside

namespace Level

theorem endsBefore_of_operator {level : Level} {kind : Token.Kind} {op : BinaryOp}
    (found : kind.operator? = some op) (h : level.endsBefore kind = true) :
    (ofBinary op).rank < level.rank := by
  unfold endsBefore at h
  split at h
  · cases h
  · cases h
  · cases h
  · cases found
  · cases found
  · rw [found] at h
    exact of_decide_eq_true h

/-- Whether an expression of the level ends before these answers. -/
def EndsBefore (level : Level) (later : Answers) : Prop :=
  ∃ token, later.get 0 = .ok token ∧ level.endsBefore token.kind = true

theorem EndsBefore.of_operators {loose tight : Level} {later : Answers}
    (le : ∀ op, (ofBinary op).rank < loose.rank → (ofBinary op).rank < tight.rank)
    (h : loose.EndsBefore later) : tight.EndsBefore later := by
  obtain ⟨token, found, ends⟩ := h
  exact ⟨token, found, endsBefore_mono le ends⟩

theorem EndsBefore.mono {loose tight : Level} {later : Answers} (le : loose.rank ≤ tight.rank)
    (h : loose.EndsBefore later) : tight.EndsBefore later :=
  h.of_operators fun _ lt => Nat.lt_of_lt_of_le lt le

theorem endsBefore_operator {op : BinaryOp} {kind : Token.Kind} {kinds : List Token.Kind}
    (spelled : op.kinds = kind :: kinds) : (ofBinary op).tighter.endsBefore kind = true := by
  cases op <;> cases spelled <;> rfl

end Level

namespace ParseM

variable {level : Level} {later : Answers}

/-! ### Operators -/

theorem operatorAt_none (ends : level.EndsBefore later) :
    (operatorAt level).Reads later none later := by
  obtain ⟨token, found, ends⟩ := ends
  apply (Reads.peek_head found).bind
  cases known : token.kind.operator? with
  | some op =>
    have lt := Level.endsBefore_of_operator known ends
    have other : Level.ofBinary op ≠ level := fun same => Nat.lt_irrefl _ (same ▸ lt)
    simp only [if_neg other]
    exact Reads.pure none later
  | none =>
    by_cases comparison : level = .comparison
    · subst comparison
      have noIs : token.kind ≠ .keyword .isWord := by
        intro same
        rw [same] at ends
        cases ends
      have noNot : token.kind ≠ .keyword .notWord := by
        intro same
        rw [same] at ends
        cases ends
      simp only [wordOperator, if_neg noIs, if_neg noNot]
      exact (Reads.pure none later).bind (Reads.pure none later)
    · simp only [if_neg comparison]
      exact Reads.pure none later

/-- An operator that one token spells and no other operator starts with. -/
theorem operatorAt_single {op : BinaryOp} {mark : Token} (found : Level.ofBinary op = level)
    (known : mark.kind.operator? = some op) :
    (operatorAt level).Reads (later.after [mark]) (some (op, mark.pos.line)) later := by
  apply (Reads.peek_head rfl).bind
  simp only [known, if_pos found]
  exact (Reads.advance mark later).bind (Reads.pure _ later)

theorem operatorAt_word {mark : Token} {op : BinaryOp} {before : Answers}
    (found : before.get 0 = .ok mark) (unknown : mark.kind.operator? = none)
    (word : (wordOperator mark).Reads before (some op) later) :
    (operatorAt .comparison).Reads before (some (op, mark.pos.line)) later := by
  apply (Reads.peek_head found).bind
  simp only [unknown, if_true]
  exact word.bind (Reads.pure _ later)

theorem wordOperator_identical {mark next : Token} (is : mark.kind = .keyword .isWord)
    (found : later.get 0 = .ok next) (clear : next.kind ≠ .keyword .notWord) :
    (wordOperator mark).Reads (later.after [mark]) (some .identical) later := by
  have second : (later.after [mark]).get 1 = .ok next := found
  simp only [wordOperator, if_pos is]
  apply (Reads.peek _ second).bind
  · apply (Reads.advance mark later).bind
    rw [if_neg clear]
    exact Reads.pure _ later
  · intro i le
    match i, le with
    | 0, _ => exact ⟨mark, rfl⟩
    | 1, _ => exact ⟨next, second⟩

theorem peek_second (first second : Token) (later : Answers) :
    (ParseM.peek 1).Reads (later.after [first, second]) second (later.after [first, second]) := by
  apply Reads.peek _ rfl
  intro i le
  match i, le with
  | 0, _ => exact ⟨first, rfl⟩
  | 1, _ => exact ⟨second, rfl⟩

theorem wordOperator_notIdentical {first second : Token} (is : first.kind = .keyword .isWord)
    (not : second.kind = .keyword .notWord) :
    (wordOperator first).Reads (later.after [first, second]) (some .notIdentical) later := by
  simp only [wordOperator, if_pos is]
  apply (peek_second first second later).bind
  apply (Reads.advance first (later.after [second])).bind
  rw [if_pos not]
  exact (Reads.advance second later).bind (Reads.pure _ later)

theorem wordOperator_notContained {first second : Token} (not : first.kind = .keyword .notWord)
    (contained : second.kind = .keyword .inWord) :
    (wordOperator first).Reads (later.after [first, second]) (some .notContained) later := by
  have noIs : first.kind ≠ .keyword .isWord := by rw [not]; decide
  simp only [wordOperator, if_neg noIs, if_pos not]
  apply (peek_second first second later).bind
  rw [if_pos contained]
  apply (Reads.advance first (later.after [second])).bind
  exact (Reads.advance second later).bind (Reads.pure _ later)

theorem operatorAt_some {op : BinaryOp} {mark next : Token} {marks : List Token}
    (found : Level.ofBinary op = level) (spelled : (mark :: marks).map Token.kind = op.kinds)
    (ready : later.get 0 = .ok next) (clear : op = .identical → next.kind ≠ .keyword .notWord) :
    (operatorAt level).Reads (later.after (mark :: marks)) (some (op, mark.pos.line)) later := by
  rw [List.map_cons] at spelled
  by_cases known : mark.kind.operator? = some op
  · have alone : marks = [] := by
      cases op <;> simp_all [BinaryOp.kinds, Token.Kind.operator?, Token.Kind.binaryOp?]
    subst alone
    exact operatorAt_single found known
  · cases op with
    | identical =>
      obtain ⟨is, none⟩ := List.cons.inj spelled
      obtain rfl := List.map_eq_nil_iff.mp none
      subst found
      apply operatorAt_word rfl (by rw [is]; rfl)
      exact wordOperator_identical is ready (clear rfl)
    | notIdentical =>
      obtain ⟨is, one⟩ := List.cons.inj spelled
      obtain ⟨second, rfl, not⟩ := List.map_eq_singleton_iff.mp one
      subst found
      apply operatorAt_word rfl (by rw [is]; rfl)
      exact wordOperator_notIdentical is not
    | notContained =>
      obtain ⟨not, one⟩ := List.cons.inj spelled
      obtain ⟨second, rfl, contained⟩ := List.map_eq_singleton_iff.mp one
      subst found
      apply operatorAt_word rfl (by rw [not]; rfl)
      exact wordOperator_notContained not contained
    | _ =>
      obtain ⟨same, -⟩ := List.cons.inj spelled
      rw [same] at known
      exact absurd rfl known

/-! ### Atoms -/

theorem adjacent_stop (ends : Level.atom.EndsBefore later) (steps : Nat) (value : Value) :
    (adjacent (steps + 1) value).Reads later value later := by
  obtain ⟨token, found, ends⟩ := ends
  apply (Reads.peek_head found).bind
  cases known : token.kind with
  | str | bytes =>
    rw [known] at ends
    cases ends
  | _ => cases value <;> exact Reads.pure _ later

/-- Literals of one type follow each other: `join` says what one more of them does. -/
theorem adjacent_reads [Append α] {make : α → Value} {kind : α → Token.Kind}
    (join : ∀ {steps part more} {token : Token} {before value}, token.kind = kind more →
      (adjacent steps (make (part ++ more))).Reads before value later →
      (adjacent (steps + 1) (make part)).Reads (before.after [token]) value later)
    (ends : Level.atom.EndsBefore later) {tokens : List Token} {parts : List α} {part : α}
    {steps : Nat} (spelled : tokens.map Token.kind = parts.map kind) (enough : tokens.length < steps) :
    (adjacent steps (make part)).Reads (later.after tokens) (make (parts.foldl (· ++ ·) part))
      later := by
  obtain ⟨steps, rfl⟩ := Nat.exists_eq_add_one_of_ne_zero (Nat.ne_zero_of_lt enough)
  induction parts generalizing tokens part steps with
  | nil =>
    obtain rfl := List.map_eq_nil_iff.mp spelled
    exact adjacent_stop ends steps _
  | cons more parts ih =>
    obtain ⟨token, tokens, rfl, same, rest⟩ := List.map_eq_cons_iff.mp spelled
    rw [List.length_cons] at enough
    obtain ⟨steps, rfl⟩ := Nat.exists_eq_add_one_of_ne_zero (n := steps) (by omega)
    exact join same (ih rest steps (by omega))

theorem adjacent_text {tokens : List Token} {parts : List String} {part : String} {steps : Nat}
    (ends : Level.atom.EndsBefore later) (spelled : tokens.map Token.kind = parts.map .str)
    (enough : tokens.length < steps) :
    (adjacent steps (.str part)).Reads (later.after tokens) (.str (parts.foldl (· ++ ·) part))
      later := by
  apply adjacent_reads _ ends spelled enough
  intro steps part more token before value same rest
  apply (Reads.peek_head rfl).bind
  simp only [same]
  exact (Reads.advance token before).bind rest

theorem adjacent_bytes {tokens : List Token} {parts : List (List UInt8)} {part : List UInt8}
    {steps : Nat} (ends : Level.atom.EndsBefore later)
    (spelled : tokens.map Token.kind = parts.map .bytes) (enough : tokens.length < steps) :
    (adjacent steps (.bytes part)).Reads (later.after tokens) (.bytes (parts.foldl (· ++ ·) part))
      later := by
  apply adjacent_reads _ ends spelled enough
  intro steps part more token before value same rest
  apply (Reads.peek_head rfl).bind
  simp only [same]
  exact (Reads.advance token before).bind rest

/-- What may follow an item of a list. -/
def Lists (closing : Punct) (later : Answers) : Prop :=
  ∃ next, later.get 0 = .ok next ∧ (next.kind = .punct .comma ∨ next.kind = .punct closing)

theorem lists_reads {closing : Punct} {item : ParseM α} {items : List (List Token × α)}
    {tokens : List Token} {rounds : Nat} (separated : Separated closing (items.map Prod.fst) tokens)
    (each : ∀ part ∈ items, (∃ token rest, part.1 = token :: rest ∧ token.kind ≠ .punct closing) ∧
      ∀ later, Lists closing later → item.Reads (later.after part.1) part.2 later)
    (other : closing ≠ .comma) (enough : tokens.length ≤ rounds) :
    (commaSeparated closing item rounds).Reads (later.after tokens) (items.map Prod.snd) later := by
  generalize parts : items.map Prod.fst = spellings at separated
  induction separated generalizing items rounds with
  | @closed token same =>
    obtain rfl := List.map_eq_nil_iff.mp parts
    obtain ⟨rounds, rfl⟩ := Nat.exists_eq_add_one_of_ne_zero (Nat.ne_zero_of_lt enough)
    apply (Reads.eat_of_eq same).bind
    exact Reads.pure _ later
  | @last spelling token same =>
    obtain ⟨part, rfl, rfl⟩ := List.map_eq_singleton_iff.mp parts
    rw [List.length_append, List.length_singleton] at enough
    obtain ⟨rounds, rfl⟩ := Nat.exists_eq_add_one_of_ne_zero (n := rounds) (by omega)
    obtain ⟨⟨first, rest, spelled, unclosed⟩, read⟩ := each part (List.mem_singleton_self part)
    have found : ((later.after [token]).after part.1).get 0 = .ok first := by rw [spelled]; rfl
    have notComma : token.kind ≠ .punct .comma := by simp [same, other]
    rw [Answers.after_append]
    apply (Reads.eat_of_ne found unclosed).bind
    apply (read _ ⟨token, rfl, .inr same⟩).bind
    apply (Reads.advance token later).bind
    rw [if_neg notComma, if_pos same]
    exact Reads.pure _ later
  | @more spelling spellings token tokens same _ ih =>
    obtain ⟨part, items, rfl, rfl, rfl⟩ := List.map_eq_cons_iff.mp parts
    rw [List.length_append, List.length_cons] at enough
    obtain ⟨rounds, rfl⟩ := Nat.exists_eq_add_one_of_ne_zero (n := rounds) (by omega)
    obtain ⟨⟨first, rest, spelled, unclosed⟩, read⟩ := each part List.mem_cons_self
    have found : ((later.after (token :: tokens)).after part.1).get 0 = .ok first := by
      rw [spelled]; rfl
    rw [Answers.after_append]
    apply (Reads.eat_of_ne found unclosed).bind
    apply (read _ ⟨token, rfl, .inl same⟩).bind
    apply (Reads.advance token _).bind
    rw [if_pos same]
    apply (ih (fun part member => each part (List.mem_cons_of_mem _ member)) (by omega) rfl).bind
    exact Reads.pure _ later

/-- What a program reads as one item of a list in parentheses. -/
def ReadsItem (item : ParseM Node) (tokens : List Token) (node : Node) : Prop :=
  (∃ token rest, tokens = token :: rest ∧ token.kind ≠ .punct .rightParen) ∧
    ∀ later : Answers, Level.or.EndsBefore later → item.Reads (later.after tokens) node later

theorem commaSeparated_reads {item : ParseM Node} {items : List (List Token × Node)}
    {tokens : List Token} {steps : Nat}
    (separated : Separated .rightParen (items.map Prod.fst) tokens)
    (each : ∀ part ∈ items, ReadsItem item part.1 part.2) (enough : tokens.length ≤ steps) :
    (commaSeparated .rightParen item steps).Reads (later.after tokens) (items.map Prod.snd)
      later := by
  refine lists_reads separated (fun part member => ?_) (by decide) enough
  obtain ⟨starts, read⟩ := each part member
  refine ⟨starts, fun later lists => read later ?_⟩
  obtain ⟨next, found, same | same⟩ := lists
  · exact ⟨next, found, by rw [same]; rfl⟩
  · exact ⟨next, found, by rw [same]; rfl⟩

end ParseM

/-! ### Levels -/

/-- Steps enough to parse an expression of the level that these tokens spell. -/
def Level.steps (level : Level) (tokens : List Token) : Nat := 12 * tokens.length + 12 - level.rank

namespace Level

variable {loose tight : Level} {few many : List Token}

theorem lt_steps (level : Level) (tokens : List Token) :
    12 * tokens.length < level.steps tokens := by
  have := level.rank_le
  unfold steps
  omega

theorem steps_le (level : Level) (tokens : List Token) :
    level.steps tokens ≤ 12 * tokens.length + 12 :=
  Nat.sub_le _ _

theorem steps_lt_of_tighter (tighter : loose.rank < tight.rank) (fits : few.length ≤ many.length) :
    tight.steps few < loose.steps many := by
  have := tight.rank_le
  unfold steps
  omega

/-- With one token less there are steps enough even for the loosest level. -/
theorem steps_lt_of_shorter (shorter : few.length < many.length) :
    tight.steps few < loose.steps many := by
  have := tight.steps_le few
  have := loose.lt_steps many
  omega

end Level

namespace ParseM

variable {level : Level} {tokens : List Token} {node : Node}

/-- The parser reads the tokens as an expression of the level. -/
def ReadsAt (level : Level) (tokens : List Token) (node : Node) : Prop :=
  ∀ steps later, level.steps tokens ≤ steps → level.EndsBefore later →
    (expressionAt steps level).Reads (later.after tokens) node later

/-- After the tokens the parser has folded them to `node` and looks for the next operator. -/
def FoldsAt (level : Level) (tokens : List Token) (node : Node) : Prop :=
  ∀ steps later, level.steps tokens ≤ steps + 1 → level.tighter.EndsBefore later →
    ∃ used ≤ tokens.length, ∀ p : Parser, p.answers = later.after tokens →
      ∃ q : Parser, q.answers = later ∧ q.depth = p.depth ∧
        expressionAt (steps + 1) level p =
          chain (operatorAt level) (expressionAt steps level.tighter) (steps - used) node q

theorem lt_steps_of_chain (chained : level.isChain = true) (tokens : List Token) :
    12 * tokens.length + 2 < level.steps tokens := by
  have := of_decide_eq_true chained
  unfold Level.steps
  omega

theorem FoldsAt.reads (chained : level.isChain = true) (folds : FoldsAt level tokens node) :
    ReadsAt level tokens node := by
  intro steps later enough ends p same
  have lt := lt_steps_of_chain chained tokens
  obtain ⟨steps, rfl⟩ := Nat.exists_eq_add_one_of_ne_zero (n := steps) (by omega)
  obtain ⟨used, le, run⟩ := folds steps later enough (ends.mono level.rank_le_tighter)
  obtain ⟨q, left, depth, run⟩ := run p same
  have more : ∃ more, steps - used = more + 1 :=
    Nat.exists_eq_add_one_of_ne_zero (by omega)
  obtain ⟨more, rest⟩ := more
  have stop : (chain (operatorAt level) (expressionAt steps level.tighter) (steps - used)
      node).Reads later node later := by
    rw [rest]
    exact (operatorAt_none ends).bind (Reads.pure node later)
  obtain ⟨r, run', left', depth'⟩ := stop q left
  exact ⟨r, run.trans run', left', depth'.trans depth⟩

theorem FoldsAt.tighter (chained : level.isChain = true) (reads : ReadsAt level.tighter tokens node) :
    FoldsAt level tokens node := by
  intro steps later enough ends
  have notAtom : level ≠ .atom := by rintro rfl; cases chained
  have fewer : level.tighter.steps tokens < level.steps tokens :=
    Level.steps_lt_of_tighter (Level.rank_tighter notAtom ▸ Nat.lt_succ_self _) le_rfl
  refine ⟨0, Nat.zero_le _, fun p same => ?_⟩
  obtain ⟨q, run, left, depth⟩ := reads steps later (by omega) ends p same
  refine ⟨q, left, depth, ?_⟩
  rw [expressionAt_chain chained, bind_of_ok run]
  rfl

theorem FoldsAt.binary {op : BinaryOp} {left right : List Token} {mark : Token}
    {marks : List Token} {a b : Node} (found : Level.ofBinary op = level)
    (spelled : (mark :: marks).map Token.kind = op.kinds)
    (clear : op = .identical → right.head?.map Token.kind ≠ some (.keyword .notWord))
    (starts : ∃ token rest, right = token :: rest) (folds : FoldsAt level left a)
    (reads : ReadsAt level.tighter right b) :
    FoldsAt level (left ++ mark :: (marks ++ right)) (.binary op a b mark.pos.line) := by
  intro steps later enough ends
  obtain ⟨next, rest, rfl⟩ := starts
  have length : level.steps left + 12 ≤ level.steps (left ++ mark :: (marks ++ next :: rest)) ∧
      level.tighter.steps (next :: rest) + 12 ≤
        level.steps (left ++ mark :: (marks ++ next :: rest)) := by
    have := level.rank_le_tighter
    have := level.tighter.rank_le
    simp only [Level.steps, List.length_append, List.length_cons]
    omega
  have lt := level.lt_steps left
  obtain ⟨used, le, run⟩ := folds steps ((later.after (next :: rest)).after (mark :: marks))
    (by omega) ⟨mark, rfl, found ▸ Level.endsBefore_operator spelled.symm⟩
  refine ⟨used + 1, by simp only [List.length_append, List.length_cons]; omega, fun p same => ?_⟩
  rw [← List.cons_append, Answers.after_append, Answers.after_append] at same
  obtain ⟨q, left', depth, run⟩ := run p same
  have ready : (later.after (next :: rest)).get 0 = .ok next := rfl
  have operator := operatorAt_some found spelled ready (by simpa using clear)
  obtain ⟨r, run', left', depth'⟩ := operator q left'
  obtain ⟨s, run'', left', depth''⟩ := reads steps later (by omega) ends r left'
  refine ⟨s, left', by rw [depth'', depth', depth], ?_⟩
  rw [run, show steps - used = steps - (used + 1) + 1 by omega, chain, bind_of_ok run']
  exact bind_of_ok run''

theorem ReadsAt.power {left right : List Token} {mark : Token} {a b : Node}
    (spelled : mark.kind = .punct .doubleStar) (base : ReadsAt .atom left a)
    (exponent : ReadsAt .unary right b) :
    ReadsAt .power (left ++ mark :: right) (.binary .pow a b mark.pos.line) := by
  intro steps later enough ends
  have first : Level.atom.steps left < Level.power.steps (left ++ mark :: right) :=
    Level.steps_lt_of_tighter (by decide) (by simp)
  have second : Level.unary.steps right < Level.power.steps (left ++ mark :: right) :=
    Level.steps_lt_of_shorter (by rw [List.length_append, List.length_cons]; omega)
  obtain ⟨steps, rfl⟩ := Nat.exists_eq_add_one_of_ne_zero (n := steps) (by omega)
  rw [Answers.after_append]
  apply (base steps _ (by omega) ⟨mark, rfl, by rw [spelled]; rfl⟩).bind
  apply (Reads.peek_head rfl).bind
  rw [if_pos spelled]
  apply (Reads.advance mark _).bind
  apply (exponent steps later (by omega)
    (ends.of_operators fun op => by cases op <;> decide)).bind
  exact Reads.pure _ later

theorem ReadsAt.power_of_atom (base : ReadsAt .atom tokens node) : ReadsAt .power tokens node := by
  intro steps later enough ends
  have fewer : Level.atom.steps tokens < Level.power.steps tokens :=
    Level.steps_lt_of_tighter (by decide) le_rfl
  obtain ⟨steps, rfl⟩ := Nat.exists_eq_add_one_of_ne_zero (n := steps) (by omega)
  apply (base steps later (by omega) (ends.mono (by decide))).bind
  obtain ⟨token, found, ends⟩ := ends
  have other : token.kind ≠ .punct .doubleStar := by
    intro same
    rw [same] at ends
    cases ends
  apply (Reads.peek_head found).bind
  rw [if_neg other]
  exact Reads.pure _ later

theorem ReadsAt.unary {operand : List Token} {mark : Token} {op : UnaryOp} {a : Node}
    (spelled : mark.kind = op.kind) (reads : ReadsAt .unary operand a) :
    ReadsAt .unary (mark :: operand) (.unary op a mark.pos.line) := by
  intro steps later enough ends
  have fewer : Level.unary.steps operand < Level.unary.steps (mark :: operand) :=
    Level.steps_lt_of_shorter (Nat.lt_succ_self _)
  obtain ⟨steps, rfl⟩ := Nat.exists_eq_add_one_of_ne_zero (n := steps) (by omega)
  have known : mark.kind.unaryOp? = some op := by rw [spelled]; cases op <;> rfl
  apply (Reads.peek_head rfl).bind
  simp only [known]
  apply (Reads.advance mark _).bind
  apply (reads steps later (by omega) ends).bind
  exact Reads.pure _ later

theorem ReadsAt.unary_of_power {token : Token} {rest : List Token}
    (other : token.kind.unaryOp? = none) (reads : ReadsAt .power (token :: rest) node) :
    ReadsAt .unary (token :: rest) node := by
  intro steps later enough ends
  have fewer : Level.power.steps (token :: rest) < Level.unary.steps (token :: rest) :=
    Level.steps_lt_of_tighter (by decide) le_rfl
  obtain ⟨steps, rfl⟩ := Nat.exists_eq_add_one_of_ne_zero (n := steps) (by omega)
  apply (Reads.peek_head rfl).bind
  simp only [other]
  exact reads steps later (by omega) (ends.mono (by decide))

/-- What is read as an atom is read by `atom` with fewer steps for the expressions inside. -/
theorem ReadsAt.of_atom (h : ∀ steps later, 12 * tokens.length ≤ steps → Level.atom.EndsBefore later →
      (atom (expressionAt steps .or) steps).Reads (later.after tokens) node later) :
    ReadsAt .atom tokens node := by
  intro steps later enough ends
  have lt := Level.atom.lt_steps tokens
  obtain ⟨steps, rfl⟩ := Nat.exists_eq_add_one_of_ne_zero (n := steps) (by omega)
  exact h steps later (by omega) ends

theorem ReadsAt.identifier {token : Token} {name : String} (spelled : token.kind = .identifier name) :
    ReadsAt .atom [token] (.identifier name token.pos.line) := by
  apply ReadsAt.of_atom
  intro steps later _ ends
  obtain ⟨next, found, ends⟩ := ends
  have other : next.kind ≠ .punct .leftParen := by
    intro same
    rw [same] at ends
    cases ends
  apply (Reads.advance token later).bind
  simp only [spelled]
  exact (Reads.eat_of_ne found other).bind (Reads.pure _ later)

theorem ReadsAt.call {token opening : Token} {name : String} {rest : List Token}
    {items : List (List Token × Node)} (spelled : token.kind = .identifier name)
    (opened : opening.kind = .punct .leftParen)
    (separated : Separated .rightParen (items.map Prod.fst) rest)
    (each : ∀ item ∈ items, (∃ token rest, item.1 = token :: rest ∧
      token.kind ≠ .punct .rightParen) ∧ ReadsAt .or item.1 item.2) :
    ReadsAt .atom (token :: opening :: rest)
      (.call name (items.map Prod.snd) token.pos.line) := by
  apply ReadsAt.of_atom
  intro steps later enough _
  simp only [List.length_cons] at enough
  apply (Reads.advance token _).bind
  simp only [spelled]
  apply (Reads.eat_of_eq opened).bind
  have read : ∀ item ∈ items, ReadsItem (expressionAt steps .or) item.1 item.2 := by
    intro item member
    have fits := separated.length_le (List.mem_map.mpr ⟨item, member, rfl⟩)
    have most := Level.or.steps_le item.1
    exact ⟨(each item member).1, fun later ends => (each item member).2 steps later (by omega) ends⟩
  rw [if_pos rfl]
  exact (commaSeparated_reads separated read (by omega)).bind (Reads.pure _ later)

theorem ReadsAt.literal {token : Token} {value : Value}
    (spelled : token.kind = .number value ∨ ∃ word, token.kind = .keyword word ∧
      word.value? = some value) :
    ReadsAt .atom [token] (.literal value token.pos.line) := by
  apply ReadsAt.of_atom
  intro steps later _ _
  apply (Reads.advance token later).bind
  rcases spelled with spelled | ⟨word, spelled, known⟩
  · simp only [spelled]
    exact Reads.pure _ later
  · simp only [spelled]
    cases word <;> cases known <;> exact Reads.pure _ later

theorem ReadsAt.text {token : Token} {rest : List Token} {part : String} {parts : List String}
    (spelled : token.kind = .str part) (adjacent : rest.map Token.kind = parts.map .str) :
    ReadsAt .atom (token :: rest)
      (.literal (.str (parts.foldl (· ++ ·) part)) token.pos.line) := by
  apply ReadsAt.of_atom
  intro steps later enough ends
  rw [List.length_cons] at enough
  apply (Reads.advance token _).bind
  simp only [spelled]
  exact (adjacent_text ends adjacent (by omega)).bind (Reads.pure _ later)

theorem ReadsAt.bytes {token : Token} {rest : List Token} {part : List UInt8}
    {parts : List (List UInt8)} (spelled : token.kind = .bytes part)
    (adjacent : rest.map Token.kind = parts.map .bytes) :
    ReadsAt .atom (token :: rest)
      (.literal (.bytes (parts.foldl (· ++ ·) part)) token.pos.line) := by
  apply ReadsAt.of_atom
  intro steps later enough ends
  rw [List.length_cons] at enough
  apply (Reads.advance token _).bind
  simp only [spelled]
  exact (adjacent_bytes ends adjacent (by omega)).bind (Reads.pure _ later)

theorem ReadsAt.parenthesized {opening closing : Token} (opened : opening.kind = .punct .leftParen)
    (closed : closing.kind = .punct .rightParen) (reads : ReadsAt .or tokens node) :
    ReadsAt .atom (opening :: (tokens ++ [closing])) node := by
  apply ReadsAt.of_atom
  intro steps later enough _
  simp only [List.length_cons, List.length_append, List.length_nil] at enough
  apply (Reads.advance opening _).bind
  simp only [opened]
  rw [Answers.after_append]
  have most := Level.or.steps_le tokens
  apply (reads steps _ (by omega) ⟨closing, rfl, by rw [closed]; rfl⟩).bind
  exact (Reads.expect closed).bind (Reads.pure _ later)

end ParseM

/-- The parser finds every tree that the grammar allows. A chain is followed operator by operator,
so its rules also say how far it is folded; its tighter operands are read by the same statement. -/
theorem Derives.reads {level : Level} {tokens : List Token} {node : Node}
    (h : Derives level tokens node) : ParseM.ReadsAt level tokens node := by
  suffices both : ParseM.ReadsAt level tokens node ∧
      (level.isChain = true → ParseM.FoldsAt level tokens node) from both.1
  have ofChain : ∀ {level tokens node}, level.isChain = true → ParseM.FoldsAt level tokens node →
      ParseM.ReadsAt level tokens node ∧
        (level.isChain = true → ParseM.FoldsAt level tokens node) :=
    fun chained folds => ⟨folds.reads chained, fun _ => folds⟩
  have ofOther : ∀ {level tokens node}, level.isChain = false → ParseM.ReadsAt level tokens node →
      ParseM.ReadsAt level tokens node ∧
        (level.isChain = true → ParseM.FoldsAt level tokens node) :=
    fun other reads => ⟨reads, fun chained => absurd chained (by simp [other])⟩
  induction h with
  | @tighter level tokens node inner ih =>
    obtain ⟨token, rest, rfl, -, other⟩ := inner.starts
    by_cases chained : level.isChain = true
    · exact ofChain chained (.tighter chained ih.1)
    · cases level with
      | unary => exact ofOther rfl (.unary_of_power (other (by decide)) ih.1)
      | power => exact ofOther rfl ih.1.power_of_atom
      | atom => exact ih
      | _ => exact absurd rfl chained
  | binary found chained spelled clear _ right ihLeft ihRight =>
    obtain ⟨token, rest, starts, -⟩ := right.starts
    exact ofChain chained (.binary found spelled clear ⟨token, rest, starts⟩
      (ihLeft.2 chained) ihRight.1)
  | power spelled _ _ base exponent => exact ofOther rfl (.power spelled base.1 exponent.1)
  | unary spelled _ ih => exact ofOther rfl (.unary spelled ih.1)
  | identifier spelled => exact ofOther rfl (.identifier spelled)
  | call spelled opened separated each ih =>
    refine ofOther rfl (.call spelled opened separated fun item member => ?_)
    obtain ⟨token, rest, starts, other, -⟩ := (each item member).starts
    exact ⟨⟨token, rest, starts, other⟩, (ih item member).1⟩
  | number spelled => exact ofOther rfl (.literal (.inl spelled))
  | constant spelled known => exact ofOther rfl (.literal (.inr ⟨_, spelled, known⟩))
  | text spelled adjacent => exact ofOther rfl (.text spelled adjacent)
  | bytes spelled adjacent => exact ofOther rfl (.bytes spelled adjacent)
  | parenthesized opened closed _ ih => exact ofOther rfl (.parenthesized opened closed ih.1)

end Offside
