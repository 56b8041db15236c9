import Offside.Proofs.Parsing.Ends
import Offside.Proofs.Parsing.Printing

/-!
# Every parsed expression is one of the grammar

`ParseM.expressionAt_ends` follows the parser from any place of any answers: what it consumes spells
the tree that it gives, and it runs out of steps only where more tokens are left than it was given
steps for.
-/

namespace Offside

/-- Where one token spells a binary operator it is the whole of it. -/
theorem BinaryOp.kinds_of_operator? {kind : Token.Kind} {op : BinaryOp}
    (known : kind.operator? = some op) : op.kinds = [kind] ∧ op ≠ .identical := by
  cases kind with
  | punct mark => cases mark <;> cases known <;> exact ⟨rfl, by decide⟩
  | keyword word => cases word <;> cases known <;> exact ⟨rfl, by decide⟩
  | _ => cases known

theorem UnaryOp.kind_of_unaryOp? {kind : Token.Kind} {op : UnaryOp}
    (known : kind.unaryOp? = some op) : kind = op.kind := by
  cases kind with
  | punct mark => cases mark <;> cases known <;> rfl
  | keyword word =>
    cases word <;> cases known
    rfl
  | _ => cases known

/-- One more than the steps that an expression of the level may take when so many tokens are left. -/
def Level.need (level : Level) (left : Nat) : Nat := 12 * left + 12 - level.rank

theorem Level.need_pos (level : Level) (left : Nat) : 0 < level.need left := by
  have := level.rank_le
  unfold need
  omega

/-- Each token that was passed pays for the way down all levels. -/
theorem Level.need_of_lt (level inner : Level) {left less steps : Nat} (lt : less < left)
    (h : steps < inner.need less) : steps + 1 < level.need left := by
  have := level.rank_le
  unfold need at h ⊢
  omega

theorem Level.need_tighter {level : Level} (notAtom : level ≠ .atom) {left less steps : Nat}
    (le : less ≤ left) (h : steps < level.tighter.need less) : steps + 1 < level.need left := by
  have := level.rank_tighter notAtom
  have := level.tighter.rank_le
  unfold need at h ⊢
  omega

theorem Level.need_of_left (level : Level) {left less steps : Nat} (lt : less < left)
    (h : steps < less + 1) : steps + 1 < level.need left := by
  have := level.rank_le
  unfold need
  omega

namespace Answers

/-- The answers between the places spell an expression of the level with this tree. -/
def Spells (answers : Answers) (level : Level) (i : Nat) (node : Node) (j : Nat) : Prop :=
  ∃ tokens, answers.Spans i tokens j ∧ Derives level tokens node

/-- What there is of an operator of the level, with the line it is given with. -/
inductive Operates (answers : Answers) (level : Level) (i : Nat) :
    Option (BinaryOp × Nat) → Nat → Prop
  | none : Operates answers level i none i
  | some {op : BinaryOp} {mark : Token} {marks : List Token} {j : Nat} :
      Level.ofBinary op = level → (mark :: marks).map Token.kind = op.kinds →
      answers.Finds i mark → answers.Spans i (mark :: marks) j →
      (op = .identical → ∀ next, answers.get j = .ok next → next.kind ≠ .keyword .notWord) →
      Operates answers level i (some (op, mark.pos.line)) j

/-- The literals that follow `first` and the value they make with it. -/
inductive Joins : Value → List Token → Value → Prop
  | nil {first : Value} : Joins first [] first
  | text {token : Token} {tokens : List Token} {text more : String} {value : Value} :
      token.kind = .str more → Joins (.str (text ++ more)) tokens value →
      Joins (.str text) (token :: tokens) value
  | bytes {token : Token} {tokens : List Token} {data more : List UInt8} {value : Value} :
      token.kind = .bytes more → Joins (.bytes (data ++ more)) tokens value →
      Joins (.bytes data) (token :: tokens) value

variable {tokens : List Token} {value : Value}

theorem Joins.of_text {text : String} (h : Joins (.str text) tokens value) :
    ∃ parts : List String, tokens.map Token.kind = parts.map .str ∧
      value = .str (parts.foldl (· ++ ·) text) := by
  induction tokens generalizing text with
  | nil =>
    cases h
    exact ⟨[], rfl, rfl⟩
  | cons token tokens ih =>
    cases h with
    | @text _ _ _ more _ spelled rest =>
      obtain ⟨parts, kinds, rfl⟩ := ih rest
      exact ⟨more :: parts, by rw [List.map_cons, kinds, spelled]; rfl, rfl⟩

theorem Joins.of_bytes {data : List UInt8} (h : Joins (.bytes data) tokens value) :
    ∃ parts : List (List UInt8), tokens.map Token.kind = parts.map .bytes ∧
      value = .bytes (parts.foldl (· ++ ·) data) := by
  induction tokens generalizing data with
  | nil =>
    cases h
    exact ⟨[], rfl, rfl⟩
  | cons token tokens ih =>
    cases h with
    | @bytes _ _ _ more _ spelled rest =>
      obtain ⟨parts, kinds, rfl⟩ := ih rest
      exact ⟨more :: parts, by rw [List.map_cons, kinds, spelled]; rfl, rfl⟩

/-- What a list of items up to `closing` consumed, when each item consumed tokens that `spells`
allows. -/
def Lists (answers : Answers) (closing : Punct) (spells : List Token → α → Prop) (i : Nat)
    (found : List α) (j : Nat) : Prop :=
  ∃ (items : List (List Token × α)) (tokens : List Token), answers.Spans i tokens j ∧
    Separated closing (items.map Prod.fst) tokens ∧ (∀ item ∈ items, spells item.1 item.2) ∧
    found = items.map Prod.snd

end Answers

namespace ParseM

open Answers

variable {answers : Answers} {i j k depth steps : Nat} {short : Prop} {level : Level}

theorem wordOperator_ends {token : Token} (found : answers.Finds i token) :
    Ends answers i depth short (do
        let op ← wordOperator token
        return op.map (·, token.pos.line))
      (answers.Operates .comparison i) := by
  unfold wordOperator
  by_cases is : token.kind = .keyword .isWord
  · simp only [if_pos is, bind_assoc]
    apply Ends.peek_ahead
    intro next foundNext
    apply Ends.skip
    by_cases isNot : next.kind = .keyword .notWord
    · simp only [if_pos isNot, bind_assoc, pure_bind]
      apply Ends.skip
      exact Ends.pure (.some rfl (by simp [is, isNot, BinaryOp.kinds]) found
        (.cons found.get (.single foundNext.get)) nofun)
    · simp only [if_neg isNot, pure_bind]
      refine Ends.pure (.some rfl (by simp [is, BinaryOp.kinds]) found (.single found.get)
        fun _ other foundOther => ?_)
      rw [foundNext.eq foundOther]
      exact isNot
  · simp only [if_neg is]
    by_cases isNot : token.kind = .keyword .notWord
    · simp only [if_pos isNot, bind_assoc]
      apply Ends.peek_ahead
      intro next foundNext
      by_cases isIn : next.kind = .keyword .inWord
      · simp only [if_pos isIn, bind_assoc, pure_bind]
        apply Ends.skip
        apply Ends.skip
        exact Ends.pure (.some rfl (by simp [isNot, isIn, BinaryOp.kinds]) found
          (.cons found.get (.single foundNext.get)) nofun)
      · simp only [if_neg isIn, pure_bind]
        exact Ends.pure .none
    · simp only [if_neg isNot, pure_bind]
      exact Ends.pure .none

theorem operatorAt_ends :
    Ends answers i depth short (operatorAt level) (answers.Operates level i) := by
  apply Ends.peek
  intro token found
  cases known : token.kind.operator? with
  | some op =>
    by_cases fits : Level.ofBinary op = level
    · simp only [if_pos fits]
      obtain ⟨kinds, other⟩ := BinaryOp.kinds_of_operator? known
      apply Ends.skip
      refine Ends.pure (.some fits ?_ found (.single found.get) fun same => absurd same other)
      exact kinds.symm
    · simp only [if_neg fits]
      exact Ends.pure .none
  | none =>
    by_cases comparison : level = .comparison
    · subst comparison
      exact wordOperator_ends found
    · simp only [if_neg comparison]
      exact Ends.pure .none

/-- The operands so far go from `i` to `j`. -/
theorem chain_ends {operand : ParseM Node} {few : Nat} {node : Node} {j : Nat}
    (chained : level.isChain = true)
    (operands : ∀ k, i ≤ k →
      Ends answers k depth short operand (answers.Spells level.tighter k))
    (enough : answers.Short j (· + 1) few → short) (le : i ≤ j)
    (spelled : answers.Spells level i node j) :
    Ends answers j depth short (chain (operatorAt level) operand few node)
      (answers.Spells level i) := by
  induction few generalizing j node with
  | zero => exact Ends.exhausted (enough (.zero Nat.succ_pos))
  | succ few ih =>
    apply operatorAt_ends.bind
    intro found k _ operates
    cases operates with
    | none => exact Ends.pure spelled
    | @some op mark marks _ fits kinds here spans clear =>
      have lt : j < k := by
        rw [spans.place, List.length_cons]
        omega
      have inside : mark.kind ≠ .endMarker := by
        intro same
        rw [List.map_cons, same] at kinds
        cases op <;> cases kinds
      apply (operands k (by omega)).bind
      intro right l le' reads
      apply ih (fun fewer => enough (fewer.round here inside (Nat.le_refl j) (by omega)))
        (by omega)
      obtain ⟨tokens, spansLeft, derives⟩ := spelled
      obtain ⟨tokens', spansRight, derives'⟩ := reads
      refine ⟨_, spansLeft.append (spans.append spansRight),
        .binary fits chained kinds (fun same => ?_) derives derives'⟩
      obtain ⟨token, rest, rfl, -⟩ := derives'.starts
      simpa using clear same token spansRight.head

theorem adjacent_ends {few : Nat} {first : Value}
    (enough : answers.Short i (· + 1) few → short) :
    Ends answers i depth short (adjacent few first)
      fun value j => ∃ tokens, answers.Spans i tokens j ∧ Joins first tokens value := by
  induction few generalizing i first with
  | zero => exact Ends.exhausted (enough (.zero Nat.succ_pos))
  | succ few ih =>
    apply Ends.peek
    intro token found
    have further : token.kind ≠ .endMarker → ∀ first', (∀ tokens value,
        Joins first' tokens value → Joins first (token :: tokens) value) →
        Ends answers i depth short (do
          let _ ← advance
          adjacent few first')
          fun value j => ∃ tokens, answers.Spans i tokens j ∧ Joins first tokens value := by
      intro inside first' joins
      apply Ends.skip
      apply (ih fun fewer => enough
        (fewer.round found inside (Nat.le_refl i) (Nat.lt_succ_self i))).mono id
      intro value j _ known
      obtain ⟨tokens, spans, joined⟩ := known
      exact ⟨_, .cons found.get spans, joins tokens value joined⟩
    have done : Ends answers i depth short (Pure.pure first)
        fun value j => ∃ tokens, answers.Spans i tokens j ∧ Joins first tokens value :=
      Ends.pure ⟨[], .nil answers i, .nil⟩
    cases known : token.kind with
    | str more =>
      cases first with
      | str text =>
        exact further (by simp [known]) _ fun _ _ joined => .text known joined
      | _ => exact Ends.fail (.mixed found (by simp [known]) (by simp [known]))
    | bytes more =>
      cases first with
      | bytes data =>
        exact further (by simp [known]) _ fun _ _ joined => .bytes known joined
      | _ => exact Ends.fail (.mixed found (by simp [known]) (by simp [known]))
    | _ => cases first <;> exact done

theorem commaSeparated_ends {closing : Punct} {item : ParseM α} {few : Nat}
    {spells : List Token → α → Prop}
    (items : ∀ k, i ≤ k → Ends answers k depth short item
      fun a j => ∃ tokens, answers.Spans k tokens j ∧ spells tokens a)
    (enough : answers.Short i (· + 1) few → short) :
    Ends answers i depth short (commaSeparated closing item few)
      (answers.Lists closing spells i) := by
  induction few generalizing i with
  | zero => exact Ends.exhausted (enough (.zero Nat.succ_pos))
  | succ few ih =>
    apply Ends.eat
    · intro token found same
      exact Ends.pure ⟨[], _, .single found.get, .closed same, nofun, rfl⟩
    · intro _ _ _
      apply (items i (Nat.le_refl i)).bind
      intro first j le known
      obtain ⟨tokens, spans, spelled⟩ := known
      apply Ends.advance
      intro token found
      by_cases comma : token.kind = .punct .comma
      · rw [if_pos comma]
        apply (ih (fun k le' => items k (by omega)) fun fewer => enough
          (fewer.round found (by simp [comma]) le (Nat.lt_succ_self j))).bind
        intro rest k _ listed
        obtain ⟨later, tokens', spans', separated, each, rfl⟩ := listed
        refine Ends.pure ⟨(tokens, first) :: later, _, spans.append (.cons found.get spans'),
          .more comma separated, ?_, rfl⟩
        exact List.forall_mem_cons.mpr ⟨spelled, each⟩
      · rw [if_neg comma]
        by_cases last : token.kind = .punct closing
        · rw [if_pos last]
          refine Ends.pure ⟨[(tokens, first)], _, spans.concat found.get, .last last, ?_, rfl⟩
          exact List.forall_mem_singleton.mpr spelled
        · rw [if_neg last]
          exact Ends.unexpected found nofun

section

variable (inner : ∀ j level', Ends answers j depth (answers.Short j level'.need steps)
  (expressionAt steps level') (answers.Spells level' j))

include inner

theorem atom_ends :
    Ends answers i depth (answers.Short i Level.atom.need (steps + 1))
      (expressionAt (steps + 1) .atom) (answers.Spells .atom i) := by
  apply Ends.advance
  intro token found
  -- Past the first token the steps left are enough for what is left.
  have expression : token.kind ≠ .endMarker → ∀ j, i < j →
      Ends answers j depth (answers.Short i Level.atom.need (steps + 1)) (expressionAt steps .or)
        (answers.Spells .or j) := by
    intro inside j lt
    apply (inner j .or).mono _ fun _ _ _ => id
    intro fewer
    exact fewer.of_lt found inside (Nat.le_refl i) lt fun _ _ => Level.need_of_lt .atom .or
  have few : token.kind ≠ .endMarker → ∀ j, i < j → answers.Short j (· + 1) steps →
      answers.Short i Level.atom.need (steps + 1) := by
    intro inside j lt fewer
    exact fewer.of_lt found inside (Nat.le_refl i) lt fun _ _ => Level.need_of_left .atom
  cases known : token.kind with
  | identifier name =>
    have inside : token.kind ≠ .endMarker := by simp [known]
    apply Ends.eat
    · intro opening opened same
      apply (commaSeparated_ends (fun k le => expression inside k (by omega))
        (few inside _ (by omega))).bind
      intro arguments j _ listed
      obtain ⟨items, tokens, spans, separated, each, rfl⟩ := listed
      exact Ends.pure ⟨_, .cons found.get (.cons opened.get spans), .call known same separated each⟩
    · intro _ _ _
      exact Ends.pure ⟨_, .single found.get, .identifier known⟩
  | number value => exact Ends.pure ⟨_, .single found.get, .number known⟩
  | str part =>
    apply (adjacent_ends (few (by simp [known]) _ (Nat.lt_succ_self i))).bind
    intro value j _ joined
    obtain ⟨tokens, spans, joined⟩ := joined
    obtain ⟨parts, kinds, rfl⟩ := joined.of_text
    exact Ends.pure ⟨_, .cons found.get spans, .text known kinds⟩
  | bytes part =>
    apply (adjacent_ends (few (by simp [known]) _ (Nat.lt_succ_self i))).bind
    intro value j _ joined
    obtain ⟨tokens, spans, joined⟩ := joined
    obtain ⟨parts, kinds, rfl⟩ := joined.of_bytes
    exact Ends.pure ⟨_, .cons found.get spans, .bytes known kinds⟩
  | keyword word =>
    cases word with
    | trueWord | falseWord | noneWord =>
      exact Ends.pure ⟨_, .single found.get, .constant known rfl⟩
    | _ => exact Ends.unexpected found nofun
  | punct mark =>
    cases mark with
    | leftParen =>
      apply (expression (by simp [known]) _ (Nat.lt_succ_self i)).bind
      intro node j _ spelled
      obtain ⟨tokens, spans, derives⟩ := spelled
      apply Ends.expect
      intro closing closed same
      exact Ends.pure ⟨_, .cons found.get (spans.concat closed.get),
        .parenthesized known same derives⟩
    | _ => exact Ends.unexpected found nofun
  | _ => exact Ends.unexpected found nofun

theorem tighter_ends (notAtom : level ≠ .atom) (le : i ≤ j) :
    Ends answers j depth (answers.Short i level.need (steps + 1))
      (expressionAt steps level.tighter) (answers.Spells level.tighter j) := by
  apply (inner j level.tighter).mono _ fun _ _ _ => id
  intro fewer
  exact fewer.of_le le fun _ _ => Level.need_tighter notAtom

/-- The operand behind an operator. -/
theorem operand_ends {operator : Token} {level' : Level} (found : answers.Finds k operator)
    (inside : operator.kind ≠ .endMarker) (le : i ≤ k) :
    Ends answers (k + 1) depth (answers.Short i level.need (steps + 1))
      (expressionAt steps level') (answers.Spells level' (k + 1)) := by
  apply (inner (k + 1) level').mono _ fun _ _ _ => id
  intro fewer
  exact fewer.of_lt found inside le (Nat.lt_succ_self k) fun _ _ => level.need_of_lt level'

theorem power_ends :
    Ends answers i depth (answers.Short i Level.power.need (steps + 1))
      (expressionAt (steps + 1) .power) (answers.Spells .power i) := by
  apply (tighter_ends inner (by decide) (Nat.le_refl i)).bind
  intro base j le spelled
  obtain ⟨tokens, spans, derives⟩ := spelled
  apply Ends.peek
  intro token found
  by_cases same : token.kind = .punct .doubleStar
  · rw [if_pos same]
    apply Ends.skip
    apply (operand_ends inner found (by simp [same]) le).bind
    intro exponent k _ spelled
    obtain ⟨tokens', spans', derives'⟩ := spelled
    exact Ends.pure ⟨_, spans.append (.cons found.get spans'), .power same derives derives'⟩
  · rw [if_neg same]
    exact Ends.pure ⟨tokens, spans, .tighter derives⟩

theorem unary_ends :
    Ends answers i depth (answers.Short i Level.unary.need (steps + 1))
      (expressionAt (steps + 1) .unary) (answers.Spells .unary i) := by
  apply Ends.peek
  intro token found
  cases known : token.kind.unaryOp? with
  | some op =>
    have spelledOp := UnaryOp.kind_of_unaryOp? known
    have inside : token.kind ≠ .endMarker := by
      intro same
      rw [same] at known
      cases known
    apply Ends.skip
    apply (operand_ends inner found inside (Nat.le_refl i)).bind
    intro node j _ spelled
    obtain ⟨tokens, spans, derives⟩ := spelled
    exact Ends.pure ⟨_, .cons found.get spans, .unary spelledOp derives⟩
  | none =>
    apply (tighter_ends inner (by decide) (Nat.le_refl i)).mono id
    intro node j _ spelled
    obtain ⟨tokens, spans, derives⟩ := spelled
    exact ⟨tokens, spans, .tighter derives⟩

theorem chained_ends (chained : level.isChain = true) :
    Ends answers i depth (answers.Short i level.need (steps + 1))
      (expressionAt (steps + 1) level) (answers.Spells level i) := by
  have notAtom : level ≠ .atom := by
    intro same
    rw [same] at chained
    cases chained
  rw [expressionAt_chain chained]
  apply (tighter_ends inner notAtom (Nat.le_refl i)).bind
  intro first j le spelled
  obtain ⟨tokens, spans, derives⟩ := spelled
  apply chain_ends chained _ _ le ⟨tokens, spans, .tighter derives⟩
  · exact fun k le => tighter_ends inner notAtom le
  · intro fewer
    refine fewer.of_le le fun left less le few => ?_
    have := of_decide_eq_true chained
    unfold Level.need
    omega

end

/-- What the parser takes for an expression of the level is one, with the tree it gives. -/
theorem expressionAt_ends :
    Ends answers i depth (answers.Short i level.need steps) (expressionAt steps level)
      (answers.Spells level i) := by
  induction steps generalizing i level with
  | zero => cases level <;> exact Ends.exhausted (.zero (Level.need_pos _))
  | succ steps ih =>
    have inner : ∀ j level', Ends answers j depth (answers.Short j level'.need steps)
        (expressionAt steps level') (answers.Spells level' j) := fun _ _ => ih
    cases level with
    | atom => exact atom_ends inner
    | power => exact power_ends inner
    | unary => exact unary_ends inner
    | _ => exact chained_ends inner rfl

end ParseM

/-- Whatever the state, the tokens consumed by a parsed expression spell its tree. -/
theorem Parser.expression_sound {p q : Parser} {node : Node}
    (parsed : Parser.expression.run p = .ok node q) :
    ∃ tokens, p.answers = q.answers.after tokens ∧ Derives .or tokens node ∧ q.depth = p.depth := by
  have here : p.Stands p.answers 0 p.depth := ⟨rfl, p.answers.sound_zero, rfl⟩
  have ends : ParseM.Ends p.answers 0 p.depth (p.answers.Short 0 Level.or.need p.budget)
      (ParseM.expressionAt p.budget .or) (p.answers.Spells .or 0) := ParseM.expressionAt_ends
  obtain ⟨succeeds, -⟩ := ends p here
  obtain ⟨j, -, stands, tokens, spans, derives⟩ := succeeds node q parsed
  exact ⟨tokens, spans.drop.trans (by rw [stands.left]), derives, stands.depth⟩

theorem Parser.expression_sound_of_call :
    let p : Parser := .ofText "f ( \"it\" \"'s\" , ) ** - ( ( x ) ) is not y\n" 8
    ∃ node q tokens, Parser.expression.run p = .ok node q ∧
      node.text = "f ( \"it's\" ) ** - x is not y" ∧
      p.answers = q.answers.after tokens ∧ Derives .or tokens node ∧ q.depth = p.depth := by
  intro p
  have text : (Parser.expression.run' p).map Node.text = some "f ( \"it's\" ) ** - x is not y" := by
    decide +kernel
  cases parsed : Parser.expression.run p with
  | error e q =>
    delta EStateM.run' at text
    rw [parsed] at text
    cases text
  | ok node q =>
    delta EStateM.run' at text
    rw [parsed] at text
    obtain ⟨tokens, consumed, derives, depth⟩ := Parser.expression_sound parsed
    exact ⟨node, q, tokens, rfl, Option.some.inj text, consumed, derives, depth⟩

end Offside
