import Offside.Proofs.Parsing.Grammar
import Offside.Proofs.Parsing.Reads
import Offside.Proofs.Tree.Lines

/-!
# Parsing side by side

Two parsers read answers that tell the same up to a line number, which `f` moves. `Mirrors` says
that whenever the program of the first succeeds, so does that of the second, with the same tokens
consumed. `Alongside.expressionAt` shows it for expressions.

The answers may be alike only for a while. `within i` holds at the places from which a NEWLINE is
still to come before they part, and `near i` at those and at the place where they part: an
expression does not go beyond a NEWLINE, so it sees nothing of what comes after it.
-/

namespace Offside

/-- The second token stands for the same, on the moved line. No tree takes over the line of a
dedent. -/
structure Token.Moves (f : Nat → Nat) (first second : Token) : Prop where
  kind : second.kind = first.kind
  line : first.kind ≠ .dedent → second.pos.line = f first.pos.line

structure Alongside (f : Nat → Nat) (left right : Answers) (within near : Nat → Prop) : Prop where
  token {i t} : within i → left.get i = .ok t → ∃ u, right.get i = .ok u ∧ t.Moves f u
  inside {i t} : within i → left.get i = .ok t → t.kind ≠ .newline → within (i + 1)
  leaves {i t} : within i → left.get i = .ok t → near (i + 1)
  /-- Where the answers part the first ones are at their end, and the second ones do not go on with
  a conditional. -/
  parts {i t} : near i → left.get i = .ok t → ∃ u, right.get i = .ok u ∧
    (t.Moves f u ∨ t.kind = .endMarker ∧ u.kind ≠ .keyword .elifWord ∧ u.kind ≠ .keyword .elseWord)
  enters {i t} : near i → left.get i = .ok t → t.kind ≠ .dedent → t.kind ≠ .endMarker → within i
  dedent {i t} : near i → left.get i = .ok t → t.kind = .dedent → near (i + 1)

/-- Both parsers have consumed `i` answers. -/
structure At (left right : Answers) (i depth : Nat) (p q : Parser) : Prop where
  left : p.answers = left.drop i
  right : q.answers = right.drop i
  depthLeft : p.depth = depth
  depthRight : q.depth = depth

/-- From the place `i` on, the second program succeeds when the first does, and both stop at one
place. -/
def Mirrors (left right : Answers) (i depth : Nat) (m n : ParseM α)
    (post : α → α → Nat → Prop) : Prop :=
  ∀ p q, At left right i depth p q → ∀ a p', m p = .ok a p' →
    ∃ b q' j, n q = .ok b q' ∧ At left right j depth p' q' ∧ i ≤ j ∧ post a b j

namespace Mirrors

variable {left right : Answers} {i depth : Nat} {post : α → α → Nat → Prop}

theorem pure {a b : α} (h : post a b i) :
    Mirrors left right i depth (pure a) (pure b) post := by
  intro p q at' c p' run
  obtain ⟨rfl, rfl⟩ := pure_ok run
  exact ⟨b, q, i, rfl, at', Nat.le_refl i, h⟩

theorem bind {post' : β → β → Nat → Prop} {m n : ParseM α} {g k : α → ParseM β}
    (first : Mirrors left right i depth m n post)
    (second : ∀ a b j, i ≤ j → post a b j → Mirrors left right j depth (g a) (k b) post') :
    Mirrors left right i depth (m >>= g) (n >>= k) post' := by
  intro p q at' c p' run
  obtain ⟨a, middle, run, rest⟩ := bind_ok run
  obtain ⟨b, q', j, mirrored, at', le, same⟩ := first p q at' a middle run
  obtain ⟨d, r, l, mirroredRest, at', le', same'⟩ := second a b j le same middle q' at' c p' rest
  exact ⟨d, r, l, (bind_of_ok mirrored).trans mirroredRest, at', Nat.le_trans le le', same'⟩

theorem mono {post' : α → α → Nat → Prop} {m n : ParseM α}
    (h : Mirrors left right i depth m n post)
    (weaker : ∀ a b j, i ≤ j → post a b j → post' a b j) :
    Mirrors left right i depth m n post' := by
  intro p q at' a p' run
  obtain ⟨b, q', j, mirrored, at', le, same⟩ := h p q at' a p' run
  exact ⟨b, q', j, mirrored, at', le, weaker a b j le same⟩

theorem fail {e : ParseError} {n : ParseM α} :
    Mirrors left right i depth (ParseM.fail e) n post := by
  intro p q _ a p' run
  cases run

theorem exhausted {n : ParseM α} :
    Mirrors left right i depth (throw SourceError.exhausted) n post := by
  intro p q _ a p' run
  cases run

theorem unexpected {token : Token} {expected : Option Expected} {n : ParseM α} :
    Mirrors left right i depth (ParseM.unexpected token expected) n post := fail

theorem peek {like : Token → Token → Prop}
    (h : ∀ t, left.get i = .ok t → ∃ u, right.get i = .ok u ∧ like t u) :
    Mirrors left right i depth (ParseM.peek 0) (ParseM.peek 0)
      fun t u j => j = i ∧ left.get i = .ok t ∧ like t u := by
  intro p q at' t p' run
  obtain ⟨same, kept, -, found⟩ := Parser.peek_ok run
  rw [at'.left, Stream'.get_drop, Nat.add_zero] at found
  obtain ⟨u, foundRight, alike⟩ := h t found
  have head : (right.drop i).get 0 = .ok u := by rw [Stream'.get_drop, Nat.add_zero, foundRight]
  obtain ⟨q', run', same', kept'⟩ := ParseM.Reads.peek_head head q at'.right
  exact ⟨u, q', i, run', ⟨same.trans at'.left, same', kept.trans at'.depthLeft,
    kept'.trans at'.depthRight⟩, Nat.le_refl i, rfl, found, alike⟩

theorem peek_second {like like' : Token → Token → Prop}
    (h : ∀ t, left.get i = .ok t → ∃ u, right.get i = .ok u ∧ like t u)
    (h' : ∀ t, left.get (i + 1) = .ok t → ∃ u, right.get (i + 1) = .ok u ∧ like' t u) :
    Mirrors left right i depth (ParseM.peek 1) (ParseM.peek 1)
      fun t u j => j = i ∧ left.get (i + 1) = .ok t ∧ like' t u := by
  intro p q at' t p' run
  obtain ⟨same, kept, before, found⟩ := Parser.peek_ok run
  obtain ⟨first, foundFirst⟩ := before 0 (Nat.zero_le 1)
  rw [at'.left, Stream'.get_drop] at found foundFirst
  obtain ⟨u, foundRight, alike⟩ := h' t found
  obtain ⟨firstRight, foundFirstRight, -⟩ := h first foundFirst
  have ready : ∀ k ≤ 1, ∃ token, (right.drop i).get k = .ok token := by
    intro k le
    rw [Stream'.get_drop]
    match k, le with
    | 0, _ => exact ⟨firstRight, foundFirstRight⟩
    | 1, _ => exact ⟨u, foundRight⟩
  obtain ⟨q', run', same', kept'⟩ := ParseM.Reads.peek ready
    (by rw [Stream'.get_drop]; exact foundRight) q at'.right
  exact ⟨u, q', i, run', ⟨same.trans at'.left, same', kept.trans at'.depthLeft,
    kept'.trans at'.depthRight⟩, Nat.le_refl i, rfl, found, alike⟩

theorem advance {like : Token → Token → Prop}
    (h : ∀ t, left.get i = .ok t → ∃ u, right.get i = .ok u ∧ like t u) :
    Mirrors left right i depth ParseM.advance ParseM.advance
      fun t u j => j = i + 1 ∧ left.get i = .ok t ∧ like t u := by
  intro p q at' t p' run
  obtain ⟨split, kept⟩ := Parser.advance_ok run
  rw [at'.left] at split
  have found := Answers.get_of_drop_eq split
  obtain ⟨u, foundRight, alike⟩ := h t found
  rw [Answers.drop_eq_cons found] at split
  obtain ⟨q', run', same', kept'⟩ := ParseM.Reads.advance u (right.drop (i + 1)) q
    (at'.right.trans (Answers.drop_eq_cons foundRight))
  exact ⟨u, q', i + 1, run', ⟨(Stream'.cons_injective_right _ split).symm, same',
    kept.trans at'.depthLeft, kept'.trans at'.depthRight⟩, Nat.le_succ i, rfl, found, alike⟩

end Mirrors

/-- The second result is the converted first one, at such a place. -/
def Into (convert : α → α) (place : Nat → Prop) (a b : α) (i : Nat) : Prop :=
  b = convert a ∧ place i

namespace Alongside

open ParseM

variable {f : Nat → Nat} {left right : Answers} {within near : Nat → Prop} {i depth : Nat}
  {steps steps' : Nat}

/-! ### Moves -/

theorem peek (along : Alongside f left right within near) (here : within i) :
    Mirrors left right i depth (ParseM.peek 0) (ParseM.peek 0)
      fun t u j => j = i ∧ left.get i = .ok t ∧ t.Moves f u :=
  .peek fun _ => along.token here

theorem advance (along : Alongside f left right within near) (here : within i) :
    Mirrors left right i depth ParseM.advance ParseM.advance
      fun t u j => j = i + 1 ∧ left.get i = .ok t ∧ t.Moves f u :=
  .advance fun _ => along.token here

theorem skip (along : Alongside f left right within near) {t : Token} (here : within i)
    (found : left.get i = .ok t) (inside : t.kind ≠ .newline) :
    Mirrors left right i depth ParseM.advance ParseM.advance
      fun _ _ j => j = i + 1 ∧ within j := by
  apply (along.advance here).mono
  rintro _ _ _ - ⟨rfl, -, -⟩
  exact ⟨rfl, along.inside here found inside⟩

theorem peek_second (along : Alongside f left right within near) {t : Token} (here : within i)
    (found : left.get i = .ok t) (inside : t.kind ≠ .newline) :
    Mirrors left right i depth (ParseM.peek 1) (ParseM.peek 1)
      fun t u j => j = i ∧ left.get (i + 1) = .ok t ∧ t.Moves f u :=
  .peek_second (fun _ => along.token here) fun _ => along.token (along.inside here found inside)

theorem eat (along : Alongside f left right within near) {kind : Token.Kind} (here : within i)
    (other : kind ≠ .newline) :
    Mirrors left right i depth (eat kind) (eat kind) (Into id within) := by
  apply (along.peek here).bind
  rintro t u _ - ⟨rfl, found, same⟩
  simp only [same.kind]
  by_cases eaten : t.kind = kind
  · simp only [if_pos eaten]
    apply (along.skip here found (eaten ▸ other)).bind
    rintro _ _ _ - ⟨-, inside⟩
    exact .pure ⟨rfl, inside⟩
  · simp only [if_neg eaten]
    exact .pure ⟨rfl, here⟩

theorem expect (along : Alongside f left right within near) {mark : Punct} (here : within i) :
    Mirrors left right i depth (expect mark) (expect mark)
      fun t u j => t.kind = .punct mark ∧ t.Moves f u ∧ within j := by
  apply (along.advance here).bind
  rintro t u _ - ⟨rfl, found, same⟩
  by_cases expected : t.kind = .punct mark
  · simp only [same.kind, if_pos expected]
    exact .pure ⟨expected, same, along.inside here found (by rw [expected]; simp)⟩
  · simp only [if_neg expected]
    exact .unexpected

theorem name (along : Alongside f left right within near) (here : within i) :
    Mirrors left right i depth name name (Into id within) := by
  apply (along.advance here).bind
  rintro t u _ - ⟨rfl, found, same⟩
  simp only [same.kind]
  cases known : t.kind with
  | identifier name =>
    exact .pure ⟨rfl, along.inside here found (by rw [known]; simp)⟩
  | _ => exact .unexpected

theorem commaSeparated (along : Alongside f left right within near) {closing : Punct}
    {item item' : ParseM α} {convert : α → α}
    (items : ∀ j, within j → Mirrors left right j depth item item' (Into convert within))
    (le : steps ≤ steps') (here : within i) :
    Mirrors left right i depth (commaSeparated closing item steps)
      (commaSeparated closing item' steps') (Into (List.map convert) within) := by
  induction steps generalizing steps' i with
  | zero => exact .exhausted
  | succ steps ih =>
    obtain ⟨more, rfl⟩ := Nat.exists_eq_add_of_le' le
    apply (along.eat here (by simp)).bind
    rintro _ closed j - ⟨rfl, here⟩
    cases closed with
    | true => exact .pure ⟨rfl, here⟩
    | false =>
      simp only [Bool.false_eq_true, if_false]
      apply (items j here).bind
      rintro first _ j - ⟨rfl, here⟩
      apply (along.advance here).bind
      rintro t u _ - ⟨rfl, found, same⟩
      simp only [same.kind]
      by_cases comma : t.kind = .punct .comma
      · simp only [if_pos comma]
        have inside := along.inside here found (by rw [comma]; simp)
        apply (ih (Nat.le_of_succ_le_succ le) inside).bind
        rintro rest _ j - ⟨rfl, here⟩
        exact .pure ⟨rfl, here⟩
      · simp only [if_neg comma]
        by_cases last : t.kind = .punct closing
        · simp only [if_pos last]
          exact .pure ⟨rfl, along.inside here found (by rw [last]; simp)⟩
        · simp only [if_neg last]
          exact .unexpected

/-! ### Expressions -/

theorem wordOperator (along : Alongside f left right within near) {t u : Token} (here : within i)
    (found : left.get i = .ok t) (same : t.Moves f u) :
    Mirrors left right i depth (wordOperator t) (wordOperator u) (Into id within) := by
  unfold ParseM.wordOperator
  simp only [same.kind]
  by_cases is : t.kind = .keyword .isWord
  · have inside : t.kind ≠ .newline := by rw [is]; simp
    simp only [if_pos is]
    apply (along.peek_second here found inside).bind
    rintro next _ _ - ⟨rfl, foundNext, sameNext⟩
    apply (along.skip here found inside).bind
    rintro _ _ _ - ⟨rfl, here⟩
    simp only [sameNext.kind]
    by_cases isNot : next.kind = .keyword .notWord
    · simp only [if_pos isNot]
      apply (along.skip here foundNext (by rw [isNot]; simp)).bind
      rintro _ _ _ - ⟨-, here⟩
      exact .pure ⟨rfl, here⟩
    · simp only [if_neg isNot]
      exact .pure ⟨rfl, here⟩
  · simp only [if_neg is]
    by_cases isNot : t.kind = .keyword .notWord
    · have inside : t.kind ≠ .newline := by rw [isNot]; simp
      simp only [if_pos isNot]
      apply (along.peek_second here found inside).bind
      rintro next _ _ - ⟨rfl, foundNext, sameNext⟩
      simp only [sameNext.kind]
      by_cases isIn : next.kind = .keyword .inWord
      · simp only [if_pos isIn]
        apply (along.skip here found inside).bind
        rintro _ _ _ - ⟨rfl, here⟩
        apply (along.skip here foundNext (by rw [isIn]; simp)).bind
        rintro _ _ _ - ⟨-, here⟩
        exact .pure ⟨rfl, here⟩
      · simp only [if_neg isIn]
        exact .pure ⟨rfl, here⟩
    · simp only [if_neg isNot]
      exact .pure ⟨rfl, here⟩

theorem operatorAt (along : Alongside f left right within near) {level : Level} (here : within i) :
    Mirrors left right i depth (operatorAt level) (operatorAt level)
      (Into (Option.map (Prod.map id f)) within) := by
  apply (along.peek here).bind
  rintro t u _ - ⟨rfl, found, same⟩
  simp only [same.kind]
  cases known : t.kind.operator? with
  | some op =>
    have inside : t.kind ≠ .newline ∧ t.kind ≠ .dedent := by
      constructor <;> (intro eq; rw [eq] at known; cases known)
    by_cases fits : Level.ofBinary op = level
    · simp only [if_pos fits, same.line inside.2]
      apply (along.skip here found inside.1).bind
      rintro _ _ _ - ⟨-, here⟩
      exact .pure ⟨rfl, here⟩
    · simp only [if_neg fits]
      exact .pure ⟨rfl, here⟩
  | none =>
    by_cases fits : level = .comparison
    · simp only [if_pos fits]
      by_cases closes : t.kind = .dedent
      · simp only [ParseM.wordOperator, same.kind, closes, reduceCtorEq, if_false]
        exact .pure ⟨rfl, here⟩
      · simp only [same.line closes]
        apply (along.wordOperator here found same).bind
        rintro _ op _ - ⟨rfl, here⟩
        exact .pure ⟨by cases op <;> rfl, here⟩
    · simp only [if_neg fits]
      exact .pure ⟨rfl, here⟩

theorem chain {operator operator' : ParseM (Option (BinaryOp × Nat))} {operand operand' : ParseM Node}
    (operators : ∀ j, within j → Mirrors left right j depth operator operator'
      (Into (Option.map (Prod.map id f)) within))
    (operands : ∀ j, within j → Mirrors left right j depth operand operand'
      (Into (Node.mapLine f) within))
    (le : steps ≤ steps') (node : Node) (here : within i) :
    Mirrors left right i depth (chain operator operand steps node)
      (chain operator' operand' steps' (node.mapLine f)) (Into (Node.mapLine f) within) := by
  induction steps generalizing steps' i node with
  | zero => exact .exhausted
  | succ steps ih =>
    obtain ⟨more, rfl⟩ := Nat.exists_eq_add_of_le' le
    apply (operators i here).bind
    rintro found _ j - ⟨rfl, here⟩
    cases found with
    | none => exact .pure ⟨rfl, here⟩
    | some found =>
      apply (operands j here).bind
      rintro other _ j - ⟨rfl, here⟩
      exact ih (Nat.le_of_succ_le_succ le) (.binary found.1 node other found.2) here

theorem adjacent (along : Alongside f left right within near) (le : steps ≤ steps') (value : Value)
    (here : within i) :
    Mirrors left right i depth (adjacent steps value) (adjacent steps' value)
      (Into id within) := by
  induction steps generalizing steps' i value with
  | zero => exact .exhausted
  | succ steps ih =>
    obtain ⟨more, rfl⟩ := Nat.exists_eq_add_of_le' le
    have le' := Nat.le_of_succ_le_succ le
    apply (along.peek here).bind
    rintro t u _ - ⟨rfl, found, same⟩
    simp only [same.kind]
    cases known : t.kind with
    | str more =>
      cases value with
      | str text =>
        apply (along.skip here found (by rw [known]; simp)).bind
        rintro _ _ _ - ⟨-, here⟩
        exact ih le' _ here
      | _ => exact .fail
    | bytes more =>
      cases value with
      | bytes data =>
        apply (along.skip here found (by rw [known]; simp)).bind
        rintro _ _ _ - ⟨-, here⟩
        exact ih le' _ here
      | _ => exact .fail
    | _ => cases value <;> exact .pure ⟨rfl, here⟩

theorem atom (along : Alongside f left right within near) {expression expression' : ParseM Node}
    (expressions : ∀ j, within j → Mirrors left right j depth expression expression'
      (Into (Node.mapLine f) within))
    (le : steps ≤ steps') (here : within i) :
    Mirrors left right i depth (atom expression steps) (atom expression' steps')
      (Into (Node.mapLine f) within) := by
  apply (along.advance here).bind
  rintro t u _ - ⟨rfl, found, same⟩
  simp only [same.kind]
  cases known : t.kind with
  | identifier name =>
    have inside := along.inside here found (by rw [known]; simp)
    simp only [same.line (by rw [known]; simp)]
    apply (along.eat inside (by simp)).bind
    rintro _ called j - ⟨rfl, here⟩
    cases called with
    | false => exact .pure ⟨rfl, here⟩
    | true =>
      simp only [if_true]
      apply (along.commaSeparated expressions le here).bind
      rintro arguments _ j - ⟨rfl, here⟩
      exact .pure ⟨by rw [Node.mapLine, Node.mapLines_eq_map], here⟩
  | number value =>
    simp only [same.line (by rw [known]; simp)]
    exact .pure ⟨rfl, along.inside here found (by rw [known]; simp)⟩
  | str text =>
    simp only [same.line (by rw [known]; simp)]
    apply (along.adjacent le _ (along.inside here found (by rw [known]; simp))).bind
    rintro _ whole j - ⟨rfl, here⟩
    exact .pure ⟨rfl, here⟩
  | bytes data =>
    simp only [same.line (by rw [known]; simp)]
    apply (along.adjacent le _ (along.inside here found (by rw [known]; simp))).bind
    rintro _ whole j - ⟨rfl, here⟩
    exact .pure ⟨rfl, here⟩
  | keyword word =>
    have inside := along.inside here found (by rw [known]; simp)
    simp only [same.line (by rw [known]; simp)]
    cases word <;> first | exact .pure ⟨rfl, inside⟩ | exact .unexpected
  | punct mark =>
    have inside := along.inside here found (by rw [known]; simp)
    by_cases opens : mark = .leftParen
    · subst opens
      apply (expressions _ inside).bind
      rintro node _ j - ⟨rfl, here⟩
      apply (along.expect here).bind
      rintro _ _ j - ⟨-, -, here⟩
      exact .pure ⟨rfl, here⟩
    · cases mark <;> first | exact absurd rfl opens | exact .unexpected
  | _ => exact .unexpected

theorem expressionAt (along : Alongside f left right within near) (le : steps ≤ steps')
    (level : Level) (here : within i) :
    Mirrors left right i depth (expressionAt steps level) (expressionAt steps' level)
      (Into (Node.mapLine f) within) := by
  induction steps generalizing steps' i level with
  | zero => exact .exhausted
  | succ steps ih =>
    obtain ⟨more, rfl⟩ := Nat.exists_eq_add_of_le' le
    have le' := Nat.le_of_succ_le_succ le
    have folded : ∀ level : Level, level.isChain = true →
        Mirrors left right i depth (ParseM.expressionAt (steps + 1) level)
          (ParseM.expressionAt (more + steps + 1) level) (Into (Node.mapLine f) within) := by
      intro level chained
      rw [expressionAt_chain chained, expressionAt_chain chained]
      apply (ih le' level.tighter here).bind
      rintro first _ j - ⟨rfl, here⟩
      exact chain (fun _ => along.operatorAt) (fun _ => ih le' level.tighter) le' first here
    cases level with
    | atom => exact along.atom (fun _ => ih le' .or) le' here
    | power =>
      apply (ih le' .atom here).bind
      rintro base _ j - ⟨rfl, here⟩
      apply (along.peek here).bind
      rintro t u _ - ⟨rfl, found, same⟩
      simp only [same.kind]
      by_cases raised : t.kind = .punct .doubleStar
      · simp only [if_pos raised, same.line (by rw [raised]; simp)]
        apply (along.skip here found (by rw [raised]; simp)).bind
        rintro _ _ j - ⟨-, here⟩
        apply (ih le' .unary here).bind
        rintro exponent _ j - ⟨rfl, here⟩
        exact .pure ⟨rfl, here⟩
      · simp only [if_neg raised]
        exact .pure ⟨rfl, here⟩
    | unary =>
      apply (along.peek here).bind
      rintro t u _ - ⟨rfl, found, same⟩
      simp only [same.kind]
      cases known : t.kind.unaryOp? with
      | some op =>
        have inside : t.kind ≠ .newline ∧ t.kind ≠ .dedent := by
          constructor <;> (intro eq; rw [eq] at known; cases known)
        simp only [same.line inside.2]
        apply (along.skip here found inside.1).bind
        rintro _ _ j - ⟨-, here⟩
        apply (ih le' .unary here).bind
        rintro operand _ j - ⟨rfl, here⟩
        exact .pure ⟨rfl, here⟩
      | none => exact ih le' .power here
    | _ => exact folded _ rfl

end Alongside

end Offside
