import Offside.Parser.Statement
import Offside.Proofs.Parsing.Alongside

/-!
# Statements side by side

`Alongside.statement` shows that a statement is read the same from answers that are alike up to the
NEWLINE that ends it. `Alongside.statements` carries this over a whole program: the second parser
reads the same statements and then goes on where the first one is at its end.
-/

namespace Offside

namespace ParseM

variable {steps more : Nat}

theorem statements_ok {p q p' : Parser} {t : Token} {nodes : List Node}
    (peeked : peek 0 p = .ok t q) (unended : t.kind ≠ .endMarker)
    (run : statements steps (more + 1) p = .ok nodes p') (outside : q.depth = 0) :
    t.kind ≠ .dedent ∧ ∃ first p₂ rest, statement steps q = .ok first p₂ ∧
      statements steps more p₂ = .ok rest p' ∧ nodes = first ++ rest := by
  rw [statements, bind_of_ok peeked] at run
  by_cases closes : t.kind = .dedent
  · simp only [closes] at run
    obtain ⟨state, _, got, run⟩ := bind_ok run
    cases got
    rw [if_pos outside] at run
    cases run
  · have run : (do
        let nodes ← statement steps
        let rest ← statements steps more
        return nodes ++ rest : ParseM (List Node)) q = .ok nodes p' := by
      cases known : t.kind with
      | endMarker => exact absurd known unended
      | dedent => exact absurd known closes
      | _ =>
        rw [known] at run
        exact run
    obtain ⟨first, p₂, read, run⟩ := bind_ok run
    obtain ⟨rest, p₃, later, run⟩ := bind_ok run
    obtain ⟨rfl, rfl⟩ := pure_ok run
    exact ⟨closes, first, p₂, rest, read, later, rfl⟩

theorem statements_of_ok {p q r r' : Parser} {t : Token} {first rest : List Node}
    (peeked : peek 0 p = .ok t q) (unended : t.kind ≠ .endMarker)
    (inside : t.kind ≠ .dedent) (read : statement steps q = .ok first r)
    (later : statements steps more r = .ok rest r') :
    statements steps (more + 1) p = .ok (first ++ rest) r' := by
  rw [statements, bind_of_ok peeked]
  have run : (do
      let nodes ← statement steps
      let rest ← statements steps more
      return nodes ++ rest : ParseM (List Node)) q = .ok (first ++ rest) r' := by
    rw [bind_of_ok read, bind_of_ok later]
    rfl
  cases known : t.kind with
  | endMarker => exact absurd known unended
  | dedent => exact absurd known inside
  | _ => exact run

end ParseM

namespace Mirrors

variable {left right : Answers} {i depth : Nat}

/-- A program that runs in a block of its own. -/
theorem indented {post : α → α → Nat → Prop} {post' : β → β → Nat → Prop} {m n : ParseM α}
    {g k : α → ParseM β} (inner : Mirrors left right i (depth + 1) m n post)
    (rest : ∀ a b j, i ≤ j → post a b j → Mirrors left right j depth (g a) (k b) post') :
    Mirrors left right i depth
      (do
        modify fun p => { p with depth := p.depth + 1 }
        let a ← m
        modify fun p => { p with depth := p.depth - 1 }
        g a)
      (do
        modify fun p => { p with depth := p.depth + 1 }
        let a ← n
        modify fun p => { p with depth := p.depth - 1 }
        k a) post' := by
  intro p q at' c p' run
  obtain ⟨_, p₁, entered, run⟩ := bind_ok run
  cases entered
  obtain ⟨a, p₂, run, leave⟩ := bind_ok run
  obtain ⟨_, p₃, left', run'⟩ := bind_ok leave
  cases left'
  have deeper : At left right i (depth + 1) { p with depth := p.depth + 1 }
      { q with depth := q.depth + 1 } :=
    ⟨at'.left, at'.right, congrArg (· + 1) at'.depthLeft, congrArg (· + 1) at'.depthRight⟩
  obtain ⟨b, q₂, j, mirrored, at₂, le, same⟩ := inner _ _ deeper a p₂ run
  have back : At left right j depth { p₂ with depth := p₂.depth - 1 }
      { q₂ with depth := q₂.depth - 1 } :=
    ⟨at₂.left, at₂.right, congrArg (· - 1) at₂.depthLeft, congrArg (· - 1) at₂.depthRight⟩
  obtain ⟨d, q₃, l, mirroredRest, at₃, le', same'⟩ := rest a b j le same _ _ back c p' run'
  refine ⟨d, q₃, l, ?_, at₃, Nat.le_trans le le', same'⟩
  have first : (modify fun p => { p with depth := p.depth + 1 } : ParseM Unit) q =
      .ok () { q with depth := q.depth + 1 } := rfl
  have last : (modify fun p => { p with depth := p.depth - 1 } : ParseM Unit) q₂ =
      .ok () { q₂ with depth := q₂.depth - 1 } := rfl
  rw [bind_of_ok first, bind_of_ok mirrored, bind_of_ok last, mirroredRest]

end Mirrors

namespace Alongside

open ParseM

variable {f : Nat → Nat} {left right : Answers} {within near : Nat → Prop} {i depth : Nat}
  {steps steps' more more' line : Nat}

/-! ### Simple statements -/

theorem assignment (along : Alongside f left right within near) {t u mark : Token}
    {name : String} {op : Option BinaryOp} {punct : Punct} (le : steps ≤ steps') (here : within i)
    (found : left.get i = .ok t) (same : t.Moves f u) (inside : t.kind = .identifier name)
    (foundMark : left.get (i + 1) = .ok mark) (isPunct : mark.kind = .punct punct) :
    Mirrors left right i depth (assignment steps t name op) (assignment steps' u name op)
      (Into (Node.mapLine f) within) := by
  apply (along.skip here found (by rw [inside]; simp)).bind
  rintro _ _ _ - ⟨rfl, here⟩
  apply (along.advance here).bind
  rintro v w _ - ⟨rfl, foundMark', sameMark⟩
  rw [foundMark] at foundMark'
  cases foundMark'
  apply (along.expressionAt le .or (along.inside here foundMark (by rw [isPunct]; simp))).bind
  rintro value _ j - ⟨rfl, here⟩
  simp only [same.line (by rw [inside]; simp), sameMark.line (by rw [isPunct]; simp)]
  cases op <;> exact .pure ⟨rfl, here⟩

theorem expressionStatement (along : Alongside f left right within near) {line' : Nat}
    (le : steps ≤ steps') (here : within i) :
    Mirrors left right i depth (expressionStatement steps line) (expressionStatement steps' line')
      (Into (Node.mapLine f) within) := by
  apply (along.expressionAt le .or here).bind
  rintro node _ j - ⟨rfl, here⟩
  apply (along.peek here).bind
  rintro t u _ - ⟨rfl, found, same⟩
  simp only [same.kind]
  cases known : t.kind with
  | punct mark =>
    by_cases bad : assigns mark = true
    · simp only [if_pos bad]
      exact .fail
    · simp only [if_neg bad]
      exact .pure ⟨rfl, here⟩
  | _ => exact .pure ⟨rfl, here⟩

theorem simpleStatement (along : Alongside f left right within near) (le : steps ≤ steps')
    (here : within i) :
    Mirrors left right i depth (simpleStatement steps) (simpleStatement steps')
      (Into (Node.mapLine f) within) := by
  apply (along.peek here).bind
  rintro t u _ - ⟨rfl, found, same⟩
  simp only [same.kind]
  cases known : t.kind with
  | keyword word =>
    by_cases passes : word = .passWord
    · subst passes
      simp only [same.line (by rw [known]; simp)]
      apply (along.skip here found (by rw [known]; simp)).bind
      rintro _ _ j - ⟨-, here⟩
      exact .pure ⟨rfl, here⟩
    · cases word <;> first
        | exact absurd rfl passes
        | exact .fail
        | exact .unexpected
        | exact along.expressionStatement le here
  | identifier name =>
    apply (along.peek_second here found (by rw [known]; simp)).bind
    rintro mark v _ - ⟨rfl, foundMark, sameMark⟩
    simp only [sameMark.kind]
    cases isPunct : mark.kind with
    | punct punct =>
      by_cases assigned : assigns punct = true
      · simp only [if_pos assigned]
        exact along.assignment le here found same known foundMark isPunct
      · simp only [if_neg assigned]
        exact along.expressionStatement le here
    | _ => exact along.expressionStatement le here
  | _ => exact along.expressionStatement le here

theorem lineRest (along : Alongside f left right within near) (le : steps ≤ steps')
    (le' : more ≤ more') (here : within i) :
    Mirrors left right i depth (lineRest steps more) (lineRest steps' more')
      fun a b j => Into (List.map (Node.mapLine f)) near a b j ∧ i < j := by
  induction more generalizing more' i with
  | zero => exact .exhausted
  | succ more ih =>
    obtain ⟨extra, rfl⟩ := Nat.exists_eq_add_of_le' le'
    have le' := Nat.le_of_succ_le_succ le'
    apply (along.advance here).bind
    rintro t u _ - ⟨rfl, found, same⟩
    simp only [same.kind]
    cases known : t.kind with
    | newline => exact .pure ⟨⟨rfl, along.leaves here found⟩, Nat.lt_succ_self i⟩
    | endMarker => exact .pure ⟨⟨rfl, along.leaves here found⟩, Nat.lt_succ_self i⟩
    | punct mark =>
      have inside := along.inside here found (by rw [known]; simp)
      by_cases semicolon : mark = .semicolon
      · subst semicolon
        apply (along.peek inside).bind
        rintro next v _ - ⟨rfl, foundNext, sameNext⟩
        simp only [sameNext.kind]
        by_cases ended : next.kind = .newline ∨ next.kind = .endMarker
        · simp only [if_pos ended]
          apply (ih le' inside).mono
          rintro a b j - ⟨into, lt⟩
          exact ⟨into, by omega⟩
        · simp only [if_neg ended]
          apply (along.simpleStatement le inside).bind
          rintro statement _ j lt ⟨rfl, here⟩
          apply (ih le' here).bind
          rintro rest _ l lt' ⟨⟨rfl, here⟩, -⟩
          exact .pure ⟨⟨rfl, here⟩, by omega⟩
      · cases mark <;> first | exact absurd rfl semicolon | exact .unexpected
    | _ => exact .unexpected

theorem simpleLine (along : Alongside f left right within near) (le : steps ≤ steps')
    (here : within i) :
    Mirrors left right i depth (simpleLine steps) (simpleLine steps')
      fun a b j => Into (List.map (Node.mapLine f)) near a b j ∧ i < j := by
  apply (along.simpleStatement le here).bind
  rintro first _ j lt ⟨rfl, here⟩
  apply (along.lineRest le le here).bind
  rintro rest _ l - ⟨⟨rfl, here⟩, lt'⟩
  exact .pure ⟨⟨rfl, here⟩, by omega⟩

/-! ### Compound statements -/

/-- What is known of a program for statements: from a place inside it reads at least one token. -/
def ReadsStatements (f : Nat → Nat) (left right : Answers) (within near : Nat → Prop)
    (statement statement' : ParseM (List Node)) : Prop :=
  ∀ i depth, within i → Mirrors left right i depth statement statement'
    fun a b j => Into (List.map (Node.mapLine f)) near a b j ∧ i < j

section

variable {statement statement' : ParseM (List Node)}

theorem peek_near (along : Alongside f left right within near) (here : near i) :
    Mirrors left right i depth (ParseM.peek 0) (ParseM.peek 0) fun t u j => j = i ∧
      left.get i = .ok t ∧ (t.Moves f u ∨
        t.kind = .endMarker ∧ u.kind ≠ .keyword .elifWord ∧ u.kind ≠ .keyword .elseWord) :=
  .peek fun _ => along.parts here

theorem blockRest (along : Alongside f left right within near)
    (statements : ReadsStatements f left right within near statement statement')
    (le : more ≤ more') (here : near i) :
    Mirrors left right i depth (blockRest statement more) (blockRest statement' more')
      (Into (List.map (Node.mapLine f)) near) := by
  induction more generalizing more' i with
  | zero => exact .exhausted
  | succ more ih =>
    obtain ⟨extra, rfl⟩ := Nat.exists_eq_add_of_le' le
    have le' := Nat.le_of_succ_le_succ le
    apply (along.peek_near here).bind
    rintro t u i - ⟨rfl, found, same | ⟨ended, -⟩⟩
    · simp only [same.kind]
      by_cases closes : t.kind = .dedent
      · simp only [closes]
        apply (Mirrors.advance fun _ => along.parts here).bind
        rintro _ _ _ - ⟨rfl, -, -⟩
        exact .pure ⟨rfl, along.dedent here found closes⟩
      · by_cases ended : t.kind = .endMarker
        · simp only [ended]
          exact .unexpected
        · have inside := along.enters here found closes ended
          have next : Mirrors left right i depth
              (do
                let nodes ← statement
                let rest ← ParseM.blockRest statement more
                return nodes ++ rest)
              (do
                let nodes ← statement'
                let rest ← ParseM.blockRest statement' (extra + more)
                return nodes ++ rest)
              (Into (List.map (Node.mapLine f)) near) := by
            apply (statements i depth inside).bind
            rintro nodes _ j - ⟨⟨rfl, here⟩, -⟩
            apply (ih le' here).bind
            rintro rest _ l - ⟨rfl, here⟩
            exact .pure ⟨(List.map_append).symm, here⟩
          cases known : t.kind with
          | dedent => exact absurd known closes
          | endMarker => exact absurd known ended
          | _ => exact next
    · simp only [ended]
      exact .unexpected

theorem body (along : Alongside f left right within near)
    (statements : ReadsStatements f left right within near statement statement')
    (le : steps ≤ steps') (here : within i) :
    Mirrors left right i depth (body statement steps line) (body statement' steps' (f line))
      (Into (Node.mapLine f) near) := by
  apply (along.peek here).bind
  rintro t u _ - ⟨rfl, found, same⟩
  simp only [same.kind]
  by_cases block : t.kind = .newline
  · simp only [if_pos block]
    have after := along.leaves here found
    apply (along.advance here).bind
    rintro _ _ _ - ⟨rfl, -, -⟩
    apply (Mirrors.advance fun _ => along.parts after).bind
    rintro v w _ - ⟨rfl, foundIndent, sameIndent⟩
    by_cases opens : v.kind = .indent
    · have sameIndent : w.kind = .indent := by
        rcases sameIndent with same | ⟨ended, -⟩
        · rw [same.kind, opens]
        · rw [opens] at ended
          cases ended
      have inside := along.enters after foundIndent (by rw [opens]; simp) (by rw [opens]; simp)
      simp only [if_pos opens, if_pos sameIndent]
      apply Mirrors.indented (along.blockRest statements le (along.leaves inside foundIndent))
      rintro nodes _ j - ⟨rfl, here⟩
      exact .pure ⟨by rw [Node.mapLine, Node.mapLines_eq_map], here⟩
    · simp only [if_neg opens]
      exact .unexpected
  · simp only [if_neg block]
    apply (along.simpleLine le here).bind
    rintro nodes _ j - ⟨⟨rfl, here⟩, -⟩
    exact .pure ⟨by rw [Node.mapLine, Node.mapLines_eq_map], here⟩

theorem colonBody (along : Alongside f left right within near)
    (statements : ReadsStatements f left right within near statement statement')
    (le : steps ≤ steps') (here : within i) :
    Mirrors left right i depth (colonBody statement steps) (colonBody statement' steps')
      (Into (Node.mapLine f) near) := by
  apply (along.expect here).bind
  rintro t u _ - ⟨colon, same, here⟩
  simp only [same.line (by rw [colon]; simp)]
  exact along.body statements le here

theorem conditional (along : Alongside f left right within near)
    (statements : ReadsStatements f left right within near statement statement')
    (le : steps ≤ steps') (le' : more ≤ more') (here : within i) :
    Mirrors left right i depth (conditional statement steps more line)
      (conditional statement' steps' more' (f line)) (Into (Node.mapLine f) near) := by
  induction more generalizing more' i line with
  | zero => exact .exhausted
  | succ more ih =>
    obtain ⟨extra, rfl⟩ := Nat.exists_eq_add_of_le' le'
    have le' := Nat.le_of_succ_le_succ le'
    apply (along.expressionAt le .or here).bind
    rintro condition _ j - ⟨rfl, here⟩
    apply (along.colonBody statements le here).bind
    rintro yes _ j - ⟨rfl, here⟩
    apply (along.peek_near here).bind
    rintro t u _ - ⟨rfl, found, same | ⟨ended, notElif, notElse⟩⟩
    · simp only [same.kind]
      by_cases isElif : t.kind = .keyword .elifWord
      · have inside := along.enters here found (by rw [isElif]; simp) (by rw [isElif]; simp)
        simp only [if_pos isElif, same.line (by rw [isElif]; simp)]
        apply (along.skip inside found (by rw [isElif]; simp)).bind
        rintro _ _ j - ⟨-, here⟩
        apply (ih le' here).bind
        rintro no _ l - ⟨rfl, here⟩
        exact .pure ⟨rfl, here⟩
      · simp only [if_neg isElif]
        by_cases isElse : t.kind = .keyword .elseWord
        · have inside := along.enters here found (by rw [isElse]; simp) (by rw [isElse]; simp)
          simp only [if_pos isElse]
          apply (along.skip inside found (by rw [isElse]; simp)).bind
          rintro _ _ j - ⟨-, here⟩
          apply (along.colonBody statements le here).bind
          rintro no _ l - ⟨rfl, here⟩
          exact .pure ⟨rfl, here⟩
        · simp only [if_neg isElse]
          exact .pure ⟨rfl, here⟩
    · simp only [ended, reduceCtorEq, if_false, if_neg notElif, if_neg notElse]
      exact .pure ⟨rfl, here⟩

/-- An expression that is read after a mark, if the mark is there, and dropped. -/
theorem optional (along : Alongside f left right within near) {mark : Punct} {k k' : ParseM α}
    {post : α → α → Nat → Prop} (le : steps ≤ steps') (here : within i)
    (rest : ∀ j, within j → Mirrors left right j depth k k' post) :
    Mirrors left right i depth
      (ParseM.eat (.punct mark) >>= fun eaten =>
        if eaten = true then ParseM.expressionAt steps .or >>= fun _ => k else k)
      (ParseM.eat (.punct mark) >>= fun eaten =>
        if eaten = true then ParseM.expressionAt steps' .or >>= fun _ => k' else k') post := by
  apply (along.eat here (by simp)).bind
  rintro _ eaten j - ⟨rfl, here⟩
  cases eaten with
  | true =>
    apply (along.expressionAt le .or here).bind
    rintro _ _ l - ⟨rfl, here⟩
    exact rest l here
  | false => exact rest j here

theorem parameter (along : Alongside f left right within near) (le : steps ≤ steps')
    (here : within i) :
    Mirrors left right i depth (parameter steps) (parameter steps') (Into id within) := by
  apply (along.name here).bind
  rintro _ name j - ⟨rfl, here⟩
  apply along.optional le here
  intro l here
  exact along.optional le here fun _ here => .pure ⟨rfl, here⟩

theorem definition (along : Alongside f left right within near)
    (statements : ReadsStatements f left right within near statement statement')
    (le : steps ≤ steps') (here : within i) :
    Mirrors left right i depth (definition statement steps line)
      (definition statement' steps' (f line)) (Into (Node.mapLine f) near) := by
  apply (along.name here).bind
  rintro _ name j - ⟨rfl, here⟩
  apply (along.expect here).bind
  rintro _ _ j - ⟨-, -, here⟩
  apply (along.commaSeparated (fun _ => along.parameter le) le here).bind
  rintro params _ j - ⟨rfl, here⟩
  apply along.optional le here
  intro l here
  apply (along.colonBody statements le here).bind
  rintro body _ l - ⟨rfl, here⟩
  exact .pure ⟨by rw [Node.mapLine, List.map_id], here⟩

end

/-- A statement is read the same; it takes at least one token. -/
theorem statement (along : Alongside f left right within near) (le : steps ≤ steps') :
    ReadsStatements f left right within near (statement steps) (statement steps') := by
  induction steps generalizing steps' with
  | zero => exact fun _ _ _ => .exhausted
  | succ steps ih =>
    obtain ⟨extra, rfl⟩ := Nat.exists_eq_add_of_le' le
    have le := Nat.le_of_succ_le_succ le
    intro i depth here
    apply (along.peek here).bind
    rintro t u i - ⟨rfl, found, same⟩
    simp only [same.kind]
    have next (other : t.kind ≠ .newline) : Mirrors left right i depth ParseM.advance
        ParseM.advance fun _ _ j => j = i + 1 ∧ within j := along.skip here found other
    have compound : ∀ {m n : ParseM Node},
        (∀ j, within j → Mirrors left right j depth m n (Into (Node.mapLine f) near)) →
        t.kind ≠ .newline →
        Mirrors left right i depth (do let _ ← ParseM.advance; return [← m])
          (do let _ ← ParseM.advance; return [← n])
          fun a b j => Into (List.map (Node.mapLine f)) near a b j ∧ i < j := by
      intro m n mirrored other
      apply (next other).bind
      rintro _ _ j - ⟨rfl, here⟩
      apply (mirrored _ here).bind
      rintro node _ j lt ⟨rfl, here⟩
      exact .pure ⟨⟨rfl, here⟩, lt⟩
    cases known : t.kind with
    | keyword word =>
      have line := same.line (by rw [known]; simp)
      have other : t.kind ≠ .newline := by rw [known]; simp
      simp only [line]
      cases word with
      | ifWord => exact compound (fun _ here => along.conditional (ih le) le le here) other
      | whileWord =>
        apply (next other).bind
        rintro _ _ j - ⟨rfl, here⟩
        apply (along.expressionAt le .or here).bind
        rintro condition _ j lt ⟨rfl, here⟩
        apply (along.colonBody (ih le) le here).bind
        rintro body _ l lt' ⟨rfl, here⟩
        exact .pure ⟨⟨rfl, here⟩, by omega⟩
      | defWord => exact compound (fun _ here => along.definition (ih le) le here) other
      | _ => exact along.simpleLine le here
    | newline =>
      simp only [same.line (by rw [known]; simp)]
      have after := along.leaves here found
      apply (along.advance here).bind
      rintro _ _ _ - ⟨rfl, -, -⟩
      exact .pure ⟨⟨rfl, after⟩, Nat.lt_succ_self i⟩
    | indent | dedent => exact .fail
    | _ => exact along.simpleLine le here

/-- The second parser reads the statements of the first one and then stands where the first one is
at its end. What it reads from there on comes after them. -/
theorem statements (along : Alongside f left right within near) (le : steps ≤ steps')
    {nodes : List Node} {p p' q : Parser} (here : near i) (at' : At left right i 0 p q)
    (run : ParseM.statements steps more p = .ok nodes p') :
    ∃ q' j used t, At left right j 0 p' q' ∧ near j ∧ left.get j = .ok t ∧
      t.kind = .endMarker ∧ used < more ∧ i + used ≤ j ∧
      ∀ more' rest r, ParseM.statements steps' more' q' = .ok rest r →
        ParseM.statements steps' (more' + used) q =
          .ok (nodes.map (Node.mapLine f) ++ rest) r := by
  induction more generalizing i nodes p q with
  | zero => cases run
  | succ more ih =>
    obtain ⟨t, p₁, peeked, _⟩ := bind_ok run
    obtain ⟨u, q₁, j, peeked', at₁, -, rfl, found, same⟩ :=
      along.peek_near here p q at' t p₁ peeked
    by_cases ended : t.kind = .endMarker
    · rw [ParseM.statements, bind_of_ok peeked] at run
      simp only [ended] at run
      obtain ⟨rfl, rfl⟩ := pure_ok run
      exact ⟨q, j, 0, t, ⟨at₁.left, at'.right, at₁.depthLeft, at'.depthRight⟩, here, found, ended,
        Nat.succ_pos more, Nat.le_refl j, fun _ _ _ later => later⟩
    · have same : t.Moves f u := same.resolve_right fun h => ended h.1
      obtain ⟨inside, first, p₂, rest, read, later, rfl⟩ :=
        statements_ok peeked ended run at₁.depthLeft
      have here := along.enters here found inside ended
      obtain ⟨_, q₂, k, read', at₂, -, ⟨rfl, near⟩, lt⟩ :=
        along.statement le j 0 here p₁ q₁ at₁ first p₂ read
      obtain ⟨q', l, used, last, at₃, near, foundLast, isLast, few, le', next⟩ := ih near at₂ later
      refine ⟨q', l, used + 1, last, at₃, near, foundLast, isLast, by omega, by omega, ?_⟩
      intro more' rest' r run
      rw [List.map_append, List.append_assoc]
      exact statements_of_ok peeked' (same.kind ▸ ended) (same.kind ▸ inside) read'
        (next more' rest' r run)

end Alongside

end Offside
