import Offside.Proofs.Lexing.Boundary
import Offside.Proofs.Parsing.AlongsideStatements
import Offside.Proofs.Parsing.Outcome
import Offside.Proofs.Source.Lines

/-!
# One program after another

`parse_append` shows that a program after another one is parsed as it is alone, on lower lines. The
first program is read alongside itself with the second one below (`Alongside.of_boundary`), and the
second one alongside itself in its new place (`Alongside.of_placed`).
-/

namespace Offside

/-! ### Parsed programs -/

namespace ParseM

variable {steps more : Nat} {nodes : List Node} {p q r : Parser} {t : Token}

/-- A statement does not start with an indent, and not in the middle of a conditional. -/
theorem statement_starts (found : p.answers.get 0 = .ok t)
    (read : ParseM.statement steps p = .ok nodes r) :
    t.kind ≠ .indent ∧ t.kind ≠ .keyword .elifWord ∧ t.kind ≠ .keyword .elseWord := by
  cases steps with
  | zero => cases read
  | succ steps =>
    obtain ⟨t', p₁, peeked, run⟩ := bind_ok read
    obtain ⟨same, -, -, found'⟩ := Parser.peek_ok peeked
    rw [found] at found'
    cases found'
    have simple : simpleLine steps p₁ = .ok nodes r →
        t.kind ≠ .keyword .elifWord ∧ t.kind ≠ .keyword .elseWord := by
      intro run
      obtain ⟨first, p₂, run, -⟩ := bind_ok run
      obtain ⟨t', p₃, peeked, run⟩ := bind_ok run
      obtain ⟨-, -, -, found'⟩ := Parser.peek_ok peeked
      rw [same, found] at found'
      cases found'
      constructor
      · intro isElif
        simp only [isElif] at run
        cases run
      · intro isElse
        simp only [isElse] at run
        cases run
    refine ⟨fun isIndent => ?_, fun isElif => ?_, fun isElse => ?_⟩
    · simp only [isIndent] at run
      cases run
    · simp only [isElif] at run
      exact (simple run).1 isElif
    · simp only [isElse] at run
      exact (simple run).2 isElse

theorem statements_starts (run : ParseM.statements steps more p = .ok nodes r)
    (outside : p.depth = 0) : ∃ t, p.answers.get 0 = .ok t ∧
      t.kind ≠ .indent ∧ t.kind ≠ .keyword .elifWord ∧ t.kind ≠ .keyword .elseWord := by
  cases more with
  | zero => cases run
  | succ more =>
    obtain ⟨t, q, peeked, _⟩ := bind_ok run
    obtain ⟨same, depth, -, found⟩ := Parser.peek_ok peeked
    refine ⟨t, found, ?_⟩
    by_cases ended : t.kind = .endMarker
    · rw [ended]
      exact ⟨nofun, nofun, nofun⟩
    · obtain ⟨-, first, p₂, rest, read, -⟩ :=
        statements_ok peeked ended run (depth.trans outside)
      exact statement_starts (by rw [same, found]) read

theorem statements_nil {answers : Answers} {i : Nat} (here : p.answers = answers.drop i)
    (found : answers.get i = .ok t) (ended : t.kind = .endMarker) :
    ∃ r, ∀ steps more, statements steps (more + 1) p = .ok [] r := by
  have head : (answers.drop i).get 0 = .ok t := by rw [Stream'.get_drop, Nat.add_zero, found]
  obtain ⟨r, peeked, -⟩ := ParseM.Reads.peek_head head p here
  refine ⟨r, fun steps more => ?_⟩
  rw [statements, bind_of_ok peeked]
  simp only [ended]
  rfl

end ParseM

namespace Alongside

variable {f : Nat → Nat} {left right : Answers}

theorem of_same (same : ∀ i t, left.Sound i → left.get i = .ok t →
    ∃ u, right.get i = .ok u ∧ t.Moves f u) : Alongside f left right left.Sound left.Sound where
  token sound found := same _ _ sound found
  inside sound found _ := sound.succ found
  leaves sound found := sound.succ found
  parts sound found :=
    have ⟨u, found', moves⟩ := same _ _ sound found
    ⟨u, found', .inl moves⟩
  enters sound _ _ _ := sound
  dedent sound found _ := sound.succ found

/-- A program is read alongside itself in another place. -/
theorem of_placed {s : Lexer} {n : Nat} (fits : s.cursor.total + n < Position.limit) :
    Alongside (· + n) s.answers (s.placed n []).answers s.answers.Sound s.answers.Sound := by
  apply of_same
  intro i t sound found
  exact ⟨t.below n, Lexer.answers_placed fits sound found, rfl, fun _ => rfl⟩

variable {tokens dedents dedents' : List Token} {later later' : Answers}

/-- A program is read alongside itself with another one after it. Where the first one is at its end,
the second one starts. -/
theorem of_boundary {last next : Token} (kinds : ∀ token ∈ dedents, token.kind = .dedent)
    (kinds' : ∀ token ∈ dedents', token.kind = .dedent)
    (length : dedents'.length = dedents.length) (isLast : later.get 0 = .ok last)
    (ended : last.kind = .endMarker) (isNext : later'.get 0 = .ok next)
    (notElif : next.kind ≠ .keyword .elifWord) (notElse : next.kind ≠ .keyword .elseWord)
    (newline : tokens = [] ∨ ∃ front newline, tokens = front ++ [newline] ∧ newline.kind = .newline) :
    Alongside (fun line => line) ((later.after dedents).after tokens)
      ((later'.after dedents').after tokens) (· < tokens.length)
      (· ≤ tokens.length + dedents.length) := by
  have common : ∀ {i t}, i < tokens.length → ((later.after dedents).after tokens).get i = .ok t →
      ((later'.after dedents').after tokens).get i = .ok t := by
    intro i t lt found
    rw [Answers.get_after_lt lt] at found ⊢
    exact found
  have found_near : ∀ {i t}, i ≤ tokens.length + dedents.length →
      ((later.after dedents).after tokens).get i = .ok t → i < tokens.length ∨
        t.kind = .dedent ∧ i < tokens.length + dedents.length ∧
          (∃ u, ((later'.after dedents').after tokens).get i = .ok u ∧ u.kind = .dedent) ∨
        t.kind = .endMarker ∧ ((later'.after dedents').after tokens).get i = .ok next := by
    intro i t near found
    by_cases within : i < tokens.length
    · exact .inl within
    right
    obtain ⟨k, rfl⟩ := Nat.exists_eq_add_of_le (Nat.le_of_not_lt within)
    rw [Answers.get_after_add] at found ⊢
    by_cases closes : k < dedents.length
    · have closes' : k < dedents'.length := length ▸ closes
      rw [Answers.get_after_lt closes] at found
      cases found
      exact .inl ⟨kinds _ (List.getElem_mem closes), by omega, dedents'[k],
        Answers.get_after_lt closes', kinds' _ (List.getElem_mem closes')⟩
    · have end' : k = dedents.length + 0 := by omega
      rw [end', Answers.get_after_add, isLast] at found
      cases found
      refine .inr ⟨ended, ?_⟩
      rw [end', ← length, Answers.get_after_add, isNext]
  constructor
  · intro i t lt found
    exact ⟨t, common lt found, rfl, fun _ => rfl⟩
  · intro i t lt found other
    rcases Nat.lt_or_eq_of_le (Nat.succ_le_of_lt lt) with lt' | eq
    · exact lt'
    · rcases newline with rfl | ⟨front, newline, rfl, isNewline⟩
      · cases lt
      · rw [Answers.get_after_lt lt] at found
        have last : i = front.length := by simpa using eq
        subst last
        rw [List.getElem_concat_length rfl] at found
        cases found
        exact absurd isNewline other
  · intro i t lt found
    show i + 1 ≤ _
    omega
  · intro i t near found
    rcases found_near near found with lt | ⟨closes, -, u, found', closes'⟩ | ⟨ended, found'⟩
    · exact ⟨t, common lt found, .inl ⟨rfl, fun _ => rfl⟩⟩
    · exact ⟨u, found', .inl ⟨closes'.trans closes.symm, fun other => absurd closes other⟩⟩
    · exact ⟨next, found', .inr ⟨ended, notElif, notElse⟩⟩
  · intro i t near found open' unended
    rcases found_near near found with lt | ⟨closes, -⟩ | ⟨ended, -⟩
    · exact lt
    · exact absurd closes open'
    · exact absurd ended unended
  · intro i t near found closes
    rcases found_near near found with lt | ⟨-, lt, -⟩ | ⟨ended, -⟩
    · show i + 1 ≤ _
      omega
    · exact lt
    · rw [ended] at closes
      cases closes

end Alongside

namespace ParseM

variable {steps more : Nat} {nodes : List Node} {p r : Parser}

theorem statements_ends (run : ParseM.statements steps more p = .ok nodes r)
    (outside : p.depth = 0) :
    ∃ j t, p.answers.Sound j ∧ p.answers.get j = .ok t ∧ t.kind = .endMarker := by
  have along : Alongside (fun line => line) p.answers p.answers p.answers.Sound p.answers.Sound :=
    .of_same fun i t _ found => ⟨t, found, rfl, fun _ => rfl⟩
  have at' : At p.answers p.answers 0 0 p p := ⟨rfl, rfl, outside, outside⟩
  obtain ⟨-, j, -, t, -, sound, found, ended, -⟩ :=
    along.statements (Nat.le_refl steps) (Answers.sound_zero _) at' run
  exact ⟨j, t, sound, found, ended⟩

end ParseM

/-! ### Two programs -/

section

variable {p q : String} {tabSize : UInt64} {nodes : List Node} {r : Parser} {steps more : Nat}

theorem budget_ofText (p : String) (tabSize : UInt64) : (Parser.ofText p tabSize).budget =
    48 * (Source.lines p).flatten.length + 64 := by
  show 16 * (0 + (3 * (Source.lines p).flatten.length + 0 + 0 + 2) + 2) = _
  omega

theorem leads_of_parsed (ends : Source.EndsLine p q)
    (unjoined : ∀ line, (Source.lines p).getLast? = some line → ¬['\\', '\n'] <:+ line)
    (few : (Source.lines p).length < Position.limit)
    (run : ParseM.statements steps more (.ofText p tabSize) = .ok nodes r) :
    ∃ tokens t, (Lexer.ofText p tabSize).Leads tokens t ∧ t.Underway ∧ t.Blank ∧
      tokens.length + t.levels.length + 64 ≤ (Parser.ofText p tabSize).budget := by
  have underway : (Lexer.ofText p tabSize).Underway := by
    refine ⟨rfl, rfl, fun _ => ⟨rfl, rfl⟩, nofun, nofun, fun line last joins => ?_⟩
    have found : ['\\'] ++ ['\n'] <:+: line := joins
    exact unjoined line last (Source.isSuffix_of_isInfix (List.mem_of_getLast? last) found)
  have fits : (Lexer.ofText p tabSize).cursor.total < Position.limit := by
    show 0 + (Source.lines p).length < _
    omega
  obtain ⟨tokens, t, leads, underway', blank | ⟨e, u, failed⟩⟩ := Lexer.leads underway fits
  · refine ⟨tokens, t, leads, underway', blank, ?_⟩
    have levels : tokens.length + t.levels.length ≤ (Lexer.ofText p tabSize).weight := by
      have := leads.weight
      unfold Lexer.weight at this ⊢
      omega
    have weight : (Lexer.ofText p tabSize).weight =
        5 * ((Source.lines p).length + (Source.lines p).flatten.length) + 0 + 3 :=
      congrArg (5 * · + 0 + 3) (Cursor.left_of_start rfl)
    have lines := Source.length_lines_le p
    have some := List.length_pos_iff.mpr (Source.lines_ne_nil ends)
    rw [budget_ofText]
    omega
  -- The answers before an error have no end marker, which a parsed program has come to.
  · obtain ⟨j, token, sound, found, ended⟩ := ParseM.statements_ends run rfl
    have answers := leads.answers []
    rw [Lexer.placed_zero, Lexer.placed_zero,
      Lexer.answers_of_error (Lexer.next_of_error underway'.idle underway'.unfinished failed)]
      at answers
    have here : (Parser.ofText p tabSize).answers = (Lexer.ofText p tabSize).answers := rfl
    rw [here, answers] at sound found
    have failed : ∀ t, (Answers.after (.cons (.error e) u.answers) tokens).get tokens.length ≠
        .ok t := by
      intro t
      have at' := Answers.get_after_add (.cons (.error e) u.answers) tokens 0
      rw [Nat.add_zero] at at'
      rw [at']
      exact nofun
    rcases Nat.lt_trichotomy j tokens.length with lt | rfl | lt
    · rw [Answers.get_after_lt lt] at found
      cases found
      exact absurd ended (leads.unended _ (List.getElem_mem lt))
    · exact absurd found (failed token)
    · obtain ⟨t, found⟩ := sound _ lt
      exact absurd found (failed t)

/-- The first program is read alongside itself with the second one below. Where it is at its end,
the second one starts. -/
theorem alongside_append (ends : Source.EndsLine p q)
    (unjoined : ∀ line, (Source.lines p).getLast? = some line → ¬['\\', '\n'] <:+ line)
    (few : (Source.lines (p ++ q)).length < Position.limit)
    (run : ParseM.statements steps more (.ofText p tabSize) = .ok nodes r) {steps' more' : Nat}
    {nodes' : List Node} {r' : Parser}
    (run' : ParseM.statements steps' more' (.ofText q tabSize) = .ok nodes' r') :
    ∃ (s : Lexer) (within near : Nat → Prop), s.answers = (Lexer.ofText q tabSize).answers ∧
      s.cursor.total = (Source.lines q).length ∧
      Alongside (fun line => line) (Lexer.ofText p tabSize).answers
        (Lexer.ofText (p ++ q) tabSize).answers within near ∧ near 0 ∧
      ∀ j t, near j → (Lexer.ofText p tabSize).answers.get j = .ok t → t.kind = .endMarker →
        j + 64 ≤ (Parser.ofText p tabSize).budget ∧
        (Lexer.ofText (p ++ q) tabSize).answers.drop j =
          (s.placed (Source.lines p).length []).answers := by
  have cut : Source.lines (p ++ q) = Source.lines p ++ Source.lines q := Source.lines_append ends
  have fits : (Source.lines p).length + (Source.lines q).length < Position.limit := by
    rw [cut, List.length_append] at few
    exact few
  obtain ⟨tokens, t, leads, underway, blank, bound⟩ :=
    leads_of_parsed ends unjoined (by omega) run
  obtain ⟨next, isNext, notIndent, notElif, notElse⟩ := ParseM.statements_starts run' rfl
  obtain ⟨s, opened, outside, same⟩ := Lexer.openLine_ofLines isNext notIndent
  have total : t.cursor.total = (Source.lines p).length := leads.total.trans (Nat.zero_add _)
  have total' : s.cursor.total = (Source.lines q).length :=
    (Lexer.Move.total (.openLine rfl opened)).trans (Nat.zero_add _)
  have opened : (Lexer.ofLines (Source.lines q) t.tabSize).openLine = .ok () s := by
    rw [leads.tabSize]
    exact opened
  let last : Lexer := (Lexer.ofLines [] t.tabSize).skipped
  have openedLast : (Lexer.ofLines [] t.tabSize).openLine = .ok () last :=
    Lexer.openLine_eq_ok_iff.mpr (.inl ⟨rfl, rfl⟩)
  obtain ⟨dedents, alone, length, kinds⟩ := Lexer.answers_of_blank underway blank openedLast rfl
    (by rw [total, List.length_nil]; omega)
  obtain ⟨dedents', below, length', kinds'⟩ := Lexer.answers_of_blank underway blank opened outside
    (by rw [total]; exact fits)
  rw [total] at alone below
  have left : (Lexer.ofText p tabSize).answers =
      ((last.placed (Source.lines p).length []).answers.after dedents).after tokens := by
    have whole := leads.answers []
    rw [Lexer.placed_zero, alone] at whole
    exact whole
  have right : (Lexer.ofText (p ++ q) tabSize).answers =
      ((s.placed (Source.lines p).length []).answers.after dedents').after tokens := by
    have start : Lexer.ofText (p ++ q) tabSize =
        (Lexer.ofText p tabSize).placed 0 (Source.lines q) := by
      show Lexer.ofLines (Source.lines (p ++ q)) _ = _
      rw [cut]
      rfl
    rw [start, leads.answers, below]
  have isLast : (last.placed (Source.lines p).length []).answers.get 0 =
      .ok (last.placed (Source.lines p).length []).endMarker := by
    rw [Lexer.answers_of_ended (s := last.placed _ []) rfl rfl rfl rfl rfl]
    rfl
  have isNext : (s.placed (Source.lines p).length []).answers.get 0 =
      .ok (next.below (Source.lines p).length) := by
    apply Lexer.answers_placed (by rw [total']; omega) (Answers.sound_zero _)
    rw [same]
    exact isNext
  refine ⟨s, (· < tokens.length), (· ≤ tokens.length + dedents.length), same, total', ?_,
    Nat.zero_le _, ?_⟩
  · rw [left, right]
    exact .of_boundary kinds kinds' (length'.trans length.symm) isLast rfl isNext notElif notElse
      ((leads.newline blank.1).imp_left And.left)
  · intro j token near found ended
    have near : j ≤ tokens.length + dedents.length := near
    have place : j = (tokens ++ dedents').length := by
      rw [left, ← Answers.after_append] at found
      rw [List.length_append]
      rcases Nat.lt_or_ge j (tokens ++ dedents).length with lt | ge
      · rw [Answers.get_after_lt lt] at found
        cases found
        rcases List.mem_append.mp (List.getElem_mem lt) with member | member
        · exact absurd ended (leads.unended _ member)
        · rw [kinds _ member] at ended
          cases ended
      · rw [List.length_append] at ge
        omega
    constructor
    · rw [List.length_append] at place
      omega
    · rw [right, ← Answers.after_append, place, Answers.drop_after]

end

/-- A program that ends with its line is parsed on its own, whatever program comes after it, and the
other one as it is alone, on lower lines. -/
theorem parse_append {p q : String} {tabSize : UInt64} {first second : List Node}
    (parsedFirst : parse p tabSize = .ok (.block first 1))
    (parsedSecond : parse q tabSize = .ok (.block second 1)) (ends : Source.EndsLine p q)
    (unjoined : ∀ line, (Source.lines p).getLast? = some line → ¬['\\', '\n'] <:+ line)
    (few : (Source.lines (p ++ q)).length < 0xffffffff) :
    parse (p ++ q) tabSize = .ok (.block
      (first ++ second.map (Node.mapLine (· + (Source.lines p).length))) 1) := by
  obtain ⟨_, r, ⟨⟩, run⟩ := statements_of_parse parsedFirst
  obtain ⟨_, r', ⟨⟩, run'⟩ := statements_of_parse parsedSecond
  have cut : Source.lines (p ++ q) = Source.lines p ++ Source.lines q := Source.lines_append ends
  obtain ⟨s, within, near, same, total, along, start, last⟩ :=
    alongside_append ends unjoined few run run'
  have budget : (Parser.ofText (p ++ q) tabSize).budget + 64 =
      (Parser.ofText p tabSize).budget + (Parser.ofText q tabSize).budget := by
    rw [budget_ofText, budget_ofText, budget_ofText, cut, List.flatten_append,
      List.length_append]
    omega
  have least := budget_ofText q tabSize
  have fits : s.cursor.total + (Source.lines p).length < Position.limit := by
    rw [total, Nat.add_comm, ← List.length_append, ← cut]
    exact few
  -- The first program is read, and the parser stands at the second one.
  obtain ⟨u, j, used, t, at', here, found, ended, -, le, next⟩ :=
    along.statements (q := .ofText (p ++ q) tabSize)
      (by omega : (Parser.ofText p tabSize).budget ≤ (Parser.ofText (p ++ q) tabSize).budget)
      start ⟨rfl, rfl, rfl, rfl⟩ run
  obtain ⟨bound, later⟩ := last j t here found ended
  have between : At s.answers (s.placed (Source.lines p).length []).answers 0 0
      (.ofText q tabSize) u := ⟨same.symm, at'.right.trans later, rfl, at'.depthRight⟩
  -- The second one is read too, and the parser stands at the end.
  obtain ⟨v, k, used', t', at'', here', found', ended', few', -, next'⟩ :=
    (Alongside.of_placed fits).statements
      (by omega : (Parser.ofText q tabSize).budget ≤ (Parser.ofText (p ++ q) tabSize).budget)
      (Answers.sound_zero _) between run'
  obtain ⟨w, foundLast, moves⟩ := (Alongside.of_placed fits).token here' found'
  obtain ⟨rest, spare⟩ : ∃ rest, rest + 1 + used' + used =
      (Parser.ofText (p ++ q) tabSize).budget :=
    ⟨(Parser.ofText (p ++ q) tabSize).budget - used' - used - 1, by omega⟩
  obtain ⟨v', done⟩ := ParseM.statements_nil at''.right foundLast (moves.kind.trans ended')
  have whole := next _ _ _ (next' _ _ _ (done _ rest))
  have kept : Node.mapLine (fun line => line) = id := funext Node.mapLine_id
  rw [spare, List.append_nil, kept, List.map_id] at whole
  exact parse_of_statements whole

theorem parsed_block_and_line : (match parse "if x:\n  y\n" 8, parse "z\n" 8 with
    | .ok (.block [.branch (.identifier "x" 1) (.block [.identifier "y" 2] 1) (.noOp 1) 1] 1),
      .ok (.block [.identifier "z" 1] 1) => true
    | _, _ => false) = true := by decide +kernel

/-- The block that the first program leaves open is closed by the first line of the second one. -/
theorem parse_append_closes_block : parse ("if x:\n  y\n" ++ "z\n") 8 =
    .ok (.block [.branch (.identifier "x" 1) (.block [.identifier "y" 2] 1) (.noOp 1) 1,
      .identifier "z" 3] 1) := by
  have parsed := parsed_block_and_line
  split at parsed
  · next parsedFirst parsedSecond =>
    have lines : Source.lines "if x:\n  y\n" =
        [['i', 'f', ' ', 'x', ':', '\n'], [' ', ' ', 'y', '\n']] := by decide
    have unjoined : ∀ line, (Source.lines "if x:\n  y\n").getLast? = some line →
        ¬['\\', '\n'] <:+ line := by
      rw [lines]
      rintro _ ⟨⟩
      decide
    have whole :=
      parse_append parsedFirst parsedSecond (.inl (by decide)) unjoined (by decide)
    rw [lines] at whole
    exact whole
  · cases parsed

end Offside
