import Offside.Proofs.Parsing.RoundTrip
import Offside.Proofs.Parsing.Semicolons
import Offside.Proofs.Scope.Arena
import Offside.Proofs.Values.IntegerTexts

/-!
# Printed values as sources

A value is printed as a literal, and a negative integer as the literal of its magnitude with a minus in
front. `printed_value_reads_back` says that a program may hold this text: it is parsed, and evaluates to the
value. The magnitude of the least integer is no literal (`least_integer_is_no_literal`).
-/

namespace Offside

/-! ### The tokens of a printed value -/

/-- The tokens that a value is printed as. -/
inductive Value.PrintsAs : Value → List Token.Kind → Prop
  | literal {v : Value} : v.isPlain = true → PrintsAs v [v.token]
  | negated {n m : Int64} : n.toInt < 0 → m.toInt = -n.toInt →
      PrintsAs (.int n) [.punct .minus, (Value.int m).token]

/-- The values that a program may hold as they are printed. -/
inductive Value.Writable : Value → Prop
  | plain {v : Value} : v.isPlain = true → Writable v
  | int {n : Int64} : n ≠ Int64.minValue → Writable (.int n)

theorem Value.spelling_token {v : Value} (plain : v.isPlain = true) : v.token.spelling = v.repr := by
  cases v with
  | bool truth => cases truth <;> rfl
  | float | complex => cases plain
  | _ => rfl

theorem Value.Writable.exists_printsAs {v : Value} (writable : v.Writable) : ∃ kinds, v.PrintsAs kinds := by
  cases writable with
  | plain plain => exact ⟨_, .literal plain⟩
  | @int n other =>
    by_cases below : n.toInt < 0
    · have least : n.toInt ≠ Int64.minValue.toInt := mt Int64.toInt_inj.mp other
      have word : Int64.minValue.toInt = -0x8000000000000000 := by decide
      have fits := Integer.fits_toInt n
      unfold Integer.Fits at fits
      have magnitude : (-n).toInt = -n.toInt := by
        rw [Int64.toInt_neg]
        exact Integer.bmod_of_fits (by unfold Integer.Fits; omega)
      exact ⟨_, .negated below magnitude⟩
    · have nonneg : 0 ≤ n := Int64.le_iff_toInt_le.mpr (not_lt.mp below)
      exact ⟨_, .literal (decide_eq_true nonneg)⟩

namespace Value.PrintsAs

variable {v : Value} {kinds : List Token.Kind}

theorem isPlain_magnitude {n m : Int64} (below : n.toInt < 0) (magnitude : m.toInt = -n.toInt) :
    (Value.int m).isPlain = true :=
  decide_eq_true (Int64.le_iff_toInt_le.mpr (by rw [magnitude]; exact neg_nonneg.mpr below.le))

theorem toList_repr (printed : v.PrintsAs kinds) :
    v.repr.toList = kinds.flatMap fun kind => kind.spelling.toList := by
  cases printed with
  | literal plain => rw [List.flatMap_singleton, spelling_token plain]
  | @negated n m below magnitude =>
    have plain := isPlain_magnitude below magnitude
    have digits := Lexer.toList_text_int (n := m) (of_decide_eq_true plain)
    rw [magnitude] at digits
    rw [List.flatMap_cons, List.flatMap_singleton, spelling_token plain, digits]
    exact Number.toList_text_negative below

theorem isPrinted (printed : v.PrintsAs kinds) : ∀ kind ∈ kinds, kind.isPrinted = true := by
  cases printed with
  | literal plain =>
    intro kind member
    rw [List.mem_singleton.mp member]
    exact isPrinted_token plain
  | negated below magnitude =>
    rw [List.forall_mem_cons, List.forall_mem_singleton]
    exact ⟨rfl, isPrinted_token (isPlain_magnitude below magnitude)⟩

theorem nested (printed : v.PrintsAs kinds) (opened : Nat) :
    kinds.foldlM nest opened = some opened := by
  cases printed with
  | literal => rw [List.foldlM_cons, nest_token]; rfl
  | negated => rfl

end Value.PrintsAs

/-! ### The line of a printed value -/

/-- A minus is read by itself in front of a digit. -/
theorem Lexer.readsAs_minus {c : Char} (digit : c.isDigit = true) (rest : List Char) :
    ReadsAs (Punct.minus.spelling.toList ++ c :: rest) (.punct .minus) := by
  have foreign : Punct.IsForeign c := by
    intro mark member
    have none : mark.spelling.toList.all (fun c => !c.isDigit) = true := by cases mark <;> rfl
    have other := List.all_eq_true.mp none c member
    rw [digit] at other
    cases other
  refine .punct (fun pos => ?_) (Punct.longestMatch?_of_foreign .minus foreign rest)
  have noText : StringLiteral.read? pos ('-' :: c :: rest) = none := by
    apply StringLiteral.read?_of_head
    rintro d ⟨⟩
    decide
  have noName : Name.read? pos ('-' :: c :: rest) = none := rfl
  show literal? pos ('-' :: c :: rest) = none
  rw [literal?, noText, noName]
  rfl

theorem Value.exists_digit {n : Int64} (nonneg : 0 ≤ n) :
    ∃ c rest, (Value.int n).repr.toList = c :: rest ∧ c.isDigit = true := by
  obtain ⟨c, rest, spelled, digit⟩ := Number.exists_digit_toDigits n.toInt.toNat
  exact ⟨c, rest, (Lexer.toList_text_int nonneg).trans spelled, digit⟩

theorem Value.PrintsAs.typed {v : Value} {kinds : List Token.Kind} (printed : v.PrintsAs kinds) :
    Lexer.Typed kinds (' ' :: (v.repr.toList ++ ['\n'])) := by
  have last : ∀ {kind : Token.Kind} {rest : List Char}, kind.isPrinted = true →
      (rest = kind.spelling.toList ++ ['\n'] ∨ rest = ' ' :: (kind.spelling.toList ++ ['\n'])) →
      Lexer.Typed [kind] rest := fun isPrinted spelled =>
    .cons isPrinted (Lexer.readsAs_spelling isPrinted ⟨'\n', [], rfl, .inr rfl⟩) .nil spelled
  have chars := printed.toList_repr
  cases printed with
  | literal plain =>
    rw [List.flatMap_singleton] at chars
    exact last (Value.isPrinted_token plain) (.inr (by rw [chars]))
  | @negated n m below magnitude =>
    have plain := isPlain_magnitude below magnitude
    rw [List.flatMap_cons, List.flatMap_singleton] at chars
    obtain ⟨c, rest, spelled, digit⟩ := exists_digit (of_decide_eq_true plain)
    have minus : Lexer.ReadsAs (Punct.minus.spelling.toList ++ ((Value.int m).token.spelling.toList ++ ['\n']))
        (.punct .minus) := by
      rw [spelling_token plain, spelled]
      exact Lexer.readsAs_minus digit _
    refine .cons rfl minus (last (Value.isPrinted_token plain) (.inl rfl)) (.inr ?_)
    rw [chars, List.append_assoc]

theorem Value.PrintsAs.isFlat {v : Value} {kinds : List Token.Kind} (printed : v.PrintsAs kinds) :
    ∀ c ∈ v.repr.toList, c ≠ '\n' ∧ c ≠ '\r' := by
  intro c member
  rw [printed.toList_repr] at member
  obtain ⟨kind, inside, member⟩ := List.mem_flatMap.mp member
  exact isFlat_spelling (printed.isPrinted kind inside) c member

/-- The line that assigns a printed value. -/
theorem Value.PrintsAs.answers {v : Value} {kinds : List Token.Kind} (printed : v.PrintsAs kinds)
    (tabSize : UInt64) : ∃ (tokens : List Token) (newline last : Token) (t : Lexer),
      (Lexer.ofText ("result = " ++ v.repr) tabSize).answers = (t.answers.after [newline, last]).after tokens ∧
      tokens.map Token.kind = .identifier "result" :: .punct .assign :: kinds ∧
      newline.kind = .newline ∧ last.kind = .endMarker := by
  have chars : ("result = " ++ v.repr).toList = "result = ".toList ++ v.repr.toList := String.toList_append
  have flat : ∀ c ∈ ("result = " ++ v.repr).toList, c ≠ '\n' ∧ c ≠ '\r' := by
    rw [chars]
    intro c member
    rcases List.mem_append.mp member with member | member
    · have plain : "result = ".toList.all (fun c => c != '\n' && c != '\r') = true := rfl
      exact isFlat_of_all plain c member
    · exact printed.isFlat c member
  have line : Source.lines ("result = " ++ v.repr) =
      ['r' :: ("esult".toList ++ ' ' :: ("=".toList ++ ' ' :: (v.repr.toList ++ ['\n'])))] := by
    rw [← String.append_empty (s := "result = " ++ v.repr),
      Source.lines_of_flat flat (by rw [chars]; exact List.cons_ne_nil _ _) (.inl rfl), chars]
    rfl
  have name : (Token.Kind.identifier "result").isPrinted = true := by decide
  have typed : Lexer.Typed (.identifier "result" :: .punct .assign :: kinds)
      ('r' :: ("esult".toList ++ ' ' :: ("=".toList ++ ' ' :: (v.repr.toList ++ ['\n'])))) :=
    .cons name (Lexer.readsAs_spelling name ⟨' ', _, rfl, .inl rfl⟩)
      (.cons rfl (Lexer.readsAs_spelling rfl ⟨' ', _, rfl, .inl rfl⟩) printed.typed (.inr rfl))
      (.inl rfl)
  have starts : StartsSpelling 'r' := ⟨rfl, by decide, by decide, by decide⟩
  exact Lexer.answers_of_line line starts typed (printed.nested 0) tabSize

/-! ### The program of one assignment -/

/-- At the end of its source a program has no more statements. -/
theorem Parser.program_of_ended {p : Parser} {last : Token} (found : p.answers.get 0 = .ok last)
    (ended : last.kind = .endMarker) : ∃ q, Parser.program p = .ok (.block [] 1) q := by
  obtain ⟨p', peeked, -, -⟩ := ParseM.Reads.peek_head found p rfl
  obtain ⟨more, some⟩ : ∃ more, p.budget = more + 1 := ⟨p.budget - 1, by unfold budget; omega⟩
  have none : ParseM.statements (more + 1) (more + 1) p = .ok [] p' := by
    rw [ParseM.statements, bind_of_ok peeked]
    simp only [ended]
    rfl
  rw [← some] at none
  exact ⟨p', bind_of_ok none⟩

theorem parse_of_simple {source : String} {tabSize : UInt64} {tokens : List Token} {node : Node}
    {newline last : Token} {later : Answers}
    (told : (Lexer.ofText source tabSize).answers = (later.after [newline, last]).after tokens)
    (simple : SimpleStatement tokens node) (isNewline : newline.kind = .newline)
    (isLast : last.kind = .endMarker) : parse source tabSize = .ok (.block [node] 1) := by
  have here : (Parser.ofText source tabSize).answers = (later.after [last]).after (tokens ++ [newline]) := by
    rw [Answers.after_append]
    exact told
  obtain ⟨q, run, left, -⟩ := Parser.Reached.fresh.line here (simple.line isNewline)
  have found : q.answers.get 0 = .ok last := by
    rw [left]
    rfl
  obtain ⟨r, ended⟩ := Parser.program_of_ended found isLast
  obtain ⟨r', whole⟩ := (Parser.precedes_of_statement .fresh run).ok [] r ended
  rw [List.append_nil] at whole
  exact parse_of_program whole

/-! ### Evaluation -/

/-- The tree of a printed value evaluates to it, whatever else the evaluator holds. -/
theorem Value.PrintsAs.derives {v : Value} {kinds : List Token.Kind} (printed : v.PrintsAs kinds)
    {tokens : List Token} (spelled : tokens.map Token.kind = kinds) :
    ∃ node, Derives .or tokens node ∧ ∀ s steps, EvalM.eval (steps + 2) node s = .ok v s := by
  cases printed with
  | literal plain =>
    obtain ⟨token, rfl, same⟩ := List.map_eq_singleton_iff.mp spelled
    exact ⟨_, (Derives.of_literal plain same).loosen (Nat.zero_le _), fun s steps => rfl⟩
  | @negated n m below magnitude =>
    obtain ⟨mark, rest, rfl, isMinus, spelled⟩ := List.map_eq_cons_iff.mp spelled
    obtain ⟨token, rfl, same⟩ := List.map_eq_singleton_iff.mp spelled
    have literal := Derives.of_literal (isPlain_magnitude below magnitude) same
    have whole : Derives .unary _ (.unary .negate _ mark.pos.line) :=
      .unary isMinus (literal.loosen (by decide))
    refine ⟨_, whole.loosen (Nat.zero_le _), fun s steps => ?_⟩
    have negated : Integer.neg m = .ok n := by
      rw [Integer.neg, magnitude, neg_neg, Integer.narrow_toInt]
    show EvalM.onLine mark.pos.line ((Value.int m).unary .negate) s = _
    rw [unary_negate rfl, negated]
    rfl

open EvalM in
/-- The text that a value is printed as may stand in a program. It is parsed, and evaluates to the value in
every scope without any other effect. -/
theorem printed_value_reads_back {v : Value} (writable : v.Writable) (tabSize : UInt64) :
    ∃ node line, parse ("result = " ++ v.repr) tabSize = .ok (.block [.assign "result" node line] 1) ∧
      ∀ (s : Evaluator) (steps : Nat), eval (steps + 2) node s = .ok v s ∧
        eval (steps + 4) (.block [.assign "result" node line] 1) s =
          .ok .none { s with arena := s.arena.define s.current "result" (.value v) } ∧
        (s.arena.Live s.current →
          (s.arena.define s.current "result" (.value v)).lookup s.current "result" = .bound (.value v)) := by
  obtain ⟨kinds, printed⟩ := writable.exists_printsAs
  obtain ⟨tokens, newline, last, later, told, spelled, isNewline, isLast⟩ := printed.answers tabSize
  obtain ⟨target, rest, rfl, named, spelled⟩ := List.map_eq_cons_iff.mp spelled
  obtain ⟨mark, value, rfl, assigns, spelled⟩ := List.map_eq_cons_iff.mp spelled
  obtain ⟨node, derives, evaluates⟩ := printed.derives spelled
  refine ⟨node, target.pos.line, parse_of_simple told (.assign named assigns derives) isNewline isLast,
    fun s steps => ⟨evaluates s steps, ?_, fun live => Arena.lookup_define live _ _⟩⟩
  have assigned : eval (steps + 3) (.assign "result" node target.pos.line) s =
      .ok .none { s with arena := s.arena.define s.current "result" (.value v) } :=
    bind_of_ok (evaluates s steps)
  have run : discard (eval (steps + 3) (.assign "result" node target.pos.line)) s = .ok () _ :=
    bind_of_ok assigned
  exact bind_of_ok (bind_of_ok run)

/-- The magnitude of the integer next to the least is the greatest literal. -/
theorem printed_value_reads_back_greatest : let n : Int64 := -9223372036854775807
    (Value.int n).Writable ∧ ∃ node line,
      parse "result = -9223372036854775807" 8 = .ok (.block [.assign "result" node line] 1) ∧
      ∀ s, EvalM.eval 2 node s = .ok (.int n) s := by
  intro n
  have writable : (Value.int n).Writable := .int (by decide)
  obtain ⟨node, line, parsed, evaluates⟩ := printed_value_reads_back writable 8
  have source : "result = " ++ (Value.int n).repr = "result = -9223372036854775807" := by decide
  rw [source] at parsed
  exact ⟨writable, node, line, parsed, fun s => (evaluates s 0).1⟩

/-- The magnitude of the least integer is no literal. -/
theorem least_integer_is_no_literal : (Value.int Int64.minValue).repr = "-9223372036854775808" ∧
    parse ("result = " ++ (Value.int Int64.minValue).repr) 8 =
      .error (.lex (.numberTooLarge "9223372036854775808" ⟨1, 11⟩)) := by
  have printed : (Value.int Int64.minValue).repr = "-9223372036854775808" := by decide +kernel
  refine ⟨printed, ?_⟩
  have failed : (parse ("result = " ++ (Value.int Int64.minValue).repr) 8).map (fun _ => ()) =
      .error (.lex (.numberTooLarge "9223372036854775808" ⟨1, 11⟩)) := by decide +kernel
  cases parsed : parse ("result = " ++ (Value.int Int64.minValue).repr) 8 with
  | ok node =>
    rw [parsed] at failed
    cases failed
  | error e =>
    rw [parsed] at failed
    cases failed
    rfl

end Offside
