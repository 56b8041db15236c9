import Offside.Parser.Statement
import Offside.Proofs.Parsing.Answers

/-!
# How parsing programs end

`ParseM.Ends` says of a program that starts at some place of the answers what holds when it succeeds,
and that it fails only for a reason that `Answers.Stops` allows: the first lexical error, a token that
fits no rule, or too few steps. The rules follow the moves a parser is made of.
-/

namespace Offside

/-- The error about a token that fits no rule. -/
def ParseError.misplaced (found : Token) (expected : Option Expected) : ParseError :=
  match found.kind with
  | .endMarker => .unexpectedEnd expected found.pos.line
  | _ => .unexpectedToken found expected

namespace Answers

variable {answers : Answers} {i j k : Nat} {token : Token} {tokens later : List Token}

/-- The token stands at the place, with only tokens before it. -/
structure Finds (answers : Answers) (i : Nat) (token : Token) : Prop where
  sound : answers.Sound i
  get : answers.get i = .ok token

theorem Finds.eq {other : Token} (found : answers.Finds i token) (get : answers.get i = .ok other) :
    other = token := by
  rw [found.get] at get
  cases get
  rfl

/-- The tokens are the answers from the place `i` to the place `j`. -/
structure Spans (answers : Answers) (i : Nat) (tokens : List Token) (j : Nat) : Prop where
  place : j = i + tokens.length
  drop : answers.drop i = Answers.after (answers.drop j) tokens

namespace Spans

theorem nil (answers : Answers) (i : Nat) : answers.Spans i [] i := ⟨rfl, rfl⟩

theorem single (found : answers.get i = .ok token) : answers.Spans i [token] (i + 1) :=
  ⟨rfl, drop_eq_cons found⟩

theorem append (first : answers.Spans i tokens j) (second : answers.Spans j later k) :
    answers.Spans i (tokens ++ later) k := by
  constructor
  · rw [second.place, first.place, List.length_append, Nat.add_assoc]
  · rw [first.drop, second.drop, after_append]

theorem cons (found : answers.get i = .ok token) (rest : answers.Spans (i + 1) tokens j) :
    answers.Spans i (token :: tokens) j := (single found).append rest

theorem concat (first : answers.Spans i tokens j) (found : answers.get j = .ok token) :
    answers.Spans i (tokens ++ [token]) (j + 1) := first.append (single found)

theorem get (spans : answers.Spans i tokens j) {n : Nat} (lt : n < tokens.length) :
    answers.get (i + n) = .ok tokens[n] := by
  have found : (Answers.after (answers.drop j) tokens).get n = .ok tokens[n] := get_after_lt lt
  rw [← spans.drop, Stream'.get_drop] at found
  exact found

theorem head (spans : answers.Spans i (token :: tokens) j) : answers.get i = .ok token :=
  spans.get (n := 0) (Nat.zero_lt_succ _)

end Spans

/-- Before this place there are all the tokens that come before the end marker. -/
def Bounded (answers : Answers) (limit : Nat) : Prop :=
  ∀ i token, answers.Finds i token → token.kind ≠ .endMarker → i < limit

/-- The steps are fewer than those needed for the tokens that are left at a place. -/
def Short (answers : Answers) (i : Nat) (need : Nat → Nat) (steps : Nat) : Prop :=
  ∀ limit, answers.Bounded limit → steps < need (limit - i)

namespace Short

variable {need need' : Nat → Nat} {steps steps' : Nat}

theorem of_le (short : answers.Short j need steps) (le : i ≤ j)
    (enough : ∀ left less, less ≤ left → steps < need less → steps' < need' left) :
    answers.Short i need' steps' := by
  intro limit bounded
  exact enough (limit - i) (limit - j) (by omega) (short limit bounded)

/-- Past a token fewer are left. -/
theorem of_lt (short : answers.Short j need steps) (found : answers.Finds k token)
    (unended : token.kind ≠ .endMarker) (le : i ≤ k) (lt : k < j)
    (enough : ∀ left less, less < left → steps < need less → steps' < need' left) :
    answers.Short i need' steps' := by
  intro limit bounded
  have := bounded k token found unended
  exact enough (limit - i) (limit - j) (by omega) (short limit bounded)

theorem zero (positive : ∀ left, 0 < need left) : answers.Short i need 0 :=
  fun limit _ => positive (limit - i)

/-- A loop has one more round when a token is passed in each. -/
theorem round (short : answers.Short j (· + 1) steps) (found : answers.Finds k token)
    (unended : token.kind ≠ .endMarker) (le : i ≤ k) (lt : k < j) :
    answers.Short i (· + 1) (steps + 1) :=
  short.of_lt found unended le lt fun _ _ _ _ => by omega

end Short

/-- The errors that tell of a token in the answers, the loss of a dedent excepted. -/
inductive Refuses (answers : Answers) : ParseError → Prop
  | misplaced {i : Nat} {token : Token} {expected : Option Expected} : answers.Finds i token →
      expected ≠ some .dedent → Refuses answers (.misplaced token expected)
  | unsupported {i : Nat} {token : Token} {word : Keyword} : answers.Finds i token →
      token.kind = .keyword word → Refuses answers (.unsupportedStatement word token.pos)
  | indent {i : Nat} {token : Token} : answers.Finds i token → token.kind = .indent →
      Refuses answers (.unexpectedIndent token.pos.line)
  | target {i : Nat} {token : Token} : answers.Finds i token → token.kind ≠ .dedent →
      token.kind ≠ .endMarker → Refuses answers (.invalidTarget token.pos.line)
  | mixed {i : Nat} {token : Token} : answers.Finds i token → token.kind ≠ .dedent →
      token.kind ≠ .endMarker → Refuses answers (.mixedLiterals token.pos)

/-- What may stop a program that has too few steps if `short` holds. -/
def Stops (answers : Answers) (short : Prop) : SourceError → Prop
  | .lex e => answers.Fails e
  | .parse e => answers.Refuses e
  | .exhausted => short

end Answers

/-- The parser has consumed the answers before a place, all of them tokens. -/
structure Parser.Stands (answers : Answers) (i depth : Nat) (p : Parser) : Prop where
  left : p.answers = answers.drop i
  sound : answers.Sound i
  depth : p.depth = depth

namespace ParseM

/-- How the program ends when it starts at a place of the answers. -/
def Ends (answers : Answers) (i depth : Nat) (short : Prop) (m : ParseM α)
    (good : α → Nat → Prop) : Prop :=
  ∀ p : Parser, p.Stands answers i depth →
    (∀ a q, m p = .ok a q → ∃ j, i ≤ j ∧ q.Stands answers j depth ∧ good a j) ∧
      ∀ e q, m p = .error e q → answers.Stops short e

namespace Ends

variable {answers : Answers} {i depth : Nat} {short : Prop} {good : α → Nat → Prop}

theorem pure {a : α} (h : good a i) : Ends answers i depth short (pure a) good := by
  intro p stands
  constructor
  · intro b q run
    obtain ⟨rfl, rfl⟩ := pure_ok run
    exact ⟨i, Nat.le_refl i, stands, h⟩
  · intro e q run
    cases run

theorem fail {e : ParseError} (refused : answers.Refuses e) :
    Ends answers i depth short (ParseM.fail e) good := by
  intro p _
  constructor
  · intro a q run
    cases run
  · intro e' q run
    cases run
    exact refused

theorem unexpected {token : Token} {expected : Option Expected} {k : Nat}
    (found : answers.Finds k token) (other : expected ≠ some .dedent) :
    Ends answers i depth short (ParseM.unexpected token expected) good :=
  fail (.misplaced found other)

theorem exhausted (h : short) :
    Ends answers i depth short (throw SourceError.exhausted) good := by
  intro p _
  constructor
  · intro a q run
    cases run
  · intro e q run
    cases run
    exact h

theorem bind {m : ParseM α} {f : α → ParseM β} {good' : β → Nat → Prop}
    (first : Ends answers i depth short m good)
    (second : ∀ a j, i ≤ j → good a j → Ends answers j depth short (f a) good') :
    Ends answers i depth short (m >>= f) good' := by
  intro p stands
  obtain ⟨succeeds, fails⟩ := first p stands
  constructor
  · intro b r run
    obtain ⟨a, q, run, rest⟩ := bind_ok run
    obtain ⟨j, le, stands', known⟩ := succeeds a q run
    obtain ⟨k, le', stands'', known'⟩ := (second a j le known q stands').1 b r rest
    exact ⟨k, Nat.le_trans le le', stands'', known'⟩
  · intro e r run
    rcases bind_error run with run | ⟨a, q, run, rest⟩
    · exact fails e r run
    · obtain ⟨j, le, stands', known⟩ := succeeds a q run
      exact (second a j le known q stands').2 e r rest

theorem mono {short' : Prop} {m : ParseM α} {good' : α → Nat → Prop}
    (h : Ends answers i depth short m good) (shorter : short → short')
    (weaker : ∀ a j, i ≤ j → good a j → good' a j) :
    Ends answers i depth short' m good' := by
  intro p stands
  obtain ⟨succeeds, fails⟩ := h p stands
  constructor
  · intro a q run
    obtain ⟨j, le, stands', known⟩ := succeeds a q run
    exact ⟨j, le, stands', weaker a j le known⟩
  · intro e q run
    have stopped := fails e q run
    cases e with
    | lex e => exact stopped
    | parse e => exact stopped
    | exhausted => exact shorter stopped

variable {f : Token → ParseM α}

/-- Looking `ahead` is safe where the tokens before that place are known to be no errors. -/
theorem peek_ahead {ahead : Nat}
    (next : ∀ token, answers.Finds (i + ahead) token → Ends answers i depth short (f token) good) :
    Ends answers i depth short (ParseM.peek ahead >>= f) good := by
  have look : Ends answers i depth short (ParseM.peek ahead)
      fun token j => j = i ∧ answers.Finds (i + ahead) token := by
    intro p stands
    constructor
    · intro token q run
      obtain ⟨same, kept, before, found⟩ := Parser.peek_ok run
      rw [stands.left, Stream'.get_drop] at found
      refine ⟨i, Nat.le_refl i, ⟨same.trans stands.left, stands.sound, kept.trans stands.depth⟩,
        rfl, fun j lt => ?_, found⟩
      by_cases passed : j < i
      · exact stands.sound j passed
      · obtain ⟨n, rfl⟩ := Nat.exists_eq_add_of_le (Nat.le_of_not_lt passed)
        obtain ⟨token', found'⟩ := before n (by omega)
        rw [stands.left, Stream'.get_drop] at found'
        exact ⟨token', found'⟩
    · intro e q run
      obtain ⟨e', rfl, failed⟩ := Parser.peek_error run
      rw [stands.left] at failed
      exact failed.of_drop stands.sound
  apply look.bind
  intro token j _ known
  obtain ⟨rfl, found⟩ := known
  exact next token found

theorem peek (next : ∀ token, answers.Finds i token → Ends answers i depth short (f token) good) :
    Ends answers i depth short (ParseM.peek 0 >>= f) good := peek_ahead next

theorem advance
    (next : ∀ token, answers.Finds i token → Ends answers (i + 1) depth short (f token) good) :
    Ends answers i depth short (ParseM.advance >>= f) good := by
  have move : Ends answers i depth short ParseM.advance
      fun token j => j = i + 1 ∧ answers.Finds i token := by
    intro p stands
    constructor
    · intro token q run
      obtain ⟨split, kept⟩ := Parser.advance_ok run
      rw [stands.left] at split
      have found := Answers.get_of_drop_eq split
      rw [Answers.drop_eq_cons found] at split
      exact ⟨i + 1, Nat.le_succ i, ⟨(Stream'.cons_injective_right _ split).symm,
        stands.sound.succ found, kept.trans stands.depth⟩, rfl, stands.sound, found⟩
    · intro e q run
      obtain ⟨e', rfl, failed⟩ := Parser.advance_error run
      rw [stands.left] at failed
      exact failed.of_drop stands.sound
  apply move.bind
  intro token j _ known
  obtain ⟨rfl, found⟩ := known
  exact next token found

/-- To consume a token that was looked at. -/
theorem skip {m : ParseM α} (next : Ends answers (i + 1) depth short m good) :
    Ends answers i depth short (ParseM.advance >>= fun _ => m) good := advance fun _ _ => next

theorem eat {kind : Token.Kind} {f : Bool → ParseM α}
    (yes : ∀ token, answers.Finds i token → token.kind = kind →
      Ends answers (i + 1) depth short (f true) good)
    (no : ∀ token, answers.Finds i token → token.kind ≠ kind →
      Ends answers i depth short (f false) good) :
    Ends answers i depth short (ParseM.eat kind >>= f) good := by
  have eaten : Ends answers i depth short (ParseM.eat kind) fun eaten j =>
      ∃ token, answers.Finds i token ∧
        if eaten then token.kind = kind ∧ j = i + 1 else token.kind ≠ kind ∧ j = i := by
    apply peek
    intro token found
    by_cases same : token.kind = kind
    · rw [if_pos same]
      exact skip (pure ⟨token, found, same, rfl⟩)
    · rw [if_neg same]
      exact pure ⟨token, found, same, rfl⟩
  apply eaten.bind
  intro eaten j _ known
  obtain ⟨token, found, known⟩ := known
  cases eaten with
  | true =>
    obtain ⟨same, rfl⟩ := known
    exact yes token found same
  | false =>
    obtain ⟨other, rfl⟩ := known
    exact no token found other

theorem expect {mark : Punct}
    (next : ∀ token, answers.Finds i token → token.kind = .punct mark →
      Ends answers (i + 1) depth short (f token) good) :
    Ends answers i depth short (ParseM.expect mark >>= f) good := by
  have marked : Ends answers i depth short (ParseM.expect mark)
      fun token j => j = i + 1 ∧ answers.Finds i token ∧ token.kind = .punct mark := by
    apply advance
    intro token found
    by_cases same : token.kind = .punct mark
    · rw [if_pos same]
      exact pure ⟨rfl, found, same⟩
    · rw [if_neg same]
      exact unexpected found nofun
  apply marked.bind
  intro token j _ known
  obtain ⟨rfl, found, same⟩ := known
  exact next token found same

theorem name {f : String → ParseM α}
    (next : ∀ token name, answers.Finds i token → token.kind = .identifier name →
      Ends answers (i + 1) depth short (f name) good) :
    Ends answers i depth short (ParseM.name >>= f) good := by
  have named : Ends answers i depth short ParseM.name fun name j => j = i + 1 ∧
      ∃ token, answers.Finds i token ∧ token.kind = .identifier name := by
    apply advance
    intro token found
    cases known : token.kind with
    | identifier name => exact pure ⟨rfl, token, found, known⟩
    | _ => exact unexpected found nofun
  apply named.bind
  intro name j _ known
  obtain ⟨rfl, token, found, same⟩ := known
  exact next token name found same

/-- A program inside a block that is opened before it and closed after it. -/
theorem indented {m : ParseM α} {f : α → ParseM β} {good' : β → Nat → Prop}
    (inner : Ends answers i (depth + 1) short m good)
    (next : ∀ a j, i ≤ j → good a j → Ends answers j depth short (f a) good') :
    Ends answers i depth short (do
      modify fun p => { p with depth := p.depth + 1 }
      let a ← m
      modify fun p => { p with depth := p.depth - 1 }
      f a) good' := by
  intro p stands
  have inside : Parser.Stands answers i (depth + 1) { p with depth := p.depth + 1 } :=
    ⟨stands.left, stands.sound, congrArg Nat.succ stands.depth⟩
  obtain ⟨succeeds, fails⟩ := inner _ inside
  constructor
  · intro b r run
    obtain ⟨a, q, run, rest⟩ := bind_ok (m := m) run
    obtain ⟨j, le, stands', known⟩ := succeeds a q run
    have outside : Parser.Stands answers j depth { q with depth := q.depth - 1 } :=
      ⟨stands'.left, stands'.sound, congrArg Nat.pred stands'.depth⟩
    obtain ⟨k, le', stands'', known'⟩ := (next a j le known _ outside).1 b r rest
    exact ⟨k, Nat.le_trans le le', stands'', known'⟩
  · intro e r run
    rcases bind_error (m := m) run with run | ⟨a, q, run, rest⟩
    · exact fails e r run
    · obtain ⟨j, le, stands', known⟩ := succeeds a q run
      have outside : Parser.Stands answers j depth { q with depth := q.depth - 1 } :=
        ⟨stands'.left, stands'.sound, congrArg Nat.pred stands'.depth⟩
      exact (next a j le known _ outside).2 e r rest

end Ends

end ParseM

end Offside
