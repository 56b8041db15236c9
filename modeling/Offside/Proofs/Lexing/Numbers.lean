import Offside.Proofs.Lexing.Recognition

/-!
# Numbers

Where a number starts, the lexer takes the longest beginning of a numeral. It hands out the value if that is
a numeral, and an error if it is none or an integer that no word holds.
-/

namespace Offside

namespace Number

variable {chars : List Char} {state : State}

theorem Meaning.outcome_eq_ok {meaning : Meaning} {pos : Position} {value : Value} :
    meaning.outcome chars pos = .ok value ↔ meaning.value? = some value := by
  unfold outcome
  cases meaning.value? <;> simp

theorem Meaning.outcome_eq_error {meaning : Meaning} {pos : Position} {e : LexError} :
    meaning.outcome chars pos = .error e ↔
      e = .numberTooLarge (String.ofList chars) pos ∧ ∃ n, meaning = .integer n ∧ 2 ^ 63 ≤ n := by
  have unheld : meaning.value? = none ↔ ∃ n, meaning = .integer n ∧ 2 ^ 63 ≤ n := by
    cases meaning <;> simp [value?]
  rw [← unheld]
  unfold outcome
  cases meaning.value? <;> simp [eq_comm]

theorem convert_eq_ok {pos : Position} {value : Value} (numeral : ∃ meaning, Spells chars meaning) :
    convert chars pos = .ok value ↔ ∃ meaning, Spells chars meaning ∧ meaning.value? = some value := by
  constructor
  · intro read
    obtain ⟨meaning, spells⟩ := numeral
    rw [spells.convert_eq] at read
    exact ⟨meaning, spells, Meaning.outcome_eq_ok.mp read⟩
  · rintro ⟨meaning, spells, held⟩
    rw [spells.convert_eq]
    exact Meaning.outcome_eq_ok.mpr held

theorem convert_eq_error {pos : Position} {e : LexError} (numeral : ∃ meaning, Spells chars meaning) :
    convert chars pos = .error e ↔
      e = .numberTooLarge (String.ofList chars) pos ∧ ∃ n, Spells chars (.integer n) ∧ 2 ^ 63 ≤ n := by
  constructor
  · intro failed
    obtain ⟨meaning, spells⟩ := numeral
    rw [spells.convert_eq] at failed
    obtain ⟨rfl, n, rfl, large⟩ := Meaning.outcome_eq_error.mp failed
    exact ⟨rfl, n, spells, large⟩
  · rintro ⟨rfl, n, spells, large⟩
    rw [spells.convert_eq]
    exact Meaning.outcome_eq_error.mpr ⟨rfl, n, rfl, large⟩

/-- What the followed characters come to. -/
theorem value_follow {cs : List Char} (followed : Number.follow .start cs = (chars, state))
    (pos : Position) :
    (∀ v, value state chars pos = .ok v ↔ ∃ meaning, Spells chars meaning ∧ meaning.value? = some v) ∧
    ∀ e, value state chars pos = .error e ↔
      e = .invalidNumber (String.ofList chars) pos ∧ (∀ meaning, ¬ Spells chars meaning) ∨
      e = .numberTooLarge (String.ofList chars) pos ∧ ∃ n, Spells chars (.integer n) ∧ 2 ^ 63 ≤ n := by
  have ran : run .start chars = some state := by
    have ran := run_follow .start cs
    rwa [followed] at ran
  rw [value_eq_convert ran]
  by_cases numeral : ∃ meaning, Spells chars meaning
  · have accepted := (exists_spells_iff ran).mp numeral
    rw [if_pos accepted]
    refine ⟨fun v => convert_eq_ok numeral, fun e => ?_⟩
    rw [convert_eq_error numeral]
    refine ⟨.inr, fun either => either.resolve_left ?_⟩
    rintro ⟨-, none⟩
    exact numeral.elim none
  · have refused : ¬ state.accepts = true := mt (exists_spells_iff ran).mpr numeral
    have none := not_exists.mp numeral
    rw [if_neg refused]
    simp [none, eq_comm]

/-- The characters are the longest that begin a numeral. -/
structure Longest (front cs : List Char) : Prop where
  here : front <+: cs
  begins : Begins front
  longest : ∀ other, other <+: cs → Begins other → other.length ≤ front.length

theorem follow_isLongest (cs : List Char) : Longest (Number.follow .start cs).1 cs where
  here := by
    obtain ⟨rest, split, -⟩ := follow_respelled .start cs
    exact ⟨rest, split.symm⟩
  begins := begins_iff.mpr (by rw [run_follow]; rfl)
  longest other here begins := follow_longest here (begins_iff.mp begins)

end Number

namespace Lexer

variable {s : Lexer} {d : Char} {later : List Char}

theorem literal?_number {cs : List Char} (digit : d.isDigit = true)
    (starts : cs = d :: later ∨ cs = '.' :: d :: later) (pos : Position) :
    literal? pos cs = Number.read? pos cs ∧ Number.starts cs = true := by
  have plain : StringLiteral.isPrefixLetter d = false ∧ d ≠ '\'' ∧ d ≠ '"' := by
    refine ⟨?_, ?_, ?_⟩
    · rw [StringLiteral.isPrefixLetter, ← Bool.not_eq_true, List.contains_iff_mem]
      intro member
      have letters : ['r', 'R', 'b', 'B', 'u', 'U', 'f', 'F'].all (!·.isDigit) = true := by decide
      have other := List.all_eq_true.mp letters d member
      rw [digit] at other
      cases other
    all_goals
      rintro rfl
      cases digit
  have noString : StringLiteral.read? pos cs = none := by
    apply StringLiteral.read?_of_head
    rcases starts with rfl | rfl
    · cases later <;> simp [plain]
    · have point : StringLiteral.isPrefixLetter '.' = false := by decide
      simp [point]
  have noName : Name.read? pos cs = none := by
    rcases starts with rfl | rfl
    · exact Name.read?_eq_none.mpr (startsName_of_isDigit digit)
    · exact Name.read?_eq_none.mpr (by decide)
  rw [literal?, noString, noName]
  refine ⟨rfl, ?_⟩
  rcases starts with rfl | rfl
  · exact Number.starts_of_isDigit digit later
  · exact digit

theorem take_number_eq_ok {t : Lexer} {count : Nat} {outcome : Except LexError Value} :
    s.take ⟨count, outcome.map .number⟩ = .ok () t ↔ ∃ value, outcome = .ok value ∧
      t = { s with cursor := s.cursor.advance count }.queue [
        { kind := .number value, text := String.ofList (s.cursor.rest.take count), pos := s.cursor.position }] := by
  cases outcome <;> simp [take, Except.map, eq_comm]

theorem take_number_eq_error {t : Lexer} {count : Nat} {outcome : Except LexError Value} {e : LexError} :
    s.take ⟨count, outcome.map .number⟩ = .error e t ↔
      outcome = .error e ∧ t = { s with cursor := s.cursor.advance count } := by
  cases outcome <;> simp [take, Except.map, eq_comm]

/-- A number starts here: the lexer takes the longest beginning of a numeral, and either hands out the value
of the numeral that it is or says what is wrong with it. -/
theorem readToken_number (c : Char) (digit : d.isDigit = true)
    (starts : s.cursor.rest = d :: later ∨ s.cursor.rest = '.' :: d :: later) :
    ∃ front, Number.Longest front s.cursor.rest ∧
      front = (Number.follow .start s.cursor.rest).1 ∧
      (∀ t, s.readToken c = .ok () t ↔ ∃ meaning value, Number.Spells front meaning ∧
        meaning.value? = some value ∧ t = { s with cursor := s.cursor.advance front.length }.queue
          [{ kind := .number value, text := String.ofList front, pos := s.cursor.position }]) ∧
      ∀ e t, s.readToken c = .error e t ↔ t = { s with cursor := s.cursor.advance front.length } ∧
        (e = .invalidNumber (String.ofList front) s.cursor.position ∧
            (∀ meaning, ¬ Number.Spells front meaning) ∨
          e = .numberTooLarge (String.ofList front) s.cursor.position ∧
            ∃ n, Number.Spells front (.integer n) ∧ 2 ^ 63 ≤ n) := by
  obtain ⟨noOther, number⟩ := literal?_number digit starts s.cursor.position
  have longest := Number.follow_isLongest s.cursor.rest
  generalize followed : Number.follow .start s.cursor.rest = reached at longest ⊢
  obtain ⟨front, state⟩ := reached
  have read : literal? s.cursor.position s.cursor.rest =
      some ⟨front.length, (Number.value state front s.cursor.position).map .number⟩ := by
    rw [noOther, Number.read?, if_pos number, followed]
  have text : s.cursor.rest.take front.length = front :=
    (List.prefix_iff_eq_take.mp longest.here).symm
  obtain ⟨succeeds, fails⟩ := Number.value_follow followed s.cursor.position
  rw [readToken_literal read]
  refine ⟨front, longest, rfl, fun t => ?_, fun e t => ?_⟩
  · rw [take_number_eq_ok, text]
    constructor
    · rintro ⟨value, comes, rfl⟩
      obtain ⟨meaning, spells, held⟩ := (succeeds value).mp comes
      exact ⟨meaning, value, spells, held, rfl⟩
    · rintro ⟨meaning, value, spells, held, rfl⟩
      exact ⟨value, (succeeds value).mpr ⟨meaning, spells, held⟩, rfl⟩
  · rw [take_number_eq_error, fails, and_comm]

theorem readToken_number_hexadecimal : ∃ s t : Lexer, s.cursor.rest = "0x1F+2\n".toList ∧
    s.readToken '0' = .ok () t ∧ t.cursor.rest = "+2\n".toList ∧
      t.pending = [{ kind := .number (.int 31), text := "0x1F", pos := ⟨1, 1⟩ }] := by
  let s : Lexer := { cursor := { lines := ["0x1F+2\n".toList] }, tabSize := 8 }
  have rest : s.cursor.rest = '0' :: "x1F+2\n".toList := rfl
  have marks : Number.Radix.ofMark? 'x' = some .hexadecimal := rfl
  have spells : Number.Spells ['0', 'x', '1', 'F'] (.integer 31) :=
    .marked marks (List.cons_ne_nil _ _) (List.all_eq_true.mp rfl)
  obtain ⟨front, -, rfl, reads, -⟩ := readToken_number '0' (by decide) (.inl rest)
  exact ⟨s, _, rfl, (reads _).mpr ⟨.integer 31, .int 31, spells, rfl, rfl⟩, rfl, rfl⟩

end Lexer

end Offside
