import Offside.Proofs.Lexing.Asked
import Offside.Proofs.Lexing.Numbers

/-!
# Where lexical errors point

`LexError.Located` says that an error points at what is wrong. Two errors of literals whose escapes are
decoded do not, `LexError.Astray`: a character that is not ASCII right after a backslash, and a backslash at
the end of the line. `answers_located` shows that they are the only ones.
-/

namespace Offside

/-- The position with so many lines before it, and so many characters on its own. -/
def Position.ofIndices (row column : Nat) : Position := ⟨coordinate row, coordinate column⟩

theorem Position.right_ofIndices (row column count : Nat) :
    (ofIndices row column).right count = ofIndices row (column + count) := by
  simp only [right, ofIndices, coordinate, Position.mk.injEq, true_and]
  omega

def IsLineEnd (later : List Char) : Prop := ∀ c ∈ later.head?, c = '\n'

theorem isLineEnd_nil : IsLineEnd [] := fun _ head => absurd head (by simp)

theorem isLineEnd_feed (later : List Char) : IsLineEnd ('\n' :: later) := fun _ head =>
  (Option.some.inj head).symm

namespace Reading

theorem map_eq_error {f : α → β} {r : Reading α} {taken : Nat} {e : LexError} :
    r.map f = .error taken e ↔ r = .error taken e := by
  obtain ⟨count, outcome⟩ := r
  cases outcome <;> simp [Reading.map, Reading.error, Except.map]

end Reading

namespace StringLiteral

/-- Characters inside a body: a quote stands only behind a backslash. -/
inductive Within (quote : Char) : List Char → Prop
  | nil : Within quote []
  | plain {c cs} : c ≠ quote → c ≠ '\\' → c ≠ '\n' → Within quote cs → Within quote (c :: cs)
  | escaped {c cs} : c ≠ '\n' → Within quote cs → Within quote ('\\' :: c :: cs)

/-- The characters of a literal up to a place inside its body. -/
inductive Opens (form : Form) (quote : Char) : List Char → Prop
  | intro {letters inside} : Form.ofLetters? (letters.map Char.toLower) = some form →
      quote = '\'' ∨ quote = '"' → Within quote inside → Opens form quote (letters ++ quote :: inside)

end StringLiteral

namespace LexError

open StringLiteral

/-- The errors about a whole line, which have no column. -/
def isOfLine : LexError → Bool
  | .inconsistentDedent .. | .unclosedBracket .. => true
  | _ => false

/-- The error points at what is wrong with the characters, the first of which stands at the place. -/
inductive Located (row start : Nat) : List Char → LexError → Prop
  | character {c later} : Located row start (c :: later) (.invalidCharacter c (.ofIndices row start))
  | bracket {expected found later} :
      Located row start (found :: later) (.mismatchedBracket expected found (.ofIndices row start))
  | noNumber {text later} : text ≠ [] → Located row start (text ++ later)
      (.invalidNumber (String.ofList text) (.ofIndices row start))
  | tooLarge {text later} : text ≠ [] → Located row start (text ++ later)
      (.numberTooLarge (String.ofList text) (.ofIndices row start))
  | keyword {word later} : word ≠ [] → Located row start (word ++ later)
      (.unsupportedKeyword (String.ofList word) (.ofIndices row start))
  | formatted {letters quote later} : (∀ c ∈ letters, isPrefixLetter c = true) →
      quote = '\'' ∨ quote = '"' → Located row start (letters ++ quote :: later)
        (.unsupportedPrefix (String.ofList letters) (.ofIndices row start))
  | tripled {form quote letters later} : Opens form quote (letters ++ [quote]) →
      Located row start (letters ++ quote :: quote :: quote :: later)
        (.tripleQuotedString (.ofIndices row start))
  | unterminated {form quote front later} : Opens form quote front → IsLineEnd later →
      Located row start (front ++ later) (.unterminatedString (.ofIndices row start))
  | unterminatedRaw {form quote front later} : Opens form quote front → form.raw = true → IsLineEnd later →
      Located row start (front ++ '\\' :: later) (.unterminatedString (.ofIndices row start))
  | escape {form quote front mark length digits later} : Opens form quote front → form.raw = false →
      hexLength? form.bytes mark = some length → (∀ c ∈ digits, Decimal.isDigit 16 c = true) →
      Located row start (front ++ '\\' :: mark :: (digits ++ later))
        (.invalidEscape (String.ofList ('\\' :: mark :: digits)) (.ofIndices row (start + front.length)))
  | foreign {form quote front c later} : Opens form quote front → form.bytes = true → isAscii c = false →
      Located row start (front ++ c :: later)
        (.nonAsciiBytes (.ofIndices row (start + front.length)))
  | foreignRaw {form quote front c later} : Opens form quote front → form.raw = true → form.bytes = true →
      isAscii c = false → Located row start (front ++ '\\' :: c :: later)
        (.nonAsciiBytes (.ofIndices row (start + front.length + 1)))

/-- The error points past the character after a backslash, or at a backslash that ends the line instead of
the literal's first character. -/
inductive Astray (row start : Nat) : List Char → LexError → Prop
  | foreign {form quote front c later} : Opens form quote front → form.raw = false → form.bytes = true →
      isAscii c = false → Astray row start (front ++ '\\' :: c :: later)
        (.nonAsciiBytes (.ofIndices row (start + front.length + 2)))
  | unterminated {form quote front later} : Opens form quote front → form.raw = false → IsLineEnd later →
      Astray row start (front ++ '\\' :: later)
        (.unterminatedString (.ofIndices row (start + front.length)))

end LexError

open LexError (Located Astray)

/-! ### Literals -/

namespace StringLiteral

variable {form : Form} {quote : Char} {front more : List Char}

theorem Within.append (first : Within quote front) (second : Within quote more) :
    Within quote (front ++ more) := by
  induction first with
  | nil => exact second
  | plain other plain line _ ih => exact .plain other plain line ih
  | escaped line _ ih => exact .escaped line ih

theorem within_of_isAlphanum (marks : quote = '\'' ∨ quote = '"')
    (all : ∀ c ∈ more, c.isAlphanum = true) : Within quote more := by
  induction more with
  | nil => exact .nil
  | cons c more ih =>
    have letter : ∀ d : Char, d.isAlphanum = false → c ≠ d := by
      rintro _ other rfl
      rw [all c List.mem_cons_self] at other
      cases other
    refine .plain (letter quote ?_) (letter '\\' (by decide)) (letter '\n' (by decide))
      (ih fun d member => all d (List.mem_cons_of_mem _ member))
    rcases marks with rfl | rfl <;> decide

theorem isAlphanum_of_isDigit {radix : Nat} {c : Char} (digit : Decimal.isDigit radix c = true) :
    c.isAlphanum = true :=
  ((Bool.and_eq_true _ _).mp digit).1

theorem escape_eq_error {bytes : Bool} {pos : Position} {cs : List Char} {count : Nat} {e : LexError}
    (read : escape bytes pos cs = .error count e) :
    IsLineEnd cs ∧ e = .unterminatedString pos ∨
    (∃ c later, cs = c :: later ∧ bytes = true ∧ isAscii c = false ∧ e = .nonAsciiBytes (pos.right 2)) ∨
    ∃ mark length digits later, cs = mark :: (digits ++ later) ∧ hexLength? bytes mark = some length ∧
      (∀ c ∈ digits, Decimal.isDigit 16 c = true) ∧
      e = .invalidEscape (String.ofList ('\\' :: mark :: digits)) pos := by
  unfold escape at read
  split at read
  · cases read
    exact .inl ⟨isLineEnd_nil, rfl⟩
  · cases read
    exact .inl ⟨isLineEnd_feed _, rfl⟩
  · next c rest _ =>
    split at read
    · cases read
    · split at read
      · cases read
      · split at read
        · next length known =>
          dsimp only at read
          split at read
          · cases read
          · cases read
            obtain ⟨later, split, -⟩ := takeWhile_take_respelled (Decimal.isDigit 16) length rest
            exact .inr (.inr ⟨c, length, _, later, congrArg (c :: ·) split, known,
              fun d member => List.mem_takeWhile_imp member, rfl⟩)
        · split at read
          · next foreign =>
            cases read
            obtain ⟨isBytes, other⟩ := (Bool.and_eq_true _ _).mp foreign
            exact .inr (.inl ⟨c, rest, rfl, isBytes, by simpa using other, rfl⟩)
          · cases read

theorem isAscii_of_isDigit {c : Char} (digit : Decimal.isDigit 16 c = true) : isAscii c = true := by
  have range := Number.toNat_of_isDigit digit
  exact decide_eq_true (by omega)

theorem isDigit_hex {c : Char} (digit : Decimal.isDigit 8 c = true) : Decimal.isDigit 16 c = true := by
  obtain ⟨letter, small⟩ := (Bool.and_eq_true _ _).mp digit
  have small := of_decide_eq_true small
  exact (Bool.and_eq_true _ _).mpr ⟨letter, decide_eq_true (by omega)⟩

/-- An escape is one character and the digits that belong to it. -/
theorem escape_chars {bytes : Bool} {pos : Position} {cs decoded : List Char} {count : Nat}
    (read : escape bytes pos cs = .ok count decoded) :
    ∃ c digits later, cs = c :: (digits ++ later) ∧ (c :: digits).length = count ∧ c ≠ '\n' ∧
      (∀ d ∈ digits, Decimal.isDigit 16 d = true) ∧ (bytes = true → isAscii c = true) := by
  unfold escape at read
  split at read
  · cases read
  · cases read
  · next c rest notFeed =>
    split at read
    · next known =>
      cases read
      refine ⟨c, [], rest, rfl, rfl, notFeed, List.forall_mem_nil _, fun _ => ?_⟩
      unfold simpleEscape? at known
      split at known <;> first | rfl | cases known
    · split at read
      · next octal =>
        cases read
        obtain ⟨later, split, -⟩ := takeWhile_take_respelled (Decimal.isDigit 8) 2 rest
        exact ⟨c, _, later, congrArg (c :: ·) split, rfl, notFeed,
          fun d member => isDigit_hex (List.mem_takeWhile_imp member),
          fun _ => isAscii_of_isDigit (isDigit_hex octal)⟩
      · split at read
        · next length known =>
          dsimp only at read
          split at read
          · next whole =>
            cases read
            obtain ⟨later, split, -⟩ := takeWhile_take_respelled (Decimal.isDigit 16) length rest
            refine ⟨c, _, later, congrArg (c :: ·) split, ?_, notFeed,
              fun d member => List.mem_takeWhile_imp member, fun _ => ?_⟩
            · rw [List.length_cons, whole.1, Nat.add_comm]
            · unfold hexLength? at known
              split at known <;> first | rfl | cases known
          · cases read
        · split at read
          · cases read
          · next ascii =>
            cases read
            exact ⟨c, [], rest, rfl, rfl, notFeed, List.forall_mem_nil _, by simpa using ascii⟩

theorem within_of_escape {c : Char} {digits : List Char} (marks : quote = '\'' ∨ quote = '"')
    (line : c ≠ '\n') (all : ∀ d ∈ digits, Decimal.isDigit 16 d = true) :
    Within quote ('\\' :: c :: digits) :=
  .escaped line (within_of_isAlphanum marks fun d member => isAlphanum_of_isDigit (all d member))

theorem escape_within {bytes : Bool} {pos : Position} {cs decoded : List Char} {count : Nat}
    (read : escape bytes pos cs = .ok count decoded) (marks : quote = '\'' ∨ quote = '"') :
    ∃ chars later, cs = chars ++ later ∧ chars.length = count ∧ Within quote ('\\' :: chars) := by
  obtain ⟨c, digits, later, split, length, line, all, -⟩ := escape_chars read
  exact ⟨c :: digits, later, split, length, within_of_escape marks line all⟩

theorem Opens.marks (opens : Opens form quote front) : quote = '\'' ∨ quote = '"' := by
  cases opens with
  | intro _ marks => exact marks

theorem Opens.append (opens : Opens form quote front) (within : Within quote more) :
    Opens form quote (front ++ more) := by
  cases opens with
  | intro known marks inside =>
    rw [List.append_assoc, List.cons_append]
    exact .intro known marks (inside.append within)

/-- An error of a body, by how far the body was read. -/
theorem body_located {row start taken count : Nat} {cs : List Char} {e : LexError}
    (opens : Opens form quote front) (length : front.length = taken)
    (read : body form quote (.ofIndices row start) taken cs = .error count e) :
    Located row start (front ++ cs) e ∨ Astray row start (front ++ cs) e := by
  generalize place : Position.ofIndices row start = pos at read
  -- What was read goes on opening the literal; an escape is passed as a whole.
  fun_induction body form quote pos taken cs generalizing front with
  | case1 =>
    subst place
    cases read
    exact .inl (.unterminated opens isLineEnd_nil)
  | case2 =>
    subst place
    cases read
    exact .inl (.unterminated opens (isLineEnd_feed _))
  | case3 => cases read
  | case4 =>
    subst place
    cases read
    exact .inl (.unterminatedRaw opens ‹form.raw = true› (isLineEnd_feed _))
  | case5 taken raw next rest notFeed foreign =>
    subst place length
    cases read
    obtain ⟨isBytes, other⟩ := (Bool.and_eq_true _ _).mp foreign
    rw [Position.right_ofIndices]
    exact .inl (.foreignRaw opens raw isBytes (by simpa using other))
  | case6 taken raw next rest notFeed ascii line other ih =>
    subst length
    have within : Within quote ['\\', next] := .escaped notFeed .nil
    have located := ih (opens.append within) List.length_append (Reading.map_eq_error.mp read)
    rwa [List.append_assoc] at located
  | case7 =>
    subst place
    cases read
    exact .inl (.unterminatedRaw opens ‹form.raw = true› isLineEnd_nil)
  | case8 taken rest cooked count e readEscape =>
    subst place length
    cases read
    have cooked : form.raw = false := by simpa using cooked
    rw [Position.right_ofIndices] at readEscape
    rcases escape_eq_error readEscape with ⟨ends, rfl⟩ | ⟨c, later, rfl, isBytes, foreign, rfl⟩ |
      ⟨mark, length, digits, later, rfl, known, all, rfl⟩
    · exact .inr (.unterminated opens cooked ends)
    · rw [Position.right_ofIndices]
      exact .inr (.foreign opens cooked isBytes foreign)
    · exact .inl (.escape opens cooked known all)
  | case9 taken rest cooked count plain readEscape line other ih =>
    subst length
    obtain ⟨chars, later, rfl, rfl, within⟩ := escape_within readEscape opens.marks
    rw [List.drop_left] at read ih
    have located := ih (opens.append within) (by simp; omega) (Reading.map_eq_error.mp read)
    rwa [List.append_assoc] at located
  | case10 taken c rest line other plain foreign =>
    subst place length
    cases read
    obtain ⟨isBytes, other⟩ := (Bool.and_eq_true _ _).mp foreign
    rw [Position.right_ofIndices]
    exact .inl (.foreign opens isBytes (by simpa using other))
  | case11 taken c rest line other plain ascii ih =>
    subst length
    have within : Within quote [c] := .plain other plain line .nil
    have located := ih (opens.append within) List.length_append (Reading.map_eq_error.mp read)
    rwa [List.append_assoc] at located

theorem read?_located {row start count : Nat} {cs : List Char} {e : LexError}
    (read : read? (.ofIndices row start) cs = some (.error count e)) :
    Located row start cs e ∨ Astray row start cs e := by
  obtain ⟨after, split, -⟩ := takeWhile_take_respelled isPrefixLetter 2 cs
  have all : ∀ c ∈ (cs.take 2).takeWhile isPrefixLetter, isPrefixLetter c = true := fun c member =>
    List.mem_takeWhile_imp member
  unfold read? at read
  dsimp only at read
  generalize (cs.take 2).takeWhile isPrefixLetter = letters at read split all
  subst split
  rw [List.drop_left] at read
  split at read
  · next quote rest =>
    split at read
    · cases read
    · next isQuote =>
      have marks : quote = '\'' ∨ quote = '"' := by
        by_contra neither
        exact isQuote (not_or.mp neither)
      split at read
      · cases read
        exact .inl (.formatted all marks)
      · obtain ⟨form, known, read⟩ := Option.map_eq_some_iff.mp read
        have opens : Opens form quote (letters ++ [quote]) := .intro known marks .nil
        split at read
        · next triple =>
          cases read
          obtain ⟨later, rfl⟩ : ∃ later, rest = quote :: quote :: later := by
            have split := List.take_append_drop 2 rest
            rw [triple] at split
            exact ⟨_, split.symm⟩
          exact .inl (.tripled opens)
        · have located := body_located opens (by simp) (Reading.map_eq_error.mp read)
          rwa [List.append_assoc] at located
  · cases read

end StringLiteral

/-! ### Words and numbers -/

theorem Name.read?_located {row start count : Nat} {cs : List Char} {e : LexError}
    (read : read? (.ofIndices row start) cs = some (.error count e)) : Located row start cs e := by
  unfold read? at read
  split at read
  · cases read
  · next c rest =>
    split at read
    · next starts =>
      have split := List.takeWhile_append_dropWhile (p := Text.continuesName) (l := c :: rest)
      have nonempty : (c :: rest).takeWhile Text.continuesName ≠ [] := by
        rw [List.takeWhile_cons_of_pos (continuesName_of_starts starts)]
        exact List.cons_ne_nil _ _
      dsimp only at read
      split at read
      · cases read
        have located := @Located.keyword row start _ (List.dropWhile Text.continuesName (c :: rest)) nonempty
        rwa [split] at located
      · cases read
    · cases read

theorem Number.read?_located {row start count : Nat} {cs : List Char} {e : LexError}
    (read : read? (.ofIndices row start) cs = some (.error count e)) : Located row start cs e := by
  unfold read? at read
  split at read
  · next number =>
    obtain ⟨c, cs, next, rfl, more⟩ := step_start number
    obtain ⟨rest, split⟩ := (follow_isLongest (c :: cs)).here
    have nonempty : (Number.follow .start (c :: cs)).1 ≠ [] := by
      rw [follow_step more]
      exact List.cons_ne_nil _ _
    dsimp only at read
    generalize followed : Number.follow .start (c :: cs) = reached at read split nonempty
    obtain ⟨chars, state⟩ := reached
    have mapped : Reading.map Token.Kind.number ⟨_, value state chars (.ofIndices row start)⟩ =
        .error count e := Option.some.inj read
    have failed : value state chars (.ofIndices row start) = .error e :=
      congrArg Reading.outcome (Reading.map_eq_error.mp mapped)
    rw [← split]
    rcases ((value_follow followed _).2 e).mp failed with ⟨rfl, -⟩ | ⟨rfl, -⟩
    · exact .noNumber nonempty
    · exact .tooLarge nonempty
  · cases read

/-! ### Moves -/

namespace Lexer

variable {s t : Lexer} {handed before : List Token} {lines : List (List Char)} {e : LexError}

theorem literal?_located {row start count : Nat} {cs : List Char}
    (read : literal? (.ofIndices row start) cs = some (.error count e)) :
    Located row start cs e ∨ Astray row start cs e := by
  unfold literal? at read
  rcases Option.or_eq_some_iff.mp read with read | ⟨-, read⟩
  · rcases Option.or_eq_some_iff.mp read with read | ⟨-, read⟩
    · exact StringLiteral.read?_located read
    · exact .inl (Name.read?_located read)
  · exact .inl (Number.read?_located read)

theorem bracket_eq_error {mark : Punct} (failed : s.bracket mark = .error e) :
    ∃ expected found, mark.spelling.toList = [found] ∧
      e = .mismatchedBracket expected found s.cursor.position := by
  have spelling : ∀ {found : Char}, mark.closes? = some found → mark.spelling.toList = [found] := by
    intro found closes
    cases mark <;> cases closes <;> rfl
  unfold bracket at failed
  split at failed
  · cases failed
  · cases failed
  · next found _ closes =>
    dsimp only at failed
    split at failed
    · cases failed
    · cases failed
      exact ⟨_, found, spelling closes, rfl⟩

/-- A failing move points into the token at which the lexer stands. -/
theorem Failure.located (failure : Failure s e handed t) : e.isOfLine = true ∨ s.cursor.lines ≠ [] ∧
    (Located s.cursor.row s.unspaced.cursor.column s.ahead e ∨
      Astray s.cursor.row s.unspaced.cursor.column s.ahead e) := by
  cases failure with
  | misfit | unclosed => exact .inl rfl
  | backslash _ more found =>
    rw [found]
    exact .inr ⟨more, .inl .character⟩
  | literal _ more _ read => exact .inr ⟨more, literal?_located read⟩
  | unknown _ more _ found =>
    rw [found]
    exact .inr ⟨more, .inl .character⟩
  | bracket _ more _ _ known wrong =>
    obtain ⟨expected, found, spelling, rfl⟩ := bracket_eq_error wrong
    obtain ⟨later, split⟩ := Punct.longestMatch?_prefix known
    rw [← split, spelling]
    exact .inr ⟨more, .inl .bracket⟩

/-- A call that fails comes to the move that fails without a token. -/
theorem Calls.failing {count : Nat} (calls : s.Calls count (.error e) t) (held : s.Held lines before) :
    s.pending = [] ∧ ∃ u, Run s [] u ∧ AtRow lines u.cursor ∧ u.step = .error e t := by
  generalize answer : Except.error e = failed at calls
  induction calls with
  | ready | finished => cases answer
  | failed pending _ stepped =>
    cases answer
    exact ⟨pending, _, .refl _, held.here, stepped⟩
  | moved pending unfinished moved _ ih =>
    obtain ⟨none, u, run, here, stepped⟩ := ih (held.moved pending unfinished moved) answer
    have steady := (held.idle pending unfinished).1
    refine ⟨pending, u, ?_, here, stepped⟩
    rcases turn_of_move (move_of_step moved) steady with ⟨tokens, v, rfl, turn⟩ | ⟨-, rfl⟩
    · have ready : v.pending ++ tokens = [] := none
      obtain rfl := (List.append_eq_nil_iff.mp ready).2
      rw [queue_nil] at run
      exact .step turn run
    · exact absurd (List.append_eq_nil_iff.mp none).2 (List.append_ne_nil_of_right_ne_nil _ nofun)

end Lexer

/-- Every error of a lexer that is asked again and again points at what is wrong, or it goes astray. -/
theorem answers_located {source : String} {tabSize : UInt64} {count : Nat} {e : LexError}
    (failed : (Lexer.ofText source tabSize).answers.get count = .error e) :
    ∃ s, Lexer.Run ((Lexer.ofText source tabSize).asked count) [] s ∧
      s.step = .error e ((Lexer.ofText source tabSize).asked (count + 1)) ∧
      (e.isOfLine = true ∨ ∃ line, (Source.lines source)[s.cursor.row]? = some line ∧
        (Located s.cursor.row s.unspaced.cursor.column (line.drop s.unspaced.cursor.column) e ∨
          Astray s.cursor.row s.unspaced.cursor.column (line.drop s.unspaced.cursor.column) e)) := by
  rw [Lexer.get_answers] at failed
  obtain ⟨moves, -, calls⟩ := ((Lexer.ofText source tabSize).asked count).calls_ask
  rw [failed] at calls
  obtain ⟨-, s, run, here, stepped⟩ := calls.failing (Lexer.held_asked source tabSize count)
  obtain ⟨handed, t, -, failure⟩ := Lexer.failure_of_step stepped
  refine ⟨s, run, stepped, ?_⟩
  rcases failure.located with ofLine | ⟨more, located⟩
  · exact .inl ofLine
  · obtain ⟨line, later, split⟩ := List.exists_cons_of_ne_nil more
    have ahead : s.ahead = line.drop s.unspaced.cursor.column := by
      have lines : s.unspaced.cursor.lines = line :: later := split
      rw [← Lexer.rest_unspaced, Cursor.rest, lines, List.headD_cons]
    rw [ahead] at located
    exact .inr ⟨line, here.head split, located⟩

theorem answers_located_number :
    (Lexer.ofText "x = 007" 8).answers.get 2 = .error (.invalidNumber "007" ⟨1, 5⟩) ∧
      ∃ (s : Lexer) (line : List Char), (Source.lines "x = 007")[s.cursor.row]? = some line ∧
        (Located s.cursor.row s.unspaced.cursor.column (line.drop s.unspaced.cursor.column)
            (.invalidNumber "007" ⟨1, 5⟩) ∨
          Astray s.cursor.row s.unspaced.cursor.column (line.drop s.unspaced.cursor.column)
            (.invalidNumber "007" ⟨1, 5⟩)) := by
  have failed : (Lexer.ofText "x = 007" 8).answers.get 2 = .error (.invalidNumber "007" ⟨1, 5⟩) := by
    rw [Lexer.get_answers]
    decide +kernel
  obtain ⟨s, -, -, ofLine | ⟨line, found, located⟩⟩ := answers_located failed
  · cases ofLine
  · exact ⟨failed, s, line, found, located⟩

/-- A located error about a character that is not ASCII points at one. -/
theorem LexError.Located.foreign_stands {row start : Nat} {chars : List Char} {pos : Position}
    (located : Located row start (chars.drop start) (.nonAsciiBytes pos)) :
    ∃ column c, pos = .ofIndices row column ∧ chars[column]? = some c ∧
      StringLiteral.isAscii c = false := by
  have stands : ∀ {front later : List Char} {c : Char}, chars.drop start = front ++ c :: later →
      chars[start + front.length]? = some c := by
    intro front later c split
    rw [← List.getElem?_drop, split, List.getElem?_append_right (Nat.le_refl _), Nat.sub_self]
    rfl
  generalize ahead : chars.drop start = cs at located
  generalize same : LexError.nonAsciiBytes pos = e at located
  cases located with
  | foreign _ _ foreign => exact ⟨_, _, LexError.nonAsciiBytes.inj same, stands ahead, foreign⟩
  | foreignRaw _ _ _ foreign =>
    rw [List.append_cons] at ahead
    have place := stands ahead
    rw [List.length_append, ← Nat.add_assoc] at place
    exact ⟨_, _, LexError.nonAsciiBytes.inj same, place, foreign⟩
  | _ => cases same

/-- A located error about a literal without an end points at one that has a quote. -/
theorem LexError.Located.quote_stands {row start : Nat} {chars : List Char} {pos : Position}
    (located : Located row start chars (.unterminatedString pos)) :
    pos = .ofIndices row start ∧ ('\'' ∈ chars ∨ '"' ∈ chars) := by
  have quoted : ∀ {form quote front later}, StringLiteral.Opens form quote front →
      '\'' ∈ front ++ later ∨ '"' ∈ front ++ later := by
    rintro form quote _ later ⟨-, marks, -⟩
    rcases marks with rfl | rfl
    · exact .inl (by simp)
    · exact .inr (by simp)
  generalize same : LexError.unterminatedString pos = e at located
  cases located with
  | unterminated opens | unterminatedRaw opens =>
    exact ⟨LexError.unterminatedString.inj same, quoted opens⟩
  | _ => cases same

theorem Position.indices_of_ofIndices {row column row' column' : Nat}
    (small : row + 1 < limit ∧ column + 1 < limit)
    (same : ⟨row + 1, column + 1⟩ = ofIndices row' column') : row' = row ∧ column' = column := by
  obtain ⟨line, column⟩ := Position.mk.inj same
  unfold coordinate at line column
  omega

/-- The column is one too far where the character after a backslash is wrong, and that of the backslash
where it ends the line. -/
theorem answers_astray :
    ((Lexer.ofText "b'\\é'" 8).answers.get 0 = .error (.nonAsciiBytes ⟨1, 5⟩) ∧
      ∀ row start chars, (Source.lines "b'\\é'")[row]? = some chars →
        ¬Located row start (chars.drop start) (.nonAsciiBytes ⟨1, 5⟩)) ∧
    (Lexer.ofText "'abc\\" 8).answers.get 0 = .error (.unterminatedString ⟨1, 5⟩) ∧
      ∀ row start chars, (Source.lines "'abc\\")[row]? = some chars →
        ¬Located row start (chars.drop start) (.unterminatedString ⟨1, 5⟩) := by
  have small : 0 + 1 < Position.limit ∧ 4 + 1 < Position.limit := by decide
  refine ⟨⟨?_, ?_⟩, ?_, ?_⟩
  · rw [Lexer.get_answers]
    decide +kernel
  · intro row start chars found located
    obtain ⟨column, c, place, here, foreign⟩ := located.foreign_stands
    obtain ⟨rfl, rfl⟩ := Position.indices_of_ofIndices small place
    -- The closing quote stands there.
    have first : (Source.lines "b'\\é'")[0]? = some ['b', '\'', '\\', 'é', '\'', '\n'] := by
      decide +kernel
    cases found.symm.trans first
    cases here
    cases foreign
  · rw [Lexer.get_answers]
    decide +kernel
  · intro row start chars found located
    obtain ⟨place, quoted⟩ := located.quote_stands
    obtain ⟨rfl, rfl⟩ := Position.indices_of_ofIndices small place
    have first : (Source.lines "'abc\\")[0]? = some ['\'', 'a', 'b', 'c', '\\', '\n'] := by decide +kernel
    cases found.symm.trans first
    revert quoted
    decide

end Offside
