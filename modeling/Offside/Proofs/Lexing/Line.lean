import Offside.Proofs.Lexing.Spelling

/-!
# Printed lines

A line of spelled tokens with a space where it takes one to tell them apart (`Lexer.Typed`) is read as these
tokens, a NEWLINE and the end marker: `Lexer.answers_of_line` for every list of tokens in which the
parentheses are nested.
-/

namespace Offside

/-- The number of open parentheses after one more token. Other brackets do not occur. -/
def nest (opened : Nat) : Token.Kind → Option Nat
  | .punct .leftParen => some (opened + 1)
  | .punct .rightParen => if opened = 0 then none else some (opened - 1)
  | .punct mark => if mark.opens?.isNone && mark.closes?.isNone then some opened else none
  | _ => some opened

/-- The characters of tokens, each after a space. -/
def spaced (kinds : List Token.Kind) : List Char :=
  kinds.flatMap fun kind => ' ' :: kind.spelling.toList

theorem startsBlank_spaced (kinds : List Token.Kind) : StartsBlank (spaced kinds ++ ['\n']) := by
  cases kinds with
  | nil => exact ⟨'\n', [], rfl, .inr rfl⟩
  | cons kind kinds => exact ⟨' ', _, rfl, .inl rfl⟩

/-- A character that a token of an expression may start with. -/
def StartsSpelling (c : Char) : Prop :=
  Indentation.isSpace c = false ∧ c ≠ '\n' ∧ c ≠ '#' ∧ c ≠ '\\'

namespace Lexer

theorem startsSpelling_of {c : Char} {p : Char → Bool} (h : p c = true)
    (none : [' ', '\t', '\x0c', '\n', '#', '\\'].all (fun d => !p d) = true) :
    StartsSpelling c := by
  have other : ∀ d ∈ [' ', '\t', '\x0c', '\n', '#', '\\'], c ≠ d := by
    rintro d member rfl
    have fails := List.all_eq_true.mp none c member
    rw [h] at fails
    cases fails
  simp only [List.forall_mem_cons] at other
  obtain ⟨space, tab, feed, newline, comment, join, -⟩ := other
  exact ⟨by simp [Indentation.isSpace, space, tab, feed], newline, comment, join⟩

theorem head_spelling {kind : Token.Kind} (printed : kind.isPrinted = true) :
    ∃ c rest, kind.spelling.toList = c :: rest ∧ StartsSpelling c := by
  cases kind with
  | identifier name =>
    simp only [Token.Kind.isPrinted, Name.isValid] at printed
    split at printed
    · cases printed
    · next c rest spelled =>
      simp only [Bool.and_eq_true] at printed
      exact ⟨c, rest, spelled, startsSpelling_of printed.1.1.1 (by decide)⟩
  | keyword word => cases word <;> exact ⟨_, _, rfl, by unfold StartsSpelling; decide⟩
  | number value =>
    simp only [Token.Kind.isPrinted, Bool.and_eq_true, decide_eq_true_eq] at printed
    cases value with
    | int n =>
      have spelled := toList_text_int (n := n) (by simpa [Value.isPlain] using printed.1)
      obtain ⟨c, rest, digits, digit⟩ := Number.exists_digit_toDigits n.toInt.toNat
      exact ⟨c, rest, spelled.trans digits, startsSpelling_of digit (by decide)⟩
    | _ => cases printed.2
  | str text =>
    have marks := StringLiteral.quoteFor_eq (text.toList.contains '\'') (text.toList.contains '"')
    refine ⟨_, _, String.toList_ofList, ?_⟩
    rcases marks with same | same <;> rw [same] <;> (unfold StartsSpelling; decide)
  | bytes data => exact ⟨'b', _, String.toList_ofList, by unfold StartsSpelling; decide⟩
  | punct mark => cases mark <;> exact ⟨_, _, rfl, by unfold StartsSpelling; decide⟩
  | _ => cases printed

/-- The characters start with a token of the kind, wherever they stand. -/
inductive ReadsAs (cs : List Char) : Token.Kind → Prop
  | literal {kind : Token.Kind} : (∀ mark, kind ≠ .punct mark) →
      (∀ pos, literal? pos cs = some (.ok kind.spelling.length kind)) → ReadsAs cs kind
  | punct {mark : Punct} : (∀ pos, literal? pos cs = none) → Punct.longestMatch? cs = some mark →
      ReadsAs cs (.punct mark)

theorem readsAs_spelling {kind : Token.Kind} {follow : List Char} (printed : kind.isPrinted = true)
    (blank : StartsBlank follow) : ReadsAs (kind.spelling.toList ++ follow) kind := by
  by_cases punct : ∃ mark, kind = .punct mark
  · obtain ⟨mark, rfl⟩ := punct
    exact .punct (fun _ => literal?_punct mark blank) (Punct.longestMatch?_spelling mark blank)
  · have other : ∀ mark, kind ≠ .punct mark := fun mark same => punct ⟨mark, same⟩
    exact .literal other fun _ => literal?_spelling printed other blank

/-- The text of tokens up to the end of their line, with a space between two of them where it takes one to
tell them apart. -/
inductive Typed : List Token.Kind → List Char → Prop
  | nil : Typed [] ['\n']
  | cons {kind : Token.Kind} {kinds : List Token.Kind} {follow rest : List Char} :
      kind.isPrinted = true → ReadsAs (kind.spelling.toList ++ follow) kind → Typed kinds follow →
      (rest = kind.spelling.toList ++ follow ∨ rest = ' ' :: (kind.spelling.toList ++ follow)) →
      Typed (kind :: kinds) rest

theorem typed_spaced {kinds : List Token.Kind} (printed : ∀ kind ∈ kinds, kind.isPrinted = true) :
    Typed kinds (spaced kinds ++ ['\n']) := by
  induction kinds with
  | nil => exact .nil
  | cons kind kinds ih =>
    obtain ⟨first, others⟩ := List.forall_mem_cons.mp printed
    refine .cons first (readsAs_spelling first (startsBlank_spaced kinds)) (ih others) (.inr ?_)
    simp [spaced]

/-! ### Along the line -/

/-- The lexer is at `rest` on the only line, with some parentheses open. -/
structure OnLine (s : Lexer) (rest : List Char) (opened : Nat) : Prop where
  inside : s.lineStart = false
  idle : s.pending = []
  unfinished : s.finished = false
  outside : s.levels = []
  line : ∃ line, s.cursor.lines = [line]
  rest : s.cursor.rest = rest
  count : s.brackets.length = opened
  round : ∀ bracket ∈ s.brackets, bracket.bracket = '('

variable {s : Lexer} {kind : Token.Kind} {rest follow : List Char} {opened opened' : Nat}

theorem OnLine.more (h : OnLine s rest opened) : s.cursor.lines ≠ [] := by
  obtain ⟨line, single⟩ := h.line
  rw [single]
  exact List.cons_ne_nil line []

theorem OnLine.starts (h : OnLine s rest opened) (printed : kind.isPrinted = true)
    (spelled : rest = kind.spelling.toList ++ follow ∨
      rest = ' ' :: (kind.spelling.toList ++ follow)) :
    s.ahead = kind.spelling.toList ++ follow ∧ StartsToken s.ahead := by
  obtain ⟨c, more, start, space, plain⟩ := head_spelling printed
  have ahead : s.ahead = kind.spelling.toList ++ follow := by
    rw [Lexer.ahead, h.rest]
    rcases spelled with rfl | rfl
    · rw [start, List.cons_append, List.dropWhile_cons, space]
      rfl
    · rw [List.dropWhile_cons, start, List.cons_append, List.dropWhile_cons, space]
      rfl
  exact ⟨ahead, c, more ++ follow, by rw [ahead, start, List.cons_append], plain⟩

theorem OnLine.passed (h : OnLine s rest opened) (ahead : s.ahead = kind.spelling.toList ++ follow)
    {brackets : List OpenBracket} (count : brackets.length = opened')
    (round : ∀ bracket ∈ brackets, bracket.bracket = '(') :
    ∃ (token : Token) (t : Lexer), { s.unspaced with brackets }.passed kind.spelling.length kind =
      t.queue [token] ∧ token.kind = kind ∧ t.pending = [] ∧ OnLine t follow opened' := by
  refine ⟨_, _, rfl, rfl, h.idle, h.inside, h.idle, h.unfinished, h.outside, h.line, ?_, count, round⟩
  rw [Cursor.rest_advance]
  show s.unspaced.cursor.rest.drop _ = follow
  rw [rest_unspaced, ahead, ← String.length_toList, List.drop_left]

theorem OnLine.bracket (h : OnLine s rest opened) {mark : Punct}
    (nested : nest opened (.punct mark) = some opened') :
    ∃ brackets, s.unspaced.bracket mark = .ok brackets ∧ brackets.length = opened' ∧
      ∀ bracket ∈ brackets, bracket.bracket = '(' := by
  have same : s.unspaced.brackets = s.brackets := rfl
  have count := h.count
  have round := h.round
  unfold nest at nested
  split at nested
  · next opens =>
    cases opens
    cases nested
    refine ⟨_, rfl, by rw [List.length_cons, same, count], ?_⟩
    intro bracket member
    rcases List.mem_cons.mp member with rfl | member
    · rfl
    · exact round bracket member
  · next closes =>
    cases closes
    split at nested
    · cases nested
    · cases nested
      cases brackets : s.brackets with
      | nil => simp_all
      | cons last before =>
        rw [brackets] at count round
        refine ⟨before, ?_, by rw [← count]; rfl, fun bracket member =>
          round bracket (List.mem_cons_of_mem _ member)⟩
        have isRound := round last List.mem_cons_self
        simp [Lexer.bracket, Punct.opens?, Punct.closes?, same, brackets, isRound,
          Punct.closingFor?]
  · next eq =>
    cases eq
    split at nested
    · next none =>
      cases nested
      simp only [Bool.and_eq_true, Option.isNone_iff_eq_none] at none
      exact ⟨s.brackets, by simp only [Lexer.bracket, none, same], count, round⟩
    · cases nested
  · next other => exact absurd rfl (other mark)

theorem OnLine.answers_of_reads (h : OnLine s rest opened) (printed : kind.isPrinted = true)
    (reads : ReadsAs (kind.spelling.toList ++ follow) kind)
    (spelled : rest = kind.spelling.toList ++ follow ∨
      rest = ' ' :: (kind.spelling.toList ++ follow))
    (nested : nest opened kind = some opened') :
    ∃ (token : Token) (t : Lexer), s.answers = t.answers.after [token] ∧ token.kind = kind ∧
      OnLine t follow opened' := by
  obtain ⟨ahead, starts⟩ := h.starts printed spelled
  obtain ⟨brackets, move, count, round⟩ : ∃ brackets : List OpenBracket,
      Move s ({ s.unspaced with brackets }.passed kind.spelling.length kind) ∧
        brackets.length = opened' ∧ ∀ bracket ∈ brackets, bracket.bracket = '(' := by
    rw [← ahead] at reads
    cases reads with
    | @punct mark unread found =>
      obtain ⟨brackets, opens, count, round⟩ := h.bracket nested
      exact ⟨brackets, .punct h.inside h.more starts (unread _) found opens, count, round⟩
    | literal other read =>
      have same : opened = opened' := by
        cases kind with
        | punct mark => exact absurd rfl (other mark)
        | _ => exact Option.some.inj nested
      exact ⟨s.brackets, .literal h.inside h.more starts (read _), h.count.trans same, h.round⟩
  obtain ⟨token, t, handed, same, idle, after⟩ := h.passed ahead count round
  refine ⟨token, t, ?_, same, after⟩
  rw [answers_of_move h.idle h.unfinished move, handed, answers_queue [token] idle]

/-- What is left of a line is read as the tokens, one after the other. -/
theorem OnLine.answers_typed {kinds : List Token.Kind} (typed : Typed kinds rest)
    (h : OnLine s rest opened) (nested : kinds.foldlM nest opened = some opened') :
    ∃ (tokens : List Token) (t : Lexer), s.answers = t.answers.after tokens ∧
      tokens.map Token.kind = kinds ∧ OnLine t ['\n'] opened' := by
  induction typed generalizing s opened with
  | nil =>
    cases nested
    exact ⟨[], s, rfl, rfl, h⟩
  | cons printed reads _ spelled ih =>
    rw [List.foldlM_cons] at nested
    obtain ⟨next, nestedHead, nestedTail⟩ := Option.bind_eq_some_iff.mp nested
    obtain ⟨token, t, first, same, after⟩ := h.answers_of_reads printed reads spelled nestedHead
    obtain ⟨tokens, u, later, spelledTail, last⟩ := ih after nestedTail
    refine ⟨token :: tokens, u, ?_, by rw [List.map_cons, same, spelledTail], last⟩
    rw [first, later]
    rfl

/-! ### The end and the start of the line -/

theorem endLine_of_closed (closed : s.brackets = []) :
    s.endLine = ({ s with lineStart := true, cursor := s.cursor.nextLine } : Lexer).queue
      [{ kind := .newline, text := "\n", pos := s.cursor.position }] := by
  have empty : s.brackets.isEmpty = true := by rw [closed]; rfl
  simp only [endLine, empty, if_true]
  rfl

/-- After the last line that is not empty there is only the end marker. -/
theorem answers_atEnd (idle : s.pending = []) (unfinished : s.finished = false)
    (start : s.lineStart = true) (ended : s.cursor.lines = []) (outside : s.levels = [])
    (closed : s.brackets = []) :
    ∃ (last : Token) (t : Lexer), s.answers = t.answers.after [last] ∧ last.kind = .endMarker := by
  let opened : Lexer := { s with cursor := s.cursor.skipLines 0, lineStart := false }
  have open' : s.openLine = .ok () opened := by
    simp only [openLine, ended, List.takeWhile_nil, List.length_nil]
    exact if_pos (by rw [Cursor.atEnd, Cursor.skipLines, ended]; rfl)
  have still : opened.cursor.lines = [] := ended
  refine ⟨opened.endMarker, { opened with levels := [], finished := true }, ?_, rfl⟩
  rw [answers_of_move idle unfinished (.openLine start open'),
    answers_of_ended (s := opened) idle unfinished rfl still closed,
    show opened.levels = [] from outside]
  rfl

theorem OnLine.answers_end (h : OnLine s ['\n'] 0) :
    ∃ (newline last : Token) (t : Lexer), s.answers = t.answers.after [newline, last] ∧
      newline.kind = .newline ∧ last.kind = .endMarker := by
  have closed : s.unspaced.brackets = [] := List.length_eq_zero_iff.mp h.count
  have ahead : s.ahead = ['\n'] := by rw [Lexer.ahead, h.rest]; rfl
  have move : Move s s.unspaced.endLine := .endLine h.inside h.more (.inr ⟨[], ahead⟩)
  let next : Lexer :=
    { s.unspaced with lineStart := true, cursor := s.unspaced.cursor.nextLine }
  have idle : next.pending = [] := h.idle
  have ended : next.cursor.lines = [] := by
    obtain ⟨line, single⟩ := h.line
    show s.cursor.lines.drop 1 = []
    rw [single]
    rfl
  obtain ⟨last, t, later, isLast⟩ := answers_atEnd idle h.unfinished rfl ended h.outside closed
  refine ⟨{ kind := .newline, text := "\n", pos := s.unspaced.cursor.position }, last, t, ?_, rfl,
    isLast⟩
  rw [answers_of_move h.idle h.unfinished move, endLine_of_closed closed]
  show (next.queue _).answers = _
  rw [answers_queue _ idle, later]
  rfl

theorem onLine_of_start {c : Char} (start : s.lineStart = true) (idle : s.pending = [])
    (unfinished : s.finished = false) (outside : s.levels = []) (closed : s.brackets = [])
    (line : s.cursor.lines = [c :: rest]) (starts : StartsSpelling c) :
    ∃ t, s.answers = t.answers ∧ OnLine t (c :: rest) 0 := by
  obtain ⟨space, notFeed, notComment, -⟩ := starts
  have unspaced : (c :: rest).takeWhile Indentation.isSpace = [] := by
    rw [List.takeWhile_cons, space]
    rfl
  have notEmpty : Indentation.isEmptyLine (c :: rest) = false := by
    rw [Indentation.isEmptyLine, List.dropWhile_cons, space]
    simp [notFeed, notComment]
  let t : Lexer := { s with cursor := (s.cursor.skipLines 0).advance 0, lineStart := false }
  have opened : s.openLine = .ok () t := by
    have empty : s.cursor.lines.takeWhile Indentation.isEmptyLine = [] := by
      rw [line, List.takeWhile_cons, notEmpty]
      rfl
    have here : (s.cursor.skipLines 0).rest = c :: rest := by
      rw [Cursor.rest, Cursor.skipLines, line]
      rfl
    have more : (s.cursor.skipLines 0).atEnd = false := by
      rw [Cursor.atEnd, Cursor.skipLines, line]
      rfl
    simp only [openLine, empty, List.length_nil, more, Bool.false_eq_true, if_false]
    simp [enterLine, here, unspaced, Indentation.width, Indentation.settle, queue, idle, outside, t]
  refine ⟨t, answers_of_move idle unfinished (.openLine start opened), rfl, idle, unfinished,
    outside, ⟨_, line⟩, ?_, by rw [show t.brackets = s.brackets from rfl, closed]; rfl, ?_⟩
  · rw [Cursor.rest, show t.cursor.lines = s.cursor.lines from rfl, line]
    rfl
  · intro bracket member
    rw [show t.brackets = s.brackets from rfl, closed] at member
    cases member

/-- A source of one line is read as the tokens that are typed there. -/
theorem answers_of_line {source : String} {c : Char} {kinds : List Token.Kind}
    (line : Source.lines source = [c :: rest]) (starts : StartsSpelling c) (typed : Typed kinds (c :: rest))
    (nested : kinds.foldlM nest 0 = some 0) (tabSize : UInt64) :
    ∃ (tokens : List Token) (newline last : Token) (t : Lexer),
      (Lexer.ofText source tabSize).answers = (t.answers.after [newline, last]).after tokens ∧
      tokens.map Token.kind = kinds ∧ newline.kind = .newline ∧ last.kind = .endMarker := by
  have first : (Lexer.ofText source tabSize).cursor.lines = [c :: rest] := line
  obtain ⟨t, entered, onLine⟩ := onLine_of_start rfl rfl rfl rfl rfl first starts
  obtain ⟨tokens, u, told, same, onLine⟩ := onLine.answers_typed typed nested
  obtain ⟨newline, last, v, ended, isNewline, isLast⟩ := onLine.answers_end
  refine ⟨tokens, newline, last, v, ?_, same, isNewline, isLast⟩
  rw [entered, told, ended]

end Lexer

end Offside
