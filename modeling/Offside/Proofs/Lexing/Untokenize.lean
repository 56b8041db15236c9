import Offside.Proofs.Lexing.Written

/-!
# Tokens written back

`untokenize` writes tokens as a source of its own, with no more spaces than it takes to tell them
apart. Written tokens are read back up to their places (`Token.Written.read`), so `tokenize` gets from
this source what it got from the one before.
-/

namespace Offside

open Token

/-- The text of tokens where `depth` levels are open, at the start of a line or not. -/
def untokenizeFrom (depth : Nat) (start : Bool) : List Token → List Char
  | [] => []
  | token :: later =>
    match token.kind with
    | .indent => untokenizeFrom (depth + 1) start later
    | .dedent => untokenizeFrom (depth - 1) start later
    | .newline => '\n' :: untokenizeFrom depth true later
    | .endMarker => untokenizeFrom depth start later
    | _ =>
      (if start then List.replicate depth ' ' else [' ']) ++
        (token.text.toList ++ untokenizeFrom depth false later)

/-- The tokens as a source: a line for each logical line, after a space for each open level, with one
space between its tokens. -/
def untokenize (tokens : List Token) : String := String.ofList (untokenizeFrom 0 true tokens)

variable {depth depth' : Nat} {stack : List Char} {start : Bool} {token word : Token}
  {margin tokens later : List Token}

theorem untokenizeFrom_newline (newline : token.content = (.newline, "\n")) :
    untokenizeFrom depth start (token :: later) = '\n' :: untokenizeFrom depth true later := by
  obtain ⟨kind, text, pos⟩ := token
  obtain rfl : kind = .newline := congrArg Prod.fst newline
  rfl

theorem untokenizeFrom_word (isWord : word.IsWord) :
    untokenizeFrom depth start (word :: later) =
      (if start then List.replicate depth ' ' else [' ']) ++
        (word.text.toList ++ untokenizeFrom depth false later) := by
  rw [untokenizeFrom]
  rcases isWord.lexeme.spelled with literal | ⟨mark, same⟩
  · cases kind : word.kind <;> first | rfl | (rw [kind] at literal; cases literal)
  · rw [same]

theorem Token.IsWord.dropWhile (isWord : word.IsWord) (later : List Char) :
    (word.text.toList ++ later).dropWhile Indentation.isSpace = word.text.toList ++ later := by
  obtain ⟨c, rest, spelled, space, -⟩ := isWord.starts
  rw [spelled, List.cons_append, List.dropWhile_cons, space]
  rfl

theorem dropWhile_untokenizeFrom (isWord : word.IsWord) :
    (untokenizeFrom depth start (word :: later)).dropWhile Indentation.isSpace =
      word.text.toList ++ untokenizeFrom depth false later := by
  rw [untokenizeFrom_word isWord, List.dropWhile_append_of_pos, isWord.dropWhile]
  intro c member
  cases start with
  | false => exact (List.mem_singleton.mp member) ▸ rfl
  | true => exact (List.eq_of_mem_replicate member) ▸ rfl

theorem untokenizeFrom_dedents (dedents : ∀ token ∈ tokens, token.content = (.dedent, "")) :
    untokenizeFrom (depth + tokens.length) start (tokens ++ later) =
      untokenizeFrom depth start later := by
  induction tokens with
  | nil => rfl
  | cons token tokens ih =>
    obtain ⟨kind, text, pos⟩ := token
    obtain rfl : kind = .dedent := congrArg Prod.fst (dedents _ List.mem_cons_self)
    exact ih fun token member => dedents token (List.mem_cons_of_mem _ member)

theorem untokenizeFrom_margin (fits : Margin depth depth' margin) :
    untokenizeFrom depth start (margin ++ later) = untokenizeFrom depth' start later := by
  cases fits with
  | @indent _ token indent =>
    obtain ⟨kind, text, pos⟩ := token
    obtain rfl : kind = .indent := congrArg Prod.fst indent
    rfl
  | dedents dedents => exact untokenizeFrom_dedents dedents

theorem untokenizeFrom_ended (dedents : ∀ token ∈ tokens, token.content = (.dedent, ""))
    (last : token.content = (.endMarker, "")) :
    untokenizeFrom tokens.length start (tokens ++ [token]) = [] := by
  have written : untokenizeFrom (0 + tokens.length) start (tokens ++ [token]) =
      untokenizeFrom 0 start [token] := untokenizeFrom_dedents dedents
  rw [Nat.zero_add] at written
  rw [written]
  obtain ⟨kind, text, pos⟩ := token
  obtain rfl : kind = .endMarker := congrArg Prod.fst last
  rfl

theorem map_content_dedents (dedents : ∀ token ∈ tokens, token.content = (.dedent, "")) :
    tokens.map content = List.replicate tokens.length (.dedent, "") := by
  refine List.eq_replicate_iff.mpr ⟨List.length_map _, fun entry member => ?_⟩
  obtain ⟨token, inside, rfl⟩ := List.mem_map.mp member
  exact dedents token inside

namespace Token.Written

theorem startsBlank (written : Written depth stack false tokens) :
    StartsBlank (untokenizeFrom depth false tokens) := by
  cases written with
  | word isWord =>
    rw [untokenizeFrom_word isWord]
    exact ⟨' ', _, rfl, .inl rfl⟩
  | newline newline =>
    rw [untokenizeFrom_newline newline]
    exact ⟨'\n', _, rfl, .inr rfl⟩

theorem ends (written : Written depth stack start tokens) :
    start = true ∧ untokenizeFrom depth start tokens = [] ∨
      ['\n'] <:+ untokenizeFrom depth start tokens := by
  induction written with
  | ended dedents last => exact .inl ⟨rfl, untokenizeFrom_ended dedents last⟩
  | line fits isWord _ ih =>
    have last := ih.resolve_left nofun
    rw [untokenizeFrom_word isWord] at last
    rw [untokenizeFrom_margin fits, untokenizeFrom_word isWord]
    exact .inr (List.suffix_append_of_suffix ((List.suffix_cons_iff.mp last).resolve_left nofun))
  | word isWord _ _ ih =>
    have last := ih.resolve_left nofun
    rw [untokenizeFrom_word isWord]
    exact .inr (List.suffix_append_of_suffix (List.suffix_append_of_suffix last))
  | newline newline _ ih =>
    rw [untokenizeFrom_newline newline]
    rcases ih with ⟨-, none⟩ | last
    · rw [none]
      exact .inr (List.suffix_refl _)
    · exact .inr (last.trans (List.suffix_cons _ _))

theorem plain (written : Written depth stack start tokens) :
    '\r' ∉ untokenizeFrom depth start tokens := by
  induction written with
  | ended dedents last =>
    rw [untokenizeFrom_ended dedents last]
    exact List.not_mem_nil
  | line fits isWord _ ih =>
    rw [untokenizeFrom_word isWord] at ih
    rw [untokenizeFrom_margin fits, untokenizeFrom_word isWord]
    intro member
    rcases List.mem_append.mp member with space | member
    · cases List.eq_of_mem_replicate space
    · exact ih (List.mem_append_right _ member)
  | word isWord _ _ ih =>
    rw [untokenizeFrom_word isWord]
    simp [isWord.plain, ih]
  | newline newline _ ih =>
    rw [untokenizeFrom_newline newline]
    simpa using ih

end Token.Written

/-! ### The levels of a written text -/

namespace Indentation

/-- The widths of `depth` levels that are a space apart. -/
def rungs : Nat → List UInt64
  | 0 => []
  | depth + 1 => .ofNat (depth + 1) :: rungs depth

theorem length_rungs (depth : Nat) : (rungs depth).length = depth := by
  induction depth with
  | zero => rfl
  | succ depth ih => rw [rungs, List.length_cons, ih]

theorem headD_rungs (depth : Nat) : (rungs depth).headD 0 = .ofNat depth := by
  cases depth <;> rfl

theorem width_replicate (tabSize : UInt64) (depth : Nat) :
    width tabSize (List.replicate depth ' ') = .ofNat depth := by
  induction depth with
  | zero => rfl
  | succ depth ih =>
    rw [List.replicate_succ', width, List.foldl_concat, ← width, ih, UInt64.ofNat_add]
    rfl

theorem ofNat_lt {m n : Nat} (lt : m < n) (bound : n < UInt64.size) :
    UInt64.ofNat m < UInt64.ofNat n := by
  rw [UInt64.lt_iff_toNat_lt, UInt64.toNat_ofNat_of_lt' bound,
    UInt64.toNat_ofNat_of_lt' (Nat.lt_trans lt bound)]
  exact lt

theorem span_rungs {depth count : Nat} (bound : depth + count < UInt64.size) :
    ((rungs (depth + count)).takeWhile (UInt64.ofNat depth < ·)).length = count ∧
      (rungs (depth + count)).dropWhile (UInt64.ofNat depth < ·) = rungs depth := by
  induction count with
  | zero =>
    cases depth with
    | zero => exact ⟨rfl, rfl⟩
    | succ depth => simp [rungs]
  | succ count ih =>
    have above : UInt64.ofNat depth < UInt64.ofNat (depth + count + 1) :=
      ofNat_lt (by omega) bound
    obtain ⟨taken, left⟩ := ih (by omega)
    rw [← Nat.add_assoc, rungs, List.takeWhile_cons, List.dropWhile_cons]
    simp only [above, decide_true, if_true, List.length_cons, taken, left, and_self]

theorem settle_rungs (fits : Margin depth depth' margin) (pos : Position) :
    (settle (rungs depth) (.ofNat depth') pos).levels = rungs depth' ∧
      (settle (rungs depth) (.ofNat depth') pos).mismatch = none ∧
      (settle (rungs depth) (.ofNat depth') pos).tokens.map content = margin.map content := by
  cases fits with
  | indent indent bound =>
    have wider : (rungs depth).headD 0 < UInt64.ofNat (depth + 1) := by
      rw [headD_rungs]
      exact ofNat_lt (Nat.lt_succ_self depth) bound
    unfold settle
    dsimp only
    rw [if_pos wider, List.map_singleton, List.map_singleton, indent]
    exact ⟨rfl, rfl, rfl⟩
  | dedents dedents bound =>
    obtain ⟨taken, left⟩ := span_rungs bound
    have narrower : ¬(rungs (depth' + margin.length)).headD 0 < UInt64.ofNat depth' := by
      rw [headD_rungs, UInt64.lt_iff_toNat_lt, UInt64.toNat_ofNat_of_lt' bound,
        UInt64.toNat_ofNat_of_lt' (by omega)]
      omega
    unfold settle
    dsimp only
    rw [if_neg narrower]
    dsimp only
    rw [left, headD_rungs, if_pos rfl, map_content_dedents dedents, map_content_dedents, List.length_map,
      taken]
    · exact ⟨rfl, rfl, rfl⟩
    · intro token member
      obtain ⟨_, -, rfl⟩ := List.mem_map.mp member
      rfl

end Indentation

/-! ### Reading a written text -/

namespace Lexer

variable {s : Lexer} {chars later : List Char}

theorem Steady.onward_dropWhile (steady : s.Steady) :
    s.unspaced.cursor.onward = s.cursor.onward.dropWhile Indentation.isSpace := by
  by_cases more : s.cursor.lines = []
  · rw [onward_of_ended more, onward_of_ended (s := s.unspaced) more]
    rfl
  · obtain ⟨body, ahead, -⟩ := steady.ahead more
    have filled : (s.cursor.rest.dropWhile Indentation.isSpace).isEmpty = false := by
      rw [← Lexer.ahead, ahead]
      cases body <;> rfl
    rw [Cursor.onward, Cursor.onward, List.dropWhile_append, filled, rest_unspaced]
    rfl

theorem more_of_shown (some : s.cursor.onward.dropWhile Indentation.isSpace ≠ []) :
    s.cursor.lines ≠ [] :=
  more_of_onward fun none => some (by rw [none]; rfl)

/-- Characters that are ahead of the lexer are ahead of it on its line. -/
theorem Steady.ahead_of_text (steady : s.Steady) (more : s.cursor.lines ≠ []) (flat : '\n' ∉ chars)
    (text : s.cursor.onward.dropWhile Indentation.isSpace = chars ++ later) :
    ∃ body, s.ahead = chars ++ (body ++ ['\n']) ∧ '\n' ∉ body ∧
      later = body ++ '\n' :: s.cursor.nextLine.onward := by
  obtain ⟨body, ahead, flat'⟩ := steady.ahead more
  rw [← steady.onward_dropWhile, s.unspaced.cursor.onward_nextLine, rest_unspaced, ahead,
    List.append_assoc] at text
  rcases List.append_eq_append_iff.mp text with ⟨extra, split, rest⟩ | ⟨extra, split, rest⟩
  · cases extra with
    | nil =>
      rw [List.append_nil] at split
      exact ⟨[], by rw [ahead, split]; rfl, List.not_mem_nil, rest.symm⟩
    | cons c extra =>
      -- Here the word would go past the end of its line.
      obtain rfl : '\n' = c := (List.cons.inj rest).1
      exact absurd (split ▸ List.mem_append_right body List.mem_cons_self) flat
  · refine ⟨extra, by rw [ahead, split, List.append_assoc], fun member => ?_, rest⟩
    exact flat' (split ▸ List.mem_append_right chars member)

theorem Steady.follow (steady : s.Steady) (more : s.cursor.lines ≠ []) (flat : '\n' ∉ chars)
    (text : s.cursor.onward.dropWhile Indentation.isSpace = chars ++ later) :
    ∃ follow, s.ahead = chars ++ follow ∧ (StartsBlank later → StartsBlank follow) := by
  obtain ⟨body, ahead, -, rfl⟩ := steady.ahead_of_text more flat text
  refine ⟨body ++ ['\n'], ahead, ?_⟩
  rintro ⟨c, rest, same, blank⟩
  cases body with
  | nil => exact ⟨'\n', [], rfl, .inr rfl⟩
  | cons d body =>
    obtain rfl : d = c := (List.cons.inj same).1
    exact ⟨d, body ++ ['\n'], rfl, blank⟩

theorem Steady.skipped_of_filled (steady : s.Steady) (start : s.cursor.column = 0)
    (more : s.cursor.lines ≠ []) (filled : ¬EndsLine s.ahead) :
    s.skipped = { s with lineStart := false } := by
  obtain ⟨line, later, lines⟩ := List.exists_cons_of_ne_nil more
  obtain ⟨body, ahead, -⟩ := steady.ahead more
  have here : line.dropWhile Indentation.isSpace = s.ahead := by
    rw [Lexer.ahead, Cursor.rest, lines, start]
    rfl
  have isFilled : Indentation.isEmptyLine line = false := by
    refine Bool.eq_false_iff.mpr fun empty => ?_
    rcases isEmptyLine_iff.mp empty with none | ends
    · rw [here, ahead] at none
      exact List.concat_ne_nil '\n' body none
    · exact filled (here ▸ ends)
  have none : s.cursor.lines.takeWhile Indentation.isEmptyLine = [] := by
    rw [lines, List.takeWhile_cons, isFilled]
    rfl
  rw [Lexer.skipped, none, List.length_nil, Cursor.skipLines_zero start]

/-- A lexer that stands before the text of these tokens. -/
structure Faces (s : Lexer) (depth : Nat) (stack : List Char) (start : Bool) (tokens : List Token) :
    Prop where
  steady : s.Steady
  levels : s.levels = Indentation.rungs depth
  brackets : s.brackets.map (·.bracket) = stack
  lineStart : s.lineStart = start
  -- Within a line the space before a word may be ahead of the lexer or not.
  text : if start then s.cursor.onward = untokenizeFrom depth true tokens
    else s.cursor.onward.dropWhile Indentation.isSpace =
      (untokenizeFrom depth false tokens).dropWhile Indentation.isSpace

namespace Faces

variable {t : Lexer}

theorem finish {dedents : List Token} {last : Token}
    (faces : s.Faces dedents.length [] true (dedents ++ [last]))
    (kinds : ∀ token ∈ dedents, token.content = (.dedent, "")) (isLast : last.content = (.endMarker, "")) :
    ∃ t, Turn s [] t ∧ t.Ended ∧ t.closing.map content = (dedents ++ [last]).map content := by
  have text : s.cursor.onward = _ := faces.text
  rw [untokenizeFrom_ended kinds isLast] at text
  have none : s.cursor.lines = [] := by
    by_contra more
    exact faces.steady.within more (List.append_eq_nil_iff.mp text).1
  have passed : s.skipped.cursor.lines = [] := by
    rw [lines_skipped, none]
    rfl
  refine ⟨s.skipped, .blank faces.lineStart passed, ⟨rfl, passed, List.map_eq_nil_iff.mp faces.brackets⟩, ?_⟩
  rw [List.map_append, map_content_dedents kinds, closing, List.map_append,
    map_content_dedents (content_dedents _), length_dedents]
  show List.replicate s.levels.length _ ++ _ = _
  rw [faces.levels, Indentation.length_rungs, List.map_singleton, List.map_singleton, isLast]
  rfl

theorem endLine (faces : s.Faces depth [] false (token :: tokens))
    (isNewline : token.content = (.newline, "\n")) :
    ∃ handed t, Turn s [handed] t ∧ handed.content = token.content ∧ t.Faces depth [] true tokens := by
  have text : s.cursor.onward.dropWhile Indentation.isSpace = _ := faces.text
  rw [untokenizeFrom_newline isNewline] at text
  have more : s.cursor.lines ≠ [] := more_of_shown (by rw [text]; exact List.cons_ne_nil _ _)
  obtain ⟨body, ahead, flat⟩ := faces.steady.ahead more
  have onward : s.unspaced.cursor.onward = '\n' :: untokenizeFrom depth true tokens := by
    rw [faces.steady.onward_dropWhile, text]
    rfl
  rw [Cursor.onward_nextLine, rest_unspaced, ahead] at onward
  have none : body = [] := by
    cases body with
    | nil => rfl
    | cons c body =>
      obtain rfl : c = '\n' := (List.cons.inj onward).1
      exact absurd List.mem_cons_self flat
  rw [none] at ahead onward
  have turn : Turn s _ _ := .newline faces.lineStart more ⟨'\n', [], ahead, .inl rfl⟩
    (List.map_eq_nil_iff.mp faces.brackets)
  exact ⟨_, _, turn, isNewline.symm, turn.steady faces.steady, faces.levels, faces.brackets, rfl,
    (List.cons.inj onward).2⟩

theorem readWord (faces : s.Faces depth stack false (word :: tokens)) (isWord : word.IsWord)
    {stack' : List Char} (goes : word.kind.nesting stack = some stack')
    (blank : StartsBlank (untokenizeFrom depth false tokens)) :
    ∃ handed t, Turn s [handed] t ∧ handed.content = word.content ∧ t.Faces depth stack' false tokens := by
  have text : s.cursor.onward.dropWhile Indentation.isSpace = _ := faces.text
  rw [dropWhile_untokenizeFrom isWord] at text
  obtain ⟨c, rest, spelled, -, notFeed, notComment, notJoin⟩ := isWord.starts
  have more : s.cursor.lines ≠ [] :=
    more_of_shown (text ▸ List.append_ne_nil_of_left_ne_nil isWord.lexeme.nonempty _)
  obtain ⟨follow, ahead, ends⟩ := faces.steady.follow more isWord.lexeme.flat text
  obtain ⟨brackets, done, opened⟩ := bracketed_of_nesting (s := s.unspaced) (faces.brackets ▸ goes)
  have starts : StartsToken s.ahead :=
    ⟨c, rest ++ follow, by rw [ahead, spelled]; rfl, notFeed, notComment, notJoin⟩
  have read : lexeme? s.unspaced.cursor.position s.ahead =
      some (.ok word.text.toList.length word.kind) := by
    rw [ahead]
    exact isWord.lexeme.read _ follow (ends blank)
  have turn : Turn s _ _ := .token faces.lineStart more starts read done
  refine ⟨_, _, turn, ?_, turn.steady faces.steady, faces.levels, opened, faces.lineStart, ?_⟩
  · rw [content, content, ahead, List.take_left, String.ofList_toList]
  · have passed := s.unspaced.cursor.onward_advance word.text.toList.length
    rw [faces.steady.onward_dropWhile, text, rest_unspaced, ahead, List.take_left] at passed
    rw [if_neg Bool.false_ne_true, List.append_cancel_left passed]

theorem enterLine (faces : s.Faces depth [] true (margin ++ word :: tokens))
    (fits : Margin depth depth' margin) (isWord : word.IsWord) :
    ∃ handed t, Turn s handed t ∧ handed.map content = margin.map content ∧
      t.Faces depth' [] false (word :: tokens) := by
  have text : s.cursor.onward = _ := faces.text
  rw [untokenizeFrom_margin fits] at text
  have passed := congrArg (List.dropWhile Indentation.isSpace) text
  rw [dropWhile_untokenizeFrom isWord] at passed
  obtain ⟨c, rest, spelled, -, notFeed, notComment, -⟩ := isWord.starts
  have more : s.cursor.lines ≠ [] :=
    more_of_shown (passed ▸ List.append_ne_nil_of_left_ne_nil isWord.lexeme.nonempty _)
  obtain ⟨follow, ahead, -⟩ := faces.steady.follow more isWord.lexeme.flat passed
  have spaces : s.cursor.rest.takeWhile Indentation.isSpace = List.replicate depth' ' ' := by
    rw [onward_unspaced, faces.steady.onward_dropWhile, passed, untokenizeFrom_word isWord,
      if_pos rfl] at text
    exact List.append_cancel_right text
  have skipped : s.skipped = { s with lineStart := false } := by
    refine faces.steady.skipped_of_filled (faces.steady.start faces.lineStart).2 more ?_
    rintro ⟨d, later, found, ends⟩
    obtain rfl : c = d := by
      rw [ahead, spelled] at found
      exact (List.cons.inj found).1
    exact ends.elim notFeed notComment
  have settled : s.skipped.settled =
      Indentation.settle (Indentation.rungs depth) (.ofNat depth') s.unspaced.cursor.position := by
    rw [skipped, ← faces.levels, ← Indentation.width_replicate s.tabSize, ← spaces]
    rfl
  obtain ⟨levels, mismatch, handed⟩ := Indentation.settle_rungs fits s.unspaced.cursor.position
  rw [← settled] at levels mismatch handed
  have turn : Turn s _ _ := .enter faces.lineStart (by rw [skipped]; exact more) mismatch
  refine ⟨_, _, turn, handed, turn.steady faces.steady, levels, faces.brackets, rfl, ?_⟩
  have onward : s.skipped.unspaced.cursor.onward = s.unspaced.cursor.onward := by rw [skipped]; rfl
  rw [if_neg Bool.false_ne_true, onward, faces.steady.onward_dropWhile, passed,
    dropWhile_untokenizeFrom isWord, isWord.dropWhile]

theorem run (faces : s.Faces depth stack start tokens) (written : Written depth stack start tokens) :
    ∃ front t, Run s front t ∧ t.Ended ∧ (front ++ t.closing).map content = tokens.map content := by
  induction written generalizing s with
  | ended kinds isLast =>
    obtain ⟨t, turn, ended, same⟩ := faces.finish kinds isLast
    exact ⟨_, t, .step turn (.refl t), ended, same⟩
  | line fits isWord _ ih =>
    obtain ⟨handed, t, turn, same, faces⟩ := faces.enterLine fits isWord
    obtain ⟨front, u, run, ended, rest⟩ := ih faces
    refine ⟨handed ++ front, u, .step turn run, ended, ?_⟩
    rw [List.append_assoc, List.map_append, same, rest, ← List.map_append]
  | word isWord goes written ih =>
    obtain ⟨handed, t, turn, same, faces⟩ := faces.readWord isWord goes written.startsBlank
    obtain ⟨front, u, run, ended, rest⟩ := ih faces
    refine ⟨handed :: front, u, .step turn run, ended, ?_⟩
    rw [List.cons_append, List.map_cons, same, rest, List.map_cons]
  | newline isNewline _ ih =>
    obtain ⟨handed, t, turn, same, faces⟩ := faces.endLine isNewline
    obtain ⟨front, u, run, ended, rest⟩ := ih faces
    refine ⟨handed :: front, u, .step turn run, ended, ?_⟩
    rw [List.cons_append, List.map_cons, same, rest, List.map_cons]

end Faces

end Lexer

/-- Written tokens are read back, but for their places. -/
theorem Token.Written.read (written : Written 0 [] true tokens) (tabSize : UInt64) :
    ∃ again, tokenize (untokenize tokens) tabSize = .ok again ∧
      again.map content = tokens.map content := by
  have text : (Lexer.ofText (untokenize tokens) tabSize).cursor.onward =
      untokenizeFrom 0 true tokens := by
    rw [Cursor.onward_of_start rfl]
    show (Source.splitLines (Source.normalize (String.ofList _).toList)).flatten = _
    rw [String.toList_ofList, Source.normalize_of_flat written.plain,
      Source.flatten_splitLines (written.ends.imp_left And.right)]
  have faces : (Lexer.ofText (untokenize tokens) tabSize).Faces 0 [] true tokens :=
    ⟨Lexer.steady_ofText _ tabSize, rfl, rfl, rfl, text⟩
  obtain ⟨front, t, run, ended, same⟩ := faces.run written
  exact ⟨_, tokenize_eq_ok_iff.mpr ⟨front, t, run, ended, rfl⟩, same⟩

/-! ### Texts and kinds -/

namespace Lexer

/-- A token without text, a NEWLINE, or the characters of a lexeme. -/
def Spelled (token : Token) : Prop :=
  token.text = "" ∨ token.content = (.newline, "\n") ∨ IsLexeme token.text.toList token.kind

theorem Turn.spelled {s t : Lexer} (turn : Turn s tokens t) : ∀ token ∈ tokens, Spelled token := by
  cases turn with
  | enter => exact fun _ member => .inl (Indentation.mem_settle member).2
  | newline => exact List.forall_mem_singleton.mpr (.inr (.inl rfl))
  | token _ _ _ read _ =>
    obtain ⟨chars, rest, split, rfl, lexeme⟩ := lexeme_of_read read
    refine List.forall_mem_singleton.mpr (.inr (.inr ?_))
    rwa [split, List.take_left, String.toList_ofList]
  | _ => exact fun _ member => absurd member List.not_mem_nil

theorem Run.spelled {s t : Lexer} (run : Run s tokens t) : ∀ token ∈ tokens, Spelled token := by
  induction run with
  | refl => exact fun _ member => absurd member List.not_mem_nil
  | step turn _ ih =>
    intro token member
    rcases List.mem_append.mp member with member | member
    · exact turn.spelled token member
    · exact ih token member

theorem Spelled.kind_eq {token token' : Token} (spelled : Spelled token) (spelled' : Spelled token')
    (same : token.text = token'.text) (some : token.text ≠ "") : token.kind = token'.kind := by
  have apart : ∀ {token : Token}, token.content = (.newline, "\n") →
      ∀ kind, ¬IsLexeme token.text.toList kind := by
    intro token newline kind lexeme
    have text : token.text = "\n" := congrArg Prod.snd newline
    exact lexeme.flat (by rw [text]; exact List.mem_cons_self)
  rcases spelled.resolve_left some with newline | lexeme
  · rcases spelled'.resolve_left (same ▸ some) with newline' | lexeme'
    · exact (congrArg Prod.fst newline).trans (congrArg Prod.fst newline').symm
    · exact absurd (same ▸ lexeme') (apart newline _)
  · rcases spelled'.resolve_left (same ▸ some) with newline' | lexeme'
    · exact absurd (same ▸ lexeme) (apart newline' _)
    · exact lexeme.kind_eq (same ▸ lexeme')

end Lexer

theorem spelled_of_tokenize {source : String} {tabSize : UInt64}
    (done : tokenize source tabSize = .ok tokens) : ∀ token ∈ tokens, Lexer.Spelled token := by
  obtain ⟨front, t, run, -, rfl⟩ := tokenize_eq_ok_iff.mp done
  intro token member
  rcases List.mem_append.mp member with member | member
  · exact run.spelled token member
  · exact .inl (Lexer.mem_closing member).2

/-- Tokens are read back from the source that `untokenize` writes, but for their places. What a text
is read as does not depend on the source it stands in. -/
theorem tokenize_untokenize {source : String} {tabSize : UInt64}
    (unjoined : ∀ line ∈ Source.lines source, ¬['\\', '\n'] <:+ line)
    (done : tokenize source tabSize = .ok tokens) :
    (∀ tabSize', ∃ again, tokenize (untokenize tokens) tabSize' = .ok again ∧
      again.map content = tokens.map content) ∧
    ∀ source' tabSize' tokens', tokenize source' tabSize' = .ok tokens' →
      ∀ token ∈ tokens, ∀ token' ∈ tokens', token.text = token'.text → token.text ≠ "" →
        token.kind = token'.kind := by
  refine ⟨(written_of_tokenize unjoined done).read, ?_⟩
  intro source' tabSize' tokens' done' token member token' member' same some
  exact (spelled_of_tokenize done token member).kind_eq
    (spelled_of_tokenize done' token' member') same some

/-- A condition over two lines, with a comment, and a block. -/
theorem tokenize_untokenize_block : ∃ tokens, tokenize "if f(x\n  ,'a'):  # note\n\ty\n" 8 = .ok tokens ∧
    untokenize tokens = "if f ( x , 'a' ) :\n y\n" ∧
    ∀ tabSize', ∃ again, tokenize (untokenize tokens) tabSize' = .ok again ∧
      again.map content = tokens.map content := by
  have unjoined : ∀ line ∈ Source.lines "if f(x\n  ,'a'):  # note\n\ty\n", ¬['\\', '\n'] <:+ line := by
    decide +kernel
  have done : tokenize "if f(x\n  ,'a'):  # note\n\ty\n" 8 = .ok [
      ⟨.keyword .ifWord, "if", ⟨1, 1⟩⟩, ⟨.identifier "f", "f", ⟨1, 4⟩⟩,
      ⟨.punct .leftParen, "(", ⟨1, 5⟩⟩, ⟨.identifier "x", "x", ⟨1, 6⟩⟩, ⟨.punct .comma, ",", ⟨2, 3⟩⟩,
      ⟨.str "a", "'a'", ⟨2, 4⟩⟩, ⟨.punct .rightParen, ")", ⟨2, 7⟩⟩, ⟨.punct .colon, ":", ⟨2, 8⟩⟩,
      ⟨.newline, "\n", ⟨2, 17⟩⟩, ⟨.indent, "", ⟨3, 2⟩⟩, ⟨.identifier "y", "y", ⟨3, 2⟩⟩,
      ⟨.newline, "\n", ⟨3, 3⟩⟩, ⟨.dedent, "", ⟨4, 1⟩⟩, ⟨.endMarker, "", ⟨4, 1⟩⟩] := by decide +kernel
  exact ⟨_, done, by decide +kernel, (tokenize_untokenize unjoined done).1⟩

end Offside
