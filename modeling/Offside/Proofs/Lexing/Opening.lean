import Mathlib.Data.List.Chain
import Offside.Proofs.Lexing.Closing

/-!
# What stands behind an INDENT

A block is not closed by the token behind the one that opens it, with one exception: its first line
is joined to a next one by a backslash, and there is no next one. `tokenize_spaced_iff` says so of all
sources.
-/

namespace Offside

namespace Token

variable {first second : List Token}

/-- The last token opens a block. -/
def OpensLast (tokens : List Token) : Prop := ∃ token ∈ tokens.getLast?, token.kind = .indent

/-- No INDENT is followed by a DEDENT at once. -/
def Spaced (tokens : List Token) : Prop :=
  tokens.IsChain fun token next => token.kind = .indent → next.kind ≠ .dedent

theorem spaced_append : Spaced (first ++ second) ↔ Spaced first ∧ Spaced second ∧
    (OpensLast first → ∀ token ∈ second.head?, token.kind ≠ .dedent) := by
  rw [Spaced, List.isChain_append]
  refine and_congr_right fun _ => and_congr_right fun _ => ⟨?_, ?_⟩
  · intro apart opens
    obtain ⟨token, last, kind⟩ := opens
    exact fun next head => apart token last next head kind
  · exact fun apart token last next head kind => apart ⟨token, last, kind⟩ next head

theorem opensLast_concat {token : Token} : OpensLast (first ++ [token]) ↔ token.kind = .indent := by
  rw [OpensLast, List.getLast?_concat]
  exact ⟨fun ⟨_, same, kind⟩ => Option.mem_some.mp same ▸ kind, fun kind => ⟨token, rfl, kind⟩⟩

theorem EndLine.not_opensLast (ends : EndLine first) : ¬OpensLast first := by
  rcases ends with rfl | ⟨front, newline, rfl, kind⟩
  · rintro ⟨_, last, -⟩
    cases last
  · rw [opensLast_concat, kind]
    exact nofun

theorem spaced_of_all {kind : Kind} {tokens : List Token} (all : ∀ token ∈ tokens, token.kind = kind) :
    Spaced tokens := by
  induction tokens with
  | nil => exact .nil
  | cons token tokens ih =>
    obtain ⟨here, rest⟩ := List.forall_mem_cons.mp all
    refine List.isChain_cons.mpr ⟨fun next head opens closes => ?_, ih rest⟩
    rw [rest next (List.mem_of_mem_head? head), ← here, opens] at closes
    cases closes

end Token

namespace Lexer

open Token

variable {s t : Lexer} {source : String} {tabSize : UInt64} {before tokens : List Token}

/-- Right behind an INDENT the lexer comes to a backslash at the end of the last line. -/
def EndsBare (source : String) (tabSize : UInt64) : Prop :=
  ∃ before s, Run (.ofText source tabSize) before s ∧ OpensLast before ∧ s.lineStart = false ∧
    s.ahead = ['\\', '\n'] ∧ s.cursor.nextLine.lines = []

/-- The tokens handed out so far and the lexer after them. Behind an INDENT nothing but blanks has
been passed on the current line. -/
structure Opening (source : String) (tabSize : UInt64) (before : List Token) (s : Lexer) : Prop where
  run : Run (.ofText source tabSize) before s
  spaced : Spaced before
  closed : OpensLast before → s.brackets = []
  bare : OpensLast before → s.ahead = (s.cursor.lines.headD []).dropWhile Indentation.isSpace
  ended : OpensLast before → s.cursor.lines = [] → EndsBare source tabSize

theorem opening_ofText (source : String) (tabSize : UInt64) :
    Opening source tabSize [] (ofText source tabSize) := by
  have none : ¬OpensLast [] := EndLine.not_opensLast (.inl rfl)
  exact ⟨.refl _, .nil, fun opens => absurd opens none, fun opens => absurd opens none,
    fun opens => absurd opens none⟩

theorem spaced_settled (s : Lexer) : Spaced s.settled.tokens := by
  rcases s.settled_cases with ⟨indent, single, -⟩ | dedents
  · rw [single]
    exact .singleton indent
  · exact spaced_of_all dedents

theorem Turn.opening (turn : Turn s tokens t) (opening : Opening source tabSize before s) :
    Opening source tabSize (before ++ tokens) t := by
  have steady := opening.run.steady (steady_ofText source tabSize)
  have shaped := opening.run.shaped (steady_ofText source tabSize) (shaped_ofText source tabSize)
  have run := opening.run.concat turn
  -- A token that is no INDENT ends what is said of those that are.
  have other : ∀ token : Token, token.kind ≠ .indent → token.kind ≠ .dedent →
      Run (.ofText source tabSize) (before ++ [token]) t →
      Opening source tabSize (before ++ [token]) t := by
    intro token notIndent notDedent run
    have none : ¬OpensLast (before ++ [token]) := fun opens => notIndent (opensLast_concat.mp opens)
    refine ⟨run, spaced_append.mpr ⟨opening.spaced, .singleton token, fun _ next head => ?_⟩,
      fun opens => absurd opens none, fun opens => absurd opens none, fun opens => absurd opens none⟩
    rwa [← Option.some.inj head]
  cases turn with
  | blank start =>
    have none := EndLine.not_opensLast (shaped.start start)
    rw [List.append_nil] at run ⊢
    exact ⟨run, opening.spaced, fun opens => absurd opens none, fun opens => absurd opens none,
      fun opens => absurd opens none⟩
  | enter start more =>
    have none := EndLine.not_opensLast (shaped.start start)
    obtain ⟨line, later, split⟩ := List.exists_cons_of_ne_nil more
    have bare : s.skipped.unspaced.ahead =
        (s.skipped.cursor.lines.headD []).dropWhile Indentation.isSpace := by
      rw [ahead_unspaced, ahead, rest_skipped split, split, List.headD_cons]
    exact ⟨run, spaced_append.mpr ⟨opening.spaced, s.skipped.spaced_settled,
      fun opens => absurd opens none⟩, fun _ => (steady.start start).1, fun _ => bare,
      fun _ ended => absurd ended more⟩
  | newline =>
    have plain : Kind.newline ≠ .indent ∧ Kind.newline ≠ .dedent := by decide
    exact other _ plain.1 plain.2 run
  | fold _ _ _ open' =>
    have none : ¬OpensLast before := fun opens => open' (opening.closed opens)
    rw [List.append_nil] at run ⊢
    exact ⟨run, opening.spaced, fun opens => absurd opens none, fun opens => absurd opens none,
      fun opens => absurd opens none⟩
  | join inside more found =>
    rw [List.append_nil] at run ⊢
    exact ⟨run, opening.spaced, opening.closed, fun _ => rfl, fun opens ended =>
      ⟨before, s, opening.run, opens, inside, steady.ahead_join more found, ended⟩⟩
  | @token taken kind _ _ _ _ read =>
    obtain ⟨_, _, _, _, lexeme⟩ := lexeme_of_read read
    have layout := lexeme.not_layout
    refine other _ ?_ ?_ run
    · rintro rfl
      cases layout
    · rintro rfl
      cases layout

theorem Run.opening (run : Run s tokens t) (opening : Opening source tabSize before s) :
    Opening source tabSize (before ++ tokens) t := by
  induction run generalizing before with
  | refl =>
    rw [List.append_nil]
    exact opening
  | step turn _ ih =>
    rw [← List.append_assoc]
    exact ih (turn.opening opening)

theorem opening_of_run (run : Run (.ofText source tabSize) before s) :
    Opening source tabSize before s := by
  have opening := run.opening (opening_ofText source tabSize)
  rwa [List.nil_append] at opening

/-- The last line of such a source is made of blanks and a backslash. -/
theorem EndsBare.last_line (bare : EndsBare source tabSize) :
    ∃ line, (Source.lines source).getLast? = some line ∧
      line.dropWhile Indentation.isSpace = ['\\', '\n'] := by
  obtain ⟨before, s, run, opens, -, ahead, ended⟩ := bare
  obtain ⟨line, split, last⟩ := last_line_of_run run (more_of_ahead (by rw [ahead]; exact nofun)) ended
  have blanks := (opening_of_run run).bare opens
  rw [ahead, split, List.headD_cons] at blanks
  exact ⟨line, last, blanks.symm⟩

/-- Behind an INDENT a level is open. -/
theorem levels_of_opensLast (run : Run (.ofText source tabSize) before s) (opens : OpensLast before) :
    s.levels ≠ [] := by
  have shaped := run.shaped (steady_ofText source tabSize) (shaped_ofText source tabSize)
  rw [List.nil_append] at shaped
  obtain ⟨indent, last, kind⟩ := opens
  obtain ⟨front, rfl⟩ := List.getLast?_eq_some_iff.mp last
  have le := dedents_le_indents shaped.fits (List.prefix_append front [indent])
  have levels := shaped.levels
  have one : occurrences .indent [indent] = 1 := occurrences_of_all (by simpa using kind)
  have zero : occurrences .dedent [indent] = 0 := occurrences_of_none (by simp [kind])
  rw [occurrences_append, occurrences_append, one, zero] at levels
  intro empty
  rw [empty, List.length_nil] at levels
  omega

theorem spaced_closing (s : Lexer) : Spaced s.closing := by
  refine spaced_append.mpr ⟨spaced_of_all fun token member => (mem_dedents member).1,
    .singleton s.endMarker, fun _ next head => ?_⟩
  rw [← Option.some.inj head]
  exact nofun

theorem head_closing (some : s.levels ≠ []) : ∃ token ∈ s.closing.head?, token.kind = .dedent := by
  obtain ⟨level, levels, split⟩ := List.exists_cons_of_ne_nil some
  rw [closing, dedents, split]
  exact ⟨_, rfl, rfl⟩

/-- The tokens that close a source come at once behind an INDENT. -/
theorem EndsBare.not_spaced (bare : EndsBare source tabSize)
    (done : tokenize source tabSize = .ok tokens) : ¬Spaced tokens := by
  obtain ⟨before, s, run, opens, inside, ahead, ended⟩ := bare
  have more : s.cursor.lines ≠ [] := more_of_ahead (by rw [ahead]; exact nofun)
  have joins := run.concat (.join inside more ahead)
  rw [List.append_nil] at joins
  have whole := closed_of_done joins inside ended done
  have same := tokenize_eq_ok_iff.mpr ⟨before, _, joins, whole, rfl⟩
  rw [done] at same
  rw [Except.ok.inj same, spaced_append]
  intro apart
  have some := levels_of_opensLast run opens
  obtain ⟨dedent, head, closes⟩ := @head_closing { s with cursor := s.cursor.nextLine } some
  exact apart.2.2 opens dedent head closes

end Lexer

/-- Only a source that ends with a backslash right behind an INDENT has an INDENT with a DEDENT right
behind it. -/
theorem tokenize_spaced_iff {source : String} {tabSize : UInt64} {tokens : List Token}
    (done : tokenize source tabSize = .ok tokens) :
    Token.Spaced tokens ↔ ¬Lexer.EndsBare source tabSize := by
  refine ⟨fun spaced bare => bare.not_spaced done spaced, fun other => ?_⟩
  obtain ⟨before, t, run, ended, rfl⟩ := tokenize_eq_ok_iff.mp done
  have opening := Lexer.opening_of_run run
  exact Token.spaced_append.mpr ⟨opening.spaced, t.spaced_closing,
    fun opens => absurd (opening.ended opens ended.ended) other⟩

end Offside
